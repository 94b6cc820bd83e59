import CppPractice.Pool.Deques
import CppPractice.Pool.Joins
import CppPractice.Pool.Wakeups
import Mathlib.Logic.Relation

set_option autoImplicit false

namespace CppPractice.WorkStealingThreadPool

variable {c : Config}

-- A step of a worker, and no spurious wakeup.
def Works (s s' : State c) : Prop := ∃ w action, action ≠ .wake ∧ workerStep s w action = some s'

def Action.steady : Action c → Bool
  | .worker _ action => action ≠ .wake
  | _ => false

theorem works_run {s s' : State c} (works : Relation.ReflTransGen Works s s') :
    ∃ more log, (∀ action ∈ more, action.steady = true) ∧
      Runs.run step s more = some (s', log) := by
  induction works using Relation.ReflTransGen.head_induction_on with
  | refl => exact ⟨[], [], by simp, rfl⟩
  | head first _ ih =>
    obtain ⟨w, action, real, moved⟩ := first
    obtain ⟨more, log, steady, ran⟩ := ih
    refine ⟨.worker w action :: more, (.worker w action, ()) :: log, ?_, ?_⟩
    · exact List.forall_mem_cons.mpr ⟨by simp [Action.steady, real], steady⟩
    · have stepped : step _ (.worker w action) = some (_, ()) := congrArg (Option.map (·, ())) moved
      rw [Runs.run, stepped, Option.bind_some, ran]
      rfl

def Held (s : State c) : Prop := ∃ w task, s.worker w = .running task ∨ s.worker w = .ran task

structure Open (s : State c) : Prop where
  ledger : Ledger s
  sleepers : Sleepers s
  joined : Joined s
  going : s.stop = false
  unlocked : s.idleOwner = none
  calm : ∀ thread, ¬Publishing (s.calls thread)
  own : ∀ w, s.calls (.inl w) = none

section

variable {s s' : State c} {w : Fin c.workers}

theorem WorkerEffect.frame {action : WorkerAction} (effect : WorkerEffect s w action s') :
    s'.stop = s.stop ∧ s'.idleOwner = s.idleOwner ∧ s'.calls = s.calls := by
  cases effect <;> exact ⟨rfl, rfl, rfl⟩

theorem Open.step (here : Open s) {action : WorkerAction}
    (moved : workerStep s w action = some s') : Open s' := by
  have effect := workerStep_effect moved
  obtain ⟨stop, owner, calls⟩ := effect.frame
  have stepped : WorkStealingThreadPool.step s (.worker w action) = some (s', ()) :=
    congrArg (Option.map (·, ())) moved
  refine ⟨step_ledger here.ledger stepped, here.sleepers.worker effect,
    step_joined here.joined stepped, stop.trans here.going, owner.trans here.unlocked, ?_, ?_⟩
  · rw [calls]
    exact here.calm
  · rw [calls]
    exact here.own

theorem Open.works (here : Open s) (works : Relation.ReflTransGen Works s s') : Open s' := by
  induction works with
  | refl => exact here
  | tail _ last ih =>
    obtain ⟨w, action, -, moved⟩ := last
    exact ih.step moved

namespace Open

variable (here : Open s)

include here

theorem early_eq : s.early = 0 := by
  refine Finset.sum_eq_zero fun thread _ => ?_
  have calm := here.calm thread
  unfold uncounted
  split
  · rename_i pushed
    rw [pushed] at calm
    exact absurd trivial calm
  · rfl

theorem pending_ne (left : s.decremented.length < s.pushed) : s.pending ≠ 0 := by
  intro zero
  have counted := here.ledger.counted
  rw [here.early_eq, zero_add, here.ledger.counted_down zero (by simp [here.early_eq])] at counted
  have sizes := congrArg Multiset.card counted
  rw [Multiset.coe_card, Multiset.card_range] at sizes
  omega

theorem pending_eq (all : s.pushed ≤ s.decremented.length) : s.pending = 0 := by
  have counted := congrArg Multiset.card here.ledger.counted
  have places := congrArg Multiset.card here.ledger.places
  rw [here.early_eq, zero_add, Multiset.coe_card, Multiset.card_range] at counted
  rw [← here.ledger.finished, Multiset.card_add, Multiset.card_add, Multiset.card_add,
    Multiset.card_range, Multiset.coe_card] at places
  have pending := here.ledger.pending
  rw [counted, show s.decremented.length = s.pushed by omega] at pending
  exact BitVec.add_left_eq_self.mp pending

theorem awake (left : s.decremented.length < s.pushed) : ∃ w, ¬(s.worker w).Drowsy := by
  by_contra all
  rcases here.sleepers.drowsy fun w => not_not.mp (not_exists.mp all w) with zero | ⟨thread, calls⟩
  · exact here.pending_ne left zero
  · exact here.calm thread calls

theorem queued (left : s.decremented.length < s.pushed) (free : ¬Held s) :
    ∃ v, s.deques v ≠ [] := by
  by_contra all
  have empty : s.queued = 0 := Finset.sum_eq_zero fun v _ => by
    rw [not_not.mp (not_exists.mp all v)]
    rfl
  have running : s.running = 0 := Finset.sum_eq_zero fun w _ => by
    unfold WorkerPc.runs
    split
    · rename_i task pc
      exact absurd ⟨w, task, .inl pc⟩ free
    · rfl
  have owed : s.owed = 0 := Finset.sum_eq_zero fun w _ => by
    unfold WorkerPc.owes
    split
    · rename_i task pc
      exact absurd ⟨w, task, .inr pc⟩ free
    · rfl
  have places := congrArg Multiset.card here.ledger.places
  rw [empty, running, zero_add, zero_add, ← here.ledger.finished, owed, zero_add,
    Multiset.coe_card, Multiset.card_range] at places
  omega

end Open

/-- Worker `w` is awake, with nothing to wait for at `cv_m_`, and there is a task at worker `v`. -/
structure Hunting (s : State c) (w v : Fin c.workers) : Prop where
  here : Open s
  left : s.decremented.length < s.pushed
  queued : s.deques v ≠ []
  awake : ¬(s.worker w).Drowsy
  free : s.cvOwner = none ∨ s.cvOwner = some w

-- From the `distance` of the victim that has a task: how far a worker is from taking it.
def WorkerPc.away (c : Config) (distance : Nat) : WorkerPc → Nat
  | .stealing offset =>
    if offset ≤ distance then distance - offset else c.workers + 7 + (c.workers - offset)
  | .popping => c.workers + 1
  | .top => c.workers + 2
  | .leaving | .notifying => c.workers + 3
  | .testingPending => c.workers + 4
  | .testingStop => c.workers + 5
  | .locking => c.workers + 6
  | _ => 0

theorem index_reaches (w v : Fin c.workers) : ∃ k < c.workers, c.index (w + k) = v := by
  refine ⟨(v + (c.workers - w)) % c.workers, Nat.mod_lt _ c.someWorker, Fin.ext ?_⟩
  change (w + (v + (c.workers - w)) % c.workers) % c.workers = v
  have sum : w + (v + (c.workers - w)) = v + c.workers := by omega
  rw [Nat.add_mod_mod, sum, Nat.add_mod_right, Nat.mod_eq_of_lt v.isLt]

theorem afterVictim_awake (offset : Nat) : ¬(c.afterVictim offset).Drowsy := by
  unfold Config.afterVictim
  split <;> exact id

def Nears (s : State c) (w v : Fin c.workers) (k : Nat) : Prop :=
  ∃ s', Works s s' ∧ s'.pushed = s.pushed ∧ s'.decremented = s.decremented ∧
    (Held s' ∨ Hunting s' w v ∧ (s'.worker w).away c k < (s.worker w).away c k)

section

variable {v : Fin c.workers} {k : Nat}

theorem Hunting.moves (hunting : Hunting s w v) {action : WorkerAction} {pc : WorkerPc}
    (real : action ≠ .wake) (moved : workerStep s w action = some s')
    (worker : s'.worker = Function.update s.worker w pc) (deques : s'.deques = s.deques)
    (pushed : s'.pushed = s.pushed) (decremented : s'.decremented = s.decremented)
    (awake : ¬pc.Drowsy) (free : s'.cvOwner = none ∨ s'.cvOwner = some w)
    (nearer : pc.away c k < (s.worker w).away c k) : Nears s w v k := by
  have at_pc : s'.worker w = pc := by rw [worker, Function.update_self]
  refine ⟨s', ⟨w, action, real, moved⟩, pushed, decremented, .inr ⟨⟨hunting.here.step moved, ?_, ?_,
    ?_, free⟩, ?_⟩⟩
  · rw [pushed, decremented]
    exact hunting.left
  · rw [deques]
    exact hunting.queued
  · rwa [at_pc]
  · rwa [at_pc]

theorem Hunting.pops (hunting : Hunting s w v) (small : k < c.workers)
    (victim : c.index (w + k) = v) (pc : s.worker w = .popping) : Nears s w v k := by
  have moved : workerStep s w .popLocal = some (s.popLocal w) := by simp only [workerStep, pc]
  rcases popLocal_cases s w with ⟨empty, same⟩ | ⟨front, rest, -, same⟩
  · rw [same] at moved
    -- The task is not here, so there are others to look at.
    have further : 1 ≤ k := by
      by_contra zero
      obtain rfl : k = 0 := by omega
      have own : w = v := victim ▸ Fin.ext (Nat.mod_eq_of_lt w.isLt).symm
      exact hunting.queued (own ▸ empty)
    refine hunting.moves (by simp) moved rfl rfl rfl rfl (afterVictim_awake 1) hunting.free ?_
    rw [pc, Config.afterVictim, if_pos (by omega)]
    simp only [WorkerPc.away, if_pos further]
    omega
  · rw [same] at moved
    exact ⟨_, ⟨w, .popLocal, by simp, moved⟩, rfl, rfl,
      .inl ⟨w, front, .inl (Function.update_self _ _ _)⟩⟩

theorem Hunting.steals (hunting : Hunting s w v) (small : k < c.workers)
    (victim : c.index (w + k) = v) {offset : Nat} (pc : s.worker w = .stealing offset) :
    Nears s w v k := by
  have moved : workerStep s w (.trySteal true) = some (s.trySteal w offset true) := by
    simp only [workerStep, pc]
  rcases trySteal_cases s w offset true with ⟨empty, same⟩ | ⟨back, rest, -, -, same⟩
  · rw [same] at moved
    have elsewhere : offset ≠ k := by
      rintro rfl
      exact hunting.queued (victim ▸ empty rfl)
    refine hunting.moves (by simp) moved rfl rfl rfl rfl (afterVictim_awake (offset + 1))
      hunting.free ?_
    rw [pc, Config.afterVictim]
    split <;> simp only [WorkerPc.away] <;> split_ifs <;> omega
  · rw [same] at moved
    exact ⟨_, ⟨w, .trySteal true, by simp, moved⟩, rfl, rfl,
      .inl ⟨w, back, .inl (Function.update_self _ _ _)⟩⟩

theorem Hunting.nears (hunting : Hunting s w v) (small : k < c.workers)
    (victim : c.index (w + k) = v) (empty : ¬Held s) : Nears s w v k := by
  have going := hunting.here.going
  have pending : s.pending > 0 := by
    have some := hunting.here.pending_ne hunting.left
    bv_omega
  have awake := hunting.awake
  cases pc : s.worker w with
  | top =>
    have moved : workerStep s w .loadStop = some (s.workerAt w .popping) := by
      simp [workerStep, pc, going]
    refine hunting.moves (by simp) moved rfl rfl rfl rfl id hunting.free ?_
    simp [pc, WorkerPc.away]
  | popping => exact hunting.pops small victim pc
  | stealing offset => exact hunting.steals small victim pc
  | running task => exact absurd ⟨w, task, .inl pc⟩ empty
  | ran task => exact absurd ⟨w, task, .inr pc⟩ empty
  | notifying =>
    have moved : workerStep s w .notifyIdle = some (s.notifyIdle w) := by
      simp [workerStep, pc, hunting.here.unlocked]
    refine hunting.moves (by simp) moved rfl rfl rfl rfl id hunting.free ?_
    simp [pc, WorkerPc.away]
  | locking =>
    have unowned : s.cvOwner = none := by
      refine hunting.free.resolve_right fun owner => ?_
      have holds := hunting.here.joined.holds w owner
      rw [pc] at holds
      exact holds
    have moved : workerStep s w .lock = some { s.workerAt w .testingStop with cvOwner := some w } := by
      simp [workerStep, pc, unowned]
    refine hunting.moves (by simp) moved rfl rfl rfl rfl id (.inr rfl) ?_
    simp [pc, WorkerPc.away]
  | testingStop =>
    have moved : workerStep s w .testStop = some (s.workerAt w .testingPending) := by
      simp [workerStep, pc, going]
    refine hunting.moves (by simp) moved rfl rfl rfl rfl id hunting.free ?_
    simp [pc, WorkerPc.away]
  | testingPending =>
    have moved : workerStep s w .testPending = some (s.workerAt w .leaving) := by
      simp only [workerStep, pc, if_pos pending]
    refine hunting.moves (by simp) moved rfl rfl rfl rfl id hunting.free ?_
    simp [pc, WorkerPc.away]
  | leaving =>
    have moved : workerStep s w .leave = some { s.workerAt w .top with cvOwner := none } := by
      simp [workerStep, pc]
    refine hunting.moves (by simp) moved rfl rfl rfl rfl id (.inl rfl) ?_
    simp [pc, WorkerPc.away]
  | exited => exact absurd (hunting.here.joined.stopped w pc) (by simp [going])
  | _ =>
    rw [pc] at awake
    exact absurd trivial awake

theorem Hunting.finds (hunting : Hunting s w v) : ∃ s', Relation.ReflTransGen Works s s' ∧
    s'.pushed = s.pushed ∧ s'.decremented = s.decremented ∧ Held s' := by
  obtain ⟨k, small, victim⟩ := index_reaches w v
  induction far : (s.worker w).away c k using Nat.strong_induction_on generalizing s with
  | _ far ih =>
    by_cases held : Held s
    · exact ⟨s, .refl, rfl, rfl, held⟩
    obtain ⟨t, works, pushed, decremented, there | ⟨onward, nearer⟩⟩ :=
      hunting.nears small victim held
    · exact ⟨t, .single works, pushed, decremented, there⟩
    · obtain ⟨s', more, pushed', decremented', there⟩ := ih _ (far ▸ nearer) onward rfl
      exact ⟨s', .head works more, pushed'.trans pushed, decremented'.trans decremented, there⟩

end

-- Whoever holds `cv_m_` either looks for a task next, or blocks and so gives it up.
theorem Open.hunts (here : Open s) (left : s.decremented.length < s.pushed) (free : ¬Held s) :
    ∃ s', Relation.ReflTransGen Works s s' ∧ s'.pushed = s.pushed ∧
      s'.decremented = s.decremented ∧ ∃ w v, Hunting s' w v := by
  obtain ⟨v, queued⟩ := here.queued left free
  obtain ⟨w, awake⟩ := here.awake left
  cases owner : s.cvOwner with
  | none => exact ⟨s, .refl, rfl, rfl, w, v, here, left, queued, awake, .inl owner⟩
  | some x =>
    by_cases asleep : (s.worker x).Drowsy
    · have holds := here.joined.holds x owner
      have unblocked : s.worker x ≠ .blocked := by
        intro pc
        rw [pc] at holds
        exact holds
      have moved : workerStep s x .block =
          some { s.workerAt x .blocked with cvOwner := none } := by
        simp only [workerStep, drowsy_unblocked asleep unblocked]
      refine ⟨_, .single ⟨x, .block, by simp, moved⟩, rfl, rfl, w, v, here.step moved, left, queued,
        ?_, .inl rfl⟩
      have apart : w ≠ x := by
        rintro rfl
        exact awake asleep
      change ¬(Function.update s.worker x .blocked w).Drowsy
      rwa [Function.update_of_ne apart]
    · exact ⟨s, .refl, rfl, rfl, x, v, here, left, queued, asleep, .inr owner⟩

theorem Open.advances (here : Open s) (left : s.decremented.length < s.pushed) :
    ∃ s', Relation.ReflTransGen Works s s' ∧ s'.pushed = s.pushed ∧
      s'.decremented.length = s.decremented.length + 1 := by
  have ends {t : State c} (same : t.decremented = s.decremented) (pushed : t.pushed = s.pushed)
      {x : Fin c.workers} {task : Task} (ran : t.worker x = .ran task) :
      ∃ s', Works t s' ∧ s'.pushed = s.pushed ∧
        s'.decremented.length = s.decremented.length + 1 := by
    have moved : workerStep t x .decrement = some (t.decrement x task) := by
      simp only [workerStep, ran]
    exact ⟨_, ⟨x, .decrement, by simp, moved⟩, pushed, by simp [State.decrement, same]⟩
  obtain ⟨t, works, pushed, decremented, x, task, held⟩ :
      ∃ t, Relation.ReflTransGen Works s t ∧ t.pushed = s.pushed ∧
        t.decremented = s.decremented ∧ Held t := by
    by_cases held : Held s
    · exact ⟨s, .refl, rfl, rfl, held⟩
    · obtain ⟨t, works, pushed, decremented, w, v, hunting⟩ := here.hunts left held
      obtain ⟨s', more, pushed', decremented', there⟩ := hunting.finds
      exact ⟨s', works.trans more, pushed'.trans pushed, decremented'.trans decremented, there⟩
  rcases held with running | ran
  · have moved : workerStep t x .finish = some (t.finish x task) := by
      simp only [workerStep, running, (here.works works).own x, if_true]
    obtain ⟨s', last, done⟩ := @ends (t.finish x task) decremented pushed x task
      (Function.update_self _ _ _)
    exact ⟨s', (works.tail ⟨x, .finish, by simp, moved⟩).tail last, done⟩
  · obtain ⟨s', last, done⟩ := ends decremented pushed ran
    exact ⟨s', works.tail last, done⟩

theorem Open.drains (here : Open s) : ∃ s', Relation.ReflTransGen Works s s' ∧
    s'.pushed = s.pushed ∧ s'.pushed ≤ s'.decremented.length := by
  induction undone : s.pushed - s.decremented.length generalizing s with
  | zero => exact ⟨s, .refl, rfl, by omega⟩
  | succ rest ih =>
    obtain ⟨t, works, pushed, one⟩ := here.advances (by omega)
    obtain ⟨s', more, pushed', all⟩ := ih (here.works works) (by rw [pushed, one]; omega)
    exact ⟨s', works.trans more, pushed'.trans pushed, all⟩

end

/--
From every state reached with the pool not stopped, no `submit` between its push and its
notification and no task inside one, and `idle_m_` free, the workers alone can finish all that was
pushed and bring `pending_` to 0. They need no spurious wakeup: two of them, or a lone one that each
notification reached, are never all asleep.
-/
theorem work_gets_done {actions : List (Action c)} {s : State c} {log : List (Action c × Unit)}
    (ran : Runs.run step (State.init c) actions = some (s, log))
    (heard : 2 ≤ c.workers ∨ Runs.Each step NotifyHeard (State.init c) actions)
    (going : s.stop = false) (unlocked : s.idleOwner = none)
    (calm : ∀ thread, ¬Publishing (s.calls thread)) (own : ∀ w, s.calls (.inl w) = none) :
    ∃ more s' late, Runs.run step s more = some (s', late) ∧
      (∀ action ∈ more, action.steady = true) ∧ s'.pending = 0 ∧ (∀ w, s'.deques w = []) ∧
      ∀ task < s.pushed, task ∈ s'.finished := by
  have here : Open s :=
    ⟨run_ledger ran, run_sleepers heard ran, run_joined ran, going, unlocked, calm, own⟩
  obtain ⟨s', works, pushed, all⟩ := here.drains
  obtain ⟨more, late, steady, ran'⟩ := works_run works
  have there := here.works works
  obtain ⟨empty, finished⟩ := there.ledger.all_finished all
  exact ⟨more, s', late, ran', steady, there.pending_eq all, empty,
    fun task below => finished task (pushed ▸ below)⟩

-- The worker was asleep when the task came, and has been notified.
def notifyAsleep : List (Action oneWorker) :=
  fallAsleep ++ [.worker 0 .block] ++ submitBy (.inr 0) (some 0)

theorem notifyAsleep_heard : Runs.Each step NotifyHeard (State.init oneWorker) notifyAsleep := by
  decide +kernel

theorem work_gets_done_notifyAsleep : ∃ s log,
    Runs.run step (State.init oneWorker) notifyAsleep = some (s, log) ∧ s.deques 0 = [0] ∧
      ∃ more s' late, Runs.run step s more = some (s', late) ∧
      (∀ action ∈ more, action.steady = true) ∧ s'.pending = 0 ∧ (∀ w, s'.deques w = []) ∧
      ∀ task < s.pushed, task ∈ s'.finished := by
  obtain ⟨s, log, ran, calm, own, going, unlocked, queued⟩ : ∃ s log,
      Runs.run step (State.init oneWorker) notifyAsleep = some (s, log) ∧
      (∀ thread, ¬Publishing (s.calls thread)) ∧ (∀ w, s.calls (.inl w) = none) ∧
      s.stop = false ∧ s.idleOwner = none ∧ s.deques 0 = [0] :=
    ⟨_, _, rfl, by decide +kernel, by decide +kernel, rfl, rfl, rfl⟩
  exact ⟨s, log, ran, queued,
    work_gets_done ran (Or.inr notifyAsleep_heard) going unlocked calm own⟩

end CppPractice.WorkStealingThreadPool
