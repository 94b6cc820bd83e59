import CppPractice.Pool.Once

set_option autoImplicit false

namespace CppPractice.WorkStealingThreadPool

variable {c : Config}

structure Aged (s : State c) : Prop where
  sorted : ∀ w, (s.deques w).Pairwise (· > ·)
  old : ∀ w, ∀ task ∈ s.deques w, task < s.pushed
  -- A thief is at one of the others.
  offsets : ∀ w offset, s.worker w = .stealing offset → 1 ≤ offset ∧ offset < c.workers

theorem init_aged (c : Config) : Aged (State.init c) where
  sorted _ := List.Pairwise.nil
  old _ _ inside := absurd inside List.not_mem_nil
  offsets _ _ stealing := absurd stealing (by simp [State.init])

theorem index_offset (w : Fin c.workers) {offset : Nat} (positive : 1 ≤ offset)
    (small : offset < c.workers) : c.index (w + offset) ≠ w := by
  intro same
  have value := congrArg Fin.val same
  dsimp only [Config.index] at value
  have inside := w.isLt
  rcases Nat.lt_or_ge (w + offset) c.workers with below | above
  · rw [Nat.mod_eq_of_lt below] at value
    omega
  · rw [Nat.mod_eq_sub_mod above, Nat.mod_eq_of_lt (by omega)] at value
    omega

section

variable {s s' : State c}

theorem WorkerEffect.takes {w : Fin c.workers} {action : WorkerAction} {task : Task}
    (effect : WorkerEffect s w action s') (running : s'.worker w = .running task) :
    ∃ old idx rest, s.worker w = old ∧ Takes s w action old idx task rest ∧
      s'.deques idx = rest := by
  have other {pc : WorkerPc} {P : Prop} (worker : s'.worker w = pc) (idle : pc.isRunning = false) :
      P := by
    rw [← worker, running] at idle
    cases idle
  cases effect with
  | control was before after cv goes => exact other (Function.update_self _ _ _) after.not_running
  | @take _ old idx task' rest was takes =>
    have same : WorkerPc.running task' = .running task :=
      (Function.update_self w _ s.worker).symm.trans running
    obtain rfl := WorkerPc.running.inj same
    exact ⟨old, idx, rest, was, takes, Function.update_self _ _ _⟩
  | finish was idle => exact other (Function.update_self _ _ _) rfl
  | decrement was => exact other (Function.update_self _ _ _) (by split <;> rfl)
  | notifyIdle was unlocked => exact other (Function.update_self _ _ _) rfl
  | sleep was none => exact other (Function.update_self _ _ _) rfl
  | block was => exact other (Function.update_self _ _ _) rfl
  | wake was => exact other (Function.update_self _ _ _) rfl

theorem Aged.worker (aged : Aged s) {w : Fin c.workers} {pc : WorkerPc}
    (worked : Worked s s' w pc) : Aged s' where
  sorted v := (aged.sorted v).sublist (worked.shorter v)
  old v task inside := by
    rw [worked.pushed]
    exact aged.old v task ((worked.shorter v).subset inside)
  offsets v offset stealing := by
    rw [worked.worker, Function.update_apply] at stealing
    split at stealing
    · obtain ⟨small, next⟩ := worked.goes.offset offset stealing
      refine ⟨?_, small⟩
      rcases next with rfl | ⟨last, -, rfl⟩
      · exact le_rfl
      · exact Nat.le_add_left 1 last
    · exact aged.offsets v offset stealing

theorem Aged.caller (aged : Aged s) {thread : Thread c} {action : SubmitAction c}
    (effect : CallEffect s thread action s') : Aged s' := by
  cases effect with
  | start was free => exact ⟨aged.sorted, aged.old, aged.offsets⟩
  | fail was => exact ⟨aged.sorted, aged.old, aged.offsets⟩
  | count was => exact ⟨aged.sorted, aged.old, aged.offsets⟩
  | @push ticket was room =>
    -- The new task is the youngest of all, and it goes to the front.
    have deques (w : Fin c.workers) : (s.push thread ticket).deques w =
        if w = c.index ticket.toNat then s.pushed :: s.deques w else s.deques w := by
      by_cases here : w = c.index ticket.toNat
      · rw [if_pos here, here]
        exact Function.update_self _ _ _
      · rw [if_neg here]
        exact Function.update_of_ne here _ _
    refine ⟨fun w => ?_, fun w task inside => ?_, aged.offsets⟩
    · rw [deques]
      split
      · exact List.pairwise_cons.mpr ⟨aged.old w, aged.sorted w⟩
      · exact aged.sorted w
    · have older (member : task ∈ s.deques w) : task < s.pushed + 1 :=
        Nat.lt_succ_of_lt (aged.old w task member)
      rw [deques] at inside
      split at inside
      · rcases List.mem_cons.mp inside with rfl | member
        · exact Nat.lt_succ_self _
        · exact older member
      · exact older inside
  | @notify task woken was wakes =>
    refine ⟨aged.sorted, aged.old, fun w offset stealing => ?_⟩
    cases woken with
    | none => exact aged.offsets w offset stealing
    | some v =>
      by_cases here : w = v
      · have awake : (s.notify thread task (some v)).worker w = .locking := by
          rw [here]
          exact Function.update_self _ _ _
        rw [awake] at stealing
        exact absurd stealing (by simp)
      · have same : (s.notify thread task (some v)).worker w = s.worker w :=
          Function.update_of_ne here _ _
        exact aged.offsets w offset (same ▸ stealing)

theorem woken_stealing {pc : WorkerPc} {offset : Nat} (stealing : pc.woken = .stealing offset) :
    pc = .stealing offset := by
  cases pc <;> simp_all [WorkerPc.woken]

theorem Aged.client (aged : Aged s) {i : Fin c.clients} {action : ClientAction}
    (effect : ClientEffect s i action s') : Aged s' := by
  cases effect
  case notifyAll =>
    exact ⟨aged.sorted, aged.old, fun w offset stealing =>
      aged.offsets w offset (woken_stealing stealing)⟩
  all_goals exact ⟨aged.sorted, aged.old, aged.offsets⟩

theorem step_aged {action : Action c} {reply : Unit} (aged : Aged s)
    (stepped : step s action = some (s', reply)) : Aged s' := by
  obtain ⟨t, moved, same⟩ := Option.map_eq_some_iff.mp stepped
  obtain ⟨rfl, -⟩ := Prod.mk.inj same
  cases action with
  | worker w action =>
    obtain ⟨pc, worked⟩ := (workerStep_effect moved).worked
    exact aged.worker worked
  | submit thread action => exact aged.caller (submitStep_effect moved)
  | client i action => exact aged.client (clientStep_effect moved)

theorem run_aged {actions : List (Action c)} {log : List (Action c × Unit)}
    (ran : Runs.run step (State.init c) actions = some (s, log)) : Aged s :=
  Runs.run_induction (P := fun _ s => Aged s) (init_aged c)
    (fun _ _ _ _ _ _ _ aged stepped => step_aged aged stepped) ran

end

/--
A worker that pops takes the youngest task of its own deque; a thief takes the oldest of a
deque that is not its own. What stays is in order of age, the youngest in front.
-/
theorem youngest_and_oldest (actions : List (Action c)) {s : State c} {log : List (Action c × Unit)}
    (ran : Runs.run step (State.init c) actions = some (s, log)) :
    (∀ w, (s.deques w).Pairwise (· > ·)) ∧
      (∀ w s' task, step s (.worker w .popLocal) = some (s', ()) → s'.worker w = .running task →
        s.deques w = task :: s'.deques w ∧ ∀ other ∈ s'.deques w, other < task) ∧
      ∀ w owns_lock s' task, step s (.worker w (.trySteal owns_lock)) = some (s', ()) →
        s'.worker w = .running task → ∃ victim, victim ≠ w ∧
          s.deques victim = s'.deques victim ++ [task] ∧
          ∀ other ∈ s'.deques victim, task < other := by
  have aged := run_aged ran
  refine ⟨aged.sorted, fun w s' task stepped running => ?_,
    fun w owns_lock s' task stepped running => ?_⟩
  · obtain ⟨t, moved, same⟩ := Option.map_eq_some_iff.mp stepped
    obtain ⟨rfl, -⟩ := Prod.mk.inj same
    obtain ⟨old, idx, rest, -, takes, left⟩ := (workerStep_effect moved).takes running
    cases takes with
    | front there =>
      have sorted := aged.sorted w
      rw [there] at sorted
      rw [left]
      exact ⟨there, (List.pairwise_cons.mp sorted).1⟩
  · obtain ⟨t, moved, same⟩ := Option.map_eq_some_iff.mp stepped
    obtain ⟨rfl, -⟩ := Prod.mk.inj same
    obtain ⟨old, idx, rest, was, takes, left⟩ := (workerStep_effect moved).takes running
    cases takes with
    | @back offset _ _ there =>
      obtain ⟨positive, small⟩ := aged.offsets w offset was
      have sorted := aged.sorted (c.index (w + offset))
      rw [there, List.pairwise_append] at sorted
      refine ⟨_, index_offset w positive small, ?_, ?_⟩ <;> rw [left]
      · exact there
      · exact fun other inside => sorted.2.2 other inside task List.mem_cons_self

-- Worker 0 is about to pop; worker 1 has run its own task and is at the deque of worker 0.
def popAndSteal : List (Action twoWorkers) :=
  submitBy (.inr 0) none ++ submitBy (.inr 1) none ++ submitBy (.inr 0) none ++
    [.worker 0 .loadStop, .worker 1 .loadStop, .worker 1 .popLocal, .worker 1 .finish,
      .worker 1 .decrement, .worker 1 .loadStop, .worker 1 .popLocal]

theorem youngest_and_oldest_popAndSteal : ∃ s log,
    Runs.run step (State.init twoWorkers) popAndSteal = some (s, log) ∧ s.deques 0 = [2, 0] ∧
      (∃ s', step s (.worker 0 .popLocal) = some (s', ()) ∧ s'.worker 0 = .running 2) ∧
      (∃ s', step s (.worker 1 (.trySteal true)) = some (s', ()) ∧ s'.worker 1 = .running 0) ∧
      (∀ w, (s.deques w).Pairwise (· > ·)) ∧
      (∀ w s' task, step s (.worker w .popLocal) = some (s', ()) → s'.worker w = .running task →
        s.deques w = task :: s'.deques w ∧ ∀ other ∈ s'.deques w, other < task) ∧
      ∀ w owns_lock s' task, step s (.worker w (.trySteal owns_lock)) = some (s', ()) →
        s'.worker w = .running task → ∃ victim, victim ≠ w ∧
          s.deques victim = s'.deques victim ++ [task] ∧
          ∀ other ∈ s'.deques victim, task < other :=
  ⟨_, _, rfl, rfl, ⟨_, rfl, rfl⟩, ⟨_, rfl, rfl⟩, youngest_and_oldest popAndSteal rfl⟩

end CppPractice.WorkStealingThreadPool
