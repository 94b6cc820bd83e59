import CppPractice.Pool.Ledger

set_option autoImplicit false

namespace CppPractice.WorkStealingThreadPool

variable {c : Config}

abbrev Place (c : Config) := Fin c.workers ⊕ Fin c.workers ⊕ Unit

def State.times (s : State c) (task : Task) : Place c → Nat
  | .inl w => (s.deques w).count task
  | .inr (.inl w) => if s.worker w = .running task then 1 else 0
  | .inr (.inr ()) => s.finished.count task

theorem count_runs (pc : WorkerPc) (task : Task) :
    pc.runs.count task = if pc = .running task then 1 else 0 := by
  cases pc with
  | running other =>
    rw [running_runs, Multiset.count_singleton]
    by_cases same : task = other <;> simp [same, eq_comm]
  | _ => simp [WorkerPc.runs]

section

variable {s s' : State c}

theorem Ledger.times (ledger : Ledger s) (task : Task) :
    ∑ place, s.times task place = if task < s.pushed then 1 else 0 := by
  have places := congrArg (Multiset.count task) ledger.places
  rw [Multiset.count_add, Multiset.count_add, State.queued, State.running, Multiset.count_sum',
    Multiset.count_sum'] at places
  simp only [Multiset.coe_count, count_runs] at places
  rw [Fintype.sum_sum_type, Fintype.sum_sum_type]
  simp only [State.times, Finset.univ_unique, Finset.sum_singleton]
  rw [← add_assoc]
  refine places.trans ?_
  split
  · rename_i pushed
    exact Multiset.count_eq_one_of_mem (Multiset.nodup_range _) (Multiset.mem_range.mpr pushed)
  · rename_i unpushed
    exact Multiset.count_eq_zero.mpr (mt Multiset.mem_range.mp unpushed)

-- If no task is counted down before it is counted, a zero counter means that all are.
theorem Ledger.counted_down (ledger : Ledger s) (zero : s.pending = 0)
    (late : ∀ task ∈ s.early, task ∉ s.decremented) :
    (s.counted : Multiset Task) = s.decremented := by
  have range := Multiset.nodup_range s.pushed
  rw [← ledger.counted] at range
  have part : (s.decremented : Multiset Task) ≤ s.early + s.counted := by
    rw [ledger.counted, ← ledger.places, ← ledger.finished, ← add_assoc]
    exact Multiset.le_add_left _ _
  have within : (s.decremented : Multiset Task) ≤ s.counted := by
    refine (Multiset.le_iff_subset (Multiset.nodup_of_le part range)).mpr fun task member => ?_
    rcases Multiset.mem_add.mp (Multiset.subset_of_le part member) with early | counted
    · exact absurd (Multiset.mem_coe.mp member) (late task early)
    · exact counted
  refine (Multiset.eq_of_le_of_card_le within ?_).symm
  have sizes := congrArg Multiset.card ledger.counted
  rw [Multiset.card_add, Multiset.card_range] at sizes
  have below := Multiset.card_le_card within
  have pending := ledger.pending
  rw [zero] at pending
  have residues := congrArg BitVec.toNat ((BitVec.zero_add _).symm.trans pending)
  rw [BitVec.toNat_ofNat, BitVec.toNat_ofNat] at residues
  have room := ledger.room
  have addressable := c.addressable
  rw [Multiset.coe_card] at sizes
  rw [Multiset.coe_card, Multiset.coe_card] at below ⊢
  omega

theorem Ledger.none_left (ledger : Ledger s) (zero : s.pending = 0)
    (calls : ∀ thread, s.calls thread = none) : s.pushed ≤ s.decremented.length := by
  have early : s.early = 0 := Finset.sum_eq_zero fun thread _ => by rw [calls thread]; rfl
  have counted := ledger.counted
  rw [early, zero_add, ledger.counted_down zero (by simp [early])] at counted
  have sizes := congrArg Multiset.card counted
  rw [Multiset.coe_card, Multiset.card_range] at sizes
  exact Nat.le_of_eq sizes.symm

theorem Ledger.all_finished (ledger : Ledger s) (none : s.pushed ≤ s.decremented.length) :
    (∀ w, s.deques w = []) ∧ ∀ task < s.pushed, task ∈ s.finished := by
  have places := congrArg Multiset.card ledger.places
  have finished := congrArg Multiset.card ledger.finished
  rw [Multiset.card_add, Multiset.card_add, Multiset.card_range, Multiset.coe_card] at places
  rw [Multiset.card_add, Multiset.coe_card, Multiset.coe_card] at finished
  have queued : s.queued = 0 := Multiset.card_eq_zero.mp (by omega)
  have running : s.running = 0 := Multiset.card_eq_zero.mp (by omega)
  refine ⟨fun w => ?_, fun task pushed => ?_⟩
  · refine List.eq_nil_iff_forall_not_mem.mpr fun task member => ?_
    have inside : task ∈ s.queued := Multiset.mem_sum.mpr ⟨w, Finset.mem_univ w, member⟩
    rw [queued] at inside
    exact absurd inside (Multiset.notMem_zero task)
  · have all := ledger.places
    rw [queued, running, add_zero, zero_add] at all
    rw [← Multiset.mem_coe, all]
    exact Multiset.mem_range.mpr pushed

end

-- Tasks do not call `submit`, and when the destructor starts every `submit` has returned.
def Orderly (s : State c) : Action c → Prop
  | .submit (.inl _) _ => False
  | .submit (.inr _) action => action = .start → s.destroying = false
  | .client _ action => action = .destroy → ∀ thread, s.calls thread = none
  | .worker _ _ => True

instance (s : State c) : (action : Action c) → Decidable (Orderly s action)
  | .submit (.inl _) _ => inferInstanceAs (Decidable False)
  | .submit (.inr _) action => inferInstanceAs (Decidable (action = .start → s.destroying = false))
  | .client _ action =>
    inferInstanceAs (Decidable (action = .destroy → ∀ thread, s.calls thread = none))
  | .worker _ _ => inferInstanceAs (Decidable True)

def ClientPc.Destroys : ClientPc → Prop
  | .idle => False
  | .waiting caller _ _ => caller = .destructor
  | _ => True

def ClientPc.Waited : ClientPc → Prop
  | .idle => False
  | .waiting caller _ pc => caller = .destructor ∧ pc = .leaving
  | _ => True

structure Shutdown (s : State c) : Prop where
  begun : ∀ i, (s.client i).Destroys → s.destroying = true
  quiet : s.destroying = true → ∀ thread, s.calls thread = none
  waited : ∀ i, (s.client i).Waited → s.pushed ≤ s.decremented.length
  stopped : s.stop = true → s.destroying = true ∧ s.pushed ≤ s.decremented.length

theorem init_shutdown (c : Config) : Shutdown (State.init c) where
  begun _ destroys := destroys.elim
  quiet _ _ := rfl
  waited _ waited := waited.elim
  stopped stop := absurd stop Bool.false_ne_true

theorem woken_destroys {pc : ClientPc} (destroys : pc.woken.Destroys) : pc.Destroys := by
  unfold ClientPc.woken at destroys
  split at destroys <;> exact destroys

theorem woken_waited {pc : ClientPc} (waited : pc.woken.Waited) : pc.Waited := by
  unfold ClientPc.woken at waited
  split at waited
  · exact absurd waited.2 (by simp)
  · exact waited

theorem ClientPc.Waited.destroys {pc : ClientPc} (waited : pc.Waited) : pc.Destroys := by
  cases pc with
  | waiting caller submitted pc => exact waited.1
  | _ => exact waited

section

variable {s s' : State c}

theorem Shutdown.worker (shutdown : Shutdown s) {w : Fin c.workers} {action : WorkerAction}
    (effect : WorkerEffect s w action s') : Shutdown s' := by
  have kept (task : Task) (all : s.pushed ≤ s.decremented.length) :
      s.pushed ≤ (s.decrement w task).decremented.length :=
    le_trans all (by simp [State.decrement])
  cases effect with
  | decrement was =>
    exact ⟨shutdown.begun, shutdown.quiet, fun i waited => kept _ (shutdown.waited i waited),
      fun stop => ⟨(shutdown.stopped stop).1, kept _ (shutdown.stopped stop).2⟩⟩
  | notifyIdle was unlocked =>
    exact ⟨fun i destroys => shutdown.begun i (woken_destroys destroys), shutdown.quiet,
      fun i waited => shutdown.waited i (woken_waited waited), shutdown.stopped⟩
  | _ => exact ⟨shutdown.begun, shutdown.quiet, shutdown.waited, shutdown.stopped⟩

theorem Shutdown.caller (shutdown : Shutdown s) {thread : Thread c} {action : SubmitAction c}
    (orderly : Orderly s (.submit thread action)) (effect : CallEffect s thread action s') :
    Shutdown s' := by
  have before : s.destroying = false := by
    by_contra started
    have none := shutdown.quiet (by simpa using started) thread
    cases effect with
    | start was free =>
      cases thread with
      | inl w => exact orderly
      | inr i => exact started (orderly rfl)
    | fail was => exact absurd (none.symm.trans was) (by simp)
    | push was room => exact absurd (none.symm.trans was) (by simp)
    | count was => exact absurd (none.symm.trans was) (by simp)
    | notify was wakes => exact absurd (none.symm.trans was) (by simp)
  have never {P : Prop} (started : s.destroying = true) : P :=
    absurd (before.symm.trans started) Bool.false_ne_true
  cases effect <;>
    exact ⟨shutdown.begun, fun started => never started,
      fun i waited => never (shutdown.begun i waited.destroys),
      fun stop => never (shutdown.stopped stop).1⟩

theorem Shutdown.moves (shutdown : Shutdown s) {i : Fin c.clients} {pc : ClientPc} {stop : Bool}
    {owner : Option (Fin c.clients)} {worker : Fin c.workers → WorkerPc}
    (destroys : pc.Destroys → (s.client i).Destroys)
    (waited : pc.Waited → s.pushed ≤ s.decremented.length)
    (stopped : stop = true → s.stop = true ∨ (s.client i).Waited) :
    Shutdown { s.clientAt i pc with stop := stop, idleOwner := owner, worker := worker } where
  begun :=
    (Function.forall_update_iff s.client fun _ pc => pc.Destroys → s.destroying = true).mpr
      ⟨fun ends => shutdown.begun i (destroys ends), fun j _ => shutdown.begun j⟩
  quiet := shutdown.quiet
  waited :=
    (Function.forall_update_iff s.client fun _ pc =>
      pc.Waited → s.pushed ≤ s.decremented.length).mpr ⟨waited, fun j _ => shutdown.waited j⟩
  stopped stop := by
    rcases stopped stop with before | now
    · exact shutdown.stopped before
    · exact ⟨shutdown.begun i now.destroys, shutdown.waited i now⟩

theorem Shutdown.client (shutdown : Shutdown s) (ledger : Ledger s) {i : Fin c.clients}
    {action : ClientAction} (orderly : Orderly s (.client i action))
    (effect : ClientEffect s i action s') : Shutdown s' := by
  cases effect with
  | wait was =>
    exact shutdown.moves (by simp [ClientPc.Destroys]) (by simp [ClientPc.Waited]) Or.inl
  | destroy was first =>
    have never {P : Prop} (started : s.destroying = true) : P :=
      absurd (first.symm.trans started) Bool.false_ne_true
    refine ⟨fun _ _ => rfl, fun _ => orderly rfl, ?_, fun stop => never (shutdown.stopped stop).1⟩
    refine (Function.forall_update_iff s.client fun _ pc =>
      pc.Waited → s.pushed ≤ s.decremented.length).mpr ⟨?_, fun j _ waited => ?_⟩
    · exact fun waited => absurd waited.2 (by simp)
    · exact never (shutdown.begun j waited.destroys)
  | lock was unlocked =>
    exact shutdown.moves (by rw [was]; exact id) (by simp [ClientPc.Waited]) Or.inl
  | test was =>
    refine shutdown.moves (by rw [was]; exact id) ?_ Or.inl
    rintro ⟨rfl, leaving⟩
    have zero : s.pending = 0 := by
      by_contra some
      rw [if_neg some] at leaving
      exact absurd leaving (by simp)
    have started := shutdown.begun i (by rw [was]; rfl)
    exact ledger.none_left zero (shutdown.quiet started)
  | block was =>
    exact shutdown.moves (by rw [was]; exact id) (by simp [ClientPc.Waited]) Or.inl
  | wake was =>
    exact shutdown.moves (by rw [was]; exact id) (by simp [ClientPc.Waited]) Or.inl
  | @leave caller submitted was =>
    cases caller with
    | client => exact shutdown.moves False.elim False.elim Or.inl
    | destructor =>
      exact shutdown.moves (fun _ => by rw [was]; rfl)
        (fun _ => shutdown.waited i (by rw [was]; exact ⟨rfl, rfl⟩)) Or.inl
  | storeStop was =>
    exact shutdown.moves (fun _ => by rw [was]; trivial)
      (fun _ => shutdown.waited i (by rw [was]; trivial)) (fun _ => Or.inr (by rw [was]; trivial))
  | notifyAll was =>
    exact shutdown.moves (fun _ => by rw [was]; trivial)
      (fun _ => shutdown.waited i (by rw [was]; trivial)) Or.inl
  | join was after =>
    exact shutdown.moves (fun _ => by rw [was]; trivial)
      (fun _ => shutdown.waited i (by rw [was]; trivial)) Or.inl

theorem step_shutdown {action : Action c} {reply : Unit} (ledger : Ledger s)
    (shutdown : Shutdown s) (orderly : Orderly s action)
    (stepped : step s action = some (s', reply)) : Shutdown s' :=
  step_effects (P := fun s action s' => Orderly s action → Shutdown s')
    (fun _ _ _ effect _ => shutdown.worker effect)
    (fun _ _ _ effect orderly => shutdown.caller orderly effect)
    (fun _ _ _ effect orderly => shutdown.client ledger orderly effect) stepped orderly

end

theorem run_shutdown {actions : List (Action c)} {s : State c} {log : List (Action c × Unit)}
    (orderly : Runs.Each step Orderly (State.init c) actions)
    (ran : Runs.run step (State.init c) actions = some (s, log)) : Shutdown s :=
  Runs.run_each (init_shutdown c)
    (fun _ _ _ _ _ _ early shutdown orderly stepped =>
      step_shutdown (run_ledger early) shutdown orderly stepped) orderly ran

/--
Each pushed task is in exactly one place, exactly once. After an orderly shutdown it is
finished when `stop_` is set, and no deque holds anything.
-/
theorem exactly_once (actions : List (Action c)) {s : State c} {log : List (Action c × Unit)}
    (ran : Runs.run step (State.init c) actions = some (s, log)) :
    (∀ task < s.pushed, ∃ place, s.times task place = 1 ∧
        ∀ other, other ≠ place → s.times task other = 0) ∧
      (Runs.Each step Orderly (State.init c) actions → s.stop = true →
        (∀ w, s.deques w = []) ∧ ∀ task < s.pushed, task ∈ s.finished) := by
  have ledger := run_ledger ran
  constructor
  · intro task pushed
    have sum := ledger.times task
    rw [if_pos pushed] at sum
    exact Tally.sum_eq_one sum
  · intro orderly stop
    exact ledger.all_finished ((run_shutdown orderly ran).stopped stop).2

abbrev oneWorker : Config := ⟨1, by decide, 2, 4, by decide⟩

abbrev twoWorkers : Config := ⟨2, by decide, 3, 3, by decide⟩

instance oneWorker_workers : NeZero oneWorker.workers := ⟨by decide⟩

instance oneWorker_clients : NeZero oneWorker.clients := ⟨by decide⟩

instance twoWorkers_workers : NeZero twoWorkers.workers := ⟨by decide⟩

instance twoWorkers_clients : NeZero twoWorkers.clients := ⟨by decide⟩

def submitBy {c : Config} (thread : Thread c) (woken : Option (Fin c.workers)) : List (Action c) :=
  [.submit thread .start, .submit thread .push, .submit thread .count, .submit thread (.notify woken)]

def runOne : List (Action oneWorker) :=
  [.worker 0 .loadStop, .worker 0 .popLocal, .worker 0 .finish, .worker 0 .decrement]

def shutDown : List (Action oneWorker) :=
  [.client 0 .destroy, .client 0 .lock, .client 0 .test, .client 0 .leave, .client 0 .storeStop,
    .client 0 .notifyAll]

theorem exactly_once_shutDown : ∃ s log,
    Runs.run step (State.init oneWorker) (submitBy (.inr 0) none ++ runOne ++ shutDown) =
      some (s, log) ∧ s.pushed = 1 ∧ s.stop = true ∧
      (∀ task < s.pushed, ∃ place, s.times task place = 1 ∧
        ∀ other, other ≠ place → s.times task other = 0) ∧
      (∀ w, s.deques w = []) ∧ ∀ task < s.pushed, task ∈ s.finished :=
  ⟨_, _, rfl, rfl, rfl,
    (exactly_once (submitBy (.inr 0) none ++ runOne ++ shutDown) rfl).1,
    (exactly_once (submitBy (.inr 0) none ++ runOne ++ shutDown) rfl).2
      (by decide +kernel) rfl⟩

end CppPractice.WorkStealingThreadPool
