import CppPractice.Pool.Once

set_option autoImplicit false

namespace CppPractice.WorkStealingThreadPool

variable {c : Config}

def WorkerPc.Drowsy : WorkerPc → Prop
  | .blocking => True
  | .blocked => True
  | _ => False

theorem WorkerPc.Plain.awake {pc : WorkerPc} (plain : pc.Plain) : ¬pc.Drowsy := by
  cases pc <;> first | exact id | exact plain.elim

theorem drowsy_unblocked {pc : WorkerPc} (drowsy : pc.Drowsy) (unblocked : pc ≠ .blocked) :
    pc = .blocking := by
  cases pc with
  | blocking => rfl
  | blocked => exact absurd rfl unblocked
  | _ => exact drowsy.elim

theorem woken_drowsy {pc : WorkerPc} (drowsy : pc.woken.Drowsy) : pc = .blocking := by
  cases pc with
  | blocking => rfl
  | _ => exact drowsy.elim

theorem woken_holdsCv {pc : WorkerPc} (holds : pc.woken.HoldsCv) : pc.HoldsCv := by
  cases pc with
  | blocked => exact holds.elim
  | _ => exact holds

section

variable {s s' : State c} {w : Fin c.workers} {action : WorkerAction}

theorem owner_moves (owns : ∀ v, (s.worker v).HoldsCv → s.cvOwner = some v)
    (effect : WorkerEffect s w action s') (v : Fin c.workers) (holds : (s'.worker v).HoldsCv) :
    s'.cvOwner = some v := by
  obtain ⟨pc, worked⟩ := effect.worked
  have cv := worked.cv
  rw [worked.worker, Function.update_apply] at holds
  generalize s'.cvOwner = owner at cv ⊢
  split at holds
  · rename_i same
    rw [same]
    cases cv with
    | keep held => exact owns w (held.mp holds)
    | lock unlocked _ => rfl
    | unlock held drops => exact absurd holds drops
  · rename_i apart
    cases cv with
    | keep held => exact owns v holds
    | lock unlocked _ => exact absurd (unlocked.symm.trans (owns v holds)) (by simp)
    | unlock held drops =>
      exact absurd (Option.some.inj ((owns v holds).symm.trans (owns w held))) apart

end

def Publishing : Option SubmitPc → Prop
  | some (.pushed _) => True
  | some (.counted _) => True
  | _ => False

instance : (pc : Option SubmitPc) → Decidable (Publishing pc)
  | some (.pushed _) => inferInstanceAs (Decidable True)
  | some (.counted _) => inferInstanceAs (Decidable True)
  | some (.placing _) => inferInstanceAs (Decidable False)
  | none => inferInstanceAs (Decidable False)

structure Sleepers (s : State c) : Prop where
  owner : ∀ w, (s.worker w).HoldsCv → s.cvOwner = some w
  -- If no worker looks, there is nothing to look at or a `submit` has yet to notify.
  drowsy : (∀ w, (s.worker w).Drowsy) → s.pending = 0 ∨ ∃ thread, Publishing (s.calls thread)

-- `notify_one` does not find every worker between predicate and block, unless nothing is
-- pending or another `submit` will notify.
def NotifyHeard (s : State c) : Action c → Prop
  | .submit thread (.notify _) => (∀ w, s.worker w = .blocking) →
    s.pending = 0 ∨ ∃ other, other ≠ thread ∧ Publishing (s.calls other)
  | _ => True

instance (s : State c) : (action : Action c) → Decidable (NotifyHeard s action)
  | .submit thread (.notify _) => inferInstanceAs (Decidable ((∀ w, s.worker w = .blocking) →
      s.pending = 0 ∨ ∃ other, other ≠ thread ∧ Publishing (s.calls other)))
  | .submit _ .start => inferInstanceAs (Decidable True)
  | .submit _ .push => inferInstanceAs (Decidable True)
  | .submit _ .fail => inferInstanceAs (Decidable True)
  | .submit _ .count => inferInstanceAs (Decidable True)
  | .worker _ _ => inferInstanceAs (Decidable True)
  | .client _ _ => inferInstanceAs (Decidable True)

theorem init_sleepers (c : Config) : Sleepers (State.init c) where
  owner _ holds := holds.elim
  drowsy _ := Or.inl rfl

section

variable {s s' : State c}

theorem Sleepers.worker (sleepers : Sleepers s) {w : Fin c.workers} {action : WorkerAction}
    (effect : WorkerEffect s w action s') : Sleepers s' := by
  refine ⟨owner_moves sleepers.owner effect, fun drowsy => ?_⟩
  -- Only a worker that is not drowsy itself changes what the others would see.
  have awake {P : Prop} {pc : WorkerPc} (moved : s'.worker = Function.update s.worker w pc)
      (up : ¬pc.Drowsy) : P := by
    have down := drowsy w
    rw [moved, Function.update_self] at down
    exact absurd down up
  cases effect with
  | control was before after _ => exact awake rfl after.awake
  | take was takes => exact awake rfl id
  | finish was => exact awake rfl id
  | decrement was => exact awake rfl (by split <;> exact id)
  | notifyIdle was unlocked => exact awake rfl id
  | sleep was none => exact Or.inl none
  | block was =>
    refine sleepers.drowsy fun v => ?_
    by_cases same : v = w
    · rw [same, was]
      trivial
    · have down : (Function.update s.worker w .blocked v).Drowsy := drowsy v
      rwa [Function.update_of_ne same] at down
  | wake was => exact awake rfl id

theorem publishing_update {calls : Thread c → Option SubmitPc} {thread other : Thread c}
    {pc : Option SubmitPc} (apart : other ≠ thread) (publishing : Publishing (calls other)) :
    Publishing (Function.update calls thread pc other) := by
  rwa [Function.update_of_ne apart]

theorem Sleepers.calls (sleepers : Sleepers s) {thread : Thread c} {pc : Option SubmitPc}
    (quiet : ¬Publishing (s.calls thread)) (drowsy : ∀ w, (s.worker w).Drowsy) :
    s.pending = 0 ∨ ∃ other, Publishing (Function.update s.calls thread pc other) := by
  refine (sleepers.drowsy drowsy).imp_right fun ⟨other, publishing⟩ =>
    ⟨other, publishing_update ?_ publishing⟩
  rintro rfl
  exact quiet publishing

theorem Sleepers.caller (sleepers : Sleepers s) {thread : Thread c} {action : SubmitAction c}
    (heard : NotifyHeard s (.submit thread action)) (effect : CallEffect s thread action s') :
    Sleepers s' := by
  cases effect with
  | start was free => exact ⟨sleepers.owner, sleepers.calls (by rw [was]; exact id)⟩
  | fail was => exact ⟨sleepers.owner, sleepers.calls (by rw [was]; exact id)⟩
  | push was room => exact ⟨sleepers.owner, sleepers.calls (by rw [was]; exact id)⟩
  | @count task was =>
    have calls : (s.count thread task).calls thread = some (.counted task) :=
      Function.update_self _ _ _
    exact ⟨sleepers.owner, fun _ => Or.inr ⟨thread, by rw [calls]; trivial⟩⟩
  | @notify task woken was wakes =>
    cases woken with
    | none =>
      refine ⟨sleepers.owner, fun drowsy => ?_⟩
      have all (w : Fin c.workers) : s.worker w = .blocking :=
        drowsy_unblocked (drowsy w) (wakes w)
      exact (heard all).imp_right fun ⟨other, apart, publishing⟩ =>
        ⟨other, publishing_update apart publishing⟩
    | some w =>
      refine ⟨?_, fun drowsy => ?_⟩
      · exact (Function.forall_update_iff s.worker fun v pc => pc.HoldsCv → s.cvOwner = some v).mpr
          ⟨False.elim, fun v _ => sleepers.owner v⟩
      · have down : (Function.update s.worker w .locking w).Drowsy := drowsy w
        rw [Function.update_self] at down
        exact down.elim

theorem Sleepers.client (sleepers : Sleepers s) {i : Fin c.clients} {action : ClientAction}
    (effect : ClientEffect s i action s') : Sleepers s' := by
  cases effect with
  | notifyAll was =>
    refine ⟨fun w holds => sleepers.owner w (woken_holdsCv holds), fun drowsy => ?_⟩
    refine sleepers.drowsy fun w => ?_
    rw [woken_drowsy (drowsy w)]
    trivial
  | _ => exact ⟨sleepers.owner, sleepers.drowsy⟩

theorem step_sleepers {action : Action c} {reply : Unit} (sleepers : Sleepers s)
    (heard : NotifyHeard s action) (stepped : step s action = some (s', reply)) : Sleepers s' :=
  step_effects (P := fun s action s' => NotifyHeard s action → Sleepers s')
    (fun _ _ _ effect _ => sleepers.worker effect)
    (fun _ _ _ effect heard => sleepers.caller heard effect)
    (fun _ _ _ effect _ => sleepers.client effect) stepped heard

-- Only one worker at a time is between predicate and block.
theorem Sleepers.heard (sleepers : Sleepers s) (two : 2 ≤ c.workers) (action : Action c) :
    NotifyHeard s action := by
  unfold NotifyHeard
  split
  · intro all
    have first := sleepers.owner ⟨0, by omega⟩ (by rw [all]; trivial)
    have second := sleepers.owner ⟨1, by omega⟩ (by rw [all]; trivial)
    exact absurd (Option.some.inj (first.symm.trans second)) (by simp)
  · trivial

end

theorem run_sleepers {actions : List (Action c)} {s : State c} {log : List (Action c × Unit)}
    (heard : 2 ≤ c.workers ∨ Runs.Each step NotifyHeard (State.init c) actions)
    (ran : Runs.run step (State.init c) actions = some (s, log)) : Sleepers s := by
  rcases heard with two | heard
  · exact Runs.run_induction (P := fun _ s => Sleepers s) (init_sleepers c)
      (fun _ _ _ action _ _ _ sleepers stepped =>
        step_sleepers sleepers (sleepers.heard two action) stepped) ran
  · exact Runs.run_each (init_sleepers c)
      (fun _ _ _ _ _ _ _ sleepers heard stepped => step_sleepers sleepers heard stepped) heard ran

def Stranded (s : State c) : Prop :=
  (∀ thread, s.calls thread = none) ∧ (∃ w, s.deques w ≠ []) ∧ s.stop = false ∧
    ∀ w, s.worker w = .blocked

theorem no_task_stranded (actions : List (Action c)) {s : State c} {log : List (Action c × Unit)}
    (ran : Runs.run step (State.init c) actions = some (s, log))
    (heard : 2 ≤ c.workers ∨ Runs.Each step NotifyHeard (State.init c) actions) :
    ¬Stranded s := by
  rintro ⟨calls, ⟨w, queued⟩, -, blocked⟩
  have ledger := run_ledger ran
  rcases (run_sleepers heard ran).drowsy (fun w => by rw [blocked w]; trivial) with
    zero | ⟨thread, publishing⟩
  · exact queued ((ledger.all_finished (ledger.none_left zero calls)).1 w)
  · rw [calls thread] at publishing
    exact publishing

def fallAsleep : List (Action oneWorker) :=
  [.worker 0 .loadStop, .worker 0 .popLocal, .worker 0 .lock, .worker 0 .testStop,
    .worker 0 .testPending]

theorem no_task_stranded_fallAsleep : ∃ s log,
    Runs.run step (State.init oneWorker)
      (fallAsleep ++ [.worker 0 .block] ++ submitBy (.inr 0) (some 0)) = some (s, log) ∧
      s.deques 0 = [0] ∧ s.worker 0 = .locking ∧ ¬Stranded s :=
  ⟨_, _, rfl, rfl, rfl, no_task_stranded
    (fallAsleep ++ [.worker 0 .block] ++ submitBy (.inr 0) (some 0)) rfl
    (Or.inr (by decide +kernel))⟩

-- The whole of `submit` falls between the lone worker's predicate and its block.
theorem fallAsleep_strands : ∃ s log,
    Runs.run step (State.init oneWorker)
      (fallAsleep ++ submitBy (.inr 0) none ++ [.worker 0 .block]) = some (s, log) ∧
      Stranded s :=
  ⟨_, _, rfl, by decide +kernel, ⟨0, by decide +kernel⟩, rfl, by decide +kernel⟩

end CppPractice.WorkStealingThreadPool
