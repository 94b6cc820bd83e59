import CppPractice.Pool.Once

set_option autoImplicit false

namespace CppPractice.WorkStealingThreadPool

variable {c : Config}

def ClientPc.HasJoined : ClientPc → Nat → Prop
  | .joining idx, w => w < idx
  | .destroyed, _ => True
  | _, _ => False

def Action.byWorker : Action c → Bool
  | .worker _ _ => true
  | .submit (.inl _) _ => true
  | _ => false

structure Joined (s : State c) : Prop where
  stopped : ∀ w, s.worker w = .exited → s.stop = true
  calling : ∀ w, s.calls (.inl w) ≠ none → (s.worker w).isRunning = true
  holds : ∀ w, s.cvOwner = some w → (s.worker w).HoldsCv
  joined : ∀ i (w : Fin c.workers), (s.client i).HasJoined w → s.worker w = .exited

theorem init_joined (c : Config) : Joined (State.init c) where
  stopped _ exited := absurd exited (by simp [State.init])
  calling _ calls := absurd rfl calls
  holds _ owns := absurd owns (by simp [State.init])
  joined _ _ joined := joined.elim

theorem woken_hasJoined {pc : ClientPc} {w : Nat} (joined : pc.woken.HasJoined w) :
    pc.HasJoined w := by
  unfold ClientPc.woken at joined
  split at joined
  · exact joined.elim
  · exact joined

theorem woken_exited {pc : WorkerPc} : pc.woken = .exited ↔ pc = .exited := by
  unfold WorkerPc.woken
  split <;> simp

theorem holdsCv_woken {pc : WorkerPc} (holds : pc.HoldsCv) : pc.woken.HoldsCv := by
  unfold WorkerPc.woken
  split
  · exact holds.elim
  · exact holds

theorem isRunning_woken {pc : WorkerPc} (running : pc.isRunning = true) :
    pc.woken.isRunning = true := by
  unfold WorkerPc.woken
  split
  · exact running
  · exact running

section

variable {s s' : State c}

theorem Worked.owner {w v : Fin c.workers} {pc : WorkerPc} (worked : Worked s s' w pc)
    (holds : s.cvOwner = some w → (s.worker w).HoldsCv) (owns : s'.cvOwner = some v) :
    if v = w then pc.HoldsCv else s.cvOwner = some v := by
  have cv := worked.cv
  rw [owns] at cv
  generalize held : some v = owner at cv
  cases cv with
  | keep same =>
    split
    · rename_i here
      exact same.mpr (holds (here ▸ held.symm))
    · rfl
  | lock unlocked now =>
    rw [if_pos (Option.some.inj held)]
    exact now
  | unlock => cases held

theorem Joined.worker (joined : Joined s) {w : Fin c.workers} {pc : WorkerPc}
    (worked : Worked s s' w pc) : Joined s' where
  stopped v exited := by
    rw [worked.worker, Function.update_apply] at exited
    rw [worked.stop]
    split at exited
    · exact worked.goes.leaves exited
    · exact joined.stopped v exited
  calling v calls := by
    rw [worked.calls] at calls
    have running := joined.calling v calls
    rw [worked.worker, Function.update_apply]
    split
    · rename_i same
      subst same
      exact absurd (worked.ends running) calls
    · exact running
  holds v owns := by
    have held := worked.owner (joined.holds w) owns
    rw [worked.worker, Function.update_apply]
    split at held
    · rename_i same
      rwa [if_pos same]
    · rename_i apart
      rw [if_neg apart]
      exact joined.holds v held
  joined i v ended := by
    have before : (s.client i).HasJoined v := by
      rcases worked.client with same | woken
      · rwa [same] at ended
      · rw [woken] at ended
        exact woken_hasJoined ended
    rw [worked.worker, Function.update_of_ne]
    · exact joined.joined i v before
    · rintro rfl
      exact worked.goes.inside (joined.joined i v before)

theorem notify_worker {thread : Thread c} {task : Task} {woken : Option (Fin c.workers)}
    (wakes : s.Wakes woken) (w : Fin c.workers) :
    (s.notify thread task woken).worker w = s.worker w ∨
      (s.worker w = .blocked ∧ (s.notify thread task woken).worker w = .locking) := by
  cases woken with
  | none => exact .inl rfl
  | some v =>
    by_cases same : w = v
    · subst same
      exact .inr ⟨wakes, Function.update_self _ _ _⟩
    · exact .inl (Function.update_of_ne same _ _)

theorem Joined.calling_update (joined : Joined s) {thread : Thread c} {pc : Option SubmitPc}
    (own : ∀ w, thread = .inl w → pc ≠ none → (s.worker w).isRunning = true) (w : Fin c.workers)
    (calls : Function.update s.calls thread pc (.inl w) ≠ none) :
    (s.worker w).isRunning = true := by
  rw [Function.update_apply] at calls
  split at calls
  · rename_i same
    exact own w same.symm calls
  · exact joined.calling w calls

theorem Joined.caller (joined : Joined s) {thread : Thread c} {action : SubmitAction c}
    (effect : CallEffect s thread action s') : Joined s' := by
  have own {pc : SubmitPc} (was : s.calls thread = some pc) (w : Fin c.workers)
      (same : thread = .inl w) : (s.worker w).isRunning = true := by
    refine joined.calling w ?_
    rw [← same, was]
    simp
  cases effect with
  | start was free =>
    exact ⟨joined.stopped, joined.calling_update fun w same _ => by rw [same] at free; exact free,
      joined.holds, joined.joined⟩
  | fail was =>
    exact ⟨joined.stopped, joined.calling_update fun w same _ => own was w same, joined.holds,
      joined.joined⟩
  | push was room =>
    exact ⟨joined.stopped, joined.calling_update fun w same _ => own was w same, joined.holds,
      joined.joined⟩
  | count was =>
    exact ⟨joined.stopped, joined.calling_update fun w same _ => own was w same, joined.holds,
      joined.joined⟩
  | notify was wakes =>
    refine ⟨fun w exited => ?_, fun w calls => ?_, fun w owns => ?_, fun i w ended => ?_⟩
    · rcases notify_worker wakes w with same | ⟨-, locking⟩
      · exact joined.stopped w (same.symm.trans exited)
      · exact absurd (locking.symm.trans exited) (by simp)
    · have running := joined.calling_update (fun w same _ => own was w same) w calls
      rcases notify_worker wakes w with same | ⟨blocked, -⟩
      · rwa [same]
      · rw [blocked] at running
        exact absurd running (by simp [WorkerPc.isRunning])
    · have held := joined.holds w owns
      rcases notify_worker wakes w with same | ⟨blocked, -⟩
      · rwa [same]
      · rw [blocked] at held
        exact held.elim
    · have exited := joined.joined i w ended
      rcases notify_worker wakes w with same | ⟨blocked, -⟩
      · rwa [same]
      · exact absurd (blocked.symm.trans exited) (by simp)

/-- What matters here of a client's step: a join returns only after the worker's exit. -/
structure Went (s s' : State c) (i : Fin c.clients) (pc : ClientPc) : Prop where
  client : s'.client = Function.update s.client i pc
  calls : s'.calls = s.calls
  stop : s.stop = true → s'.stop = true
  cvOwner : s'.cvOwner = s.cvOwner
  worker : s'.worker = s.worker ∨ s'.worker = fun w => (s.worker w).woken
  joins : ∀ w : Fin c.workers, pc.HasJoined w → (s.client i).HasJoined w ∨ s.worker w = .exited

theorem clientStep_went {i : Fin c.clients} {action : ClientAction}
    (stepped : clientStep s i action = some s') : ∃ pc, Went s s' i pc := by
  cases clientStep_effect stepped with
  | wait was => exact ⟨_, rfl, rfl, id, rfl, .inl rfl, fun _ => False.elim⟩
  | destroy was first => exact ⟨_, rfl, rfl, id, rfl, .inl rfl, fun _ => False.elim⟩
  | lock was unlocked => exact ⟨_, rfl, rfl, id, rfl, .inl rfl, fun _ => False.elim⟩
  | test was => exact ⟨_, rfl, rfl, id, rfl, .inl rfl, fun _ => False.elim⟩
  | block was => exact ⟨_, rfl, rfl, id, rfl, .inl rfl, fun _ => False.elim⟩
  | wake was => exact ⟨_, rfl, rfl, id, rfl, .inl rfl, fun _ => False.elim⟩
  | @leave caller submitted was =>
    exact ⟨_, rfl, rfl, id, rfl, .inl rfl, fun _ => by cases caller <;> exact False.elim⟩
  | storeStop was => exact ⟨_, rfl, rfl, fun _ => rfl, rfl, .inl rfl, fun _ => False.elim⟩
  | notifyAll was =>
    exact ⟨_, rfl, rfl, id, rfl, .inr rfl, fun w none => absurd none (Nat.not_lt_zero _)⟩
  | @join idx pc was after =>
    refine ⟨pc, rfl, rfl, id, rfl, .inl rfl, fun w ended => ?_⟩
    rw [was]
    simp only [clientStep, was] at stepped
    split at stepped
    · rename_i inside
      obtain ⟨exited, same⟩ := Option.ite_none_right_eq_some.mp stepped
      obtain rfl : ClientPc.joining (idx + 1) = pc := by
        simpa [State.clientAt] using congrFun (congrArg State.client (Option.some.inj same)) i
      rcases Nat.lt_or_eq_of_le (Nat.le_of_lt_succ ended) with before | now
      · exact .inl before
      · obtain rfl : w = ⟨idx, inside⟩ := Fin.ext now
        exact .inr exited
    · rename_i outside
      exact .inl (w.isLt.trans_le (Nat.le_of_not_lt outside))

theorem Joined.client (joined : Joined s) {i : Fin c.clients} {pc : ClientPc}
    (went : Went s s' i pc) : Joined s' := by
  have exited (w : Fin c.workers) : s'.worker w = .exited ↔ s.worker w = .exited := by
    rcases went.worker with same | woken
    · rw [same]
    · rw [woken]
      exact woken_exited
  refine ⟨fun w gone => ?_, fun w calls => ?_, fun w owns => ?_, fun j w ended => ?_⟩
  · exact went.stop (joined.stopped w ((exited w).mp gone))
  · rw [went.calls] at calls
    have running := joined.calling w calls
    rcases went.worker with same | woken
    · rwa [same]
    · rw [woken]
      exact isRunning_woken running
  · rw [went.cvOwner] at owns
    have held := joined.holds w owns
    rcases went.worker with same | woken
    · rwa [same]
    · rw [woken]
      exact holdsCv_woken held
  · rw [exited]
    rw [went.client, Function.update_apply] at ended
    split at ended
    · exact (went.joins w ended).elim (joined.joined i w) id
    · exact joined.joined j w ended

theorem step_joined {action : Action c} {reply : Unit} (joined : Joined s)
    (stepped : step s action = some (s', reply)) : Joined s' := by
  obtain ⟨t, moved, same⟩ := Option.map_eq_some_iff.mp stepped
  obtain ⟨rfl, -⟩ := Prod.mk.inj same
  cases action with
  | worker w action =>
    obtain ⟨pc, worked⟩ := (workerStep_effect moved).worked
    exact joined.worker worked
  | submit thread action => exact joined.caller (submitStep_effect moved)
  | client i action =>
    obtain ⟨pc, went⟩ := clientStep_went moved
    exact joined.client went

end

theorem run_joined {actions : List (Action c)} {s : State c} {log : List (Action c × Unit)}
    (ran : Runs.run step (State.init c) actions = some (s, log)) : Joined s :=
  Runs.run_induction (P := fun _ s => Joined s) (init_joined c)
    (fun _ _ _ _ _ _ _ joined stepped => step_joined joined stepped) ran

def Gone (s : State c) : Prop := ∀ w, s.worker w = .exited ∧ s.calls (.inl w) = none

theorem Joined.gone {s : State c} (joined : Joined s) {i : Fin c.clients}
    (destroyed : s.client i = .destroyed) : Gone s := by
  intro w
  have exited := joined.joined i w (by rw [destroyed]; trivial)
  refine ⟨exited, ?_⟩
  by_contra calls
  have running := joined.calling w calls
  rw [exited] at running
  exact absurd running (by simp [WorkerPc.isRunning])

theorem Gone.caller {s s' : State c} (gone : Gone s) {thread : Thread c} {action : SubmitAction c}
    (effect : CallEffect s thread action s') :
    Gone s' ∧ Action.byWorker (.submit thread action) = false := by
  cases thread with
  | inl w =>
    have never {pc : SubmitPc} {P : Prop} (was : s.calls (.inl w) = some pc) : P :=
      absurd (was.symm.trans (gone w).2) (Option.some_ne_none pc)
    cases effect with
    | start was free =>
      rw [State.mayCall, (gone w).1] at free
      exact absurd free (by simp [WorkerPc.isRunning])
    | fail was => exact never was
    | push was room => exact never was
    | count was => exact never was
    | notify was wakes => exact never was
  | inr i =>
    -- A client's call is no worker's.
    refine ⟨?_, rfl⟩
    cases effect with
    | notify was wakes =>
      refine fun w => ⟨?_, (gone w).2⟩
      rcases notify_worker wakes w with same | ⟨blocked, -⟩
      · exact same.trans (gone w).1
      · exact absurd (blocked.symm.trans (gone w).1) (by simp)
    | _ => exact gone

theorem step_gone {s s' : State c} {action : Action c} {reply : Unit} (gone : Gone s)
    (stepped : step s action = some (s', reply)) : Gone s' ∧ action.byWorker = false := by
  obtain ⟨t, moved, same⟩ := Option.map_eq_some_iff.mp stepped
  obtain ⟨rfl, -⟩ := Prod.mk.inj same
  cases action with
  | worker w action =>
    obtain ⟨pc, worked⟩ := (workerStep_effect moved).worked
    exact absurd (gone w).1 worked.goes.inside
  | submit thread action => exact gone.caller (submitStep_effect moved)
  | client i action =>
    obtain ⟨pc, went⟩ := clientStep_went moved
    refine ⟨fun w => ⟨?_, ?_⟩, rfl⟩
    · rcases went.worker with same | woken
      · rw [same]
        exact (gone w).1
      · rw [woken]
        exact woken_exited.mpr (gone w).1
    · rw [went.calls]
      exact (gone w).2

theorem run_gone {start s : State c} {actions : List (Action c)} {log : List (Action c × Unit)}
    (gone : Gone start) (ran : Runs.run step start actions = some (s, log)) :
    Gone s ∧ ∀ action ∈ actions, action.byWorker = false := by
  have kept := Runs.run_induction
    (P := fun log s => Gone s ∧ ∀ entry ∈ log, Action.byWorker entry.1 = false) ?_ ?_ ran
  · refine ⟨kept.1, fun action member => ?_⟩
    rw [← Runs.run_inputs ran] at member
    obtain ⟨entry, inside, rfl⟩ := List.mem_map.mp member
    exact kept.2 entry inside
  · exact ⟨gone, by simp⟩
  · rintro front s log action s' reply - ⟨gone, quiet⟩ stepped
    obtain ⟨gone', own⟩ := step_gone gone stepped
    refine ⟨gone', fun entry member => ?_⟩
    rcases List.mem_append.mp member with earlier | now
    · exact quiet entry earlier
    · rw [List.mem_singleton.mp now]
      exact own

/--
When the destructor's last join has returned, every worker has left its loop, none of them holds
`cv_m_`, and no thread of the pool takes another step, whatever the clients do.
-/
theorem destroyed_for_good {front rest : List (Action c)} {middle s : State c}
    {early late : List (Action c × Unit)}
    (ran : Runs.run step (State.init c) front = some (middle, early)) {i : Fin c.clients}
    (destroyed : middle.client i = .destroyed)
    (later : Runs.run step middle rest = some (s, late)) :
    (∀ w, s.worker w = .exited) ∧ middle.stop = true ∧ middle.cvOwner = none ∧
      ∀ action ∈ rest, action.byWorker = false := by
  have joined := run_joined ran
  have gone := joined.gone destroyed
  obtain ⟨gone', quiet⟩ := run_gone gone later
  refine ⟨fun w => (gone' w).1, joined.stopped ⟨0, c.someWorker⟩ (gone _).1, ?_, quiet⟩
  cases owner : middle.cvOwner with
  | none => rfl
  | some w =>
    have held := joined.holds w owner
    rw [(gone w).1] at held
    exact held.elim

def destroyPool : List (Action oneWorker) :=
  shutDown ++ [.worker 0 .loadStop, .client 0 .join, .client 0 .join]

def submitLate : List (Action oneWorker) := submitBy (.inr 1) none

theorem destroyed_for_good_destroyPool : ∃ middle s early late,
    Runs.run step (State.init oneWorker) destroyPool = some (middle, early) ∧
      Runs.run step middle submitLate = some (s, late) ∧
      (∀ w, s.worker w = .exited) ∧ middle.stop = true ∧ middle.cvOwner = none ∧
      ∀ action ∈ submitLate, action.byWorker = false :=
  have ran : Runs.run step (State.init oneWorker) destroyPool = some _ := rfl
  ⟨_, _, _, _, ran, rfl, destroyed_for_good ran (i := 0) rfl rfl⟩

end CppPractice.WorkStealingThreadPool
