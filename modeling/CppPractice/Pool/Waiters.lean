import CppPractice.Pool.WaitIdle

set_option autoImplicit false

namespace CppPractice.WorkStealingThreadPool

variable {c : Config}

def ClientPc.HoldsIdle : ClientPc → Prop
  | .waiting _ _ pc => pc = .testing ∨ pc = .blocking ∨ pc = .leaving
  | _ => False

def ClientPc.Asleep : ClientPc → Prop
  | .waiting _ _ pc => pc = .blocking ∨ pc = .blocked
  | _ => False

instance : (pc : ClientPc) → Decidable pc.Asleep
  | .waiting _ _ pc => inferInstanceAs (Decidable (pc = .blocking ∨ pc = .blocked))
  | .idle => inferInstanceAs (Decidable False)
  | .stopping => inferInstanceAs (Decidable False)
  | .notifying => inferInstanceAs (Decidable False)
  | .joining _ => inferInstanceAs (Decidable False)
  | .destroyed => inferInstanceAs (Decidable False)

structure Waiters (s : State c) : Prop where
  owner : ∀ i, (s.client i).HoldsIdle → s.idleOwner = some i
  asleep : ∀ i, (s.client i).Asleep → s.pending ≠ 0 ∨ ∃ w, s.worker w = .notifying

-- No increment takes `pending_` to 0 while a thread waits and no notification is under way.
def NoCountToZero (s : State c) : Action c → Prop
  | .submit _ action => action = .count → s.pending + 1 = 0 → (∃ i, (s.client i).Asleep) →
    ∃ w, s.worker w = .notifying
  | _ => True

instance (s : State c) : (action : Action c) → Decidable (NoCountToZero s action)
  | .submit _ action => inferInstanceAs (Decidable (action = .count → s.pending + 1 = 0 →
      (∃ i, (s.client i).Asleep) → ∃ w, s.worker w = .notifying))
  | .client _ _ => inferInstanceAs (Decidable True)
  | .worker _ _ => inferInstanceAs (Decidable True)

theorem init_waiters (c : Config) : Waiters (State.init c) where
  owner _ holds := holds.elim
  asleep _ asleep := asleep.elim

theorem woken_holdsIdle {pc : ClientPc} (holds : pc.woken.HoldsIdle) : pc.HoldsIdle := by
  unfold ClientPc.woken at holds
  split at holds
  · exact absurd holds (by simp [ClientPc.HoldsIdle])
  · exact holds

theorem woken_asleep {pc : ClientPc} (asleep : pc.woken.Asleep) : pc.HoldsIdle := by
  unfold ClientPc.woken at asleep
  split at asleep
  · exact absurd asleep (by simp [ClientPc.Asleep])
  · rename_i unblocked
    cases pc with
    | waiting caller submitted pc =>
      rcases asleep with rfl | rfl
      · exact Or.inr (Or.inl rfl)
      · exact absurd rfl (unblocked caller submitted)
    | _ => exact asleep.elim

section

variable {s s' : State c}

theorem Waiters.worker (waiters : Waiters s) {w : Fin c.workers} {action : WorkerAction}
    (effect : WorkerEffect s w action s') : Waiters s' := by
  -- A worker that was not about to notify leaves the others' notifications alone.
  have kept {old pc : WorkerPc} (was : s.worker w = old) (silent : old ≠ .notifying)
      (i : Fin c.clients) (asleep : (s.client i).Asleep) :
      s.pending ≠ 0 ∨ ∃ v, Function.update s.worker w pc v = .notifying := by
    refine (waiters.asleep i asleep).imp_right fun ⟨v, notifying⟩ => ⟨v, ?_⟩
    rw [Function.update_of_ne _, notifying]
    rintro rfl
    exact silent (was.symm.trans notifying)
  cases effect with
  | control was before after _ =>
    exact ⟨waiters.owner, kept was (by rintro rfl; exact before)⟩
  | take was takes => exact ⟨waiters.owner, kept was (by rintro rfl; exact takes.plain)⟩
  | finish was => exact ⟨waiters.owner, kept was (by simp)⟩
  | decrement was =>
    refine ⟨waiters.owner, fun i asleep => ?_⟩
    by_cases zero : s.pending - 1 = 0
    · refine Or.inr ⟨w, ?_⟩
      simp only [State.decrement, State.workerAt, Function.update_self, if_pos zero]
    · exact Or.inl zero
  | notifyIdle was unlocked =>
    have nobody {i : Fin c.clients} (holds : (s.client i).HoldsIdle) : False :=
      absurd (unlocked.symm.trans (waiters.owner i holds)) (by simp)
    exact ⟨fun i holds => (nobody (woken_holdsIdle holds)).elim,
      fun i asleep => (nobody (woken_asleep asleep)).elim⟩
  | sleep was none => exact ⟨waiters.owner, kept was (by simp)⟩
  | block was => exact ⟨waiters.owner, kept was (by simp)⟩
  | wake was => exact ⟨waiters.owner, kept was (by simp)⟩

theorem Waiters.caller (waiters : Waiters s) {thread : Thread c} {action : SubmitAction c}
    (counts : NoCountToZero s (.submit thread action)) (effect : CallEffect s thread action s') :
    Waiters s' := by
  cases effect with
  | count was =>
    refine ⟨waiters.owner, fun i asleep => ?_⟩
    by_cases zero : s.pending + 1 = 0
    · exact Or.inr (counts rfl zero ⟨i, asleep⟩)
    · exact Or.inl zero
  | @notify task woken was wakes =>
    refine ⟨waiters.owner, fun i asleep => (waiters.asleep i asleep).imp_right ?_⟩
    rintro ⟨v, notifying⟩
    refine ⟨v, ?_⟩
    cases woken with
    | none => exact notifying
    | some w =>
      have blocked : s.worker w = .blocked := wakes
      have apart : v ≠ w := by
        rintro rfl
        exact absurd (notifying.symm.trans blocked) (by simp)
      exact (Function.update_of_ne apart _ _).trans notifying
  | _ => exact ⟨waiters.owner, waiters.asleep⟩

theorem Waiters.moves (waiters : Waiters s) {i : Fin c.clients} {pc : ClientPc}
    {stop destroying : Bool} {owner : Option (Fin c.clients)} {worker : Fin c.workers → WorkerPc}
    (owns : pc.HoldsIdle → owner = some i)
    (others : ∀ j, j ≠ i → (s.client j).HoldsIdle → owner = some j)
    (sleeps : pc.Asleep → s.pending ≠ 0 ∨ (s.client i).Asleep)
    (notifying : ∀ w, s.worker w = .notifying → worker w = .notifying) :
    Waiters { s.clientAt i pc with
      stop := stop, destroying := destroying, idleOwner := owner, worker := worker } where
  owner :=
    (Function.forall_update_iff s.client fun j pc => pc.HoldsIdle → owner = some j).mpr
      ⟨owns, others⟩
  asleep := by
    have earlier (j : Fin c.clients) (asleep : (s.client j).Asleep) :
        s.pending ≠ 0 ∨ ∃ w, worker w = .notifying :=
      (waiters.asleep j asleep).imp_right (Exists.imp notifying)
    refine (Function.forall_update_iff s.client fun _ pc =>
      pc.Asleep → s.pending ≠ 0 ∨ ∃ w, worker w = .notifying).mpr
        ⟨fun asleep => ?_, fun j _ => earlier j⟩
    rcases sleeps asleep with some | before
    · exact Or.inl some
    · exact earlier i before

theorem Waiters.client (waiters : Waiters s) {i : Fin c.clients} {action : ClientAction}
    (effect : ClientEffect s i action s') : Waiters s' := by
  have keeps (j : Fin c.clients) (_ : j ≠ i) (holds : (s.client j).HoldsIdle) :
      s.idleOwner = some j := waiters.owner j holds
  -- Nobody else holds the mutex that `i` holds.
  have alone {P : Prop} (mine : (s.client i).HoldsIdle) (j : Fin c.clients) (apart : j ≠ i)
      (holds : (s.client j).HoldsIdle) : P :=
    absurd (Option.some.inj ((waiters.owner j holds).symm.trans (waiters.owner i mine))) apart
  cases effect with
  | wait was =>
    exact waiters.moves (by simp [ClientPc.HoldsIdle]) keeps (by simp [ClientPc.Asleep])
      fun _ => id
  | destroy was first =>
    exact waiters.moves (by simp [ClientPc.HoldsIdle]) keeps (by simp [ClientPc.Asleep])
      fun _ => id
  | lock was unlocked =>
    refine waiters.moves (fun _ => rfl) (fun j _ holds => ?_) (by simp [ClientPc.Asleep])
      fun _ => id
    exact absurd (unlocked.symm.trans (waiters.owner j holds)) (by simp)
  | test was =>
    refine waiters.moves (fun _ => waiters.owner i (by rw [was]; exact Or.inl rfl)) keeps
      (fun asleep => Or.inl fun zero => ?_) fun _ => id
    rw [if_pos zero] at asleep
    exact absurd asleep (by simp [ClientPc.Asleep])
  | block was =>
    exact waiters.moves (by simp [ClientPc.HoldsIdle])
      (fun j apart holds => alone (by rw [was]; exact Or.inr (Or.inl rfl)) j apart holds)
      (fun _ => Or.inr (by rw [was]; exact Or.inl rfl)) fun _ => id
  | wake was =>
    exact waiters.moves (by simp [ClientPc.HoldsIdle]) keeps (by simp [ClientPc.Asleep])
      fun _ => id
  | @leave caller submitted was =>
    exact waiters.moves (by cases caller <;> exact False.elim)
      (fun j apart holds => alone (by rw [was]; exact Or.inr (Or.inr rfl)) j apart holds)
      (by cases caller <;> exact False.elim) fun _ => id
  | storeStop was => exact waiters.moves False.elim keeps False.elim fun _ => id
  | notifyAll was =>
    exact waiters.moves False.elim keeps False.elim fun w notifying => by rw [notifying]; rfl
  | join was after =>
    exact waiters.moves (by rcases after with rfl | rfl <;> exact False.elim) keeps
      (by rcases after with rfl | rfl <;> exact False.elim) fun _ => id

theorem step_waiters {action : Action c} {reply : Unit} (waiters : Waiters s)
    (counts : NoCountToZero s action) (stepped : step s action = some (s', reply)) : Waiters s' :=
  step_effects (P := fun s action s' => NoCountToZero s action → Waiters s')
    (fun _ _ _ effect _ => waiters.worker effect)
    (fun _ _ _ effect counts => waiters.caller counts effect)
    (fun _ _ _ effect _ => waiters.client effect) stepped counts

end

def LeftBehind (s : State c) : Prop :=
  (∃ i caller submitted, s.client i = .waiting caller submitted .blocked) ∧ s.pending = 0 ∧
    (∀ thread, s.calls thread = none) ∧ ∀ w, s.worker w ≠ .notifying

theorem no_waiter_left_behind (actions : List (Action c)) {s : State c}
    {log : List (Action c × Unit)} (ran : Runs.run step (State.init c) actions = some (s, log))
    (counts : Runs.Each step NoCountToZero (State.init c) actions) : ¬LeftBehind s := by
  have waiters : Waiters s :=
    Runs.run_each (init_waiters c)
      (fun _ _ _ _ _ _ _ waiters counts stepped => step_waiters waiters counts stepped) counts ran
  rintro ⟨⟨i, caller, submitted, blocked⟩, zero, -, silent⟩
  rcases waiters.asleep i (by rw [blocked]; exact Or.inr rfl) with some | ⟨w, notifying⟩
  · exact some zero
  · exact silent w notifying

def blockOne : List (Action oneWorker) := waitOne ++ [.client 0 .block]

theorem no_waiter_left_behind_blockOne : ∃ s log,
    Runs.run step (State.init oneWorker)
      (submitBy (.inr 1) none ++ blockOne ++ runOne ++ [.worker 0 .notifyIdle]) = some (s, log) ∧
      s.client 0 = .waiting .client [0] .locking ∧ ¬LeftBehind s :=
  ⟨_, _, rfl, rfl, no_waiter_left_behind
    (submitBy (.inr 1) none ++ blockOne ++ runOne ++ [.worker 0 .notifyIdle]) rfl
    (by decide +kernel)⟩

-- The task is counted down first, the waiter blocks on `2 ^ 64 - 1`, and the increment makes it 0.
def countToZero : List (Action oneWorker) :=
  [.submit (.inr 1) .start, .submit (.inr 1) .push] ++ runOne ++ blockOne ++
    [.submit (.inr 1) .count, .submit (.inr 1) (.notify none)]

theorem countToZero_leaves_behind : ∃ s log,
    Runs.run step (State.init oneWorker) countToZero = some (s, log) ∧ LeftBehind s :=
  ⟨_, _, rfl, ⟨0, .client, [], rfl⟩, rfl, by decide +kernel, by decide +kernel⟩

end CppPractice.WorkStealingThreadPool
