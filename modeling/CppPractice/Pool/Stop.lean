import CppPractice.Pool.Wakeups

set_option autoImplicit false

namespace CppPractice.WorkStealingThreadPool

variable {c : Config}

def ClientPc.HasNotified : ClientPc → Prop
  | .joining _ => True
  | .destroyed => True
  | _ => False

instance : (pc : ClientPc) → Decidable pc.HasNotified
  | .joining _ => inferInstanceAs (Decidable True)
  | .destroyed => inferInstanceAs (Decidable True)
  | .idle => inferInstanceAs (Decidable False)
  | .waiting _ _ _ => inferInstanceAs (Decidable False)
  | .stopping => inferInstanceAs (Decidable False)
  | .notifying => inferInstanceAs (Decidable False)

def State.Notified (s : State c) : Prop := ∃ i, (s.client i).HasNotified

instance (s : State c) : Decidable s.Notified :=
  inferInstanceAs (Decidable (∃ i, (s.client i).HasNotified))

-- `notify_all` finds no worker about to block, and later no worker finds `pending_` 0.
def WakesForStop (s : State c) : Action c → Prop
  | .client _ action => action = .notifyAll → ∀ w, s.worker w ≠ .blocking
  | .worker _ action => action = .testPending → s.Notified → s.pending ≠ 0
  | .submit _ _ => True

instance (s : State c) : (action : Action c) → Decidable (WakesForStop s action)
  | .client _ action => inferInstanceAs (Decidable (action = .notifyAll →
      ∀ w, s.worker w ≠ .blocking))
  | .worker _ action => inferInstanceAs (Decidable (action = .testPending →
      s.Notified → s.pending ≠ 0))
  | .submit _ _ => inferInstanceAs (Decidable True)

def Roused (s : State c) : Prop := s.Notified → ∀ w, ¬(s.worker w).Drowsy

theorem init_roused (c : Config) : Roused (State.init c) := by
  rintro ⟨i, notified⟩
  exact notified.elim

theorem woken_hasNotified {pc : ClientPc} (notified : pc.woken.HasNotified) : pc.HasNotified := by
  unfold ClientPc.woken at notified
  split at notified
  · exact notified.elim
  · exact notified

section

variable {s s' : State c}

theorem awake_update {w : Fin c.workers} {pc : WorkerPc} (others : ∀ v, ¬(s.worker v).Drowsy)
    (up : ¬pc.Drowsy) : ∀ v, ¬(Function.update s.worker w pc v).Drowsy :=
  (Function.forall_update_iff s.worker fun _ pc => ¬pc.Drowsy).mpr ⟨up, fun v _ => others v⟩

theorem Roused.worker (roused : Roused s) {w : Fin c.workers} {action : WorkerAction}
    (wakes : WakesForStop s (.worker w action)) (effect : WorkerEffect s w action s') :
    Roused s' := by
  intro notified
  have before : s.Notified := by
    cases effect with
    | notifyIdle was unlocked => exact notified.imp fun i => woken_hasNotified
    | _ => exact notified
  have others := roused before
  cases effect with
  | control was before after _ => exact awake_update others after.awake
  | take was takes => exact awake_update others id
  | finish was => exact awake_update others id
  | decrement was => exact awake_update others (by split <;> exact id)
  | notifyIdle was unlocked => exact awake_update others id
  | sleep was none => exact absurd none (wakes rfl before)
  | block was =>
    have down : (s.worker w).Drowsy := by
      rw [was]
      trivial
    exact absurd down (others w)
  | wake was => exact awake_update others id

theorem Roused.caller (roused : Roused s) {thread : Thread c} {action : SubmitAction c}
    (effect : CallEffect s thread action s') : Roused s' := by
  cases effect with
  | @notify task woken was wakes =>
    cases woken with
    | none => exact roused
    | some w => exact fun notified => awake_update (roused notified) id
  | _ => exact roused

theorem Roused.moves (roused : Roused s) {i : Fin c.clients} {pc : ClientPc}
    {stop destroying : Bool} {owner : Option (Fin c.clients)}
    (earlier : pc.HasNotified → (s.client i).HasNotified) :
    Roused { s.clientAt i pc with stop := stop, destroying := destroying, idleOwner := owner } := by
  intro notified
  refine roused ?_
  rcases (Function.exists_update_iff s.client fun _ pc => pc.HasNotified).mp notified with
    here | ⟨j, -, there⟩
  · exact ⟨i, earlier here⟩
  · exact ⟨j, there⟩

theorem Roused.client (roused : Roused s) {i : Fin c.clients} {action : ClientAction}
    (wakes : WakesForStop s (.client i action)) (effect : ClientEffect s i action s') :
    Roused s' := by
  cases effect with
  | wait was => exact roused.moves False.elim
  | destroy was first => exact roused.moves False.elim
  | lock was unlocked => exact roused.moves False.elim
  | test was => exact roused.moves False.elim
  | block was => exact roused.moves False.elim
  | wake was => exact roused.moves False.elim
  | @leave caller submitted was => exact roused.moves (by cases caller <;> exact False.elim)
  | storeStop was => exact roused.moves False.elim
  | notifyAll was => exact fun _ w down => wakes rfl w (woken_drowsy down)
  | join was after =>
    refine roused.moves fun _ => ?_
    rw [was]
    trivial

theorem step_roused {action : Action c} {reply : Unit} (roused : Roused s)
    (wakes : WakesForStop s action) (stepped : step s action = some (s', reply)) : Roused s' :=
  step_effects (P := fun s action s' => WakesForStop s action → Roused s')
    (fun _ _ _ effect wakes => roused.worker wakes effect)
    (fun _ _ _ effect _ => roused.caller effect)
    (fun _ _ _ effect wakes => roused.client wakes effect) stepped wakes

end

def Hung (s : State c) : Prop := s.Notified ∧ ∃ w, s.worker w = .blocked

theorem shutdown_wakes_all (actions : List (Action c)) {s : State c}
    {log : List (Action c × Unit)} (ran : Runs.run step (State.init c) actions = some (s, log))
    (wakes : Runs.Each step WakesForStop (State.init c) actions) : ¬Hung s := by
  rintro ⟨notified, w, blocked⟩
  have roused : Roused s :=
    Runs.run_each (init_roused c)
      (fun _ _ _ _ _ _ _ roused wakes stepped => step_roused roused wakes stepped) wakes ran
  refine roused notified w ?_
  rw [blocked]
  trivial

def sleepFirst : List (Action oneWorker) := fallAsleep ++ [.worker 0 .block] ++ shutDown

theorem shutdown_wakes_all_sleepFirst : ∃ s log,
    Runs.run step (State.init oneWorker) sleepFirst = some (s, log) ∧
      s.client 0 = .joining 0 ∧ s.worker 0 = .locking ∧ ¬Hung s :=
  ⟨_, _, rfl, rfl, rfl, shutdown_wakes_all sleepFirst rfl (by decide +kernel)⟩

-- The destructor runs between the worker's predicate and its block.
theorem fallAsleep_hangs : ∃ s log,
    Runs.run step (State.init oneWorker) (fallAsleep ++ shutDown ++ [.worker 0 .block]) =
      some (s, log) ∧ s.stop = true ∧ Hung s :=
  ⟨_, _, rfl, rfl, ⟨0, trivial⟩, 0, rfl⟩

section

variable {s s' : State c}

theorem block_hangs {w : Fin c.workers} (notified : s.Notified) (pc : s.worker w = .blocking) :
    ∃ after, step s (.worker w .block) = some (after, ()) ∧ Hung after := by
  refine ⟨{ s.workerAt w .blocked with cvOwner := none }, ?_, notified, w, ?_⟩
  · simp only [step, next, workerStep, pc, Option.map_some]
  · exact Function.update_self _ _ _

theorem testPending_eq {w : Fin c.workers} {reply : Unit}
    (stepped : step s (.worker w .testPending) = some (s', reply)) :
    s' = s.workerAt w (if s.pending > 0 then .leaving else .blocking) := by
  cases pc : s.worker w <;> simp [step, next, workerStep, pc] at stepped
  exact stepped.symm

theorem notifyAll_eq {i : Fin c.clients} {reply : Unit}
    (stepped : step s (.client i .notifyAll) = some (s', reply)) :
    s' = { s.clientAt i (.joining 0) with worker := fun w => (s.worker w).woken } := by
  cases pc : s.client i <;> simp [step, next, clientStep, pc] at stepped
  exact stepped.symm

-- The condition leaves nothing out: after a step that breaks it, a worker can block for good.
theorem missed_hangs {action : Action c} {reply : Unit} (missed : ¬WakesForStop s action)
    (stepped : step s action = some (s', reply)) :
    ∃ w after, step s' (.worker w .block) = some (after, ()) ∧ Hung after := by
  cases action with
  | worker w action =>
    obtain ⟨rfl, notified, zero⟩ : action = .testPending ∧ s.Notified ∧ s.pending = 0 := by
      simpa [WakesForStop] using missed
    obtain rfl := testPending_eq stepped
    refine ⟨w, block_hangs notified ?_⟩
    simp [State.workerAt, zero]
  | submit thread action => exact absurd trivial missed
  | client i action =>
    obtain ⟨rfl, w, blocking⟩ : action = .notifyAll ∧ ∃ w, s.worker w = .blocking := by
      simpa [WakesForStop] using missed
    obtain rfl := notifyAll_eq stepped
    refine ⟨w, block_hangs ⟨i, ?_⟩ ?_⟩
    · simp only [State.clientAt, Function.update_self]
      trivial
    · simp only [blocking, WorkerPc.woken]

end

end CppPractice.WorkStealingThreadPool
