import CppPractice.Pool.Once

set_option autoImplicit false

namespace CppPractice.WorkStealingThreadPool

variable {c : Config}

structure Awaited (s : State c) : Prop where
  called : ∀ thread task, s.calls thread = some (.counted task) → task ∈ s.counted
  returned : ∀ task ∈ s.returned, task ∈ s.counted
  submitted : ∀ i caller submitted pc, s.client i = .waiting caller submitted pc →
    ∀ task ∈ submitted, task ∈ s.counted
  idle : ∀ i caller submitted, s.client i = .waiting caller submitted .leaving →
    ∀ task ∈ submitted, task ∈ s.finished

-- No check finds `pending_` 0 while a task is counted down but not yet counted.
def NoEarlyCheck (s : State c) : Action c → Prop
  | .client _ action => action = .test → s.pending = 0 →
    ∀ thread, ∀ task ∈ uncounted (s.calls thread), task ∉ s.decremented
  | _ => True

instance (s : State c) : (action : Action c) → Decidable (NoEarlyCheck s action)
  | .client _ action => inferInstanceAs (Decidable (action = .test → s.pending = 0 →
      ∀ thread, ∀ task ∈ uncounted (s.calls thread), task ∉ s.decremented))
  | .submit _ _ => inferInstanceAs (Decidable True)
  | .worker _ _ => inferInstanceAs (Decidable True)

theorem init_awaited (c : Config) : Awaited (State.init c) where
  called _ _ calls := absurd calls (by simp [State.init])
  returned _ member := absurd member (by simp [State.init])
  submitted _ _ _ _ waiting := absurd waiting (by simp [State.init])
  idle _ _ _ waiting := absurd waiting (by simp [State.init])

theorem woken_waiting {pc : ClientPc} {caller : Caller} {submitted : List Task} {wait : WaitPc}
    (woken : pc.woken = .waiting caller submitted wait) :
    pc = .waiting caller submitted wait ∨
      (pc = .waiting caller submitted .blocked ∧ wait = .locking) := by
  unfold ClientPc.woken at woken
  split at woken
  · obtain ⟨rfl, rfl, rfl⟩ := ClientPc.waiting.inj woken
    exact Or.inr ⟨rfl, rfl⟩
  · exact Or.inl woken

section

variable {s s' : State c}

theorem Awaited.worker (awaited : Awaited s) {w : Fin c.workers} {action : WorkerAction}
    (effect : WorkerEffect s w action s') : Awaited s' := by
  cases effect with
  | finish was =>
    exact ⟨awaited.called, awaited.returned, awaited.submitted, fun i caller submitted waiting
      task member => List.mem_append_left _ (awaited.idle i caller submitted waiting task member)⟩
  | notifyIdle was unlocked =>
    refine ⟨awaited.called, awaited.returned, fun i caller submitted pc waiting => ?_,
      fun i caller submitted waiting => ?_⟩
    · rcases woken_waiting waiting with same | ⟨blocked, -⟩
      · exact awaited.submitted i caller submitted pc same
      · exact awaited.submitted i caller submitted .blocked blocked
    · rcases woken_waiting waiting with same | ⟨-, leaving⟩
      · exact awaited.idle i caller submitted same
      · exact absurd leaving (by simp)
  | _ => exact ⟨awaited.called, awaited.returned, awaited.submitted, awaited.idle⟩

theorem Awaited.calls (awaited : Awaited s) {thread : Thread c} {pc : Option SubmitPc}
    (uncalled : ∀ task, pc ≠ some (.counted task)) :
    ∀ other task, Function.update s.calls thread pc other = some (.counted task) → task ∈ s.counted :=
  (Function.forall_update_iff s.calls fun _ pc =>
    ∀ task, pc = some (.counted task) → task ∈ s.counted).mpr
      ⟨fun task calls => absurd calls (uncalled task), fun other _ => awaited.called other⟩

theorem Awaited.caller (awaited : Awaited s) {thread : Thread c} {action : SubmitAction c}
    (effect : CallEffect s thread action s') : Awaited s' := by
  cases effect with
  | start was free =>
    exact ⟨awaited.calls (by simp), awaited.returned, awaited.submitted, awaited.idle⟩
  | fail was => exact ⟨awaited.calls (by simp), awaited.returned, awaited.submitted, awaited.idle⟩
  | push was room =>
    exact ⟨awaited.calls (by simp), awaited.returned, awaited.submitted, awaited.idle⟩
  | @count task was =>
    have kept {other : Task} (counted : other ∈ s.counted) : other ∈ s.counted ++ [task] :=
      List.mem_append_left _ counted
    refine ⟨?_, fun other member => kept (awaited.returned other member),
      fun i caller submitted pc waiting other member =>
        kept (awaited.submitted i caller submitted pc waiting other member), awaited.idle⟩
    refine (Function.forall_update_iff s.calls fun _ pc =>
      ∀ task', pc = some (.counted task') → task' ∈ s.counted ++ [task]).mpr
        ⟨fun task' calls => ?_, fun other _ task' calls => kept (awaited.called other task' calls)⟩
    obtain rfl : task = task' := by simpa using calls
    exact List.mem_append_right _ (List.mem_singleton_self task)
  | notify was wakes =>
    refine ⟨awaited.calls (by simp), fun task member => ?_, awaited.submitted, awaited.idle⟩
    rcases List.mem_append.mp member with old | new
    · exact awaited.returned task old
    · obtain rfl := List.mem_singleton.mp new
      exact awaited.called _ _ was

theorem Awaited.moves (awaited : Awaited s) {i : Fin c.clients} {pc : ClientPc}
    {stop destroying : Bool} {owner : Option (Fin c.clients)} {worker : Fin c.workers → WorkerPc}
    (waits : ∀ caller submitted wait, pc = .waiting caller submitted wait →
      (∀ task ∈ submitted, task ∈ s.counted) ∧
        (wait = .leaving → ∀ task ∈ submitted, task ∈ s.finished)) :
    Awaited { s.clientAt i pc with
      stop := stop, destroying := destroying, idleOwner := owner, worker := worker } := by
  refine ⟨awaited.called, awaited.returned, ?_, ?_⟩
  · exact (Function.forall_update_iff s.client fun _ pc => ∀ caller submitted wait,
      pc = .waiting caller submitted wait → ∀ task ∈ submitted, task ∈ s.counted).mpr
        ⟨fun caller submitted wait waiting => (waits caller submitted wait waiting).1,
          fun j _ => awaited.submitted j⟩
  · exact (Function.forall_update_iff s.client fun _ pc => ∀ caller submitted,
      pc = .waiting caller submitted .leaving → ∀ task ∈ submitted, task ∈ s.finished).mpr
        ⟨fun caller submitted waiting => (waits caller submitted .leaving waiting).2 rfl,
          fun j _ => awaited.idle j⟩

theorem Awaited.client (awaited : Awaited s) (ledger : Ledger s) {i : Fin c.clients}
    {action : ClientAction} (late : NoEarlyCheck s (.client i action))
    (effect : ClientEffect s i action s') : Awaited s' := by
  -- The tasks of the call stay the same until it leaves.
  have same {caller : Caller} {submitted : List Task} {old pc : WaitPc}
      (was : s.client i = .waiting caller submitted old) (stays : pc ≠ .leaving)
      (caller' : Caller) (submitted' : List Task) (wait : WaitPc)
      (waiting : ClientPc.waiting caller submitted pc = .waiting caller' submitted' wait) :
      (∀ task ∈ submitted', task ∈ s.counted) ∧
        (wait = .leaving → ∀ task ∈ submitted', task ∈ s.finished) := by
    obtain ⟨rfl, rfl, rfl⟩ := ClientPc.waiting.inj waiting
    exact ⟨awaited.submitted i caller submitted old was, fun leaving => absurd leaving stays⟩
  have enters (caller caller' : Caller) (submitted' : List Task) (wait : WaitPc)
      (waiting : ClientPc.waiting caller s.returned .locking = .waiting caller' submitted' wait) :
      (∀ task ∈ submitted', task ∈ s.counted) ∧
        (wait = .leaving → ∀ task ∈ submitted', task ∈ s.finished) := by
    obtain ⟨rfl, rfl, rfl⟩ := ClientPc.waiting.inj waiting
    exact ⟨awaited.returned, fun leaving => absurd leaving (by simp)⟩
  cases effect with
  | wait was => exact awaited.moves (enters .client)
  | destroy was first => exact awaited.moves (enters .destructor)
  | lock was unlocked => exact awaited.moves (same was (by simp))
  | @test caller submitted was =>
    by_cases zero : s.pending = 0
    · have early (task : Task) (member : task ∈ s.early) : task ∉ s.decremented := by
        obtain ⟨thread, -, inside⟩ := Multiset.mem_sum.mp member
        exact late rfl zero thread task inside
      have all := ledger.counted_down zero early
      refine awaited.moves fun caller' submitted' wait waiting => ?_
      rw [if_pos zero] at waiting
      obtain ⟨rfl, rfl, rfl⟩ := ClientPc.waiting.inj waiting
      have counted := awaited.submitted i caller submitted .testing was
      refine ⟨counted, fun _ task member => ?_⟩
      rw [← Multiset.mem_coe, ← ledger.finished, ← all]
      exact Multiset.mem_add.mpr (Or.inr (counted task member))
    · rw [if_neg zero]
      exact awaited.moves (same was (by simp))
  | block was => exact awaited.moves (same was (by simp))
  | wake was => exact awaited.moves (same was (by simp))
  | @leave caller submitted was => exact awaited.moves (by cases caller <;> simp)
  | storeStop was => exact awaited.moves (by simp)
  | notifyAll was => exact awaited.moves (by simp)
  | join was after => exact awaited.moves (by rcases after with rfl | rfl <;> simp)

theorem step_awaited {action : Action c} {reply : Unit} (ledger : Ledger s)
    (awaited : Awaited s) (late : NoEarlyCheck s action)
    (stepped : step s action = some (s', reply)) : Awaited s' :=
  step_effects (P := fun s action s' => NoEarlyCheck s action → Awaited s')
    (fun _ _ _ effect _ => awaited.worker effect) (fun _ _ _ effect _ => awaited.caller effect)
    (fun _ _ _ effect late => awaited.client ledger late effect) stepped late

end

def ReturnsIdle (s : State c) : Prop :=
  ∀ i caller submitted, s.client i = .waiting caller submitted .leaving →
    ∀ task ∈ submitted, task ∈ s.finished

theorem waits_until_idle (actions : List (Action c)) {s : State c} {log : List (Action c × Unit)}
    (ran : Runs.run step (State.init c) actions = some (s, log))
    (late : Runs.Each step NoEarlyCheck (State.init c) actions) : ReturnsIdle s :=
  (Runs.run_each (P := Awaited) (init_awaited c)
    (fun _ _ _ _ _ _ early awaited late stepped =>
      step_awaited (run_ledger early) awaited late stepped) late ran).idle

def waitOne : List (Action oneWorker) :=
  [.client 0 .wait, .client 0 .lock, .client 0 .test]

theorem waits_until_idle_waitOne : ∃ s log,
    Runs.run step (State.init oneWorker) (submitBy (.inr 0) none ++ runOne ++ waitOne) =
      some (s, log) ∧ s.client 0 = .waiting .client [0] .leaving ∧ ReturnsIdle s :=
  ⟨_, _, rfl, rfl,
    waits_until_idle (submitBy (.inr 0) none ++ runOne ++ waitOne) rfl (by decide +kernel)⟩

-- Two submitters: the second task is run and counted down before it is counted, so that the
-- counter says 0 while the first is still in its deque.
def earlyCheck : List (Action oneWorker) :=
  submitBy (.inr 0) none ++ [.submit (.inr 1) .start, .submit (.inr 1) .push] ++ runOne ++ waitOne

theorem earlyCheck_returns : ∃ s s' log,
    Runs.run step (State.init oneWorker) earlyCheck = some (s, log) ∧
      s.client 0 = .waiting .client [0] .leaving ∧
      step s (.client 0 .leave) = some (s', ()) ∧ s'.client 0 = .idle ∧
      0 ∈ s'.deques 0 ∧ 0 ∉ s'.finished ∧ ¬ReturnsIdle s := by
  refine ⟨_, _, _, rfl, rfl, rfl, rfl, by decide +kernel, by decide +kernel, fun idle => ?_⟩
  exact absurd (idle 0 .client [0] rfl 0 (List.mem_singleton_self 0)) (by decide +kernel)

end CppPractice.WorkStealingThreadPool
