import CppPractice.Spsc.Fifo

set_option autoImplicit false

namespace CppPractice.SpscRingBuffer

variable {T : Type}

def Action.byProducer : Action T → Bool
  | .push _ | .full | .loadHead _ | .writeSlot | .storeTail => true
  | _ => false

def Producer.left : Producer T → Nat
  | .idle => 4
  | .pushing _ _ => 3
  | .writing _ _ _ => 2
  | .storing _ _ _ => 1
  | .asking _ => 1

def Consumer.left : Consumer T → Nat
  | .idle => 4
  | .popping _ => 3
  | .reading _ => 2
  | .storing _ _ => 1
  | .asking _ => 1

theorem Producer.left_le (producer : Producer T) : 1 ≤ producer.left ∧ producer.left ≤ 4 := by
  cases producer <;> simp [Producer.left]

theorem Consumer.left_le (consumer : Consumer T) : 1 ≤ consumer.left ∧ consumer.left ≤ 4 := by
  cases consumer <;> simp [Consumer.left]

section

variable {r : Ring} {s s' : State T} {action : Action T} {reply : Reply T}

theorem step_left (stepped : step r s action = some (s', reply)) :
    if action.byProducer then
      (reply = .none → s'.producer.left < s.producer.left) ∧ s'.consumer = s.consumer
    else (reply = .none → s'.consumer.left < s.consumer.left) ∧ s'.producer = s.producer := by
  cases step_effect stepped with
  | push pc | full pc | noRoom _ _ pc | room _ _ pc | tellsFull _ _ pc | writeSlot pc
  | storeTail pc => simp [Action.byProducer, pc, Producer.left]
  | pop pc | empty pc | noValue _ _ pc | value _ _ pc | tellsEmpty _ _ pc | readSlot pc
  | storeHead pc => simp [Action.byProducer, pc, Consumer.left]

variable {pushed popped : List T}

theorem newest_head (inv : Inv r s pushed popped) :
    ¬popped.length < s.seenHead ∧
      s.headStores[popped.length]? = some (popped.length % r.capacity) := by
  rw [inv.indices.headStores]
  exact ⟨Nat.not_lt.mpr inv.indices.seenHead_le, r.stores_at (le_refl _)⟩

theorem newest_tail (inv : Inv r s pushed popped) :
    ¬pushed.length < s.seenTail ∧
      s.tailStores[pushed.length]? = some (pushed.length % r.capacity) := by
  rw [inv.indices.tailStores]
  exact ⟨Nat.not_lt.mpr inv.indices.seenTail_le, r.stores_at (le_refl _)⟩

theorem read_next (inv : Inv r s pushed popped) {h : Nat} (pc : s.consumer = .reading h) :
    ∃ value, pushed[popped.length]? = some value ∧
      step r s (.readSlot (some popped.length)) =
        some ({ s with consumer := .storing h value }, .none) := by
  have holds : s.consumer.Holds h := by
    rw [pc]
    rfl
  obtain ⟨⟨value, next, written⟩, newest⟩ := inv.held_slot holds
  have readable : s.Readable h (some popped.length) := by
    constructor
    · intro write same
      obtain rfl := Option.some.inj same
      simp [State.Written, written]
    · intro later _ newer there
      exact absurd (newer _ rfl) (Nat.not_lt.mpr (newest later there))
  exact ⟨value, next, by simp [step, pc, readable, State.contents, written]⟩

theorem producer_goes (inv : Inv r s pushed popped) (busy : s.producer ≠ .idle) :
    ∃ action s' reply, action.byProducer = true ∧ step r s action = some (s', reply) := by
  obtain ⟨seen, newest⟩ := newest_head inv
  cases pc : s.producer with
  | idle => exact absurd pc busy
  | pushing value t =>
    refine ⟨.loadHead popped.length, ?_⟩
    simp only [step, loadHead, if_neg seen, newest, pc, Option.bind_some]
    split <;> exact ⟨_, _, rfl, rfl⟩
  | asking t =>
    refine ⟨.loadHead popped.length, ?_⟩
    simp only [step, loadHead, if_neg seen, newest, pc, Option.bind_some]
    exact ⟨_, _, rfl, rfl⟩
  | writing value t next => exact ⟨.writeSlot, by simp [step, pc, Action.byProducer]⟩
  | storing value t next => exact ⟨.storeTail, by simp [step, pc, Action.byProducer]⟩

theorem consumer_goes (inv : Inv r s pushed popped) (busy : s.consumer ≠ .idle) :
    ∃ action s' reply, action.byProducer = false ∧ step r s action = some (s', reply) := by
  obtain ⟨seen, newest⟩ := newest_tail inv
  cases pc : s.consumer with
  | idle => exact absurd pc busy
  | popping h =>
    refine ⟨.loadTail pushed.length, ?_⟩
    simp only [step, loadTail, if_neg seen, newest, pc, Option.bind_some]
    split <;> exact ⟨_, _, rfl, rfl⟩
  | asking h =>
    refine ⟨.loadTail pushed.length, ?_⟩
    simp only [step, loadTail, if_neg seen, newest, pc, Option.bind_some]
    exact ⟨_, _, rfl, rfl⟩
  | reading h =>
    obtain ⟨value, -, stepped⟩ := read_next inv pc
    exact ⟨_, _, _, rfl, stepped⟩
  | storing h out => exact ⟨.storeHead, by simp [step, pc, Action.byProducer]⟩

end

section

variable {r : Ring} {s s' : State T} {actions : List (Action T)}
variable {log : List (Action T × Reply T)}

theorem producer_quiet (ran : Runs.run (step r) s actions = some (s', log))
    (quiet : ∀ e ∈ log, e.1.byProducer = true → e.2 = .none) :
    log.countP (·.1.byProducer) + s'.producer.left ≤ s.producer.left := by
  refine Runs.run_induction (P := fun log s' => (∀ e ∈ log, e.1.byProducer = true → e.2 = .none) →
    log.countP (·.1.byProducer) + s'.producer.left ≤ s.producer.left) ?_ ?_ ran quiet
  · intro _
    simp
  · intro front middle log action s' reply _ earlier stepped quiet
    have before := earlier fun e member => quiet e (List.mem_append_left _ member)
    have here := quiet (action, reply) (by simp)
    have moved := step_left stepped
    rw [List.countP_append, List.countP_singleton]
    cases own : action.byProducer with
    | true =>
      rw [own, if_pos rfl] at moved
      have nearer := moved.1 (here own)
      simp only [if_true]
      omega
    | false =>
      rw [own, if_neg (by simp)] at moved
      rw [moved.2]
      simpa using before

theorem consumer_quiet (ran : Runs.run (step r) s actions = some (s', log))
    (quiet : ∀ e ∈ log, e.1.byProducer = false → e.2 = .none) :
    log.countP (!·.1.byProducer) + s'.consumer.left ≤ s.consumer.left := by
  refine Runs.run_induction (P := fun log s' => (∀ e ∈ log, e.1.byProducer = false → e.2 = .none) →
    log.countP (!·.1.byProducer) + s'.consumer.left ≤ s.consumer.left) ?_ ?_ ran quiet
  · intro _
    simp
  · intro front middle log action s' reply _ earlier stepped quiet
    have before := earlier fun e member => quiet e (List.mem_append_left _ member)
    have here := quiet (action, reply) (by simp)
    have moved := step_left stepped
    rw [List.countP_append, List.countP_singleton]
    cases own : action.byProducer with
    | true =>
      rw [own, if_pos rfl] at moved
      rw [moved.2]
      simpa using before
    | false =>
      rw [own, if_neg (by simp)] at moved
      have nearer := moved.1 (here own)
      simp only [Bool.not_false, if_true]
      omega

end

theorem wait_free (r : Ring) (initial : Nat → T) (actions : List (Action T)) {s : State T}
    {log : List (Action T × Reply T)}
    (ran : Runs.run (step r) (.init initial) actions = some (s, log)) :
    (s.producer ≠ .idle → ∃ action s' reply, action.byProducer = true ∧
        step r s action = some (s', reply)) ∧
      (s.consumer ≠ .idle → ∃ action s' reply, action.byProducer = false ∧
        step r s action = some (s', reply)) ∧
      ∀ more s' log', Runs.run (step r) s more = some (s', log') →
        ((∀ e ∈ log', e.1.byProducer = true → e.2 = .none) →
          log'.countP (·.1.byProducer) ≤ 3) ∧
        ((∀ e ∈ log', e.1.byProducer = false → e.2 = .none) →
          log'.countP (!·.1.byProducer) ≤ 3) := by
  have inv := run_inv ran
  refine ⟨producer_goes inv, consumer_goes inv, fun more s' log' later => ⟨fun quiet => ?_,
    fun quiet => ?_⟩⟩
  · have left := producer_quiet later quiet
    have := s.producer.left_le
    have := s'.producer.left_le
    omega
  · have left := consumer_quiet later quiet
    have := s.consumer.left_le
    have := s'.consumer.left_le
    omega

theorem wait_free_wrapped : ∃ s log,
    Runs.run (step smallest) (.init fun _ => 0) (wrappedActions.take 10) = some (s, log) ∧
      (s.producer ≠ .idle → ∃ action s' reply, action.byProducer = true ∧
        step smallest s action = some (s', reply)) ∧
      (s.consumer ≠ .idle → ∃ action s' reply, action.byProducer = false ∧
        step smallest s action = some (s', reply)) ∧
      ∀ more s' log', Runs.run (step smallest) s more = some (s', log') →
        ((∀ e ∈ log', e.1.byProducer = true → e.2 = .none) →
          log'.countP (·.1.byProducer) ≤ 3) ∧
        ((∀ e ∈ log', e.1.byProducer = false → e.2 = .none) →
          log'.countP (!·.1.byProducer) ≤ 3) :=
  ⟨_, _, rfl, wait_free smallest (fun _ => 0) (wrappedActions.take 10) rfl⟩

end CppPractice.SpscRingBuffer
