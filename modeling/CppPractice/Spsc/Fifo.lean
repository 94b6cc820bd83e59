import CppPractice.Spsc.Invariant

set_option autoImplicit false

namespace CppPractice.SpscRingBuffer

variable {T : Type} {r : Ring}

theorem step_inv {s s' : State T} {action : Action T} {reply : Reply T} {pushed popped : List T}
    (inv : Inv r s pushed popped) (stepped : step r s action = some (s', reply)) :
    Inv r s' (pushed ++ (pushedOf reply).toList) (popped ++ (poppedOf reply).toList) := by
  have quiet {s' : State T} {reply : Reply T}
      (kept : Inv r s' pushed popped ∧ pushedOf reply = none ∧ poppedOf reply = none) :
      Inv r s' (pushed ++ (pushedOf reply).toList) (popped ++ (poppedOf reply).toList) := by
    rw [kept.2.1, kept.2.2, Option.toList_none, List.append_nil, List.append_nil]
    exact kept.1
  cases step_effect stepped with
  | push pc | full pc =>
    have at_pc := inv.producer
    simp only [ProducerAt, pc] at at_pc
    exact quiet ⟨inv.producer_moves (le_refl _) inv.indices.seenHead_le
      ⟨inv.tail_eq, at_pc⟩, rfl, rfl⟩
  | noRoom seen found pc =>
    obtain ⟨at_t, written⟩ := inv.pushing_at pc
    obtain ⟨stored, -⟩ := inv.sees_head seen found at_t
    exact quiet ⟨inv.producer_moves seen stored written, rfl, rfl⟩
  | room seen found pc apart =>
    obtain ⟨at_t, written⟩ := inv.pushing_at pc
    obtain ⟨stored, full⟩ := inv.sees_head seen found at_t
    have different := mt full.mpr apart
    have below := inv.indices.room
    refine quiet ⟨inv.producer_moves seen stored ⟨at_t, ?_, ?_, written⟩, rfl, rfl⟩
    · rw [at_t, r.next_mod]
    · dsimp only
      omega
  | tellsFull seen found pc =>
    obtain ⟨at_t, written⟩ := inv.asksFull_at pc
    obtain ⟨stored, -⟩ := inv.sees_head seen found at_t
    exact quiet ⟨inv.producer_moves seen stored written, rfl, rfl⟩
  | writeSlot pc => exact quiet ⟨inv.writeSlot pc, rfl, rfl⟩
  | storeTail pc =>
    have stored := inv.storeTail pc
    rwa [← List.append_nil popped] at stored
  | pop | empty =>
    exact quiet ⟨inv.consumer_moves (le_refl _) inv.indices.seenTail_le inv.head_eq, rfl, rfl⟩
  | noValue seen found pc =>
    obtain ⟨stored, -⟩ := inv.sees_tail seen found (inv.popping_at pc)
    exact quiet ⟨inv.consumer_moves seen stored trivial, rfl, rfl⟩
  | value seen found pc apart =>
    have at_h := inv.popping_at pc
    obtain ⟨stored, empty⟩ := inv.sees_tail seen found at_h
    have different := mt empty.mpr apart
    have above := inv.indices.popped_le
    refine quiet ⟨inv.consumer_moves seen stored ⟨at_h, ?_⟩, rfl, rfl⟩
    dsimp only
    omega
  | tellsEmpty seen found pc =>
    obtain ⟨stored, -⟩ := inv.sees_tail seen found (inv.asksEmpty_at pc)
    exact quiet ⟨inv.consumer_moves seen stored trivial, rfl, rfl⟩
  | @readSlot _ h _ pc readable contents =>
    have holds : s.consumer.Holds h := by
      rw [pc]
      rfl
    obtain ⟨slot, below⟩ := inv.held holds
    exact quiet ⟨inv.consumer_moves (le_refl _) inv.indices.seenTail_le
      ⟨slot, below, (inv.readable holds readable contents).2⟩, rfl, rfl⟩
  | storeHead pc =>
    have stored := inv.storeHead pc
    rwa [← List.append_nil pushed] at stored

theorem run_inv {initial : Nat → T} {actions : List (Action T)} {s : State T}
    {log : List (Action T × Reply T)}
    (ran : Runs.run (step r) (.init initial) actions = some (s, log)) :
    Inv r s (pushedValues log) (poppedValues log) := by
  refine Runs.run_induction (P := fun log s => Inv r s (pushedValues log) (poppedValues log))
    (init_inv r initial) ?_ ran
  intro front s log action s' reply _ inv stepped
  have next := step_inv inv stepped
  rw [pushedValues, poppedValues, List.filterMap_append, List.filterMap_append]
  cases pushed : pushedOf reply <;> cases popped : poppedOf reply <;>
    simpa [pushedValues, poppedValues, pushed, popped] using next

theorem fifo (r : Ring) (initial : Nat → T) (actions : List (Action T)) {s : State T}
    {log : List (Action T × Reply T)}
    (ran : Runs.run (step r) (.init initial) actions = some (s, log)) :
    poppedValues log <+: pushedValues log ∧
      (pushedValues log).length ≤ (poppedValues log).length + (r.capacity - 1) := by
  have inv := run_inv ran
  have room := inv.indices.room
  have old := inv.indices.seenHead_le
  exact ⟨inv.order, by omega⟩

-- The smallest ring, with a full answer from an old view and a wrapped index.
def smallest : Ring := ⟨2, by decide, by decide⟩

def wrappedActions : List (Action Nat) :=
  [.push 7, .loadHead 0, .writeSlot, .pop, .loadTail 0, .storeTail, .pop, .loadTail 1,
    .push 8, .loadHead 0, .readSlot (some 0), .storeHead, .push 8, .loadHead 1, .writeSlot,
    .storeTail]

theorem fifo_wrapped : ∃ s log,
    Runs.run (step smallest) (.init fun _ => 0) wrappedActions = some (s, log) ∧
      poppedValues log <+: pushedValues log ∧
      (pushedValues log).length ≤ (poppedValues log).length + (smallest.capacity - 1) :=
  ⟨_, _, rfl, fifo smallest (fun _ => 0) wrappedActions rfl⟩

theorem slot_exclusive (r : Ring) (initial : Nat → T) (actions : List (Action T)) {s : State T}
    {log : List (Action T × Reply T)}
    (ran : Runs.run (step r) (.init initial) actions = some (s, log)) (slot : Nat) :
    (s.producer.Holds slot → ¬s.consumer.Holds slot) ∧
      (s.consumer.Holds slot →
        (∃ value, (pushedValues log)[(poppedValues log).length]? = some value ∧
          s.writes[(poppedValues log).length]? = some (slot, value)) ∧
        ∀ write, s.Written write slot → write ≤ (poppedValues log).length) :=
  ⟨(run_inv ran).exclusive, (run_inv ran).held_slot⟩

theorem slot_exclusive_wrapped : ∃ s log,
    Runs.run (step smallest) (.init fun _ => 0) (wrappedActions.take 11) = some (s, log) ∧
      s.consumer.Holds 0 ∧ (s.producer.Holds 0 → ¬s.consumer.Holds 0) ∧
      (s.consumer.Holds 0 →
        (∃ value, (pushedValues log)[(poppedValues log).length]? = some value ∧
          s.writes[(poppedValues log).length]? = some (0, value)) ∧
        ∀ write, s.Written write 0 → write ≤ (poppedValues log).length) :=
  ⟨_, _, rfl, rfl,
    slot_exclusive smallest (fun _ => 0) (wrappedActions.take 11) rfl 0⟩

end CppPractice.SpscRingBuffer
