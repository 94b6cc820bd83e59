import CppPractice.Spsc.Fifo

set_option autoImplicit false

namespace CppPractice.SpscRingBuffer

variable {T : Type}

def Reply.endsPush : Reply T → Bool
  | .pushed _ _ => true
  | _ => false

def Reply.endsPop : Reply T → Bool
  | .popped _ => true
  | _ => false

-- `push` returned false or `full` true.
def Reply.saysFull : Reply T → Bool
  | .pushed _ ok => !ok
  | .full answer => answer
  | _ => false

-- `pop` returned false or `empty` true.
def Reply.saysEmpty : Reply T → Bool
  | .popped out => out.isNone
  | .empty answer => answer
  | _ => false

section

variable {r : Ring} {s s' : State T} {action : Action T} {reply : Reply T}
variable {pushed popped : List T}

theorem views_grow (stepped : step r s action = some (s', reply)) :
    s.seenHead ≤ s'.seenHead ∧ s.seenTail ≤ s'.seenTail := by
  cases step_effect stepped with
  | noRoom seen | room seen | tellsFull seen => exact ⟨seen, le_refl _⟩
  | noValue seen | value seen | tellsEmpty seen => exact ⟨le_refl _, seen⟩
  | _ => exact ⟨le_refl _, le_refl _⟩

theorem seen_of_loadTail {position : Nat} (stepped : step r s action = some (s', reply))
    (loads : action = .loadTail position) : position ≤ s'.seenTail := by
  cases step_effect stepped with
  | noValue | value | tellsEmpty => exact (Action.loadTail.inj loads).ge
  | _ => cases loads

section

variable (inv : Inv r s pushed popped) (stepped : step r s action = some (s', reply))
include inv stepped

theorem says_full (told : reply.saysFull = true) :
    ∃ position, action = .loadHead position ∧ s.seenHead ≤ position ∧
      position ≤ popped.length ∧ pushed.length + 1 = position + r.capacity := by
  cases step_effect stepped with
  | noRoom seen found pc same =>
    obtain ⟨stored, full⟩ := inv.sees_head seen found (inv.pushing_at pc).1
    exact ⟨_, rfl, seen, stored, full.mp same⟩
  | tellsFull seen found pc =>
    obtain ⟨stored, full⟩ := inv.sees_head seen found (inv.asksFull_at pc).1
    exact ⟨_, rfl, seen, stored, full.mp (of_decide_eq_true told)⟩
  | _ => cases told

theorem says_empty (told : reply.saysEmpty = true) :
    ∃ position, action = .loadTail position ∧ s.seenTail ≤ position ∧
      position ≤ pushed.length ∧ popped.length = position := by
  cases step_effect stepped with
  | noValue seen found pc same =>
    obtain ⟨stored, empty⟩ := inv.sees_tail seen found (inv.popping_at pc)
    exact ⟨_, rfl, seen, stored, empty.mp same⟩
  | tellsEmpty seen found pc =>
    obtain ⟨stored, empty⟩ := inv.sees_tail seen found (inv.asksEmpty_at pc)
    exact ⟨_, rfl, seen, stored, empty.mp (of_decide_eq_true told)⟩
  | _ => cases told

theorem says_not_full (answered : reply = .full false) :
    pushed.length + 1 < s'.seenHead + r.capacity := by
  have room := inv.indices.room
  cases step_effect stepped with
  | tellsFull seen found pc =>
    obtain ⟨-, full⟩ := inv.sees_head seen found (inv.asksFull_at pc).1
    have different := mt full.mpr (of_decide_eq_false (Reply.full.inj answered))
    dsimp only
    omega
  | _ => cases answered

theorem says_not_empty (answered : reply = .empty false) : popped.length < s'.seenTail := by
  have above := inv.indices.popped_le
  cases step_effect stepped with
  | tellsEmpty seen found pc =>
    obtain ⟨-, empty⟩ := inv.sees_tail seen found (inv.asksEmpty_at pc)
    have different := mt empty.mpr (of_decide_eq_false (Reply.empty.inj answered))
    dsimp only
    omega
  | _ => cases answered

end

theorem quiet_push (quiet : reply.endsPush = false) : pushedOf reply = none := by
  cases reply with
  | pushed value ok => exact absurd quiet (by simp [Reply.endsPush])
  | _ => rfl

theorem quiet_pop (quiet : reply.endsPop = false) : poppedOf reply = none := by
  cases reply with
  | popped out => exact absurd quiet (by simp [Reply.endsPop])
  | _ => rfl

-- Until the producer's next push has ended, the room that it saw stays.
theorem room_stays {actions : List (Action T)} {log : List (Action T × Reply T)}
    (inv : Inv r s pushed popped) (room : pushed.length + 1 < s.seenHead + r.capacity)
    (ran : Runs.run (step r) s actions = some (s', log))
    (quiet : ∀ e ∈ log, e.2.endsPush = false) :
    ∃ popped', Inv r s' pushed popped' ∧ pushed.length + 1 < s'.seenHead + r.capacity := by
  refine Runs.run_induction (P := fun log s => (∀ e ∈ log, e.2.endsPush = false) →
    ∃ popped', Inv r s pushed popped' ∧ pushed.length + 1 < s.seenHead + r.capacity)
    (fun _ => ⟨popped, inv, room⟩) ?_ ran quiet
  intro front s log action s' reply _ ih stepped quiet
  obtain ⟨popped', inv, room⟩ := ih fun e member => quiet e (List.mem_append_left _ member)
  have next := step_inv inv stepped
  rw [quiet_push (quiet (action, reply) (by simp)), Option.toList_none, List.append_nil] at next
  have grows := (views_grow stepped).1
  exact ⟨_, next, by omega⟩

theorem values_stay {actions : List (Action T)} {log : List (Action T × Reply T)}
    (inv : Inv r s pushed popped) (some : popped.length < s.seenTail)
    (ran : Runs.run (step r) s actions = .some (s', log))
    (quiet : ∀ e ∈ log, e.2.endsPop = false) :
    ∃ pushed', Inv r s' pushed' popped ∧ popped.length < s'.seenTail := by
  refine Runs.run_induction (P := fun log s => (∀ e ∈ log, e.2.endsPop = false) →
    ∃ pushed', Inv r s pushed' popped ∧ popped.length < s.seenTail)
    (fun _ => ⟨pushed, inv, some⟩) ?_ ran quiet
  intro front s log action s' reply _ ih stepped quiet
  obtain ⟨pushed', inv, some⟩ := ih fun e member => quiet e (List.mem_append_left _ member)
  have next := step_inv inv stepped
  rw [quiet_pop (quiet (action, reply) (by simp)), Option.toList_none, List.append_nil] at next
  exact ⟨_, next, lt_of_lt_of_le some (views_grow stepped).2⟩

end

section

variable {r : Ring} {initial : Nat → T} {actions : List (Action T)} {s : State T}
variable {front middle back : List (Action T × Reply T)} {a b : Action T}

theorem push_after_full {value : T} {ok : Bool}
    (ran : Runs.run (step r) (.init initial) actions =
      some (s, front ++ (a, .full false) :: (middle ++ (b, .pushed value ok) :: back)))
    (quiet : ∀ e ∈ middle, e.2.endsPush = false) : ok = true := by
  obtain ⟨before, after, early, asked, late⟩ := Runs.run_entry ran
  obtain ⟨last, final, waited, stepped, -⟩ := Runs.run_entry late
  have inv := run_inv early
  have next := step_inv inv asked
  rw [quiet_push rfl, Option.toList_none, List.append_nil] at next
  obtain ⟨popped, inv', room⟩ := room_stays next (says_not_full inv asked rfl) waited quiet
  by_contra refused
  have refused : ok = false := by simpa using refused
  obtain ⟨position, -, seen, -, full⟩ := says_full inv' stepped (by rw [refused]; rfl)
  omega

theorem pop_after_empty {out : Option T}
    (ran : Runs.run (step r) (.init initial) actions =
      some (s, front ++ (a, .empty false) :: (middle ++ (b, .popped out) :: back)))
    (quiet : ∀ e ∈ middle, e.2.endsPop = false) : out ≠ none := by
  obtain ⟨before, after, early, asked, late⟩ := Runs.run_entry ran
  obtain ⟨last, final, waited, stepped, -⟩ := Runs.run_entry late
  have inv := run_inv early
  have next := step_inv inv asked
  rw [quiet_pop rfl, Option.toList_none, List.append_nil] at next
  obtain ⟨pushed, inv', some⟩ := values_stay next (says_not_empty inv asked rfl) waited quiet
  rintro rfl
  obtain ⟨position, -, seen, -, empty⟩ := says_empty inv' stepped rfl
  omega

-- Of all its loads of the tail, the consumer's last one saw the most.
theorem run_seen {log : List (Action T × Reply T)}
    (ran : Runs.run (step r) (.init initial) actions = some (s, log)) :
    ∀ position reply, (.loadTail position, reply) ∈ log → position ≤ s.seenTail := by
  refine Runs.run_induction (P := fun log s => ∀ position reply,
    (Action.loadTail position, reply) ∈ log → position ≤ s.seenTail) (by simp) ?_ ran
  intro front s log action s' reply early ih stepped position answer member
  have inv := run_inv early
  rcases List.mem_append.mp member with old | new
  · exact le_trans (ih position answer old) (views_grow stepped).2
  · obtain ⟨loads, -⟩ := Prod.mk.inj (List.mem_singleton.mp new)
    exact seen_of_loadTail stepped loads.symm

theorem values_of_front (log back : List (Action T × Reply T)) :
    (poppedValues log).length ≤ (poppedValues (log ++ back)).length := by
  rw [poppedValues, poppedValues, List.filterMap_append, List.length_append]
  exact Nat.le_add_right _ _

theorem full_reading {reply : Reply T}
    (ran : Runs.run (step r) (.init initial) actions = some (s, front ++ (a, reply) :: back))
    (told : reply.saysFull = true) :
    ∃ position, a = .loadHead position ∧ position ≤ (poppedValues front).length ∧
      s.headStores[position]? = some (position % r.capacity) ∧
      (pushedValues front).length = position + (r.capacity - 1) ∧
      (pushedValues front).length ≤ (poppedValues front).length + (r.capacity - 1) := by
  obtain ⟨before, after, early, stepped, -⟩ := Runs.run_entry ran
  obtain ⟨position, loads, -, stored, full⟩ := says_full (run_inv early) stepped told
  have positive := r.positive
  have more := values_of_front front ((a, reply) :: back)
  refine ⟨position, loads, stored, ?_, by omega, by omega⟩
  rw [(run_inv ran).indices.headStores]
  exact r.stores_at (le_trans stored more)

theorem empty_reading {reply : Reply T}
    (ran : Runs.run (step r) (.init initial) actions = some (s, front ++ (a, reply) :: back))
    (told : reply.saysEmpty = true) :
    ∃ position, a = .loadTail position ∧
      (∀ earlier answer, (.loadTail earlier, answer) ∈ front → earlier ≤ position) ∧
      poppedValues front = (pushedValues front).take position := by
  obtain ⟨before, after, early, stepped, -⟩ := Runs.run_entry ran
  have inv := run_inv early
  obtain ⟨position, loads, seen, -, empty⟩ := says_empty inv stepped told
  refine ⟨position, loads, fun earlier answer member =>
    le_trans (run_seen early earlier answer member) seen, ?_⟩
  rw [← empty]
  exact List.prefix_iff_eq_take.mp inv.order

end

theorem answers_hold (r : Ring) (initial : Nat → T) (actions : List (Action T)) {s : State T}
    {log : List (Action T × Reply T)}
    (ran : Runs.run (step r) (.init initial) actions = some (s, log)) :
    (∀ front a middle b value ok back,
        log = front ++ (a, Reply.full false) :: (middle ++ (b, Reply.pushed value ok) :: back) →
        (∀ e ∈ middle, e.2.endsPush = false) → ok = true) ∧
      (∀ front a middle b out back,
        log = front ++ (a, Reply.empty false) :: (middle ++ (b, Reply.popped out) :: back) →
        (∀ e ∈ middle, e.2.endsPop = false) → out ≠ none) ∧
      (∀ front a reply back, log = front ++ (a, reply) :: back → reply.saysFull = true →
        ∃ position, a = Action.loadHead position ∧ position ≤ (poppedValues front).length ∧
          s.headStores[position]? = some (position % r.capacity) ∧
          (pushedValues front).length = position + (r.capacity - 1) ∧
          (pushedValues front).length ≤ (poppedValues front).length + (r.capacity - 1)) ∧
      ∀ front a reply back, log = front ++ (a, reply) :: back → reply.saysEmpty = true →
        ∃ position, a = Action.loadTail position ∧
          (∀ earlier answer, (Action.loadTail earlier, answer) ∈ front → earlier ≤ position) ∧
          poppedValues front = (pushedValues front).take position := by
  refine ⟨?_, ?_, ?_, ?_⟩
  · rintro front a middle b value ok back rfl quiet
    exact push_after_full ran quiet
  · rintro front a middle b out back rfl quiet
    exact pop_after_empty ran quiet
  · rintro front a reply back rfl told
    exact full_reading ran told
  · rintro front a reply back rfl told
    exact empty_reading ran told

-- `full` says no, and the push after it succeeds though its view of the head is as old.
def askingActions : List (Action Nat) :=
  [.empty, .loadTail 0, .full, .loadHead 0, .push 7, .loadHead 0, .writeSlot, .storeTail,
    .full, .loadHead 0, .empty, .loadTail 1, .pop, .loadTail 1, .readSlot (some 0), .storeHead]

theorem answers_hold_asking : ∃ s log,
    Runs.run (step smallest) (.init fun _ => 0) askingActions = some (s, log) ∧
      (∀ front a middle b value ok back,
        log = front ++ (a, Reply.full false) :: (middle ++ (b, Reply.pushed value ok) :: back) →
        (∀ e ∈ middle, e.2.endsPush = false) → ok = true) ∧
      (∀ front a middle b out back,
        log = front ++ (a, Reply.empty false) :: (middle ++ (b, Reply.popped out) :: back) →
        (∀ e ∈ middle, e.2.endsPop = false) → out ≠ none) ∧
      (∀ front a reply back, log = front ++ (a, reply) :: back → reply.saysFull = true →
        ∃ position, a = Action.loadHead position ∧ position ≤ (poppedValues front).length ∧
          s.headStores[position]? = some (position % smallest.capacity) ∧
          (pushedValues front).length = position + (smallest.capacity - 1) ∧
          (pushedValues front).length ≤ (poppedValues front).length + (smallest.capacity - 1)) ∧
      ∀ front a reply back, log = front ++ (a, reply) :: back → reply.saysEmpty = true →
        ∃ position, a = Action.loadTail position ∧
          (∀ earlier answer, (Action.loadTail earlier, answer) ∈ front → earlier ≤ position) ∧
          poppedValues front = (pushedValues front).take position := by
  obtain ⟨⟨s, log⟩, ran⟩ :
      ∃ result, Runs.run (step smallest) (.init fun _ => 0) askingActions = some result :=
    Option.isSome_iff_exists.mp (by decide +kernel)
  exact ⟨s, log, ran, answers_hold smallest (fun _ => 0) askingActions ran⟩

end CppPractice.SpscRingBuffer
