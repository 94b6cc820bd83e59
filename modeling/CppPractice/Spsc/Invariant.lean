import CppPractice.Shared.Slots
import CppPractice.Spsc.Steps
import Mathlib.Data.Nat.ModEq

set_option autoImplicit false

namespace CppPractice.SpscRingBuffer

open Lists (snoc_eq_some snoc_keeps prefix_snoc)
open Slots (mod_window)

section

variable (r : Ring)

theorem Ring.positive : 0 < r.capacity := lt_of_lt_of_le (by decide) r.atLeastTwo

theorem Ring.next_eq (index : Nat) : (index + 1) &&& r.kMask = (index + 1) % r.capacity := by
  obtain ⟨k, power⟩ :=
    (Nat.and_sub_one_eq_zero_iff_isPowerOfTwo (Nat.ne_of_gt r.positive)).mp r.powerOfTwo
  rw [Ring.kMask, power, Nat.and_two_pow_sub_one_eq_mod]

theorem Ring.next_mod (count : Nat) :
    (count % r.capacity + 1) &&& r.kMask = (count + 1) % r.capacity := by
  rw [r.next_eq, Nat.mod_add_mod]

def Ring.stores (count : Nat) : List Nat := (List.range (count + 1)).map (· % r.capacity)

theorem Ring.stores_succ (count : Nat) :
    r.stores (count + 1) = r.stores count ++ [(count + 1) % r.capacity] := by
  rw [stores, List.range_succ, List.map_append, stores]
  rfl

theorem Ring.stores_last (count : Nat) : (r.stores count).getLastD 0 = count % r.capacity := by
  rw [stores, List.range_succ, List.map_append]
  simp

theorem Ring.stores_get {count position index : Nat}
    (found : (r.stores count)[position]? = some index) :
    position ≤ count ∧ index = position % r.capacity := by
  rw [stores, List.getElem?_map, Option.map_eq_some_iff] at found
  obtain ⟨k, at_position, rfl⟩ := found
  obtain ⟨inside, rfl⟩ := List.getElem?_eq_some_iff.mp at_position
  rw [List.length_range] at inside
  rw [List.getElem_range]
  exact ⟨Nat.le_of_lt_succ inside, rfl⟩

theorem Ring.stores_at {count position : Nat} (stored : position ≤ count) :
    (r.stores count)[position]? = some (position % r.capacity) := by
  rw [stores, List.getElem?_map, List.getElem?_range (Nat.lt_succ_of_le stored), Option.map_some]

end

variable {T : Type}

-- Past its check and before its index store, a thread holds a slot.
def Producer.Holds (producer : Producer T) (slot : Nat) : Prop :=
  match producer with
  | .writing _ t _ => t = slot
  | .storing _ t _ => t = slot
  | _ => False

def Consumer.Holds (consumer : Consumer T) (slot : Nat) : Prop :=
  match consumer with
  | .reading h => h = slot
  | .storing h _ => h = slot
  | _ => False

/-- The two indices, after `pushed` and `popped` stores, and what the other side saw of them. -/
structure Indices (r : Ring) (s : State T) (pushed popped : Nat) : Prop where
  tailStores : s.tailStores = r.stores pushed
  headStores : s.headStores = r.stores popped
  published : s.published = List.range (pushed + 1)
  seenHead_le : s.seenHead ≤ popped
  popped_le : popped ≤ s.seenTail
  seenTail_le : s.seenTail ≤ pushed
  room : pushed < s.seenHead + r.capacity

def ProducerAt (r : Ring) (s : State T) (pushed : Nat) : Prop :=
  match s.producer with
  | .idle => s.writes.length = pushed
  | .pushing _ t => t = pushed % r.capacity ∧ s.writes.length = pushed
  | .asking t => t = pushed % r.capacity ∧ s.writes.length = pushed
  | .writing _ t next => t = pushed % r.capacity ∧ next = (pushed + 1) % r.capacity ∧
    pushed + 1 < s.seenHead + r.capacity ∧ s.writes.length = pushed
  | .storing value t next => t = pushed % r.capacity ∧ next = (pushed + 1) % r.capacity ∧
    pushed + 1 < s.seenHead + r.capacity ∧ s.writes.length = pushed + 1 ∧
      s.writes[pushed]? = some (t, value)

def ConsumerAt (r : Ring) (s : State T) (popped : Nat) : Prop :=
  match s.consumer with
  | .idle => True
  | .popping h => h = popped % r.capacity
  | .asking h => h = popped % r.capacity
  | .reading h => h = popped % r.capacity ∧ popped < s.seenTail
  | .storing h out => h = popped % r.capacity ∧ popped < s.seenTail ∧
    s.writes[popped]? = some (h, out)

structure Inv (r : Ring) (s : State T) (pushed popped : List T) : Prop where
  indices : Indices r s pushed.length popped.length
  slots : ∀ w e, s.writes[w]? = some e → e.1 = w % r.capacity
  values : ∀ k value, pushed[k]? = some value → s.writes[k]? = some (k % r.capacity, value)
  order : popped <+: pushed
  producer : ProducerAt r s pushed.length
  consumer : ConsumerAt r s popped.length

section

variable {r : Ring} {s : State T} {pushed popped : List T}

theorem init_inv (r : Ring) (initial : Nat → T) : Inv r (.init initial) [] [] where
  indices := ⟨by simp [State.init, Ring.stores], by simp [State.init, Ring.stores],
    by simp [State.init], le_refl _, le_refl _, le_refl _, by
      rw [State.init, Nat.zero_add]
      exact r.positive⟩
  slots w e found := by simp [State.init] at found
  values k value found := by simp at found
  order := List.prefix_refl _
  producer := rfl
  consumer := trivial

namespace Inv

variable (inv : Inv r s pushed popped)

include inv

theorem tail_eq : s.tail = pushed.length % r.capacity := by
  rw [State.tail, inv.indices.tailStores, r.stores_last]

theorem head_eq : s.head = popped.length % r.capacity := by
  rw [State.head, inv.indices.headStores, r.stores_last]

theorem visible_eq : s.visible = s.seenTail := by
  have seen := inv.indices.seenTail_le
  rw [State.visible, inv.indices.published, List.getElem?_range (by omega)]
  rfl

theorem writes_near : s.writes.length < s.seenHead + r.capacity := by
  have at_pc := inv.producer
  have room := inv.indices.room
  unfold ProducerAt at at_pc
  split at at_pc <;> omega

theorem full_iff {position : Nat} (seen : s.seenHead ≤ position) (stored : position ≤ popped.length) :
    (pushed.length + 1) % r.capacity = position % r.capacity ↔
      pushed.length + 1 = position + r.capacity := by
  have room := inv.indices.room
  have order := inv.order.length_le
  constructor
  · intro same
    have near : position + r.capacity < pushed.length + 1 + r.capacity := by omega
    exact mod_window (by omega) near (by rw [Nat.add_mod_right, same])
  · intro same
    rw [same, Nat.add_mod_right]

theorem empty_iff {position : Nat} (seen : s.seenTail ≤ position)
    (stored : position ≤ pushed.length) :
    popped.length % r.capacity = position % r.capacity ↔ popped.length = position := by
  have room := inv.indices.room
  have old := inv.indices.seenHead_le
  have above := inv.indices.popped_le
  have near : position < popped.length + r.capacity := by omega
  exact ⟨mod_window (by omega) near, fun same => by rw [same]⟩

theorem sees_head {position h t : Nat} (seen : s.seenHead ≤ position)
    (found : s.headStores[position]? = some h) (at_t : t = pushed.length % r.capacity) :
    position ≤ popped.length ∧
      ((t + 1) &&& r.kMask = h ↔ pushed.length + 1 = position + r.capacity) := by
  rw [inv.indices.headStores] at found
  obtain ⟨stored, rfl⟩ := r.stores_get found
  rw [at_t, r.next_mod]
  exact ⟨stored, inv.full_iff seen stored⟩

theorem sees_tail {position h t : Nat} (seen : s.seenTail ≤ position)
    (found : s.tailStores[position]? = some t) (at_h : h = popped.length % r.capacity) :
    position ≤ pushed.length ∧ (h = t ↔ popped.length = position) := by
  rw [inv.indices.tailStores] at found
  obtain ⟨stored, rfl⟩ := r.stores_get found
  rw [at_h]
  exact ⟨stored, inv.empty_iff seen stored⟩

theorem pushing_at {value : T} {t : Nat} (pc : s.producer = .pushing value t) :
    t = pushed.length % r.capacity ∧ s.writes.length = pushed.length := by
  have at_pc := inv.producer
  simpa only [ProducerAt, pc] using at_pc

theorem asksFull_at {t : Nat} (pc : s.producer = .asking t) :
    t = pushed.length % r.capacity ∧ s.writes.length = pushed.length := by
  have at_pc := inv.producer
  simpa only [ProducerAt, pc] using at_pc

theorem popping_at {h : Nat} (pc : s.consumer = .popping h) : h = popped.length % r.capacity := by
  have at_pc := inv.consumer
  simpa only [ConsumerAt, pc] using at_pc

theorem asksEmpty_at {h : Nat} (pc : s.consumer = .asking h) :
    h = popped.length % r.capacity := by
  have at_pc := inv.consumer
  simpa only [ConsumerAt, pc] using at_pc

theorem written {write slot : Nat} (written : s.Written write slot) :
    write < s.writes.length ∧ slot = write % r.capacity := by
  rw [State.Written, Option.any_eq_true] at written
  obtain ⟨e, found, same⟩ := written
  refine ⟨(List.getElem?_eq_some_iff.mp found).1, ?_⟩
  rw [← inv.slots write e found]
  exact (of_decide_eq_true same).symm

theorem held {slot : Nat} (holds : s.consumer.Holds slot) :
    slot = popped.length % r.capacity ∧ popped.length < s.seenTail := by
  have at_pc := inv.consumer
  unfold ConsumerAt at at_pc
  unfold Consumer.Holds at holds
  split at at_pc <;> simp_all

theorem held_slot {slot : Nat} (holds : s.consumer.Holds slot) :
    (∃ value, pushed[popped.length]? = some value ∧
      s.writes[popped.length]? = some (slot, value)) ∧
      ∀ write, s.Written write slot → write ≤ popped.length := by
  obtain ⟨rfl, below⟩ := inv.held holds
  have seen := inv.indices.seenTail_le
  have inside : popped.length < pushed.length := by omega
  refine ⟨⟨pushed[popped.length], List.getElem?_eq_getElem inside,
    inv.values _ _ (List.getElem?_eq_getElem inside)⟩, fun write written => ?_⟩
  obtain ⟨exists_, same⟩ := inv.written written
  by_contra newer
  have near := inv.writes_near
  have old := inv.indices.seenHead_le
  have equal := mod_window (n := r.capacity) (Nat.le_of_not_le newer) (by omega) same
  omega

theorem readable {h : Nat} {write : Option Nat} {out : T} (holds : s.consumer.Holds h)
    (reads : s.Readable h write) (contents : s.contents h write = some out) :
    write = some popped.length ∧ s.writes[popped.length]? = some (h, out) := by
  obtain ⟨⟨value, -, here⟩, newest⟩ := inv.held_slot holds
  have below := (inv.held holds).2
  rw [← inv.visible_eq] at below
  have written : s.Written popped.length h := by
    rw [State.Written, here]
    simp
  cases write with
  | none => exact absurd written (reads.2 _ below (by simp))
  | some w =>
    have upper := newest w (reads.1 w rfl)
    have lower : ¬w < popped.length := fun older =>
      reads.2 _ below (fun w' same => by
        obtain rfl := Option.some.inj same
        exact older) written
    obtain rfl : w = popped.length := by omega
    rw [State.contents, here, Option.map_some] at contents
    obtain rfl := Option.some.inj contents
    exact ⟨rfl, here⟩

theorem exclusive {slot : Nat} (producing : s.producer.Holds slot) : ¬s.consumer.Holds slot := by
  intro consuming
  obtain ⟨same, below⟩ := inv.held consuming
  have at_pc := inv.producer
  have seen := inv.indices.seenTail_le
  have old := inv.indices.seenHead_le
  obtain ⟨here, room⟩ : slot = pushed.length % r.capacity ∧
      pushed.length + 1 < s.seenHead + r.capacity := by
    unfold ProducerAt at at_pc
    unfold Producer.Holds at producing
    split at at_pc <;> simp_all
  have equal := mod_window (n := r.capacity) (a := popped.length) (b := pushed.length) (by omega)
    (by omega) (same.symm.trans here)
  omega

theorem producer_moves {position : Nat} (seen : s.seenHead ≤ position)
    (stored : position ≤ popped.length) {pc : Producer T}
    (at_pc : ProducerAt r { s with seenHead := position, producer := pc } pushed.length) :
    Inv r { s with seenHead := position, producer := pc } pushed popped where
  indices :=
    { inv.indices with
      seenHead_le := stored
      room := by
        have room := inv.indices.room
        dsimp only
        omega }
  slots := inv.slots
  values := inv.values
  order := inv.order
  producer := at_pc
  consumer := inv.consumer

theorem consumer_moves {position : Nat} (seen : s.seenTail ≤ position)
    (stored : position ≤ pushed.length) {pc : Consumer T}
    (at_pc : ConsumerAt r { s with seenTail := position, consumer := pc } popped.length) :
    Inv r { s with seenTail := position, consumer := pc } pushed popped where
  indices :=
    { inv.indices with
      popped_le := le_trans inv.indices.popped_le seen
      seenTail_le := stored }
  slots := inv.slots
  values := inv.values
  order := inv.order
  producer := inv.producer
  consumer := at_pc

theorem writeSlot {value : T} {t next : Nat} (pc : s.producer = .writing value t next) :
    Inv r { s with writes := s.writes ++ [(t, value)], producer := .storing value t next }
      pushed popped := by
  have at_pc := inv.producer
  unfold ProducerAt at at_pc
  simp only [pc] at at_pc
  obtain ⟨slot, next_eq, room, length⟩ := at_pc
  refine ⟨{ inv.indices with }, ?_, fun k v found => snoc_keeps (inv.values k v found), inv.order,
    ?_, ?_⟩
  · intro w e found
    rcases snoc_eq_some found with old | ⟨rfl, rfl⟩
    · exact inv.slots w e old
    · rw [length]
      exact slot
  · refine ⟨slot, next_eq, room, by simp [length], ?_⟩
    rw [← length]
    exact List.getElem?_concat_length
  · have at_pc := inv.consumer
    unfold ConsumerAt at at_pc ⊢
    dsimp only
    split at at_pc
    · trivial
    · exact at_pc
    · exact at_pc
    · exact at_pc
    · exact ⟨at_pc.1, at_pc.2.1, snoc_keeps at_pc.2.2⟩

theorem storeTail {value : T} {t next : Nat} (pc : s.producer = .storing value t next) :
    Inv r { s with
      tailStores := s.tailStores ++ [next]
      published := s.published ++ [s.writes.length]
      producer := .idle } (pushed ++ [value]) popped := by
  have at_pc := inv.producer
  unfold ProducerAt at at_pc
  simp only [pc] at at_pc
  obtain ⟨slot, rfl, room, length, written⟩ := at_pc
  have grown : (pushed ++ [value]).length = pushed.length + 1 := List.length_append
  constructor
  · rw [grown]
    exact
      { tailStores := by rw [inv.indices.tailStores, r.stores_succ]
        headStores := inv.indices.headStores
        published := by rw [inv.indices.published, length, ← List.range_succ]
        seenHead_le := inv.indices.seenHead_le
        popped_le := inv.indices.popped_le
        seenTail_le := Nat.le_succ_of_le inv.indices.seenTail_le
        room := room }
  · exact inv.slots
  · intro k v found
    rcases snoc_eq_some found with old | ⟨rfl, rfl⟩
    · exact inv.values k v old
    · rw [← slot]
      exact written
  · exact inv.order.trans (List.prefix_append _ _)
  · rw [grown]
    exact length
  · exact inv.consumer

theorem storeHead {h : Nat} {out : T} (pc : s.consumer = .storing h out) :
    Inv r { s with
      headStores := s.headStores ++ [(h + 1) &&& r.kMask]
      consumer := .idle } pushed (popped ++ [out]) := by
  have at_pc := inv.consumer
  unfold ConsumerAt at at_pc
  simp only [pc] at at_pc
  obtain ⟨rfl, below, here⟩ := at_pc
  have grown : (popped ++ [out]).length = popped.length + 1 := List.length_append
  have seen := inv.indices.seenTail_le
  constructor
  · rw [grown]
    exact
      { tailStores := inv.indices.tailStores
        headStores := by rw [inv.indices.headStores, r.stores_succ, r.next_mod]
        published := inv.indices.published
        seenHead_le := Nat.le_succ_of_le inv.indices.seenHead_le
        popped_le := below
        seenTail_le := seen
        room := inv.indices.room }
  · exact inv.slots
  · exact inv.values
  · have inside : popped.length < pushed.length := by omega
    have next := List.getElem?_eq_getElem inside
    obtain ⟨-, rfl⟩ := Prod.mk.inj (Option.some.inj ((inv.values _ _ next).symm.trans here))
    exact prefix_snoc inv.order next
  · exact inv.producer
  · trivial

end Inv

end

end CppPractice.SpscRingBuffer
