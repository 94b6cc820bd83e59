import CppPractice.Spsc.Progress
import Mathlib.Algebra.BigOperators.Intervals
import Mathlib.Data.UInt

set_option autoImplicit false

namespace CppPractice.SpscRingBuffer

structure Correctness where
  ring : State UInt64
  -- The producer's loop variable, and whether it has left the loop.
  i : UInt64
  done : Bool
  expected : UInt64
  consumedSum : UInt64
  aborted : Bool

namespace Correctness

-- The ring is not initialized beyond its indices.
def start (initial : Nat → UInt64) : Correctness where
  ring := .init initial
  i := 0
  done := false
  expected := 0
  consumedSum := 0
  aborted := false

inductive Turn where
  | ring (action : Action UInt64)
  | done
  deriving DecidableEq

variable (h : Correctness) (n : UInt64)

-- The calls that the two loops make; within a call the ring decides.
def Calls : Action UInt64 → Prop
  | .push value => h.i < n ∧ value = h.i
  | .pop => h.expected < n
  | .full | .empty => False
  | .loadHead _ | .writeSlot | .storeTail => True
  | .loadTail _ | .readSlot _ | .storeHead => True

instance (action : Action UInt64) : Decidable (h.Calls n action) := by
  cases action <;> unfold Calls <;> infer_instance

def answered : Reply UInt64 → Correctness
  | .pushed _ true => { h with i := h.i + 1 }
  | .popped (some v) =>
    if v ≠ h.expected then { h with aborted := true }
    else { h with consumedSum := h.consumedSum + v, expected := h.expected + 1 }
  | _ => h

def turn (r : Ring) (n : UInt64) (h : Correctness) : Turn → Option (Correctness × Reply UInt64)
  | .ring action =>
    if h.aborted = false ∧ h.Calls n action then
      (step r h.ring action).map fun next =>
        (({ h with ring := next.1 } : Correctness).answered next.2, next.2)
    else none
  | .done =>
    if h.aborted = false ∧ h.ring.producer = .idle ∧ ¬h.i < n ∧ h.done = false then
      some ({ h with done := true }, .none)
    else none

structure Finished : Prop where
  producer : h.ring.producer = .idle
  done : h.done = true
  consumer : h.ring.consumer = .idle
  expected : ¬h.expected < n

end Correctness

section

variable {T : Type}

def Producer.value : Producer T → Option T
  | .pushing value _ | .writing value _ _ | .storing value _ _ => some value
  | _ => none

def Consumer.pops : Consumer T → Bool
  | .popping _ | .reading _ | .storing _ _ => true
  | _ => false

inductive Pushes (s s' : State T) : Action T → Reply T → Prop where
  | call {value : T} (idle : s.producer = .idle) (called : s'.producer.value = some value) :
      Pushes s s' (.push value) .none
  | goes {action : Action T} {value : T} (within : s.producer.value = some value)
      (same : s'.producer.value = some value) : Pushes s s' action .none
  | ends {action : Action T} {value : T} {ok : Bool} (within : s.producer.value = some value)
      (idle : s'.producer = .idle) : Pushes s s' action (.pushed value ok)

inductive Pops (s s' : State T) : Action T → Reply T → Prop where
  | call (idle : s.consumer = .idle) (called : s'.consumer.pops = true) : Pops s s' .pop .none
  | goes {action : Action T} (within : s.consumer.pops = true)
      (same : s'.consumer.pops = true) : Pops s s' action .none
  | ends {action : Action T} {out : Option T} (within : s.consumer.pops = true)
      (idle : s'.consumer = .idle) : Pops s s' action (.popped out)

variable {r : Ring} {s s' : State T} {action : Action T} {reply : Reply T}

theorem step_pushes (own : action.byProducer = true) (calls : action ≠ .full)
    (asks : ∀ t, s.producer ≠ .asking t) (stepped : step r s action = some (s', reply)) :
    Pushes s s' action reply := by
  have within {value : T} {t : Nat} (pc : s.producer = .pushing value t) :
      s.producer.value = some value := by
    rw [pc]
    rfl
  cases step_effect stepped with
  | push pc => exact .call pc rfl
  | full => exact absurd rfl calls
  | noRoom _ _ pc => exact .ends (within pc) rfl
  | room _ _ pc => exact .goes (within pc) rfl
  | tellsFull _ _ pc => exact absurd pc (asks _)
  | writeSlot pc => exact .goes (by rw [pc]; rfl) rfl
  | storeTail pc => exact .ends (by rw [pc]; rfl) rfl
  | pop | empty | noValue | value | tellsEmpty | readSlot | storeHead => cases own

theorem step_pops (own : action.byProducer = false) (calls : action ≠ .empty)
    (asks : ∀ h, s.consumer ≠ .asking h) (stepped : step r s action = some (s', reply)) :
    Pops s s' action reply := by
  have within {h : Nat} (pc : s.consumer = .popping h) : s.consumer.pops = true := by
    rw [pc]
    rfl
  cases step_effect stepped with
  | pop pc => exact .call pc rfl
  | empty => exact absurd rfl calls
  | noValue _ _ pc => exact .ends (within pc) rfl
  | value _ _ pc => exact .goes (within pc) rfl
  | tellsEmpty _ _ pc => exact absurd pc (asks _)
  | readSlot pc => exact .goes (by rw [pc]; rfl) rfl
  | storeHead pc => exact .ends (by rw [pc]; rfl) rfl
  | push | full | noRoom | room | tellsFull | writeSlot | storeTail => cases own

end

namespace Correctness

def below (k : UInt64) : List UInt64 := (List.range k.toNat).map UInt64.ofNat

theorem toNat_succ {k n : UInt64} (less : k < n) : (k + 1).toNat = k.toNat + 1 := by
  have bound := n.toNat_lt
  rw [UInt64.lt_iff_toNat_lt] at less
  rw [UInt64.toNat_add, UInt64.toNat_one, Nat.mod_eq_of_lt (by omega)]

theorem below_succ {k n : UInt64} (less : k < n) : below (k + 1) = below k ++ [k] := by
  rw [below, toNat_succ less, List.range_succ, List.map_append, List.map_singleton,
    UInt64.ofNat_toNat, below]

theorem below_length (k : UInt64) : (below k).length = k.toNat := by
  rw [below, List.length_map, List.length_range]

theorem below_get {k v : UInt64} {j : Nat} (found : (below k)[j]? = some v) :
    j < k.toNat ∧ v = .ofNat j := by
  obtain ⟨index, at_j, rfl⟩ := List.getElem?_map.symm.trans found |> Option.map_eq_some_iff.mp
  obtain ⟨inside, rfl⟩ := List.getElem?_eq_some_iff.mp at_j
  rw [List.length_range] at inside
  exact ⟨inside, by rw [List.getElem_range]⟩

theorem sum_below (k : UInt64) : (below k).sum = .ofNat (k.toNat * (k.toNat - 1) / 2) := by
  have sum (count : Nat) : ((List.range count).map UInt64.ofNat).sum =
      .ofNat (∑ j ∈ Finset.range count, j) := by
    induction count with
    | zero => rfl
    | succ count ih =>
      rw [List.range_succ, List.map_append, List.sum_append, ih, Finset.sum_range_succ,
        UInt64.ofNat_add]
      simp
  rw [below, sum, Finset.sum_range_id]

structure Good (r : Ring) (n : UInt64) (h : Correctness) : Prop where
  alive : h.aborted = false
  inv : Inv r h.ring (below h.i) (below h.expected)
  producing : (h.ring.producer = .idle ∧ h.i ≤ n) ∨
    (h.ring.producer.value = some h.i ∧ h.i < n)
  consuming : h.ring.consumer = .idle ∨ (h.ring.consumer.pops = true ∧ h.expected < n)
  finished : h.done = true → ¬h.i < n
  sum : h.consumedSum = (below h.expected).sum

section

variable {r : Ring} {n : UInt64} {h h' : Correctness} {reply : Reply UInt64}

theorem start_good (r : Ring) (n : UInt64) (initial : Nat → UInt64) : Good r n (start initial) where
  alive := rfl
  inv := init_inv r initial
  producing := .inl ⟨rfl, UInt64.zero_le⟩
  consuming := .inl rfl
  finished := fun done => absurd done (by simp [start])
  sum := rfl

namespace Good

variable (good : Good r n h)

include good

theorem producer_value {value : UInt64} (within : h.ring.producer.value = some value) :
    value = h.i ∧ h.i < n := by
  rcases good.producing with ⟨idle, -⟩ | ⟨same, less⟩
  · rw [idle] at within
    exact absurd within (by simp [Producer.value])
  · exact ⟨Option.some.inj (within.symm.trans same), less⟩

theorem not_asking : (∀ t, h.ring.producer ≠ .asking t) ∧ ∀ t, h.ring.consumer ≠ .asking t := by
  constructor <;> intro t asks
  · rcases good.producing with ⟨idle, -⟩ | ⟨same, -⟩
    · rw [idle] at asks
      exact absurd asks (by simp)
    · rw [asks] at same
      exact absurd same (by simp [Producer.value])
  · rcases good.consuming with idle | ⟨pops, -⟩
    · rw [idle] at asks
      exact absurd asks (by simp)
    · rw [asks] at pops
      exact absurd pops (by simp [Consumer.pops])

theorem expected_le : h.expected.toNat ≤ h.i.toNat := by
  have order := good.inv.order.length_le
  rwa [below_length, below_length] at order

theorem producer_turn {s' : State UInt64} {action : Action UInt64}
    (own : action.byProducer = true) (calls : h.Calls n action)
    (stepped : step r h.ring action = some (s', reply)) :
    Good r n (({ h with ring := s' } : Correctness).answered reply) := by
  have inv := step_inv good.inv stepped
  have moved := step_left stepped
  rw [if_pos own] at moved
  have consuming : s'.consumer = .idle ∨ (s'.consumer.pops = true ∧ h.expected < n) := by
    rw [moved.2]
    exact good.consuming
  have notFull : action ≠ .full := by
    rintro rfl
    exact calls
  cases step_pushes own notFull good.not_asking.1 stepped with
  | @call value idle called =>
    obtain ⟨less, rfl⟩ := calls
    exact ⟨good.alive, by simpa [pushedOf, poppedOf, answered] using inv, .inr ⟨called, less⟩, consuming,
      good.finished, good.sum⟩
  | goes within same =>
    obtain ⟨rfl, less⟩ := good.producer_value within
    exact ⟨good.alive, by simpa [pushedOf, poppedOf, answered] using inv, .inr ⟨same, less⟩, consuming,
      good.finished, good.sum⟩
  | @ends _ _ ok within idle =>
    obtain ⟨rfl, less⟩ := good.producer_value within
    cases ok with
    | false =>
      exact ⟨good.alive, by simpa [pushedOf, poppedOf, answered] using inv,
        .inl ⟨idle, UInt64.le_of_lt less⟩, consuming, good.finished, good.sum⟩
    | true =>
      have next := toNat_succ less
      refine ⟨good.alive, ?_, .inl ⟨idle, ?_⟩, consuming,
        fun done => absurd less (good.finished done), good.sum⟩
      · simpa [pushedOf, poppedOf, answered, below_succ less] using inv
      · rw [UInt64.lt_iff_toNat_lt] at less
        rw [UInt64.le_iff_toNat_le]
        exact next.le.trans less

theorem consumer_turn {s' : State UInt64} {action : Action UInt64}
    (own : action.byProducer = false) (calls : h.Calls n action)
    (stepped : step r h.ring action = some (s', reply)) :
    Good r n (({ h with ring := s' } : Correctness).answered reply) := by
  have inv := step_inv good.inv stepped
  have moved := step_left stepped
  rw [if_neg (by simp [own])] at moved
  have producing : (s'.producer = .idle ∧ h.i ≤ n) ∨
      (s'.producer.value = some h.i ∧ h.i < n) := by
    rw [moved.2]
    exact good.producing
  have notEmpty : action ≠ .empty := by
    rintro rfl
    exact calls
  have expecting (pops : h.ring.consumer.pops = true) : h.expected < n := by
    rcases good.consuming with idle | ⟨-, less⟩
    · rw [idle] at pops
      exact absurd pops (by simp [Consumer.pops])
    · exact less
  cases step_pops own notEmpty good.not_asking.2 stepped with
  | call idle called =>
    exact ⟨good.alive, by simpa [pushedOf, poppedOf, answered] using inv, producing,
      .inr ⟨called, calls⟩, good.finished, good.sum⟩
  | goes within same =>
    exact ⟨good.alive, by simpa [pushedOf, poppedOf, answered] using inv, producing,
      .inr ⟨same, expecting within⟩, good.finished, good.sum⟩
  | @ends _ out within idle =>
    cases out with
    | none =>
      exact ⟨good.alive, by simpa [pushedOf, poppedOf, answered] using inv, producing,
        .inl idle, good.finished, good.sum⟩
    | some v =>
      have less := expecting within
      have inv : Inv r s' (below h.i) (below h.expected ++ [v]) := by
        simpa [pushedOf, poppedOf] using inv
      -- What comes out is what the ring was given at this place.
      have place := List.prefix_iff_getElem?.mp inv.order h.expected.toNat (by simp [below_length])
      rw [List.getElem_append_right (by rw [below_length]), List.getElem_singleton] at place
      have same : v = h.expected := by
        rw [(below_get place).2, UInt64.ofNat_toNat]
      rw [same] at inv
      rw [answered, if_neg (not_not.mpr same)]
      refine ⟨good.alive, ?_, producing, .inl idle, good.finished, ?_⟩
      · rwa [below_succ less]
      · rw [below_succ less, List.sum_append, List.sum_singleton, same, good.sum]

end Good

theorem ring_turn {action : Action UInt64} (taken : turn r n h (.ring action) = some (h', reply)) :
    h.aborted = false ∧ h.Calls n action ∧ ∃ s', step r h.ring action = some (s', reply) ∧
      h' = ({ h with ring := s' } : Correctness).answered reply := by
  rw [turn, Option.ite_none_right_eq_some] at taken
  obtain ⟨⟨alive, calls⟩, taken⟩ := taken
  obtain ⟨⟨s', answer⟩, stepped, same⟩ := Option.map_eq_some_iff.mp taken
  obtain ⟨rfl, rfl⟩ := Prod.mk.inj same
  exact ⟨alive, calls, s', stepped, rfl⟩

theorem Good.next {t : Turn} (good : Good r n h) (taken : turn r n h t = some (h', reply)) :
    Good r n h' := by
  cases t with
  | ring action =>
    obtain ⟨-, calls, s', stepped, rfl⟩ := ring_turn taken
    cases own : action.byProducer with
    | true => exact good.producer_turn own calls stepped
    | false => exact good.consumer_turn own calls stepped
  | done =>
    rw [turn, Option.ite_none_right_eq_some] at taken
    obtain ⟨⟨-, -, left, -⟩, taken⟩ := taken
    obtain ⟨rfl, -⟩ := Prod.mk.inj (Option.some.inj taken)
    exact { good with finished := fun _ => left }

theorem run_good {initial : Nat → UInt64} {turns : List Turn} {log : List (Turn × Reply UInt64)}
    (ran : Runs.run (turn r n) (start initial) turns = some (h, log)) : Good r n h :=
  Runs.run_induction (P := fun _ h => Good r n h) (start_good r n initial)
    (fun _ _ _ _ _ _ _ good taken => good.next taken) ran

-- What is still to be done, an attempt that fails not counted.
def left (n : UInt64) (h : Correctness) : Nat :=
  5 * (n.toNat - h.i.toNat) + 5 * (n.toNat - h.expected.toNat) + h.ring.producer.left +
    h.ring.consumer.left + (!h.done).toNat

def retries : Reply UInt64 → Bool
  | .pushed _ ok => !ok
  | .popped out => out.isNone
  | _ => false

theorem Good.turn_left {t : Turn} (good : Good r n h) (taken : turn r n h t = some (h', reply))
    (moves : retries reply = false) : h'.left n < h.left n := by
  have alive := (good.next taken).alive
  cases t with
  | ring action =>
    obtain ⟨-, calls, s', stepped, rfl⟩ := ring_turn taken
    have moved := step_left stepped
    cases own : action.byProducer with
    | true =>
      rw [if_pos own] at moved
      obtain ⟨nearer, same⟩ := moved
      have notFull : action ≠ .full := by
        rintro rfl
        exact calls
      cases step_pushes own notFull good.not_asking.1 stepped with
      | call | goes =>
        have := nearer rfl
        simp only [Correctness.left, answered, same]
        omega
      | @ends _ _ ok within idle =>
        obtain ⟨rfl, less⟩ := good.producer_value within
        obtain rfl : ok = true := by cases ok <;> simp_all [retries]
        have next := toNat_succ less
        have := h.ring.producer.left_le
        have ended : s'.producer.left = 4 := by
          rw [idle]
          rfl
        rw [UInt64.lt_iff_toNat_lt] at less
        simp only [Correctness.left, answered, same, ended, next]
        omega
    | false =>
      rw [if_neg (by simp [own])] at moved
      obtain ⟨nearer, same⟩ := moved
      have notEmpty : action ≠ .empty := by
        rintro rfl
        exact calls
      cases step_pops own notEmpty good.not_asking.2 stepped with
      | call | goes =>
        have := nearer rfl
        simp only [Correctness.left, answered, same]
        omega
      | @ends _ out within idle =>
        obtain ⟨v, rfl⟩ : ∃ v, out = some v := by cases out <;> simp_all [retries]
        have less : h.expected < n := by
          rcases good.consuming with idle | ⟨-, less⟩
          · rw [idle] at within
            exact absurd within (by simp [Consumer.pops])
          · exact less
        have next := toNat_succ less
        have := h.ring.consumer.left_le
        have ended : s'.consumer.left = 4 := by
          rw [idle]
          rfl
        have right : ¬v ≠ h.expected := by
          intro wrong
          rw [answered, if_pos wrong] at alive
          exact absurd alive (by simp)
        rw [UInt64.lt_iff_toNat_lt] at less
        rw [answered, if_neg right]
        simp only [Correctness.left, same, ended, next]
        omega
  | done =>
    rw [turn, Option.ite_none_right_eq_some] at taken
    obtain ⟨⟨-, -, -, notDone⟩, taken⟩ := taken
    obtain ⟨rfl, -⟩ := Prod.mk.inj (Option.some.inj taken)
    simp [Correctness.left, notDone]

theorem Good.consumes (good : Good r n h) (waiting : h.expected < h.i) :
    ∃ action s' reply, h.Calls n action ∧ step r h.ring action = some (s', reply) ∧
      retries reply = false := by
  have inv := good.inv
  have le : h.i ≤ n := by
    rcases good.producing with ⟨-, le⟩ | ⟨-, less⟩
    · exact le
    · exact UInt64.le_of_lt less
  cases consumer : h.ring.consumer with
  | idle =>
    exact ⟨.pop, by simp [step, consumer, Calls, UInt64.lt_of_lt_of_le waiting le, retries]⟩
  | popping slot =>
    obtain ⟨seen, newest⟩ := newest_tail inv
    have at_pc := inv.consumer
    simp only [ConsumerAt, consumer] at at_pc
    have different : ¬slot = (below h.i).length % r.capacity := by
      rw [at_pc, inv.empty_iff (Nat.not_lt.mp seen) (le_refl _), below_length, below_length]
      rw [UInt64.lt_iff_toNat_lt] at waiting
      omega
    refine ⟨.loadTail (below h.i).length, ?_⟩
    simp [step, loadTail, seen, newest, consumer, different, Calls, retries]
  | asking slot => exact absurd consumer (good.not_asking.2 slot)
  | reading slot =>
    obtain ⟨value, -, stepped⟩ := read_next inv consumer
    exact ⟨.readSlot (some (below h.expected).length), _, _, trivial, stepped, rfl⟩
  | storing slot out => exact ⟨.storeHead, by simp [step, consumer, Calls, retries]⟩

-- With none in it the producer has one, for it sees that there is room.
theorem Good.produces (good : Good r n h) (empty : h.expected = h.i) (less : h.i < n) :
    ∃ action s' reply, h.Calls n action ∧ step r h.ring action = some (s', reply) ∧
      retries reply = false := by
  have inv := good.inv
  cases producer : h.ring.producer with
  | idle => exact ⟨.push h.i, by simp [step, producer, Calls, less, retries]⟩
  | pushing value slot =>
    obtain ⟨seen, newest⟩ := newest_head inv
    have at_pc := inv.producer
    simp only [ProducerAt, producer] at at_pc
    have different : ¬(slot + 1) &&& r.kMask = (below h.expected).length % r.capacity := by
      have two := r.atLeastTwo
      rw [at_pc.1, r.next_mod, inv.full_iff (Nat.not_lt.mp seen) (le_refl _), empty]
      omega
    refine ⟨.loadHead (below h.expected).length, ?_⟩
    simp [step, loadHead, seen, newest, producer, different, Calls, retries]
  | asking slot => exact absurd producer (good.not_asking.1 slot)
  | writing value slot next => exact ⟨.writeSlot, by simp [step, producer, Calls, retries]⟩
  | storing value slot next => exact ⟨.storeTail, by simp [step, producer, Calls, retries]⟩

theorem Good.goes (good : Good r n h) (busy : ¬h.Finished n) :
    ∃ t h' reply, turn r n h t = some (h', reply) ∧ retries reply = false := by
  have forward (moves : ∃ action s' reply, h.Calls n action ∧
      step r h.ring action = some (s', reply) ∧ retries reply = false) :
      ∃ t h' reply, turn r n h t = some (h', reply) ∧ retries reply = false := by
    obtain ⟨action, s', reply, calls, stepped, moves⟩ := moves
    exact ⟨.ring action, _, reply, by rw [turn, if_pos ⟨good.alive, calls⟩, stepped]; rfl, moves⟩
  have order := good.expected_le
  by_cases waiting : h.expected < h.i
  · exact forward (good.consumes waiting)
  · have empty : h.expected = h.i := by
      rw [UInt64.lt_iff_toNat_lt] at waiting
      exact UInt64.toNat_inj.mp (by omega)
    by_cases less : h.i < n
    · exact forward (good.produces empty less)
    · have producer : h.ring.producer = .idle := by
        rcases good.producing with ⟨idle, -⟩ | ⟨-, more⟩
        · exact idle
        · exact absurd more less
      have consumer : h.ring.consumer = .idle := by
        rcases good.consuming with idle | ⟨-, more⟩
        · exact idle
        · exact absurd (empty ▸ more) less
      cases done : h.done with
      | true => exact absurd ⟨producer, done, consumer, empty ▸ less⟩ busy
      | false => exact ⟨.done, _, _, by rw [turn, if_pos ⟨good.alive, producer, less, done⟩], rfl⟩

theorem Good.finishes (good : Good r n h) :
    ∃ turns h' log, Runs.run (turn r n) h turns = some (h', log) ∧ h'.Finished n := by
  induction size : h.left n using Nat.strong_induction_on generalizing h with
  | _ size ih =>
    by_cases busy : h.Finished n
    · exact ⟨[], h, [], rfl, busy⟩
    · obtain ⟨t, next, reply, taken, moves⟩ := good.goes busy
      have less := good.turn_left taken moves
      obtain ⟨turns, h', log, ran, finished⟩ := ih _ (size ▸ less) (good.next taken) rfl
      refine ⟨t :: turns, h', (t, reply) :: log, ?_, finished⟩
      rw [Runs.run, taken, Option.bind_some, ran]
      rfl

end

end Correctness

theorem run_correctness_passes (r : Ring) (n : UInt64) (initial : Nat → UInt64)
    (turns : List Correctness.Turn) {h : Correctness}
    {log : List (Correctness.Turn × Reply UInt64)}
    (ran : Runs.run (Correctness.turn r n) (Correctness.start initial) turns = some (h, log)) :
    h.aborted = false ∧
      (h.Finished n → h.consumedSum = .ofNat (n.toNat * (n.toNat - 1) / 2)) ∧
      ∃ more h' log', Runs.run (Correctness.turn r n) h more = some (h', log') ∧
        h'.Finished n := by
  have good := Correctness.run_good ran
  refine ⟨good.alive, fun finished => ?_, good.finishes⟩
  have order := good.expected_le
  have le := UInt64.not_lt.mp finished.expected
  have upper : h.i ≤ n := by
    rcases good.producing with ⟨-, upper⟩ | ⟨-, less⟩
    · exact upper
    · exact UInt64.le_of_lt less
  rw [UInt64.le_iff_toNat_le] at le upper
  have all : h.expected = n := UInt64.toNat_inj.mp (by omega)
  rw [good.sum, Correctness.sum_below, all]

theorem run_correctness_passes_started : ∃ h log,
    Runs.run (Correctness.turn smallest 3) (Correctness.start fun _ => 0)
        [.ring (.push 0), .ring (.loadHead 0), .ring .pop, .ring .writeSlot] = some (h, log) ∧
      h.aborted = false ∧ (h.Finished 3 → h.consumedSum = .ofNat (3 * 2 / 2)) ∧
      ∃ more h' log', Runs.run (Correctness.turn smallest 3) h more = some (h', log') ∧
        h'.Finished 3 :=
  ⟨_, _, rfl, run_correctness_passes smallest 3 (fun _ => 0)
    [.ring (.push 0), .ring (.loadHead 0), .ring .pop, .ring .writeSlot] rfl⟩

end CppPractice.SpscRingBuffer
