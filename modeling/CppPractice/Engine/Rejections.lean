import CppPractice.Engine.Exposed

set_option autoImplicit false

namespace CppPractice.LimitOrderBook

open Reference (Order)

variable {c : Config}

structure Untouched (s : LimitOrderBook c) (outcome : Outcome c) : Prop where
  executions : outcome.executions = []
  orders : ∀ side level, outcome.book.ordersAt side level = s.ordersAt side level
  quantities : ∀ side price, outcome.book.levelQuantity side price = s.levelQuantity side price
  best : ∀ side, outcome.book.bestPrice side = s.bestPrice side

theorem untouched_self (s : LimitOrderBook c) (ok : Bool) : Untouched s ⟨s, [], ok⟩ :=
  ⟨rfl, fun _ _ => rfl, fun _ _ => rfl, fun _ => rfl⟩

def Occupies (s : LimitOrderBook c) (side : Side) (price orderId : Int) : Prop :=
  s.resting orderId.toNat ≠ none ∧ ∀ o ∈ s.exposed side price, o.id ≠ orderId

-- The order passes the first checks, trades, has a remainder, and its id is taken.
structure LateRefusal (s : LimitOrderBook c) (side : Side) (price : Int) (qty : c.Qty)
    (orderId : Int) : Prop where
  accepts : Accepts c price qty orderId
  occupied : Occupies s side price orderId
  some_exposed : 0 < s.exposedQty side price
  few_exposed : s.exposedQty side price < qty.toNat

section

variable {s : LimitOrderBook c} {free : List Nat} {queue : Side → Nat → List Nat}
variable {side : Side} {price orderId : Int} {qty : c.Qty} {m : Matching c}

theorem Sweeping.remaining_iff (sweeping : Sweeping s side price qty m)
    (stopped : m.remaining ≠ 0 → m.book.exposed side price = []) :
    m.remaining ≠ 0 ↔ s.exposedQty side price < qty.toNat := by
  have left := sweeping.left
  constructor
  · intro remains
    have := Nat.pos_of_ne_zero (toNat_ne_zero remains)
    rw [exposedQty, stopped remains] at left
    simp only [List.map_nil, List.sum_nil] at left
    omega
  · rintro few zero
    rw [zero, show (0 : c.Qty).toNat = 0 from rfl] at left
    omega

theorem Sweeping.taken_iff (sweeping : Sweeping s side price qty m)
    (dry : m.book.exposed side price = []) (valid : c.validId orderId = true) :
    m.book.resting orderId.toNat ≠ none ↔ Occupies s side price orderId := by
  have nonneg : (orderId.toNat : Int) = orderId := Int.toNat_of_nonneg (validId_iff.mp valid).1
  by_cases apart : ∀ o ∈ s.exposed side price, o.id ≠ orderId
  · rw [sweeping.others orderId.toNat (by rwa [nonneg])]
    exact ⟨fun taken => ⟨taken, apart⟩, And.left⟩
  · constructor
    · intro taken
      push Not at apart
      obtain ⟨old, member, rfl⟩ := apart
      rcases sweeping.used old member with ⟨o, inside, -⟩ | gone
      · rw [dry] at inside
        exact absurd inside (by simp)
      · exact absurd gone taken
    · exact fun occupies => absurd occupies.2 apart

theorem Sweeping.executions_iff (sweeping : Sweeping s side price qty m)
    (dry : m.book.exposed side price = []) :
    m.executions = [] ↔ s.exposedQty side price = 0 := by
  have left := sweeping.left
  have none : m.book.exposedQty side price = 0 := by rw [exposedQty, dry]; rfl
  constructor
  · intro idle
    rwa [(sweeping.start idle).1] at none
  · intro zero
    have executed := sweeping.executed
    have nothing : (m.executions.map fun e => e.qty.toNat).sum = 0 := by omega
    rw [List.eq_nil_iff_forall_not_mem]
    intro e member
    have here := List.sum_eq_zero_iff.mp nothing e.qty.toNat (List.mem_map.mpr ⟨e, member, rfl⟩)
    exact toNat_ne_zero (sweeping.positive e member) here

theorem finish_not_ok (refused : (finish m side price orderId).ok = false) :
    m.remaining ≠ 0 ∧ finish m side price orderId = ⟨m.book, m.executions, false⟩ := by
  by_cases done : m.remaining = 0
  · rw [finish_done done] at refused
    exact absurd refused (by simp)
  · cases alloc : m.book.allocOrder orderId with
    | none => exact ⟨done, finish_refused done alloc⟩
    | some allocated =>
      rw [finish_rested done alloc] at refused
      exact absurd refused (by simp)

theorem finish_refused_iff (rep : Represents m.book free queue) (accepts : Accepts c price qty orderId)
    (sweeping : Sweeping s side price qty m)
    (stopped : m.remaining ≠ 0 → m.book.exposed side price = []) :
    (finish m side price orderId).ok = false ↔
      Occupies s side price orderId ∧ s.exposedQty side price < qty.toNat := by
  have few := sweeping.remaining_iff stopped
  constructor
  · intro refused
    have remains := (finish_not_ok refused).1
    refine ⟨(sweeping.taken_iff (stopped remains) accepts.2.2).mp fun fresh => ?_, few.mp remains⟩
    -- A free id would have found a node.
    obtain ⟨s', i, alloc⟩ := rep.alloc_fresh accepts.2.2 (resting_eq_none.mp fresh)
    rw [finish_rested remains alloc] at refused
    exact absurd refused (by simp)
  · rintro ⟨occupied, less⟩
    have remains := few.mpr less
    have taken := (sweeping.taken_iff (stopped remains) accepts.2.2).mpr occupied
    cases alloc : m.book.allocOrder orderId with
    | none => rw [finish_refused remains alloc]
    | some allocated =>
      exact absurd (resting_eq_none.mpr (allocOrder_eq_some.mp alloc).2.1) taken

theorem Represents.atomic_iff (rep : Represents s free queue) (side : Side) (price : Int)
    (qty : c.Qty) (orderId : Int) :
    ∃ outcome, s.processOrder side price qty orderId = some outcome ∧
      ((outcome.ok = false → Untouched s outcome) ↔ ¬LateRefusal s side price qty orderId) := by
  by_cases accepts : Accepts c price qty orderId
  · obtain ⟨m, free', queue', finished, rep', sweeping, stopped⟩ :=
      processOrder_sweeps rep side accepts
    have refused := finish_refused_iff rep' accepts sweeping stopped
    refine ⟨_, finished, ?_⟩
    constructor
    · rintro atomic ⟨-, occupied, some, few⟩
      have ok := refused.mpr ⟨occupied, few⟩
      obtain ⟨remains, ends⟩ := finish_not_ok ok
      have idle := (atomic ok).executions
      rw [ends] at idle
      have zero := (sweeping.executions_iff (stopped remains)).mp idle
      omega
    · intro notLate ok
      obtain ⟨occupied, few⟩ := refused.mp ok
      obtain ⟨remains, ends⟩ := finish_not_ok ok
      have none : s.exposedQty side price = 0 := by
        by_contra some
        exact notLate ⟨accepts, occupied, Nat.pos_of_ne_zero some, few⟩
      have idle := (sweeping.executions_iff (stopped remains)).mpr none
      rw [ends, idle, (sweeping.start idle).1]
      exact untouched_self s false
  · exact ⟨_, processOrder_rejects accepts, fun _ late => accepts late.accepts,
      fun _ _ => untouched_self s false⟩

end

theorem rejected_untouched_iff (start : LimitOrderBook c) (calls : List (Call c)) :
    ∃ s log, Runs.run step start.reset calls = some (s, log) ∧
      ∀ side price qty orderId, ∃ outcome,
        s.processOrder side price qty orderId = some outcome ∧
          ((outcome.ok = false → Untouched s outcome) ↔
            ¬LateRefusal s side price qty orderId) := by
  obtain ⟨s, log, ran, free, queue, rep⟩ := run_represents start calls
  exact ⟨s, log, ran, rep.atomic_iff⟩

-- The last of the crossing calls: 3 units change hands before id 2 is found on a bid.
theorem rejected_after_trade :
    ¬∀ (calls : List (Call fourByFour)) (s : LimitOrderBook fourByFour) log,
      Runs.run step (LimitOrderBook.new fourByFour).reset calls = some (s, log) →
      ∀ side price qty orderId outcome, s.processOrder side price qty orderId = some outcome →
        outcome.ok = false → Untouched s outcome := by
  intro atomic
  obtain ⟨s, log, ran, -⟩ := run_represents (LimitOrderBook.new fourByFour) crossingCalls.dropLast
  have value : ((Runs.run step (LimitOrderBook.new fourByFour).reset crossingCalls.dropLast).bind
      fun result => result.1.processOrder .Sell 102 5 2).map
        (fun outcome => (outcome.ok, outcome.executions.length)) = some (false, 1) := by
    decide +kernel
  rw [ran, Option.bind_some, Option.map_eq_some_iff] at value
  obtain ⟨outcome, processed, same⟩ := value
  obtain ⟨refused, traded⟩ := Prod.mk.inj same
  rw [(atomic _ s log ran _ _ _ _ outcome processed refused).executions] at traded
  exact absurd traded (by decide)

end CppPractice.LimitOrderBook
