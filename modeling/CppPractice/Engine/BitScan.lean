import CppPractice.Engine.Occupancy

set_option autoImplicit false

namespace CppPractice.LimitOrderBook

variable {c : Config}

structure OccupiedCall where
  side : Side
  level : Nat
  occupied : Bool

def setOccupiedAll (s : LimitOrderBook c) (calls : List OccupiedCall) : LimitOrderBook c :=
  calls.foldl (fun s call => s.setOccupied call.side call.level call.occupied) s

def lastCall (calls : List OccupiedCall) (side : Side) (level : Nat) : Option OccupiedCall :=
  (calls.filter fun call => decide (call.side = side ∧ call.level = level)).getLast?

def lastTrue (calls : List OccupiedCall) (side : Side) (level : Nat) : Bool :=
  (lastCall calls side level).any OccupiedCall.occupied

def linearScan (c : Config) (marked : Nat → Bool) : Side → Option Nat
  | .Buy => (List.range c.kLevels).reverse.find? marked
  | .Sell => (List.range c.kLevels).find? marked

theorem lastTrue_snoc (calls : List OccupiedCall) (call : OccupiedCall) (side : Side)
    (level : Nat) : lastTrue (calls ++ [call]) side level =
      if call.side = side ∧ call.level = level then call.occupied else lastTrue calls side level := by
  rw [lastTrue, lastCall, List.filter_append]
  by_cases here : call.side = side ∧ call.level = level
  · rw [if_pos here, List.filter_singleton, decide_eq_true here]
    simp
  · rw [if_neg here, List.filter_singleton, decide_eq_false here]
    simp [lastTrue, lastCall]

theorem isOccupied_setOccupied (s : LimitOrderBook c) (call : OccupiedCall) (side : Side)
    (level : Nat) : (s.setOccupied call.side call.level call.occupied).isOccupied side level =
      if call.side = side ∧ call.level = level then call.occupied else s.isOccupied side level := by
  by_cases sameSide : call.side = side
  · subst sameSide
    simp [isOccupied, setOccupied, setBook, Bitset.test_assign, eq_comm]
  · simp [isOccupied, setOccupied, setBook, sameSide, Ne.symm sameSide]

def BestOf (side : Side) (marked : Nat → Bool) : Option Nat → Prop
  | none => ∀ level, marked level = false
  | some best => marked best = true ∧ ∀ level, marked level = true → side.beats level best = false

section

variable {marked : Nat → Bool}

theorem bestOf_buy {best : Nat} :
    BestOf .Buy marked (some best) ↔ IsGreatest {level | marked level = true} best := by
  simp [BestOf, Side.beats, IsGreatest, upperBounds]

theorem bestOf_sell {best : Nat} :
    BestOf .Sell marked (some best) ↔ IsLeast {level | marked level = true} best := by
  simp [BestOf, Side.beats, IsLeast, lowerBounds]

theorem BestOf.unique {side : Side} {left right : Option Nat} (first : BestOf side marked left)
    (second : BestOf side marked right) : left = right := by
  cases left with
  | none =>
    cases right with
    | none => rfl
    | some right => exact absurd second.1 (by simp [first right])
  | some left =>
    cases right with
    | none => exact absurd first.1 (by simp [second left])
    | some right =>
      cases side with
      | Buy => rw [(bestOf_buy.mp first).unique (bestOf_buy.mp second)]
      | Sell => rw [(bestOf_sell.mp first).unique (bestOf_sell.mp second)]

theorem linearScan_best (inside : ∀ level, marked level = true → level < c.kLevels) (side : Side) :
    BestOf side marked (linearScan c marked side) := by
  cases found : linearScan c marked side with
  | none =>
    intro level
    by_contra present
    have present : marked level = true := by simpa using present
    have skipped : ∀ other < c.kLevels, marked other = false := by
      cases side <;> simpa [linearScan] using found
    simp [skipped level (inside level present)] at present
  | some best =>
    cases side with
    | Buy =>
      obtain ⟨here, place, low, same, before⟩ := List.find?_eq_some_iff_getElem.mp found
      refine bestOf_buy.mpr ⟨here, fun level present => ?_⟩
      have inLevels := inside level present
      rw [List.getElem_reverse, List.getElem_range, List.length_range] at same
      by_contra above
      -- The walk met the higher level before it met `best`.
      have passed := before (c.kLevels - 1 - level) (by omega)
      rw [List.getElem_reverse, List.getElem_range, List.length_range,
        show c.kLevels - 1 - (c.kLevels - 1 - level) = level by omega, present] at passed
      exact absurd passed (by decide)
    | Sell =>
      rw [linearScan, List.find?_range_eq_some] at found
      obtain ⟨here, -, before⟩ := found
      refine bestOf_sell.mpr ⟨here, fun level present => ?_⟩
      by_contra below
      have passed := before level (by omega)
      rw [show marked level = true from present] at passed
      exact absurd passed (by decide)

end

section

variable {start : LimitOrderBook c} (clear : ∀ side word, (start.book side).occ word = 0)
include clear

theorem isOccupied_setOccupiedAll (calls : List OccupiedCall) (side : Side) (level : Nat) :
    (start.setOccupiedAll calls).isOccupied side level = lastTrue calls side level := by
  induction calls using List.reverseRecOn with
  | nil => simp [setOccupiedAll, isOccupied, Bitset.test, clear, lastTrue, lastCall]
  | append_singleton calls call ih =>
    rw [setOccupiedAll, List.foldl_append, List.foldl_cons, List.foldl_nil, ← setOccupiedAll,
      isOccupied_setOccupied, lastTrue_snoc, ih]

theorem setOccupiedAll_within {calls : List OccupiedCall}
    (inside : ∀ call ∈ calls, call.level < c.kLevels) (side : Side) :
    Bitset.Within ((start.setOccupiedAll calls).book side).occ c.kLevels := by
  intro level present
  have last : lastTrue calls side level = true :=
    (isOccupied_setOccupiedAll clear calls side level).symm.trans present
  obtain ⟨call, found, -⟩ := (Option.any_eq_true _ _).mp last
  obtain ⟨member, here⟩ := List.mem_filter.mp (List.mem_of_getLast? found)
  rw [← (of_decide_eq_true here).2]
  exact inside call member

theorem setOccupiedAll_best {calls : List OccupiedCall}
    (inside : ∀ call ∈ calls, call.level < c.kLevels) (side : Side) :
    BestOf side (lastTrue calls side) ((start.setOccupiedAll calls).findBest side) := by
  have found := findBest_isBest (setOccupiedAll_within clear inside side)
  have read (level : Nat) :
      Bitset.test ((start.setOccupiedAll calls).book side).occ level = lastTrue calls side level :=
    isOccupied_setOccupiedAll clear calls side level
  cases best : (start.setOccupiedAll calls).findBest side with
  | none =>
    rw [best] at found
    exact fun level => (read level).symm.trans (found level)
  | some best =>
    rw [best, IsBest] at found
    simpa only [BestOf, read] using found

theorem lastTrue_lt {calls : List OccupiedCall}
    (inside : ∀ call ∈ calls, call.level < c.kLevels) {side : Side} {level : Nat}
    (last : lastTrue calls side level = true) : level < c.kLevels :=
  setOccupiedAll_within clear inside side level
    ((isOccupied_setOccupiedAll clear calls side level).trans last)

theorem findBest_linear (calls : List OccupiedCall)
    (inside : ∀ call ∈ calls, call.level < c.kLevels) :
    let s := start.setOccupiedAll calls
    (∀ best, s.findBestBid = some best ↔
        IsGreatest {level | lastTrue calls .Buy level = true} best) ∧
      (∀ best, s.findBestAsk = some best ↔
        IsLeast {level | lastTrue calls .Sell level = true} best) ∧
      (s.findBestBid = none ↔ ∀ level, lastTrue calls .Buy level = false) ∧
      (s.findBestAsk = none ↔ ∀ level, lastTrue calls .Sell level = false) ∧
      ∀ side, s.findBest side = linearScan c (lastTrue calls side) side := by
  intro s
  have best (side : Side) : BestOf side (lastTrue calls side) (s.findBest side) :=
    setOccupiedAll_best clear inside side
  have is (side : Side) (level : Option Nat) :
      s.findBest side = level ↔ BestOf side (lastTrue calls side) level :=
    ⟨fun same => same ▸ best side, fun other => (best side).unique other⟩
  refine ⟨fun level => (is .Buy (some level)).trans bestOf_buy,
    fun level => (is .Sell (some level)).trans bestOf_sell, is .Buy none, is .Sell none, ?_⟩
  intro side
  exact (is side _).mpr (linearScan_best (fun level last => lastTrue_lt clear inside last) side)

end

-- Seventy levels fill one word and six bits of the next.
def seventyLevels : Config := ⟨32, 100, 169, 8, by decide, by decide, by decide⟩

theorem findBest_linear_seventyLevels :
    let calls := [⟨.Buy, 3, true⟩, ⟨.Sell, 69, true⟩, ⟨.Buy, 66, true⟩, ⟨.Buy, 66, false⟩]
    let s := (LimitOrderBook.new seventyLevels).setOccupiedAll calls
    (∀ best, s.findBestBid = some best ↔
        IsGreatest {level | lastTrue calls .Buy level = true} best) ∧
      (∀ best, s.findBestAsk = some best ↔
        IsLeast {level | lastTrue calls .Sell level = true} best) ∧
      (s.findBestBid = none ↔ ∀ level, lastTrue calls .Buy level = false) ∧
      (s.findBestAsk = none ↔ ∀ level, lastTrue calls .Sell level = false) ∧
      ∀ side, s.findBest side = linearScan seventyLevels (lastTrue calls side) side :=
  findBest_linear (fun _ _ => rfl) _ (by decide)

end CppPractice.LimitOrderBook
