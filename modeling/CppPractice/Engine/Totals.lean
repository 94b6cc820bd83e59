import CppPractice.Engine.Visibility

set_option autoImplicit false

namespace CppPractice.LimitOrderBook

open Reference (Order better)

variable {c : Config} {s s' : LimitOrderBook c} {side : Side}

theorem levelQuantity_level {level : Nat} (inLevels : level < c.kLevels) (side : Side) :
    s.levelQuantity side (c.levelToPrice level) = (s.book side).levelQty level := by
  rw [levelQuantity, inRange_levelToPrice inLevels, priceToLevel_levelToPrice]
  rfl

theorem inRange_of_levelQuantity {price : Int} (some : s.levelQuantity side price ≠ 0) :
    c.inRange price = true := by
  by_contra outside
  rw [levelQuantity, if_pos (by simpa using outside)] at some
  exact some rfl

theorem Shown.isOccupied_iff (shown : Shown s) (side : Side) (level : Nat) :
    s.isOccupied side level = true ↔ s.ordersAt side level ≠ [] := by
  obtain ⟨free, queue, rep⟩ := shown.represents
  refine ⟨fun lit => ?_, shown.visible side level⟩
  rw [rep.nodes.ordersAt]
  exact mt List.map_eq_nil_iff.mp (rep.occupancy.occupied side level lit)

structure SameSide (s s' : LimitOrderBook c) (side : Side) : Prop where
  orders : ∀ level, s'.ordersAt side level = s.ordersAt side level
  totals : ∀ price, s'.levelQuantity side price = s.levelQuantity side price
  best : s'.bestPrice side = s.bestPrice side

theorem Shown.sameSide (shown : Shown s) (shown' : Shown s')
    (same : ∀ level, s'.ordersAt side level = s.ordersAt side level) : SameSide s s' side := by
  obtain ⟨free, queue, rep⟩ := shown.represents
  obtain ⟨free', queue', rep'⟩ := shown'.represents
  refine ⟨same, fun price => ?_, ?_⟩
  · unfold levelQuantity
    split
    · rfl
    · refine BitVec.eq_of_toNat_eq ?_
      rw [rep.levelQty_toNat, rep'.levelQty_toNat, restingQty, restingQty, same]
  · have bits (level : Nat) : s'.isOccupied side level = s.isOccupied side level := by
      rw [Bool.eq_iff_iff, shown.isOccupied_iff, shown'.isOccupied_iff, same]
    rw [bestPrice, bestPrice]
    refine congrArg _ (Option.ext fun level => ?_)
    rw [rep.best_eq_some, rep'.best_eq_some]
    simp only [bits]

namespace Tidy

theorem levelQty_toNat (tidy : Tidy s) (side : Side) (level : Nat) :
    ((s.book side).levelQty level).toNat = s.restingQty side level := by
  obtain ⟨free, queue, rep⟩ := tidy.represents
  rw [rep.levelQty_toNat, Nat.mod_eq_of_lt (tidy.small side level)]

theorem levelQty_eq_zero (tidy : Tidy s) (side : Side) (level : Nat) :
    (s.book side).levelQty level = 0 ↔ s.ordersAt side level = [] := by
  obtain ⟨free, queue, rep⟩ := tidy.represents
  have total := tidy.levelQty_toNat side level
  constructor
  · intro zero
    by_contra some
    have := rep.restingQty_pos some
    rw [zero, show (0 : c.Qty).toNat = 0 by simp] at total
    omega
  · intro none
    rw [restingQty, none] at total
    exact BitVec.eq_of_toNat_eq (by simpa using total)

theorem levelQuantity_toNat (tidy : Tidy s) {price : Int} (inRange : c.inRange price = true)
    (side : Side) :
    (s.levelQuantity side price).toNat = s.restingQty side (c.priceToLevel price) := by
  rw [levelQuantity, inRange]
  exact tidy.levelQty_toNat side _

theorem best_price (tidy : Tidy s) {price : Int} :
    s.bestPrice side = some price ↔ s.levelQuantity side price ≠ 0 ∧
      ∀ other, s.levelQuantity side other ≠ 0 → better side other price = false := by
  obtain ⟨free, queue, rep⟩ := tidy.represents
  have lit {level : Nat} (inLevels : level < c.kLevels) :
      s.isOccupied side level = true ↔ s.levelQuantity side (c.levelToPrice level) ≠ 0 := by
    rw [tidy.shown.isOccupied_iff, levelQuantity_level inLevels, ne_eq, ne_eq, tidy.levelQty_eq_zero]
  have beats (level best : Nat) :
      side.beats level best = better side (c.levelToPrice level) (c.levelToPrice best) := by
    cases side <;> simp [Side.beats, better, Config.levelToPrice]
  rw [bestPrice, Option.map_eq_some_iff]
  constructor
  · rintro ⟨best, cached, rfl⟩
    obtain ⟨present, bound⟩ := (rep.best_eq_some side best).mp cached
    refine ⟨(lit (rep.isOccupied_lt present)).mp present, fun other some => ?_⟩
    obtain ⟨inLevels, samePrice⟩ := level_of_price (inRange_of_levelQuantity some)
    rw [← samePrice] at some ⊢
    rw [← beats]
    exact bound _ ((lit inLevels).mpr some)
  · rintro ⟨some, bound⟩
    obtain ⟨inLevels, samePrice⟩ := level_of_price (inRange_of_levelQuantity some)
    rw [← samePrice] at some
    refine ⟨c.priceToLevel price, (rep.best_eq_some side _).mpr ⟨(lit inLevels).mpr some, ?_⟩,
      samePrice⟩
    intro other present
    rw [beats, samePrice]
    exact bound _ ((lit (rep.isOccupied_lt present)).mp present)

theorem best_none (tidy : Tidy s) :
    s.bestPrice side = none ↔ ∀ price, s.levelQuantity side price = 0 := by
  obtain ⟨free, queue, rep⟩ := tidy.represents
  rw [bestPrice, Option.map_eq_none_iff, rep.best_eq_none]
  constructor
  · intro dark price
    by_contra some
    obtain ⟨inLevels, samePrice⟩ := level_of_price (inRange_of_levelQuantity some)
    rw [← samePrice, levelQuantity_level inLevels, tidy.levelQty_eq_zero] at some
    have present := tidy.visible _ _ some
    rw [dark] at present
    exact absurd present (by decide)
  · intro zero level
    by_contra lit
    have present : s.isOccupied side level = true := by simpa using lit
    have none := zero (c.levelToPrice level)
    rw [levelQuantity_level (rep.isOccupied_lt present), tidy.levelQty_eq_zero] at none
    exact (tidy.shown.isOccupied_iff side level).mp present none

end Tidy

end CppPractice.LimitOrderBook
