import CppPractice.Engine.NodeUpdates

set_option autoImplicit false

namespace CppPractice.LimitOrderBook

variable {c : Config}

def IsBest (side : Side) (occ : Bitset.Words) : Option Nat → Prop
  | none => ∀ level, Bitset.test occ level = false
  | some best => Bitset.test occ best = true ∧
      ∀ level, Bitset.test occ level = true → side.beats level best = false

structure Occupancy (s : LimitOrderBook c) (queue : Side → Nat → List Nat) : Prop where
  occupied : ∀ side level, s.isOccupied side level = true → queue side level ≠ []
  best : ∀ side, IsBest side (s.book side).occ (s.best side)

theorem scanDown_isBest {words : Bitset.Words} {limit count : Nat}
    (within : Bitset.Within words limit) (covers : limit ≤ 64 * count) :
    IsBest .Buy words (Bitset.scanDown limit words count) := by
  have scanned := Bitset.scanDown_spec within count
  have inside (level : Nat) (present : Bitset.test words level = true) : level < 64 * count :=
    lt_of_lt_of_le (within level present) covers
  cases found : Bitset.scanDown limit words count with
  | none =>
    rw [found] at scanned
    intro level
    by_contra present
    have present : Bitset.test words level = true := by simpa using present
    simp [scanned level (inside level present)] at present
  | some best =>
    rw [found] at scanned
    refine ⟨scanned.1.2, fun level present => ?_⟩
    have := scanned.2 ⟨inside level present, present⟩
    simp only [Side.beats, decide_eq_false_iff_not]
    omega

theorem scanUp_isBest {words : Bitset.Words} {limit count : Nat}
    (within : Bitset.Within words limit) (covers : limit ≤ 64 * count) :
    IsBest .Sell words (Bitset.scanUp limit words 0 count) := by
  have scanned := Bitset.scanUp_spec within 0 count
  have inside (level : Nat) (present : Bitset.test words level = true) :
      level < 64 * (0 + count) := by
    have := within level present
    omega
  cases found : Bitset.scanUp limit words 0 count with
  | none =>
    rw [found] at scanned
    intro level
    by_contra present
    have present : Bitset.test words level = true := by simpa using present
    simp [scanned level (by omega) (inside level present)] at present
  | some best =>
    rw [found] at scanned
    refine ⟨scanned.1.2.2, fun level present => ?_⟩
    have := scanned.2 ⟨by omega, inside level present, present⟩
    simp only [Side.beats, decide_eq_false_iff_not]
    omega

theorem kWords_cover (c : Config) : c.kLevels ≤ 64 * c.kWords := by
  simp only [Config.kWords]
  omega

theorem findBestBid_isBest {s : LimitOrderBook c}
    (within : Bitset.Within (s.book .Buy).occ c.kLevels) :
    IsBest .Buy (s.book .Buy).occ s.findBestBid := by
  unfold findBestBid
  dsimp only
  split
  · -- Up to 64 levels the source reads the only word directly.
    rename_i small
    have within64 : Bitset.Within (s.book .Buy).occ 64 :=
      fun bit present => lt_of_lt_of_le (within bit present) small
    have single : IsBest .Buy (s.book .Buy).occ (Bitset.scanDown 64 (s.book .Buy).occ 1) :=
      scanDown_isBest within64 le_rfl
    have bounded : 0 * 64 + (63 - ((s.book .Buy).occ 0).clz.toNat) < 64 := by omega
    simp only [Bitset.scanDown, if_pos bounded] at single
    simpa only [Nat.zero_mul, Nat.zero_add] using single
  · exact scanDown_isBest within (kWords_cover c)

theorem findBestAsk_isBest {s : LimitOrderBook c}
    (within : Bitset.Within (s.book .Sell).occ c.kLevels) :
    IsBest .Sell (s.book .Sell).occ s.findBestAsk := by
  unfold findBestAsk
  dsimp only
  split
  · rename_i small
    have within64 : Bitset.Within (s.book .Sell).occ 64 :=
      fun bit present => lt_of_lt_of_le (within bit present) small
    have single : IsBest .Sell (s.book .Sell).occ (Bitset.scanUp 64 (s.book .Sell).occ 0 1) :=
      scanUp_isBest within64 le_rfl
    simp only [Bitset.scanUp, Nat.zero_mul, Nat.zero_add] at single
    split
    · rename_i zero
      rwa [if_pos zero] at single
    · rename_i nonzero
      rwa [if_neg nonzero, if_pos (Bitset.ctz_lt nonzero)] at single
  · exact scanUp_isBest within (kWords_cover c)

theorem findBest_isBest {s : LimitOrderBook c} {side : Side}
    (within : Bitset.Within (s.book side).occ c.kLevels) :
    IsBest side (s.book side).occ (s.findBest side) := by
  cases side with
  | Buy => exact findBestBid_isBest within
  | Sell => exact findBestAsk_isBest within

section

variable {side : Side} {occ : Bitset.Words} {level : Nat}

theorem IsBest.insert_none (best : IsBest side occ none) :
    IsBest side (Bitset.assign occ level true) (some level) := by
  refine ⟨by simp [Bitset.test_assign], ?_⟩
  intro other present
  rw [Bitset.test_assign] at present
  split at present
  · subst_vars
    cases side <;> simp [Side.beats]
  · exact absurd present (by simp [best other])

theorem IsBest.insert_some {old : Nat} (best : IsBest side occ (some old)) (level : Nat) :
    IsBest side (Bitset.assign occ level true)
      (some (if side.beats level old then level else old)) := by
  have bound (other : Nat) (present : Bitset.test occ other = true) := best.2 other present
  constructor
  · rw [Bitset.test_assign]
    split <;> simp [best.1]
  · intro other present
    rw [Bitset.test_assign] at present
    by_cases same : other = level
    · subst same
      cases side <;> simp only [Side.beats] <;> grind
    · rw [if_neg same] at present
      have := bound other present
      cases side <;> simp only [Side.beats] at * <;> grind

theorem IsBest.erase {old : Option Nat} (best : IsBest side occ old) (other : old ≠ some level) :
    IsBest side (Bitset.assign occ level false) old := by
  cases old with
  | none =>
    intro at'
    rw [Bitset.test_assign]
    split
    · rfl
    · exact best at'
  | some old =>
    have different : old ≠ level := fun same => other (by rw [same])
    refine ⟨by simp [Bitset.test_assign, different, best.1], ?_⟩
    intro at' present
    rw [Bitset.test_assign] at present
    split at present
    · exact absurd present (by decide)
    · exact best.2 at' present

end

section

variable (s : LimitOrderBook c) (side other : Side) (level i : Nat)

@[simp]
theorem reduceMaker_occ (trade : c.Qty) :
    ((s.reduceMaker side level i trade).book other).occ = (s.book other).occ := by
  by_cases here : other = side
  · subst here
    simp [reduceMaker, setBook]
  · simp [reduceMaker, setBook, here]

@[simp]
theorem unlinkNode_occ : ((s.unlinkNode side level i).book other).occ = (s.book other).occ := by
  by_cases here : other = side
  · subst here
    simp [unlinkNode, setBook]
  · simp [unlinkNode, setBook, here]

@[simp]
theorem linkNode_occ : ((s.linkNode side level i).book other).occ = (s.book other).occ := by
  by_cases here : other = side
  · subst here
    cases last : (s.book other).tail level <;> simp [linkNode, setBook, last]
  · cases last : (s.book side).tail level <;> simp [linkNode, setBook, last, here]

@[simp]
theorem linkNode_best : (s.linkNode side level i).best = s.best := by
  unfold linkNode; dsimp only; split <;> rfl

end

@[simp]
theorem setOccupied_best (s : LimitOrderBook c) (side : Side) (level : Nat) (occupied : Bool) :
    (s.setOccupied side level occupied).best = s.best := rfl

theorem isOccupied_markOccupied (s : LimitOrderBook c) (side other : Side) (level at' : Nat) :
    (s.markOccupied side level).isOccupied other at' =
      if other = side ∧ at' = level then true else s.isOccupied other at' := by
  have marked : (s.markOccupied side level).book = (s.setOccupied side level true).book := by
    unfold markOccupied
    dsimp only
    split
    · rfl
    · split <;> rfl
  by_cases sameSide : other = side
  · subst sameSide
    simp [isOccupied, marked, setOccupied, setBook, Bitset.test_assign]
  · simp [isOccupied, marked, setOccupied, setBook, sameSide]

theorem isOccupied_dropEmptyLevel (s : LimitOrderBook c) (side other : Side) (level at' : Nat) :
    (s.dropEmptyLevel side level).isOccupied other at' =
      if other = side ∧ at' = level ∧ (s.book side).levelQty level = 0 then false
      else s.isOccupied other at' := by
  by_cases zero : (s.book side).levelQty level = 0
  · have cleared : (s.dropEmptyLevel side level).book = (s.setOccupied side level false).book := by
      unfold dropEmptyLevel
      rw [if_pos zero]
      dsimp only
      split <;> rfl
    by_cases sameSide : other = side
    · subst sameSide
      simp [isOccupied, cleared, setOccupied, setBook, Bitset.test_assign, zero]
    · simp [isOccupied, cleared, setOccupied, setBook, sameSide]
  · rw [dropEmptyLevel, if_neg zero, if_neg (by simp_all)]

theorem rested_isOccupied {s s' : LimitOrderBook c} {orderId : Int} {i : Nat}
    (alloc : s.allocOrder orderId = some (s', i)) (side : Side) (price : Int) (remaining : c.Qty)
    (other : Side) (at' : Nat) :
    (s'.restOrder side price remaining orderId i).isOccupied other at' =
      if other = side ∧ at' = c.priceToLevel price then true else s.isOccupied other at' := by
  obtain ⟨-, -, -, rfl⟩ := allocOrder_eq_some.mp alloc
  rw [restOrder, linkNewOrder, isOccupied_markOccupied, isOccupied, linkNode_occ]
  rfl

theorem markOccupied_best {s : LimitOrderBook c} (side : Side) (level : Nat)
    (best : ∀ side, IsBest side (s.book side).occ (s.best side)) (other : Side) :
    IsBest other ((s.markOccupied side level).book other).occ
      ((s.markOccupied side level).best other) := by
  have old := best other
  unfold markOccupied
  dsimp only
  by_cases sameSide : other = side
  · subst sameSide
    cases cached : s.best other with
    | none =>
      rw [cached] at old
      simpa [setOccupied, setBook, setBest, cached] using old.insert_none
    | some top =>
      rw [cached] at old
      have inserted := old.insert_some level
      by_cases better : other.beats level top = true <;>
        simpa [setOccupied, setBook, setBest, cached, better] using inserted
  · have apart : IsBest other ((s.setOccupied side level true).book other).occ (s.best other) := by
      simpa [setOccupied, setBook, sameSide] using old
    split
    · simpa [setBest, sameSide] using apart
    · split
      · simpa [setBest, sameSide] using apart
      · exact apart

theorem dropEmptyLevel_best {s : LimitOrderBook c} {side : Side} {level : Nat}
    (within : Bitset.Within (s.book side).occ c.kLevels) (inside : level < c.kLevels)
    (best : ∀ side, IsBest side (s.book side).occ (s.best side)) (other : Side) :
    IsBest other ((s.dropEmptyLevel side level).book other).occ
      ((s.dropEmptyLevel side level).best other) := by
  have old := best other
  unfold dropEmptyLevel
  dsimp only
  split
  · by_cases sameSide : other = side
    · subst sameSide
      have cleared : Bitset.Within ((s.setOccupied other level false).book other).occ c.kLevels := by
        simpa [setOccupied, setBook] using within.assign inside false
      split
      · simpa [setBest] using findBest_isBest cleared
      · rename_i different
        simpa [setOccupied, setBook] using old.erase different
    · have apart : IsBest other ((s.setOccupied side level false).book other).occ
          (s.best other) := by
        simpa [setOccupied, setBook, sameSide] using old
      split
      · simpa [setBest, sameSide] using apart
      · exact apart
  · exact old

theorem Occupancy.within {s : LimitOrderBook c} {free : List Nat} {queue : Side → Nat → List Nat}
    (occupancy : Occupancy s queue) (nodes : Nodes s free queue) (side : Side) :
    Bitset.Within (s.book side).occ c.kLevels := by
  intro level present
  obtain ⟨i, inside⟩ := List.exists_mem_of_ne_nil _ (occupancy.occupied side level present)
  exact (nodes.placed side level i inside).level_lt

end CppPractice.LimitOrderBook
