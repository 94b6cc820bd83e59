import CppPractice.Wrapper.Consistency
import CppPractice.Wrapper.OpenOrders

set_option autoImplicit false

namespace CppPractice

-- `--next` and `++next`.
def Side.worse : Side → Int → Int
  | .Buy, price => price - 1
  | .Sell, price => price + 1

namespace OrderBook

open LimitOrderBook (Tidy)
open Reference (better)

structure QuoteLevel where
  price : Price := 0
  qty : Qty := 0
  deriving DecidableEq

structure Quote where
  bestBid : Option QuoteLevel
  bestAsk : Option QuoteLevel
  deriving DecidableEq

@[ext]
structure DepthLevel where
  price : Price := 0
  qty : Qty := 0
  deriving DecidableEq

def Impl.quoteLevel (s : Impl) (side : Side) : Option QuoteLevel :=
  (s.engine.bestPrice side).map fun p => ⟨p, s.engine.levelQuantity side p⟩

def Impl.getQuote (s : Impl) : Quote := ⟨s.quoteLevel .Buy, s.quoteLevel .Sell⟩

-- `next >= 10000` and `next <= 30000`.
def inScan : Side → Int → Bool
  | .Buy, next => decide (next ≥ 10000)
  | .Sell, next => decide (next ≤ 30000)

def scanRoom : Side → Int → Nat
  | .Buy, next => (next - 9999).toNat
  | .Sell, next => (30001 - next).toNat

theorem inScan_iff {side : Side} {next : Int} : inScan side next = true ↔ 0 < scanRoom side next := by
  cases side <;> simp only [inScan, scanRoom, decide_eq_true_eq] <;> omega

theorem scanRoom_worse {side : Side} {next : Int} :
    scanRoom side (side.worse next) = scanRoom side next - 1 := by
  cases side <;> simp only [scanRoom, Side.worse] <;> omega

def Impl.scan (s : Impl) (side : Side) (next : Price) : Option Price :=
  if _inside : inScan side next = true then
    if s.engine.levelQuantity side next ≠ 0 then some next else s.scan side (side.worse next)
  else none
termination_by scanRoom side next
decreasing_by
  have := inScan_iff.mp _inside
  rw [scanRoom_worse]
  omega

theorem scan_some {s : Impl} {side : Side} {next p : Price} (found : s.scan side next = some p) :
    scanRoom side p ≤ scanRoom side next ∧ inScan side p = true ∧
      s.engine.levelQuantity side p ≠ 0 := by
  fun_induction Impl.scan s side next with
  | case1 next inside some =>
    obtain rfl := Option.some.inj found
    exact ⟨le_rfl, inside, some⟩
  | case2 next inside none ih =>
    obtain ⟨room, rest⟩ := ih found
    rw [scanRoom_worse] at room
    exact ⟨by omega, rest⟩
  | case3 next outside => exact absurd found (by simp)

def Impl.depthLoop (s : Impl) (side : Side) (maxLevels : Nat) (p : Price)
    (out : List DepthLevel) : List DepthLevel :=
  if out.length < maxLevels then
    let qty := s.engine.levelQuantity side p
    let out := if qty ≠ 0 then out ++ [⟨p, qty⟩] else out
    match _found : s.scan side (side.worse p) with
    | none => out
    | some next => s.depthLoop side maxLevels next out
  else out
termination_by scanRoom side p
decreasing_by
  obtain ⟨room, inside, -⟩ := scan_some _found
  have := inScan_iff.mp inside
  rw [scanRoom_worse] at room
  omega

-- `vector<DepthLevel>::max_size()`: at most `PTRDIFF_MAX` bytes, eight for each level.
def depthMaxSize : Nat := (2 ^ 63 - 1) / 8

-- `none` is the `length_error` of `out.reserve(max_levels)`.
def Impl.getDepth (s : Impl) (bids : Bool) (maxLevels : Nat) : Option (List DepthLevel) :=
  if maxLevels > depthMaxSize then none
  else
    let side := if bids then Side.Buy else Side.Sell
    match s.engine.bestPrice side with
    | none => some []
    | some p => some (s.depthLoop side maxLevels p [])

def Impl.getDepthBids (s : Impl) (maxLevels : Nat) : Option (List DepthLevel) :=
  s.getDepth true maxLevels

def Impl.getDepthAsks (s : Impl) (maxLevels : Nat) : Option (List DepthLevel) :=
  s.getDepth false maxLevels

def Impl.levelsFrom (s : Impl) (side : Side) (next : Price) : List DepthLevel :=
  if _inside : inScan side next = true then
    let qty := s.engine.levelQuantity side next
    let rest := s.levelsFrom side (side.worse next)
    if qty ≠ 0 then ⟨next, qty⟩ :: rest else rest
  else []
termination_by scanRoom side next
decreasing_by
  have := inScan_iff.mp _inside
  rw [scanRoom_worse]
  omega

section

variable {s : Impl} {side : Side}

theorem levelsFrom_scan (s : Impl) (side : Side) (next : Price) :
    s.levelsFrom side next = (s.scan side next).elim [] fun p => s.levelsFrom side p := by
  fun_induction Impl.scan s side next with
  | case1 next inside some => rfl
  | case2 next inside none ih =>
    rw [← ih, Impl.levelsFrom, dif_pos inside]
    exact if_neg none
  | case3 next outside =>
    rw [Impl.levelsFrom, dif_neg outside]
    rfl

theorem levelsFrom_cons {p : Price} (inside : inScan side p = true)
    (some : s.engine.levelQuantity side p ≠ 0) :
    s.levelsFrom side p =
      ⟨p, s.engine.levelQuantity side p⟩ :: s.levelsFrom side (side.worse p) := by
  rw [Impl.levelsFrom, dif_pos inside]
  exact if_pos some

theorem depthLoop_eq (maxLevels : Nat) {p : Price} (out : List DepthLevel)
    (inside : inScan side p = true) (some : s.engine.levelQuantity side p ≠ 0) :
    s.depthLoop side maxLevels p out =
      out ++ (s.levelsFrom side p).take (maxLevels - out.length) := by
  fun_induction Impl.depthLoop s side maxLevels p out with
  | case1 p out more qty out' last =>
    have pushed : out' = out ++ [⟨p, qty⟩] := if_pos some
    rw [levelsFrom_cons inside some, levelsFrom_scan, last, Option.elim_none, pushed,
      List.take_of_length_le (by rw [List.length_singleton]; omega)]
  | case2 p out more qty out' next found ih =>
    obtain ⟨-, inside', some'⟩ := scan_some found
    have pushed : out' = out ++ [⟨p, qty⟩] := if_pos some
    rw [ih inside' some', levelsFrom_cons inside some, levelsFrom_scan s side (side.worse p), found,
      Option.elim_some, pushed, List.append_assoc, List.length_append, List.length_singleton,
      List.take_cons (by omega), Nat.sub_add_eq]
    rfl
  | case3 p out full => rw [Nat.sub_eq_zero_of_le (by omega), List.take_zero, List.append_nil]

theorem notBetter_iff (side : Side) (p next : Int) :
    better side p next = false ↔ p = next ∨ better side p (side.worse next) = false := by
  cases side <;> simp only [better, decide_eq_false_iff_not] <;> simp only [Side.worse] <;> omega

theorem notBetter_worse (side : Side) (p next : Int) :
    better side p (side.worse next) = false ↔ better side next p = true := by
  cases side <;> simp only [better, decide_eq_false_iff_not, decide_eq_true_eq] <;>
    simp only [Side.worse] <;> omega

theorem inScan_trans {p next : Int} (inside : inScan side p = true)
    (notBetter : better side p next = false) : inScan side next = true := by
  cases side <;> simp only [inScan, better, decide_eq_false_iff_not, decide_eq_true_eq] at * <;>
    omega

theorem mem_levelsFrom {next : Price} {l : DepthLevel} :
    l ∈ s.levelsFrom side next ↔ better side l.price next = false ∧ inScan side l.price = true ∧
      l.qty = s.engine.levelQuantity side l.price ∧ l.qty ≠ 0 := by
  fun_induction Impl.levelsFrom s side next with
  | case1 next inside qty rest some ih =>
    rw [List.mem_cons, ih, notBetter_iff side l.price next]
    constructor
    · rintro (rfl | ⟨later, found⟩)
      · exact ⟨Or.inl rfl, inside, rfl, some⟩
      · exact ⟨Or.inr later, found⟩
    · rintro ⟨here | later, inside', qty_eq, some'⟩
      · rw [here] at qty_eq
        exact Or.inl (DepthLevel.ext here qty_eq)
      · exact Or.inr ⟨later, inside', qty_eq, some'⟩
  | case2 next inside qty rest none ih =>
    rw [ih, notBetter_iff side l.price next]
    constructor
    · exact fun ⟨later, found⟩ => ⟨Or.inr later, found⟩
    · rintro ⟨here | later, inside', qty_eq, some⟩
      · rw [here] at qty_eq
        exact absurd (fun zero => some (qty_eq.trans zero)) none
      · exact ⟨later, inside', qty_eq, some⟩
  | case3 next outside =>
    refine ⟨fun member => absurd member List.not_mem_nil, ?_⟩
    rintro ⟨notBetter, inside, -⟩
    exact absurd (inScan_trans inside notBetter) outside

theorem levelsFrom_sorted (next : Price) :
    (s.levelsFrom side next).Pairwise fun a b => better side a.price b.price = true := by
  fun_induction Impl.levelsFrom s side next with
  | case1 next inside qty rest some ih =>
    refine List.Pairwise.cons (fun l member => ?_) ih
    exact (notBetter_worse side l.price next).mp (mem_levelsFrom.mp member).1
  | case2 next inside qty rest none ih => exact ih
  | case3 next outside => exact List.Pairwise.nil

def Impl.levels (s : Impl) (side : Side) : List DepthLevel :=
  (s.engine.bestPrice side).elim [] (s.levelsFrom side)

theorem inScan_of_levelQuantity {p : Price} (some : s.engine.levelQuantity side p ≠ 0) :
    inScan side p = true := by
  obtain ⟨low, high⟩ :=
    LimitOrderBook.inRange_iff.mp (LimitOrderBook.inRange_of_levelQuantity some)
  cases side with
  | Buy => exact decide_eq_true low
  | Sell => exact decide_eq_true high

theorem getDepth_eq (tidy : Tidy s.engine) (bids : Bool) (maxLevels : Nat) :
    s.getDepth bids maxLevels =
      if maxLevels > depthMaxSize then none
      else some ((s.levels (if bids then .Buy else .Sell)).take maxLevels) := by
  unfold Impl.getDepth Impl.levels
  split
  · rfl
  · dsimp only
    cases best : s.engine.bestPrice (if bids then .Buy else .Sell) with
    | none => rw [Option.elim_none, List.take_nil]
    | some p =>
      have some := (tidy.best_price.mp best).1
      dsimp only
      rw [depthLoop_eq maxLevels [] (inScan_of_levelQuantity some) some]
      rfl

theorem quoteLevel_eq (tidy : Tidy s.engine) :
    s.quoteLevel side = (s.levels side).head?.map fun l => ⟨l.price, l.qty⟩ := by
  unfold Impl.quoteLevel Impl.levels
  cases best : s.engine.bestPrice side with
  | none => rfl
  | some p =>
    have some := (tidy.best_price.mp best).1
    rw [Option.elim_some, levelsFrom_cons (inScan_of_levelQuantity some) some]
    rfl

theorem mem_levels (tidy : Tidy s.engine) {l : DepthLevel} :
    l ∈ s.levels side ↔ l.qty = s.engine.levelQuantity side l.price ∧ l.qty ≠ 0 := by
  unfold Impl.levels
  cases best : s.engine.bestPrice side with
  | none =>
    have zero := tidy.best_none.mp best l.price
    refine ⟨fun member => absurd member List.not_mem_nil, ?_⟩
    rintro ⟨qty_eq, some⟩
    exact absurd (qty_eq.trans zero) some
  | some p =>
    rw [Option.elim_some, mem_levelsFrom]
    refine ⟨fun found => found.2.2, ?_⟩
    rintro ⟨qty_eq, some⟩
    have total : s.engine.levelQuantity side l.price ≠ 0 := by rwa [← qty_eq]
    exact ⟨(tidy.best_price.mp best).2 _ total, inScan_of_levelQuantity total, qty_eq, some⟩

theorem levelQuantity_open (synced : Synced s) (tidy : Tidy s.engine) (side : Side)
    (price : Price) : (s.engine.levelQuantity side price).toNat = s.openQty side price := by
  by_cases inRange : Engine.inRange price = true
  · rw [tidy.levelQuantity_toNat inRange, synced.openQty side inRange]
  · have none : s.openQty side price = 0 := by
      by_contra some
      obtain ⟨o, member, active, -, rfl⟩ := (synced.openQty_ne_zero side price).mp some
      exact inRange (synced.inRange member active)
    rw [none, LimitOrderBook.levelQuantity, if_pos (by simpa using inRange)]
    rfl

/-- The active orders of a side, summed up by price, from the best price on. -/
structure Depth (s : Impl) (side : Side) (levels : List DepthLevel) : Prop where
  sorted : levels.Pairwise fun a b => better side a.price b.price = true
  prices : ∀ price, (∃ l ∈ levels, l.price = price) ↔
    ∃ o ∈ s.orders, o.active = true ∧ o.side = side ∧ o.limitPrice = price
  total : ∀ l ∈ levels, l.qty.toNat = s.openQty side l.price
  nonzero : ∀ l ∈ levels, l.qty ≠ 0

theorem levels_depth (synced : Synced s) (tidy : Tidy s.engine) (side : Side) :
    Depth s side (s.levels side) where
  sorted := by
    unfold Impl.levels
    cases s.engine.bestPrice side with
    | none => exact List.Pairwise.nil
    | some p => exact levelsFrom_sorted p
  prices price := by
    rw [← synced.openQty_ne_zero, ← levelQuantity_open synced tidy]
    constructor
    · rintro ⟨l, member, rfl⟩
      obtain ⟨qty_eq, some⟩ := (mem_levels tidy).mp member
      rw [← qty_eq]
      exact LimitOrderBook.toNat_ne_zero some
    · intro some
      have total : s.engine.levelQuantity side price ≠ 0 := fun zero => some (by rw [zero]; rfl)
      exact ⟨⟨price, _⟩, (mem_levels tidy).mpr ⟨rfl, total⟩, rfl⟩
  total l member := by
    rw [((mem_levels tidy).mp member).1]
    exact levelQuantity_open synced tidy side l.price
  nonzero l member := ((mem_levels tidy).mp member).2

end

theorem depth_exact_iff (ops : List Op) (few : submissions ops < 2 ^ 31)
    (noWrap : NoWrap new ops) :
    ∃ s log, Runs.run step new ops = some (s, log) ∧
      ∃ bids asks, Depth s .Buy bids ∧ Depth s .Sell asks ∧
        s.getQuote = ⟨bids.head?.map fun l => ⟨l.price, l.qty⟩,
          asks.head?.map fun l => ⟨l.price, l.qty⟩⟩ ∧
        ∀ maxLevels,
          (s.getDepthBids maxLevels = some (bids.take maxLevels) ↔ maxLevels ≤ depthMaxSize) ∧
          (s.getDepthAsks maxLevels = some (asks.take maxLevels) ↔ maxLevels ≤ depthMaxSize) := by
  obtain ⟨s, log, ran, -, -⟩ := run_defined few
  obtain ⟨synced, tidy⟩ := run_tidy noWrap ran
  have exact_iff (bids : Bool) (maxLevels : Nat) :
      s.getDepth bids maxLevels = some ((s.levels (if bids then .Buy else .Sell)).take maxLevels) ↔
        maxLevels ≤ depthMaxSize := by
    rw [getDepth_eq tidy]
    split
    · exact ⟨fun none => absurd none (by simp), fun le => by omega⟩
    · exact ⟨fun _ => by omega, fun _ => rfl⟩
  refine ⟨s, log, ran, s.levels .Buy, s.levels .Sell, levels_depth synced tidy .Buy,
    levels_depth synced tidy .Sell, ?_, fun maxLevels => ⟨exact_iff true _, exact_iff false _⟩⟩
  rw [Impl.getQuote, quoteLevel_eq tidy, quoteLevel_eq tidy]

theorem depth_exact_iff_mixedOps :
    ∃ s log, Runs.run step new mixedOps = some (s, log) ∧
      ∃ bids asks, Depth s .Buy bids ∧ Depth s .Sell asks ∧
        s.getQuote = ⟨bids.head?.map fun l => ⟨l.price, l.qty⟩,
          asks.head?.map fun l => ⟨l.price, l.qty⟩⟩ ∧
        ∀ maxLevels,
          (s.getDepthBids maxLevels = some (bids.take maxLevels) ↔ maxLevels ≤ depthMaxSize) ∧
          (s.getDepthAsks maxLevels = some (asks.take maxLevels) ↔ maxLevels ≤ depthMaxSize) :=
  depth_exact_iff mixedOps (by decide) (noWrap_of_total new_synced (by decide +kernel))

-- Asked for as many levels as there are, by the largest `size_t`, `getDepth` throws.
theorem depth_of_all_levels :
    ∃ s log, Runs.run step new [] = some (s, log) ∧ NoWrap new [] ∧
      ∀ bids, Depth s .Buy bids → s.getDepthBids (2 ^ 64 - 1) ≠ some (bids.take (2 ^ 64 - 1)) := by
  refine ⟨new, [], rfl, noWrap_of_total new_synced (by decide +kernel), fun bids _ => ?_⟩
  rw [Impl.getDepthBids, Impl.getDepth, if_pos (by decide)]
  simp

end OrderBook

end CppPractice
