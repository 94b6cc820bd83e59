import CppPractice.Engine.View

set_option autoImplicit false

namespace CppPractice.LimitOrderBook

open Reference (Order reduce)

variable {c : Config}

def Fades (s s' : LimitOrderBook c) : Prop :=
  ∀ side level, s.isOccupied side level = true → s'.isOccupied side level = false →
    (s'.book side).levelQty level = 0

def Dims (s s' : LimitOrderBook c) : Prop :=
  ∀ side level, s'.isOccupied side level = true → s.isOccupied side level = true

section

variable {s : LimitOrderBook c} {free : List Nat} {queue : Side → Nat → List Nat}
variable {side : Side} {level i : Nat}

theorem removed_isOccupied (here : Placed s side level i) (other : Side) (at' : Nat) :
    ((s.unlinkOrder side level i).freeOrder (s.orderId i)).isOccupied other at' =
      if other = side ∧ at' = level ∧
        (((s.unlinkOrder side level i).freeOrder (s.orderId i)).book side).levelQty level = 0
      then false else s.isOccupied other at' := by
  have same := removed_same here
  rw [same.levelQty, isOccupied, freeOrder_book, ← isOccupied, unlinkOrder,
    isOccupied_dropEmptyLevel, isOccupied, unlinkNode_occ, ← isOccupied]

theorem removed_fades (here : Placed s side level i) :
    Fades s ((s.unlinkOrder side level i).freeOrder (s.orderId i)) := by
  intro other at' before after
  rw [removed_isOccupied here] at after
  split at after
  · rename_i empty
    rw [empty.1, empty.2.1]
    exact empty.2.2
  · rw [before] at after
    exact absurd after (by decide)

theorem reduceMaker_isOccupied (s : LimitOrderBook c) (side : Side) (level i : Nat) (trade : c.Qty)
    (other : Side) (at' : Nat) :
    (s.reduceMaker side level i trade).isOccupied other at' = s.isOccupied other at' := by
  rw [isOccupied, reduceMaker_occ, isOccupied]

-- Only the maker's level can lose its bit, when the maker is used up and the total is zero.
theorem fillMaker_isOccupied (here : Placed s side level i) (trade : c.Qty) (other : Side)
    (at' : Nat) : (s.fillMaker side level i trade).isOccupied other at' =
      if trade = s.orderQty i ∧ other = side ∧ at' = level ∧
        ((s.fillMaker side level i trade).book side).levelQty level = 0
      then false else s.isOccupied other at' := by
  have reduced : Placed (s.reduceMaker side level i trade) side level i :=
    ⟨here.valid, here.level_lt, here.side_eq, here.price_eq, here.id_valid, here.id_maps⟩
  have used : (s.reduceMaker side level i trade).orderQty i = 0 ↔ trade = s.orderQty i := by
    rw [reduceMaker_orderQty, Function.update_self]
    exact sub_eq_zero.trans eq_comm
  unfold fillMaker
  dsimp only
  by_cases whole : trade = s.orderQty i
  · rw [if_pos (used.mpr whole), removed_isOccupied reduced, reduceMaker_isOccupied]
    simp only [whole, true_and]
  · rw [if_neg (mt used.mp whole), reduceMaker_isOccupied]
    simp only [whole, false_and, if_false]

theorem fillMaker_occupancy (here : Placed s side level i) (trade : c.Qty) :
    Fades s (s.fillMaker side level i trade) ∧ Dims s (s.fillMaker side level i trade) := by
  constructor
  · intro other at' before after
    rw [fillMaker_isOccupied here] at after
    split at after
    · rename_i emptied
      rw [emptied.2.1, emptied.2.2.1]
      exact emptied.2.2.2
    · rw [before] at after
      exact absurd after (by decide)
  · intro other at' after
    rw [fillMaker_isOccupied here] at after
    split at after
    · exact absurd after (by decide)
    · exact after

end

structure Traded (side : Side) (orderId : Int) (m : Matching c) (best i : Nat) (qty : c.Qty)
    (m' : Matching c) : Prop where
  positive : qty ≠ 0
  leMaker : qty ≤ m.book.orderQty i
  leTaker : qty ≤ m.remaining
  exhausts : qty = m.book.orderQty i ∨ qty = m.remaining
  remaining : m'.remaining = m.remaining - qty
  executions : m'.executions = m.executions ++ [m.execution side orderId best i qty]
  filled : Filled m.book m'.book i qty
  orders : ∀ other at', m'.book.ordersAt other at' =
    reduce (m.book.orderId i) qty.toNat (m.book.ordersAt other at')
  fades : Fades m.book m'.book
  dims : Dims m.book m'.book

theorem Trading.traded_whole {side : Side} {price : Int} {m : Matching c} {free : List Nat}
    {queue : Side → Nat → List Nat} {best i : Nat}
    (trading : Trading side price m free queue best i)
    (orderId : Int) (whole : m.book.orderQty i ≤ m.remaining) :
    Traded side orderId m best i (m.book.orderQty i) (m.trade side orderId best i) ∧
      Represents (m.trade side orderId best i).book (i :: free) (dropNode queue i) := by
  have member := trading.mem
  have placed := trading.rep.nodes.placed _ _ _ member
  have rep' := fillMaker_whole trading.rep member
  have filled := fillMaker_filled placed (m.book.orderQty i)
  obtain ⟨fades, dims⟩ := fillMaker_occupancy placed (m.book.orderQty i)
  rw [Matching.trade_whole whole]
  refine ⟨⟨trading.rep.positive _ _ _ member, BitVec.le_refl _, whole, Or.inl rfl, rfl, rfl,
    filled, ?_, fades, dims⟩, rep'⟩
  intro other at'
  rw [rep'.nodes.ordersAt, trading.rep.nodes.ordersAt]
  exact orders_whole trading.rep.nodes member filled other at'

theorem Trading.traded_part {side : Side} {price : Int} {m : Matching c} {free : List Nat}
    {queue : Side → Nat → List Nat} {best i : Nat}
    (trading : Trading side price m free queue best i)
    (orderId : Int) (part : m.remaining < m.book.orderQty i) :
    Traded side orderId m best i m.remaining (m.trade side orderId best i) ∧
      Represents (m.trade side orderId best i).book free queue := by
  have member := trading.mem
  have placed := trading.rep.nodes.placed _ _ _ member
  obtain ⟨-, rep'⟩ := fillMaker_part trading.rep member (BitVec.ne_of_lt part)
  have filled := fillMaker_filled placed m.remaining
  obtain ⟨fades, dims⟩ := fillMaker_occupancy placed m.remaining
  rw [Matching.trade_part part]
  refine ⟨⟨trading.remaining, BitVec.le_of_lt part, BitVec.le_refl _, Or.inr rfl,
    (BitVec.sub_self _).symm, rfl, filled, ?_, fades, dims⟩, rep'⟩
  intro other at'
  rw [rep'.nodes.ordersAt, trading.rep.nodes.ordersAt]
  exact orders_part trading.rep.nodes member filled part other at'

theorem processOrder_trades {s : LimitOrderBook c} {free : List Nat}
    {queue : Side → Nat → List Nat} (rep : Represents s free queue) (side : Side)
    {price orderId : Int} {qty : c.Qty} (accepts : Accepts c price qty orderId)
    {I : Matching c → Prop} (start : I ⟨s, qty, []⟩)
    (keeps : ∀ m free queue best i traded m' free' queue',
      Trading side price m free queue best i → Traded side orderId m best i traded m' →
      Represents m'.book free' queue' → I m → I m') :
    ∃ m free' queue', s.processOrder side price qty orderId =
        some (finish m side price orderId) ∧
      Represents m.book free' queue' ∧ I m ∧ Stopped side price m := by
  refine processOrder_rule rep side accepts (I := fun m _ _ => I m) ?_ ?_ start
  · intro m free queue best i trading holds whole
    obtain ⟨traded, rep'⟩ := trading.traded_whole orderId whole
    exact keeps _ _ _ _ _ _ _ _ _ trading traded rep' holds
  · intro m free queue best i trading holds part
    obtain ⟨traded, rep'⟩ := trading.traded_part orderId part
    exact keeps _ _ _ _ _ _ _ _ _ trading traded rep' holds

theorem Trading.order {side : Side} {price : Int} {m : Matching c} {free : List Nat}
    {queue : Side → Nat → List Nat} {best i : Nat}
    (trading : Trading side price m free queue best i) :
    (m.book.ordersAt side.opposite best).head? = some (m.book.orderOf i) := by
  rw [trading.rep.nodes.ordersAt, List.head?_map, trading.first]
  rfl

theorem mem_ordersAt {s : LimitOrderBook c} {free : List Nat} {queue : Side → Nat → List Nat}
    (rep : Represents s free queue) {side : Side} {level : Nat} {o : Order}
    (member : o ∈ s.ordersAt side level) :
    o.side = side ∧ o.price = c.levelToPrice level ∧ level < c.kLevels ∧ 0 < o.qty := by
  rw [rep.nodes.ordersAt] at member
  obtain ⟨i, inside, rfl⟩ := List.mem_map.mp member
  have placed := rep.nodes.placed _ _ _ inside
  exact ⟨placed.sideOf, placed.price_eq, placed.level_lt,
    Nat.pos_of_ne_zero (toNat_ne_zero (rep.positive _ _ _ inside))⟩

end CppPractice.LimitOrderBook
