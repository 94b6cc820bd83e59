import CppPractice.Engine.Matching
import CppPractice.Engine.Reference

set_option autoImplicit false

namespace CppPractice.LimitOrderBook

open Reference (Order reduce reduceOne)

variable {c : Config}

def sideOf (s : LimitOrderBook c) (i : Nat) : Side :=
  if s.orderSide i = kBuy then .Buy else .Sell

def orderOf (s : LimitOrderBook c) (i : Nat) : Order where
  id := s.orderId i
  side := s.sideOf i
  price := s.orderPrice i
  qty := (s.orderQty i).toNat

def ordersAt (s : LimitOrderBook c) (side : Side) (level : Nat) : List Order :=
  (Links.walk s.next c.maxOrders ((s.book side).head level)).map s.orderOf

def restingQty (s : LimitOrderBook c) (side : Side) (level : Nat) : Nat :=
  ((s.ordersAt side level).map Order.qty).sum

@[simp]
theorem orderOf_id (s : LimitOrderBook c) (i : Nat) : (s.orderOf i).id = s.orderId i := rfl

section

variable {s : LimitOrderBook c} {free : List Nat} {queue : Side → Nat → List Nat}
variable {side : Side} {level i : Nat}

theorem Placed.sideOf (placed : Placed s side level i) : s.sideOf i = side := by
  rw [LimitOrderBook.sideOf, placed.side_eq]
  cases side <;> decide

theorem Nodes.ordersAt (nodes : Nodes s free queue) (side : Side) (level : Nat) :
    s.ordersAt side level = (queue side level).map s.orderOf := by
  rw [LimitOrderBook.ordersAt,
    (nodes.linked side level).chain.walk_eq (nodes.queue_length_le side level)]

structure Filled (s s' : LimitOrderBook c) (i : Nat) (trade : c.Qty) : Prop where
  orderId : s'.orderId = s.orderId
  orderPrice : s'.orderPrice = s.orderPrice
  orderSide : s'.orderSide = s.orderSide
  orderQty : s'.orderQty = Function.update s.orderQty i (s.orderQty i - trade)
  idToIdx : s'.idToIdx = if trade = s.orderQty i then
    Function.update s.idToIdx (s.orderId i).toNat none else s.idToIdx

theorem fillMaker_filled (here : Placed s side level i) (trade : c.Qty) :
    Filled s (s.fillMaker side level i trade) i trade := by
  unfold fillMaker
  dsimp only
  split
  · rename_i used
    have whole : trade = s.orderQty i := by
      simp only [reduceMaker_orderQty, Function.update_self] at used
      exact (sub_eq_zero.mp used).symm
    have reduced : Placed (s.reduceMaker side level i trade) side level i :=
      ⟨here.valid, here.level_lt, here.side_eq, here.price_eq, here.id_valid, here.id_maps⟩
    have same := removed_same reduced
    refine ⟨same.orderId, same.orderPrice, same.orderSide, ?_, ?_⟩
    · rw [same.orderQty]
      simp [unlinkNode, whole]
    · rw [same.idToIdx, if_pos whole]
      rfl
  · rename_i left
    have part : trade ≠ s.orderQty i := by
      rintro rfl
      simp at left
    refine ⟨rfl, rfl, rfl, by simp, ?_⟩
    rw [if_neg part]
    rfl

theorem Filled.orderOf {s' : LimitOrderBook c} {trade : c.Qty} (filled : Filled s s' i trade)
    {j : Nat} (different : j ≠ i) : s'.orderOf j = s.orderOf j := by
  simp [LimitOrderBook.orderOf, LimitOrderBook.sideOf, filled.orderId, filled.orderPrice,
    filled.orderSide, filled.orderQty, different]

theorem Filled.orderOf_self {s' : LimitOrderBook c} {trade : c.Qty} (filled : Filled s s' i trade)
    (enough : trade ≤ s.orderQty i) :
    s'.orderOf i = { s.orderOf i with qty := (s.orderQty i).toNat - trade.toNat } := by
  simp [LimitOrderBook.orderOf, LimitOrderBook.sideOf, filled.orderId, filled.orderPrice,
    filled.orderSide, filled.orderQty, BitVec.toNat_sub_of_le enough]

theorem Filled.reduceOne {s' : LimitOrderBook c} {trade : c.Qty} (filled : Filled s s' i trade)
    (enough : trade ≤ s.orderQty i) {j : Nat} (sameId : s.orderId j = s.orderId i ↔ j = i) :
    reduceOne (s.orderId i) trade.toNat (s.orderOf j) =
      if j = i ∧ trade = s.orderQty i then none else some (s'.orderOf j) := by
  by_cases here : j = i
  · subst here
    rw [filled.orderOf_self enough]
    by_cases whole : trade = s.orderQty j
    · simp [Reference.reduceOne, LimitOrderBook.orderOf, whole]
    · have less : ¬(s.orderQty j).toNat = trade.toNat :=
        fun same => whole (BitVec.eq_of_toNat_eq same.symm)
      simp [Reference.reduceOne, LimitOrderBook.orderOf, whole, less]
  · rw [filled.orderOf here]
    simp [Reference.reduceOne, sameId, here]

theorem orders_whole {s' : LimitOrderBook c} (nodes : Nodes s free queue)
    (member : i ∈ queue side level) (filled : Filled s s' i (s.orderQty i)) (other : Side)
    (at' : Nat) :
    (dropNode queue i other at').map s'.orderOf =
      reduce (s.orderId i) (s.orderQty i).toNat ((queue other at').map s.orderOf) := by
  rw [dropNode, (nodes.nodup other at').erase_eq_filter, reduce, List.filterMap_map,
    ← List.filterMap_eq_map, List.filterMap_filter]
  refine List.filterMap_congr fun j inside => ?_
  change _ = reduceOne (s.orderId i) _ (s.orderOf j)
  rw [filled.reduceOne (BitVec.le_refl _) (nodes.orderId_eq_iff inside member)]
  by_cases here : j = i <;> simp [here]

theorem orders_part {s' : LimitOrderBook c} {trade : c.Qty} (nodes : Nodes s free queue)
    (member : i ∈ queue side level) (filled : Filled s s' i trade) (part : trade < s.orderQty i)
    (other : Side) (at' : Nat) :
    (queue other at').map s'.orderOf =
      reduce (s.orderId i) trade.toNat ((queue other at').map s.orderOf) := by
  rw [reduce, List.filterMap_map, ← List.filterMap_eq_map]
  refine List.filterMap_congr fun j inside => ?_
  change _ = reduceOne (s.orderId i) _ (s.orderOf j)
  rw [filled.reduceOne (BitVec.le_of_lt part) (nodes.orderId_eq_iff inside member),
    if_neg fun also => BitVec.ne_of_lt part also.2]
  rfl

theorem orders_cancel {s' : LimitOrderBook c} (nodes : Nodes s free queue)
    (member : i ∈ queue side level) (same : ∀ j, j ≠ i → s'.orderOf j = s.orderOf j)
    (other : Side) (at' : Nat) :
    (dropNode queue i other at').map s'.orderOf =
      ((queue other at').map s.orderOf).filter fun o => decide (o.id ≠ s.orderId i) := by
  rw [dropNode, (nodes.nodup other at').erase_eq_filter, List.filter_map]
  have agree : (queue other at').filter ((fun o : Order => decide (o.id ≠ s.orderId i)) ∘ s.orderOf) =
      (queue other at').filter fun j => j != i := by
    apply List.filter_congr
    intro j inside
    by_cases here : j = i <;> simp [nodes.orderId_eq_iff inside member, here]
  rw [agree]
  apply List.map_congr_left
  intro j inside
  exact same j (by simpa using (List.mem_filter.mp inside).2)

theorem orders_rest {s' : LimitOrderBook c} {orderId : Int} (nodes : Nodes s free queue)
    (side : Side) (level : Nat) (price : Int) (remaining : c.Qty)
    (alloc : s.allocOrder orderId = some (s', i)) (other : Side) (at' : Nat) :
    (pushQueue queue side level i other at').map
        (s'.restOrder side price remaining orderId i).orderOf =
      (queue other at').map s.orderOf ++
        if other = side ∧ at' = level then [⟨orderId, side, price, remaining.toNat⟩] else [] := by
  have notQueued := nodes.alloc_unqueued alloc
  obtain ⟨-, -, -, rfl⟩ := allocOrder_eq_some.mp alloc
  have marked (t : LimitOrderBook c) (level' : Nat) :
      (linkNewOrder t side level' i).orderOf = t.orderOf := by
    have same := markOccupied_same (t.linkNode side level' i) side level'
    funext j
    simp [LimitOrderBook.orderOf, LimitOrderBook.sideOf, linkNewOrder, same.orderId,
      same.orderPrice, same.orderSide, same.orderQty]
  have old : ∀ j ∈ queue other at', (restOrder { s with
        freeHead := s.nextFree i
        idToIdx := Function.update s.idToIdx orderId.toNat (some i) } side price
      remaining orderId i).orderOf j = s.orderOf j := by
    intro j inside
    have different : j ≠ i := by
      rintro rfl
      exact notQueued _ _ inside
    rw [restOrder, marked]
    simp [LimitOrderBook.orderOf, LimitOrderBook.sideOf, different]
  have new : (restOrder { s with
        freeHead := s.nextFree i
        idToIdx := Function.update s.idToIdx orderId.toNat (some i) } side price
      remaining orderId i).orderOf i = ⟨orderId, side, price, remaining.toNat⟩ := by
    rw [restOrder, marked]
    cases side <;> simp [LimitOrderBook.orderOf, LimitOrderBook.sideOf, Side.code, kBuy, kSell]
  unfold pushQueue
  split
  · rw [List.map_append, List.map_congr_left old, List.map_singleton, new]
  · rw [List.map_congr_left old, List.append_nil]

theorem rested_ordersAt {s' : LimitOrderBook c} {orderId price : Int} {remaining : c.Qty}
    (rep : Represents s free queue) (side : Side) (inRange : c.inRange price = true)
    (positive : remaining ≠ 0) (alloc : s.allocOrder orderId = some (s', i)) (other : Side)
    (at' : Nat) :
    (s'.restOrder side price remaining orderId i).ordersAt other at' =
      s.ordersAt other at' ++ if other = side ∧ at' = c.priceToLevel price then
        [⟨orderId, side, price, remaining.toNat⟩] else [] := by
  obtain ⟨rest, rep'⟩ := restOrder_represents rep side inRange positive alloc
  rw [rep'.nodes.ordersAt, rep.nodes.ordersAt, orders_rest rep.nodes side _ price remaining alloc]

end

end CppPractice.LimitOrderBook
