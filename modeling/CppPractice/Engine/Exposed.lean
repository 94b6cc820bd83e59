import CppPractice.Engine.Reach
import CppPractice.Engine.InPlace

set_option autoImplicit false

namespace CppPractice.LimitOrderBook

open Reference (Order reduce reduceOne reduce_absent)

variable {c : Config}

-- The front of a queue whose level is cleared once what remains is zero modulo `2 ^ w`.
def exposedFront (w : Nat) : List Order → List Order
  | [] => []
  | o :: rest => o :: if (rest.map Order.qty).sum % 2 ^ w = 0 then [] else exposedFront w rest

def exposedAt (s : LimitOrderBook c) (side : Side) (level : Nat) : List Order :=
  if s.isOccupied side level then exposedFront c.qtyBits (s.ordersAt side level) else []

def exposed (s : LimitOrderBook c) (side : Side) (price : Int) : List Order :=
  withinLimit c side price (s.exposedAt side.opposite)

def exposedQty (s : LimitOrderBook c) (side : Side) (price : Int) : Nat :=
  ((s.exposed side price).map Order.qty).sum

theorem exposedFront_prefix (w : Nat) (orders : List Order) : exposedFront w orders <+: orders := by
  induction orders with
  | nil => exact List.prefix_refl _
  | cons o rest ih =>
    rw [exposedFront]
    split
    · exact ⟨rest, rfl⟩
    · exact List.cons_prefix_cons.mpr ⟨rfl, ih⟩

theorem exposedAt_prefix (s : LimitOrderBook c) (side : Side) (level : Nat) :
    s.exposedAt side level <+: s.ordersAt side level := by
  unfold exposedAt
  split
  · exact exposedFront_prefix _ _
  · exact List.nil_prefix

section

variable {s : LimitOrderBook c} {free : List Nat} {queue : Side → Nat → List Nat}

theorem Represents.order_unique (rep : Represents s free queue) {side side' : Side}
    {level level' : Nat} {o o' : Order} (left : o ∈ s.ordersAt side level)
    (right : o' ∈ s.ordersAt side' level') (same : o.id = o'.id) :
    o = o' ∧ side = side' ∧ level = level' := by
  rw [rep.nodes.ordersAt] at left right
  obtain ⟨i, leftIn, rfl⟩ := List.mem_map.mp left
  obtain ⟨j, rightIn, rfl⟩ := List.mem_map.mp right
  obtain rfl := (rep.nodes.orderId_eq_iff leftIn rightIn).mp same
  exact ⟨rfl, rep.nodes.unique leftIn rightIn⟩

theorem Represents.exposed_nodup (rep : Represents s free queue) (side : Side) (price : Int) :
    ((s.exposed side price).map Order.id).Nodup := by
  refine List.Nodup.sublist (List.filter_sublist.map Order.id) ?_
  rw [List.map_flatMap, List.nodup_flatMap]
  constructor
  · intro level _
    exact (idsAt_nodup rep side.opposite level).sublist
      ((s.exposedAt_prefix side.opposite level).sublist.map Order.id)
  · refine List.nodup_range.imp fun {level level'} different => ?_
    intro id left right
    obtain ⟨o, leftIn, rfl⟩ := List.mem_map.mp left
    obtain ⟨o', rightIn, same⟩ := List.mem_map.mp right
    exact different (rep.order_unique ((s.exposedAt_prefix _ _).subset leftIn)
      ((s.exposedAt_prefix _ _).subset rightIn) same.symm).2.2

end

section

variable {side : Side} {price orderId : Int} {m m' : Matching c} {free free' : List Nat}
variable {queue queue' : Side → Nat → List Nat} {best i : Nat} {qty : c.Qty}

theorem Trading.queue_order (trading : Trading side price m free queue best i) :
    ∃ rest, m.book.ordersAt side.opposite best = m.book.orderOf i :: rest ∧
      ∀ o ∈ rest, o.id ≠ m.book.orderId i := by
  obtain ⟨rest, orders⟩ := List.head?_eq_some_iff.mp trading.order
  refine ⟨rest, orders, fun o member same => ?_⟩
  have nodup := idsAt_nodup trading.rep side.opposite best
  rw [idsAt, orders, List.map_cons, List.nodup_cons] at nodup
  exact nodup.1 (List.mem_map.mpr ⟨o, member, same⟩)

theorem Trading.absent_elsewhere (trading : Trading side price m free queue best i) {other : Side}
    {at' : Nat} (apart : ¬(other = side.opposite ∧ at' = best)) :
    ∀ o ∈ m.book.ordersAt other at', o.id ≠ m.book.orderId i := by
  intro o member same
  obtain ⟨rest, orders, -⟩ := trading.queue_order
  have here : m.book.orderOf i ∈ m.book.ordersAt side.opposite best := by simp [orders]
  exact apart (trading.rep.order_unique member here same).2

theorem exposedFront_cons (w : Nat) (o : Order) (rest : List Order) :
    ∃ behind, exposedFront w (o :: rest) = o :: behind ∧ behind <+: rest ∧
      behind = if (rest.map Order.qty).sum % 2 ^ w = 0 then [] else exposedFront w rest := by
  refine ⟨_, rfl, ?_, rfl⟩
  split
  · exact List.nil_prefix
  · exact exposedFront_prefix w rest

theorem Traded.exposedAt (trading : Trading side price m free queue best i)
    (traded : Traded side orderId m best i qty m') (rep' : Represents m'.book free' queue')
    (lit : ∀ other at', m'.book.isOccupied other at' =
      if qty = m.book.orderQty i ∧ other = side.opposite ∧ at' = best ∧
        (m'.book.book side.opposite).levelQty best = 0
      then false else m.book.isOccupied other at') (other : Side) (at' : Nat) :
    m'.book.exposedAt other at' =
      reduce (m.book.orderId i) qty.toNat (m.book.exposedAt other at') := by
  by_cases here : other = side.opposite ∧ at' = best
  · obtain ⟨rfl, rfl⟩ := here
    obtain ⟨rest, orders, apart⟩ := trading.queue_order
    obtain ⟨behind, front, isPrefix, behind_eq⟩ :=
      exposedFront_cons c.qtyBits (m.book.orderOf i) rest
    have occupied := ((trading.rep.best_eq_some _ _).mp trading.best_eq).1
    have before : m.book.exposedAt side.opposite at' = m.book.orderOf i :: behind := by
      rw [LimitOrderBook.exposedAt, if_pos occupied, orders, front]
    have absent : ∀ o ∈ behind, o.id ≠ m.book.orderId i :=
      fun o member => apart o (isPrefix.subset member)
    have head := traded.filled.reduceOne traded.leMaker (j := i) (by simp)
    have left : ∀ l : List Order, (∀ o ∈ l, o.id ≠ m.book.orderId i) →
        reduce (m.book.orderId i) qty.toNat (m.book.orderOf i :: l) =
          if qty = m.book.orderQty i then l else m'.book.orderOf i :: l := by
      intro l others
      have kept : reduce (m.book.orderId i) qty.toNat l = l := reduce_absent others
      rw [reduce] at kept
      rw [reduce, List.filterMap_cons, head, kept]
      by_cases whole : qty = m.book.orderQty i <;> simp [whole]
    have orders' := (traded.orders side.opposite at').trans (by rw [orders, left rest apart])
    have total := rep'.levelQty_toNat side.opposite at'
    have bit := lit side.opposite at'
    rw [before, left behind absent, LimitOrderBook.exposedAt, orders']
    rw [restingQty, orders'] at total
    by_cases whole : qty = m.book.orderQty i
    · -- The maker is gone: the level stays lit unless its total is now zero.
      rw [if_pos whole] at total ⊢
      rw [behind_eq, ← total]
      by_cases zero : (m'.book.book side.opposite).levelQty at' = 0
      · rw [if_pos ⟨whole, rfl, rfl, zero⟩] at bit
        simpa [bit, zero] using whole
      · rw [if_neg fun emptied => zero emptied.2.2.2, occupied] at bit
        rw [if_pos bit, if_pos whole, if_neg (toNat_ne_zero zero)]
    · rw [if_neg fun emptied => whole emptied.1, occupied] at bit
      rw [if_pos bit, if_neg whole, if_neg whole, exposedFront, ← behind_eq]
  · have elsewhere := trading.absent_elsewhere here
    have same : m'.book.ordersAt other at' = m.book.ordersAt other at' := by
      rw [traded.orders, reduce_absent elsewhere]
    have bit := lit other at'
    rw [if_neg fun emptied => here ⟨emptied.2.1, emptied.2.2.1⟩] at bit
    rw [reduce_absent fun o member =>
      elsewhere o ((m.book.exposedAt_prefix other at').subset member)]
    rw [LimitOrderBook.exposedAt, LimitOrderBook.exposedAt, same, bit]

theorem Trading.exposed_trade (trading : Trading side price m free queue best i) (orderId : Int) :
    ∃ qty free' queue', Traded side orderId m best i qty (m.trade side orderId best i) ∧
      Represents (m.trade side orderId best i).book free' queue' ∧
      (m.trade side orderId best i).book.exposed side price =
        reduce (m.book.orderId i) qty.toNat (m.book.exposed side price) := by
  have placed := trading.rep.nodes.placed _ _ _ trading.mem
  by_cases whole : m.book.orderQty i ≤ m.remaining
  · obtain ⟨traded, rep'⟩ := trading.traded_whole orderId whole
    have lit := fillMaker_isOccupied placed (m.book.orderQty i)
    refine ⟨_, _, _, traded, rep', withinLimit_reduce (fun level => ?_) side price⟩
    refine traded.exposedAt trading rep' ?_ _ _
    rw [Matching.trade_whole whole]
    exact lit
  · have part : m.remaining < m.book.orderQty i := BitVec.not_le.mp whole
    obtain ⟨traded, rep'⟩ := trading.traded_part orderId part
    have lit := fillMaker_isOccupied placed m.remaining
    refine ⟨_, _, _, traded, rep', withinLimit_reduce (fun level => ?_) side price⟩
    refine traded.exposedAt trading rep' ?_ _ _
    rw [Matching.trade_part part]
    exact lit

theorem Trading.exposed_mem (trading : Trading side price m free queue best i) :
    m.book.orderOf i ∈ m.book.exposed side price := by
  have placed := trading.rep.nodes.placed _ _ _ trading.mem
  obtain ⟨rest, orders, -⟩ := trading.queue_order
  refine mem_withinLimit.mpr ⟨⟨best, placed.level_lt, ?_⟩, ?_⟩
  · rw [exposedAt, if_pos ((trading.rep.best_eq_some _ _).mp trading.best_eq).1, orders,
      exposedFront]
    exact List.mem_cons_self
  · rw [orderOf, placed.price_eq]
    exact trading.within

-- With quantity left over, the loop stops only when nothing is exposed any more.
theorem Stopped.none_exposed (stopped : Stopped side price m) (rep : Represents m.book free queue)
    (left : m.remaining ≠ 0) : m.book.exposed side price = [] := by
  refine List.eq_nil_iff_forall_not_mem.mpr fun o member => ?_
  obtain ⟨⟨level, -, inside⟩, within⟩ := mem_withinLimit.mp member
  have occupied : m.book.isOccupied side.opposite level = true := by
    by_contra dark
    rw [exposedAt, if_neg dark] at inside
    exact absurd inside (by simp)
  have at' := (mem_ordersAt rep ((m.book.exposedAt_prefix _ _).subset inside)).2.1
  rcases stopped with zero | limit
  · exact left zero
  · cases cached : m.book.best side.opposite with
    | none =>
      rw [(rep.best_eq_none side.opposite).mp cached level] at occupied
      exact absurd occupied (by decide)
    | some best =>
      have top := ((rep.best_eq_some side.opposite best).mp cached).2 level occupied
      rw [at', beyond_of_not_beats top (limit best cached)] at within
      exact absurd within (by decide)

end

structure Sweeping (s : LimitOrderBook c) (side : Side) (price : Int) (qty : c.Qty)
    (m : Matching c) : Prop where
  start : m.executions = [] → m.book = s ∧ m.remaining = qty
  positive : ∀ e ∈ m.executions, e.qty ≠ 0
  executed : (m.executions.map fun e => e.qty.toNat).sum + m.remaining.toNat = qty.toNat
  left : m.book.exposedQty side price + qty.toNat = s.exposedQty side price + m.remaining.toNat
  ids : ∀ o ∈ m.book.exposed side price, ∃ old ∈ s.exposed side price, old.id = o.id
  others : ∀ id : Nat, (∀ o ∈ s.exposed side price, o.id ≠ id) →
    m.book.resting id = s.resting id
  used : ∀ old ∈ s.exposed side price, (∃ o ∈ m.book.exposed side price, o.id = old.id) ∨
    m.book.resting old.id.toNat = none

namespace Sweeping

variable {s : LimitOrderBook c} {side : Side} {price orderId : Int} {qty traded : c.Qty}
variable {m m' : Matching c} {free : List Nat} {queue : Side → Nat → List Nat} {best i : Nat}

theorem trade_left (sweeping : Sweeping s side price qty m)
    (trading : Trading side price m free queue best i)
    (trade : Traded side orderId m best i traded m')
    (exposed : m'.book.exposed side price =
      reduce (m.book.orderId i) traded.toNat (m.book.exposed side price)) :
    m'.book.exposedQty side price + qty.toNat = s.exposedQty side price + m'.remaining.toNat := by
  have shrunk := Reference.sum_reduce (trading.rep.exposed_nodup side price) trading.exposed_mem
    (show traded.toNat ≤ (m.book.orderOf i).qty from trade.leMaker)
  have before := sweeping.left
  have le : traded.toNat ≤ m.remaining.toNat := trade.leTaker
  rw [orderOf_id] at shrunk
  rw [trade.remaining, BitVec.toNat_sub_of_le trade.leTaker]
  rw [exposedQty] at before ⊢
  rw [exposed]
  omega

theorem trade_used (sweeping : Sweeping s side price qty m)
    (trading : Trading side price m free queue best i)
    (trade : Traded side orderId m best i traded m')
    (exposed : m'.book.exposed side price =
      reduce (m.book.orderId i) traded.toNat (m.book.exposed side price)) :
    ∀ old ∈ s.exposed side price, (∃ o ∈ m'.book.exposed side price, o.id = old.id) ∨
      m'.book.resting old.id.toNat = none := by
  intro old member
  obtain ⟨maker, fill, resting⟩ := trade.fill trading
  have rests : m.book.resting (m.book.orderId i).toNat = some maker := fill.rests
  rcases sweeping.used old member with ⟨o, inside, same⟩ | gone
  · by_cases here : o.id = m.book.orderId i
    · have head := trade.filled.reduceOne trade.leMaker (j := i) (by simp)
      by_cases whole : traded = m.book.orderQty i
      · right
        have unmapped : m'.book.idToIdx (m.book.orderId i).toNat = none := by
          rw [trade.filled.idToIdx, if_pos whole, Function.update_self]
        rw [← same, here]
        exact resting_eq_none.mpr unmapped
      · left
        refine ⟨m'.book.orderOf i, ?_, ?_⟩
        · rw [exposed]
          refine List.mem_filterMap.mpr ⟨_, trading.exposed_mem, ?_⟩
          rw [head, if_neg fun also => whole also.2]
        · rw [orderOf_id, trade.filled.orderId, ← here, same]
    · left
      exact ⟨o, by rw [exposed]; exact mem_reduce_other inside here, same⟩
  · right
    rw [resting, Function.update_of_ne, gone]
    intro same
    rw [← same, gone] at rests
    exact absurd rests (by simp)

theorem trade (sweeping : Sweeping s side price qty m)
    (trading : Trading side price m free queue best i)
    (trade : Traded side orderId m best i traded m')
    (exposed : m'.book.exposed side price =
      reduce (m.book.orderId i) traded.toNat (m.book.exposed side price)) :
    Sweeping s side price qty m' where
  start none := by
    rw [trade.executions] at none
    exact absurd none (by simp)
  positive e member := by
    rw [trade.executions] at member
    rcases List.mem_append.mp member with old | new
    · exact sweeping.positive e old
    · obtain rfl := List.mem_singleton.mp new
      exact trade.positive
  executed := by
    have before := sweeping.executed
    have le : traded.toNat ≤ m.remaining.toNat := trade.leTaker
    rw [trade.executions, trade.remaining, BitVec.toNat_sub_of_le trade.leTaker, List.map_append,
      List.sum_append]
    simp only [List.map_cons, List.map_nil, List.sum_cons, List.sum_nil, Matching.execution]
    omega
  left := sweeping.trade_left trading trade exposed
  ids o member := by
    rw [exposed] at member
    obtain ⟨o', inside, sameId, -, -⟩ := Reference.mem_reduce member
    obtain ⟨old, found, same⟩ := sweeping.ids o' inside
    exact ⟨old, found, same.trans sameId.symm⟩
  others id other := by
    obtain ⟨old, found, same⟩ := sweeping.ids _ trading.exposed_mem
    obtain ⟨maker, fill, resting⟩ := trade.fill trading
    have nonneg := (validId_iff.mp fill.valid).1
    rw [resting, Function.update_of_ne, sweeping.others id other]
    rintro rfl
    apply other old found
    rw [same, orderOf_id]
    exact (Int.toNat_of_nonneg nonneg).symm
  used := sweeping.trade_used trading trade exposed

end Sweeping

theorem processOrder_sweeps {s : LimitOrderBook c} {free : List Nat}
    {queue : Side → Nat → List Nat} (rep : Represents s free queue) (side : Side)
    {price orderId : Int} {qty : c.Qty} (accepts : Accepts c price qty orderId) :
    ∃ m free' queue', s.processOrder side price qty orderId =
        some (finish m side price orderId) ∧
      Represents m.book free' queue' ∧ Sweeping s side price qty m ∧
      (m.remaining ≠ 0 → m.book.exposed side price = []) := by
  have start : Sweeping s side price qty ⟨s, qty, []⟩ :=
    ⟨fun _ => ⟨rfl, rfl⟩, by simp, by simp, rfl, fun o member => ⟨o, member, rfl⟩, fun _ _ => rfl,
      fun old member => Or.inl ⟨old, member, rfl⟩⟩
  obtain ⟨m, free', queue', finished, rep', sweeping, stopped⟩ :=
    processOrder_rule rep side accepts (I := fun m _ _ => Sweeping s side price qty m)
      (fun m free queue best i trading sweeping _ => by
        obtain ⟨qty, _, _, traded, -, exposed⟩ := trading.exposed_trade orderId
        exact sweeping.trade trading traded exposed)
      (fun m free queue best i trading sweeping _ => by
        obtain ⟨qty, _, _, traded, -, exposed⟩ := trading.exposed_trade orderId
        exact sweeping.trade trading traded exposed) start
  exact ⟨m, free', queue', finished, rep', sweeping, stopped.none_exposed rep'⟩

end CppPractice.LimitOrderBook
