import CppPractice.Engine.Trades

set_option autoImplicit false

namespace CppPractice.LimitOrderBook

open Reference (Order reduce reduceOne)

variable {c : Config}

def withinLimit (c : Config) (side : Side) (price : Int) (orders : Nat → List Order) :
    List Order :=
  ((List.range c.kLevels).flatMap orders).filter fun o => !side.opposite.beyond o.price price

def inReach (s : LimitOrderBook c) (side : Side) (price : Int) : List Order :=
  withinLimit c side price (s.ordersAt side.opposite)

theorem mem_withinLimit {side : Side} {price : Int} {orders : Nat → List Order} {o : Order} :
    o ∈ withinLimit c side price orders ↔
      (∃ level < c.kLevels, o ∈ orders level) ∧ side.opposite.beyond o.price price = false := by
  simp [withinLimit]

theorem filter_reduce (id : Int) (trade : Nat) (keep : Int → Bool) (book : List Order) :
    (reduce id trade book).filter (fun o => keep o.price) =
      reduce id trade (book.filter fun o => keep o.price) := by
  rw [reduce, reduce, List.filter_filterMap, List.filterMap_filter]
  refine List.filterMap_congr fun o _ => ?_
  cases reduced : reduceOne id trade o with
  | none => simp
  | some o' =>
    have price := (Reference.reduceOne_some reduced).2.2.1
    simp [Option.filter, price]

theorem withinLimit_reduce {id : Int} {trade : Nat} {orders orders' : Nat → List Order}
    (reduced : ∀ level, orders' level = reduce id trade (orders level)) (side : Side)
    (price : Int) :
    withinLimit c side price orders' = reduce id trade (withinLimit c side price orders) := by
  have whole : (List.range c.kLevels).flatMap orders' =
      reduce id trade ((List.range c.kLevels).flatMap orders) := by
    rw [funext reduced, reduce, List.filterMap_flatMap]
    rfl
  rw [withinLimit, whole, filter_reduce id trade fun p => !side.opposite.beyond p price]
  rfl

section

variable {side : Side} {price : Int} {m : Matching c} {free : List Nat}
variable {queue : Side → Nat → List Nat} {best i : Nat}

theorem Trading.in_reach (trading : Trading side price m free queue best i) :
    m.book.orderOf i ∈ m.book.inReach side price := by
  have placed := trading.rep.nodes.placed _ _ _ trading.mem
  refine mem_withinLimit.mpr ⟨⟨best, placed.level_lt, ?_⟩, ?_⟩
  · rw [trading.rep.nodes.ordersAt]
    exact List.mem_map.mpr ⟨i, trading.mem, rfl⟩
  · rw [orderOf, placed.price_eq]
    exact trading.within

theorem Traded.inReach {m' : Matching c} {orderId : Int} {qty : c.Qty}
    (traded : Traded side orderId m best i qty m') (price : Int) :
    m'.book.inReach side price =
      reduce (m.book.orderId i) qty.toNat (m.book.inReach side price) :=
  withinLimit_reduce (traded.orders side.opposite) side price

end

end CppPractice.LimitOrderBook
