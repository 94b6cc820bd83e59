import CppPractice.Engine.Exposed
import CppPractice.Engine.Totals

set_option autoImplicit false

namespace CppPractice.LimitOrderBook

open Reference (Order reduce reduce_absent mem_reduce)

variable {c : Config}

def ordersWithout (s : LimitOrderBook c) (orderId : Int) (side : Side) (level : Nat) : List Order :=
  (s.ordersAt side level).filter fun o => decide (o.id ≠ orderId)

theorem exposedFront_whole {w : Nat} {orders : List Order} (positive : ∀ o ∈ orders, 0 < o.qty)
    (small : (orders.map Order.qty).sum < 2 ^ w) : exposedFront w orders = orders := by
  induction orders with
  | nil => rfl
  | cons o rest ih =>
    rw [List.map_cons, List.sum_cons] at small
    have behind := ih (fun o member => positive o (List.mem_cons_of_mem _ member)) (by omega)
    rw [exposedFront, behind]
    cases rest with
    | nil => simp
    | cons next rest =>
      have := positive next (by simp)
      rw [if_neg]
      rw [Nat.mod_eq_of_lt (by omega), List.map_cons, List.sum_cons]
      omega

section

variable {s s' : LimitOrderBook c} {free : List Nat} {queue : Side → Nat → List Nat}
variable {side : Side} {price orderId : Int} {qty : c.Qty} {outcome : Outcome c}

theorem Tidy.exposed (tidy : Tidy s) (side : Side) (price : Int) :
    s.exposed side price = s.inReach side price := by
  obtain ⟨free, queue, rep⟩ := tidy.represents
  have whole (level : Nat) : s.exposedAt side.opposite level = s.ordersAt side.opposite level := by
    unfold exposedAt
    split
    · exact exposedFront_whole (fun o member => (mem_ordersAt rep member).2.2.2)
        (tidy.small side.opposite level)
    · rename_i dark
      by_contra some
      exact dark ((tidy.shown.isOccupied_iff _ _).mpr (Ne.symm some))
  rw [LimitOrderBook.exposed, inReach, funext whole]

theorem Tidy.executed (tidy : Tidy s) (accepts : Accepts c price qty orderId)
    (processed : s.processOrder side price qty orderId = some outcome) :
    (outcome.executions.map fun e => e.qty.toNat).sum =
      min qty.toNat ((s.inReach side price).map Order.qty).sum := by
  obtain ⟨free, queue, rep⟩ := tidy.represents
  obtain ⟨m, free', queue', finished, -, sweeping, stopped⟩ := processOrder_sweeps rep side accepts
  obtain rfl := Option.some.inj (finished.symm.trans processed)
  have executions : (finish m side price orderId).executions = m.executions := by
    unfold finish
    split
    · rfl
    · split <;> rfl
  have executed := sweeping.executed
  have left := sweeping.left
  rw [← tidy.exposed, ← exposedQty, executions]
  by_cases done : m.remaining = 0
  · rw [done, show (0 : c.Qty).toNat = 0 by simp] at executed left
    omega
  · have nothing : m.book.exposedQty side price = 0 := by
      rw [exposedQty, stopped done]
      rfl
    omega

theorem ordersWithout_fresh (rep : Represents s free queue)
    (fresh : s.resting orderId.toNat = none) (other : Side) (at' : Nat) :
    s.ordersWithout orderId other at' = s.ordersAt other at' :=
  List.filter_eq_self.mpr fun _ member => decide_eq_true fun same =>
    absent_idsAt rep fresh other at' (List.mem_map.mpr ⟨_, member, same⟩)

theorem cancel_ordersAt (rep : Represents s free queue) (valid : c.validId orderId = true)
    (other : Side) (at' : Nat) :
    (s.cancel orderId).1.ordersAt other at' = s.ordersWithout orderId other at' := by
  rcases cancel_orders rep orderId with ⟨same, invalid | absent⟩ |
    ⟨side, level, i, _, _, -, -, -, -, -, orders⟩
  · rw [valid] at invalid
    exact absurd invalid (by decide)
  · rw [same, ordersWithout_fresh rep (resting_eq_none.mpr absent)]
  · exact orders other at'

structure Matched (s : LimitOrderBook c) (side : Side) (orderId : Int) (m : LimitOrderBook c) :
    Prop where
  small : Small m
  own : ∀ level, m.ordersAt side level = s.ordersAt side level
  absent : ∀ other at', ∀ o ∈ m.ordersAt other at', o.id ≠ orderId

theorem Traded.matched {m m' : Matching c} {best i : Nat} {traded : c.Qty}
    (trade : Traded side orderId m best i traded m')
    (trading : Trading side price m free queue best i) {id : Int}
    (matched : Matched s side id m.book) : Matched s side id m'.book where
  small := trade.shrinks.small matched.small
  own level := by
    rw [trade.orders, reduce_absent (trading.absent_elsewhere fun here => ?_), matched.own]
    exact absurd here.1 (by cases side <;> decide)
  absent other at' o member := by
    rw [trade.orders] at member
    obtain ⟨old, inside, same, -⟩ := mem_reduce member
    rw [same]
    exact matched.absent other at' old inside

theorem Tidy.without (tidy : Tidy s) (accepts : Accepts c price qty orderId)
    (fresh : s.resting orderId.toNat = none)
    (processed : s.processOrder side price qty orderId = some outcome) :
    ∃ m, Matched s side orderId m ∧
      (∀ other at', outcome.book.ordersWithout orderId other at' = m.ordersAt other at') ∧
      ∀ level, outcome.book.ordersAt side.opposite level = m.ordersAt side.opposite level := by
  obtain ⟨free, queue, rep⟩ := tidy.represents
  have start : Matched s side orderId s := by
    refine ⟨tidy.small, fun _ => rfl, fun other at' o member same => ?_⟩
    exact absent_idsAt rep fresh other at' (List.mem_map.mpr ⟨o, member, same⟩)
  obtain ⟨m, free', queue', finished, rep', matched, -⟩ := processOrder_trades rep side accepts
    (I := fun m => Matched s side orderId m.book) start
    fun m _ _ _ _ _ m' _ _ trading trade _ matched => trade.matched trading matched
  obtain rfl := Option.some.inj (finished.symm.trans processed)
  have kept (other : Side) (at' : Nat) :
      m.book.ordersWithout orderId other at' = m.book.ordersAt other at' :=
    List.filter_eq_self.mpr fun o member => decide_eq_true (matched.absent other at' o member)
  refine ⟨m.book, matched, ?_⟩
  by_cases done : m.remaining = 0
  · rw [finish_done done]
    exact ⟨kept, fun _ => rfl⟩
  · cases alloc : m.book.allocOrder orderId with
    | none =>
      rw [finish_refused done alloc]
      exact ⟨kept, fun _ => rfl⟩
    | some allocated =>
      rw [finish_rested done alloc]
      have read := rested_ordersAt rep' side accepts.2.1 done alloc
      refine ⟨fun other at' => ?_, fun level => ?_⟩
      · rw [ordersWithout, read, List.filter_append, ← ordersWithout, kept]
        split <;> simp
      · rw [read, if_neg fun here => absurd here.1 (by cases side <;> decide), List.append_nil]

end

end CppPractice.LimitOrderBook
