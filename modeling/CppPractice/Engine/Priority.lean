import CppPractice.Engine.Immediate
import CppPractice.Engine.RunRefinement
import CppPractice.Shared.Greedy

set_option autoImplicit false

namespace CppPractice

open Tally (tally)
open Greedy (fill fill_zero fill_cons fill_taken fill_cheapest fill_most)
open Reference (Order reduce reduceOne reduce_absent)

-- What a unit at `price` costs a taker; a seller pays with what it does not get.
def Side.cost : Side → Int → Int
  | .Buy, price => price
  | .Sell, price => -price

-- The opposite orders within a taker's limit, best price first. The book is in order of arrival,
-- and so are those at one price: the sort is stable.
def Reference.line (book : List Order) (side : Side) (limit : Int) : List Order :=
  (book.filter fun o => decide (o.side = side.opposite) &&
    !side.opposite.beyond o.price limit).mergeSort
      fun o later => decide (side.cost o.price ≤ side.cost later.price)

namespace LimitOrderBook

variable {c : Config}

def levelsBestFirst (c : Config) : Side → List Nat
  | .Sell => List.range c.kLevels
  | .Buy => (List.range c.kLevels).reverse

def lineUp (c : Config) (side : Side) (price : Int) (orders : Nat → List Order) : List Order :=
  ((levelsBestFirst c side.opposite).flatMap orders).filter
    fun o => !side.opposite.beyond o.price price

def ladder (s : LimitOrderBook c) (side : Side) (price : Int) : List Order :=
  lineUp c side price (s.ordersAt side.opposite)

def deal (side : Side) (takerId : Int) (filled : Order × Nat) : Execution Nat where
  takerSide := side
  takerOrderId := takerId
  makerSide := side.opposite
  makerOrderId := filled.1.id
  price := filled.1.price
  qty := filled.2

def deals (side : Side) (takerId : Int) (want : Nat) (line : List Order) : List (Execution Nat) :=
  (fill Order.qty want line).map (deal side takerId)

theorem levelsBestFirst_sorted (side : Side) :
    (levelsBestFirst c side).Pairwise fun level later => side.beats level later = true := by
  cases side with
  | Buy =>
    rw [levelsBestFirst, List.pairwise_reverse]
    exact List.pairwise_lt_range.imp fun {level later} below => decide_eq_true below
  | Sell => exact List.pairwise_lt_range.imp fun {level later} below => decide_eq_true below

theorem levelsBestFirst_perm (side : Side) :
    (levelsBestFirst c side).Perm (List.range c.kLevels) := by
  cases side with
  | Buy => exact List.reverse_perm _
  | Sell => exact List.Perm.refl _

theorem levelsBestFirst_nodup (side : Side) : (levelsBestFirst c side).Nodup :=
  (levelsBestFirst_perm side).nodup_iff.mpr List.nodup_range

theorem mem_levelsBestFirst {side : Side} {level : Nat} :
    level ∈ levelsBestFirst c side ↔ level < c.kLevels := by
  rw [(levelsBestFirst_perm side).mem_iff, List.mem_range]

theorem finish_executions (m : Matching c) (side : Side) (price orderId : Int) :
    (finish m side price orderId).executions = m.executions := by
  unfold finish
  split
  · rfl
  · split <;> rfl

theorem lineUp_perm (side : Side) (price : Int) (orders : Nat → List Order) :
    (lineUp c side price orders).Perm (withinLimit c side price orders) :=
  ((levelsBestFirst_perm side.opposite).flatMap_right orders).filter _

theorem lineUp_reduce {id : Int} {trade : Nat} {orders orders' : Nat → List Order}
    (reduced : ∀ level, orders' level = reduce id trade (orders level)) (side : Side)
    (price : Int) :
    lineUp c side price orders' = reduce id trade (lineUp c side price orders) := by
  have whole : (levelsBestFirst c side.opposite).flatMap orders' =
      reduce id trade ((levelsBestFirst c side.opposite).flatMap orders) := by
    rw [funext reduced, reduce, List.filterMap_flatMap]
    rfl
  rw [lineUp, whole, filter_reduce id trade fun p => !side.opposite.beyond p price]
  rfl

theorem cost_inj {side : Side} {price price' : Int} (same : side.cost price = side.cost price') :
    price = price' := by
  cases side
  · exact same
  · exact Int.neg_inj.mp same

theorem cost_le_of_beats {side : Side} {level later : Nat}
    (beats : side.opposite.beats level later = true) :
    side.cost (c.levelToPrice level) ≤ side.cost (c.levelToPrice later) := by
  cases side <;>
    simp only [Side.opposite, Side.beats, decide_eq_true_eq, Side.cost, Config.levelToPrice]
      at beats ⊢ <;> omega

theorem deals_cons (side : Side) (takerId : Int) {o : Order} {rest : List Order}
    {want trade : Nat} (wanted : want ≠ 0) (others : ∀ p ∈ rest, p.id ≠ o.id)
    (trade_eq : trade = min want o.qty) :
    deals side takerId want (o :: rest) = deal side takerId (o, trade) ::
      deals side takerId (want - trade) (reduce o.id trade (o :: rest)) := by
  have kept : reduce o.id trade rest = rest := reduce_absent others
  rw [reduce] at kept
  rw [deals, deals, fill_cons wanted, ← trade_eq, reduce, List.filterMap_cons, reduceOne,
    if_pos rfl, kept, List.map_cons]
  by_cases whole : o.qty = trade
  · rw [if_pos whole, whole]
  · have part : want < o.qty := by omega
    rw [if_neg whole, show want - trade = 0 by omega, show want - o.qty = 0 by omega, fill_zero,
      fill_zero]

section

variable {s : LimitOrderBook c} {free : List Nat} {queue : Side → Nat → List Nat}

theorem mem_ladder {side : Side} {price : Int} {o : Order} :
    o ∈ s.ladder side price ↔ o ∈ s.inReach side price :=
  (lineUp_perm side price _).mem_iff

theorem Represents.inReach_nodup (rep : Represents s free queue) (side : Side) (price : Int) :
    ((s.inReach side price).map Order.id).Nodup := by
  refine List.Nodup.sublist (List.filter_sublist.map Order.id) ?_
  rw [List.map_flatMap, List.nodup_flatMap]
  constructor
  · intro level _
    exact idsAt_nodup rep side.opposite level
  · refine List.nodup_range.imp fun {level level'} different => ?_
    intro id left right
    obtain ⟨o, leftIn, rfl⟩ := List.mem_map.mp left
    obtain ⟨o', rightIn, same⟩ := List.mem_map.mp right
    exact different (rep.order_unique leftIn rightIn same.symm).2.2

theorem Represents.ladder_sorted (rep : Represents s free queue) (side : Side) (price : Int) :
    (s.ladder side price).Pairwise fun o later => side.cost o.price ≤ side.cost later.price := by
  refine List.Pairwise.filter _ (List.pairwise_flatMap.mpr ⟨fun level _ => ?_, ?_⟩)
  · refine List.pairwise_of_forall_mem_list fun o here later there => ?_
    rw [(mem_ordersAt rep here).2.1, (mem_ordersAt rep there).2.1]
  · refine (levelsBestFirst_sorted side.opposite).imp fun {level next} beats o here later there => ?_
    rw [(mem_ordersAt rep here).2.1, (mem_ordersAt rep there).2.1]
    exact cost_le_of_beats beats

end

section

variable {s : LimitOrderBook c} {book : List Order}

theorem Refines.levels_cost (refines : Refines s book) (side : Side) (k : Int) :
    ((levelsBestFirst c side.opposite).flatMap (s.ordersAt side.opposite)).filter
        (fun o => decide (side.cost o.price = k)) =
      (book.filter fun o => decide (o.side = side.opposite)).filter
        fun o => decide (side.cost o.price = k) := by
  have level (l : Nat) : (s.ordersAt side.opposite l).filter
      (fun o => decide (side.cost o.price = k)) =
        if side.cost (c.levelToPrice l) = k then s.ordersAt side.opposite l else [] := by
    have at_price : ∀ o ∈ s.ordersAt side.opposite l, o.price = c.levelToPrice l := by
      intro o member
      rw [refines.orders] at member
      exact (of_decide_eq_true (List.mem_filter.mp member).2).2
    split
    · rename_i same
      exact List.filter_eq_self.mpr fun o member => by simp [at_price o member, same]
    · rename_i other
      exact List.filter_eq_nil_iff.mpr fun o member => by simp [at_price o member, other]
  rw [List.filter_flatMap]
  by_cases found : ∃ l ∈ levelsBestFirst c side.opposite, side.cost (c.levelToPrice l) = k
  · obtain ⟨l, member, same⟩ := found
    rw [Lists.flatMap_eq (levelsBestFirst_nodup _) member fun l' _ apart => ?_, level, if_pos same,
      refines.orders, Reference.ordersAt, List.filter_filter]
    · refine List.filter_congr fun o _ => ?_
      have price : o.price = c.levelToPrice l ↔ side.cost o.price = k :=
        ⟨fun here => by rw [here, same], fun cost => cost_inj (cost.trans same.symm)⟩
      rw [Order.isAt, ← Bool.decide_and]
      exact decide_eq_decide.mpr ⟨fun here => ⟨price.mp here.2, here.1⟩,
        fun here => ⟨here.2, price.mpr here.1⟩⟩
    · rw [level, if_neg fun cost => apart ?_]
      have prices := cost_inj (cost.trans same.symm)
      rw [← priceToLevel_levelToPrice (c := c) l', prices, priceToLevel_levelToPrice]
  · rw [List.flatMap_eq_nil_iff.mpr fun l member => by
      rw [level, if_neg fun same => found ⟨l, member, same⟩]]
    refine (List.filter_eq_nil_iff.mpr fun o member cost => found ?_).symm
    have inside := level_of_price (refines.inRange o (List.mem_of_mem_filter member))
    exact ⟨_, mem_levelsBestFirst.mpr inside.1, by rw [inside.2]; exact of_decide_eq_true cost⟩

theorem Refines.ladder_eq (refines : Refines s book) (tidy : Tidy s) (side : Side) (price : Int) :
    s.ladder side price = Reference.line book side price := by
  obtain ⟨free, queue, rep⟩ := tidy.represents
  have sorted (l : List Order) : (l.mergeSort fun o later =>
      decide (side.cost o.price ≤ side.cost later.price)).Pairwise fun o later =>
        decide (side.cost o.price ≤ side.cost later.price) = true :=
    List.pairwise_mergeSort (fun _ _ _ => by simpa using Int.le_trans)
      (fun o later => by simpa using Int.le_total (side.cost o.price) (side.cost later.price)) l
  refine Lists.eq_of_sorted (fun o => side.cost o.price) (rep.ladder_sorted side price) ?_
    fun k => ?_
  · exact (sorted _).imp of_decide_eq_true
  · rw [Reference.line, Lists.filter_mergeSort, ladder, lineUp, List.filter_comm,
      refines.levels_cost, List.filter_filter, List.filter_filter, List.filter_filter]
    refine List.filter_congr fun o _ => ?_
    rw [Bool.and_comm, ← Bool.and_assoc, Bool.and_comm]
end

section

variable {side : Side} {price orderId : Int} {m m' : Matching c} {free free' : List Nat}
variable {queue queue' : Side → Nat → List Nat} {best i : Nat} {qty : c.Qty}

theorem Trading.ladder (trading : Trading side price m free queue best i)
    (visible : Visible m.book) :
    ∃ rest, m.book.ladder side price = m.book.orderOf i :: rest ∧
      ∀ o ∈ rest, o.id ≠ m.book.orderId i := by
  have placed := trading.rep.nodes.placed _ _ _ trading.mem
  have top := (trading.rep.best_eq_some side.opposite best).mp trading.best_eq
  have member : best ∈ levelsBestFirst c side.opposite :=
    mem_levelsBestFirst.mpr placed.level_lt
  obtain ⟨better, worse, split⟩ := List.append_of_mem member
  have sorted := levelsBestFirst_sorted (c := c) side.opposite
  rw [split, List.pairwise_append] at sorted
  have empty : better.flatMap (m.book.ordersAt side.opposite) = [] := by
    refine List.flatMap_eq_nil_iff.mpr fun level ahead => ?_
    by_contra some
    have beats := sorted.2.2 level ahead best List.mem_cons_self
    rw [top.2 level (visible _ _ some)] at beats
    exact absurd beats (by decide)
  obtain ⟨behind, orders, -⟩ := trading.queue_order
  have within : (!side.opposite.beyond (m.book.orderOf i).price price) = true := by
    rw [orderOf, placed.price_eq, trading.within]
    rfl
  obtain ⟨rest, line⟩ : ∃ rest, m.book.ladder side price = m.book.orderOf i :: rest :=
    ⟨_, by rw [LimitOrderBook.ladder, lineUp, split, List.flatMap_append, empty, List.nil_append,
      List.flatMap_cons, orders, List.cons_append, List.filter_cons, if_pos within]⟩
  refine ⟨rest, line, fun o member same => ?_⟩
  have nodup := ((lineUp_perm side price _).map Order.id).nodup_iff.mpr
    (trading.rep.inReach_nodup side price)
  rw [← LimitOrderBook.ladder, line, List.map_cons, List.nodup_cons] at nodup
  exact nodup.1 (List.mem_map.mpr ⟨o, member, same⟩)

theorem Traded.qty_eq (traded : Traded side orderId m best i qty m') :
    qty.toNat = min m.remaining.toNat (m.book.orderOf i).qty := by
  have leMaker : qty.toNat ≤ (m.book.orderOf i).qty := traded.leMaker
  have leTaker : qty.toNat ≤ m.remaining.toNat := traded.leTaker
  have size : (m.book.orderOf i).qty = (m.book.orderQty i).toNat := rfl
  rcases traded.exhausts with whole | whole
  · rw [size, ← whole, Nat.min_eq_right leTaker]
  · rw [← whole, Nat.min_eq_left leMaker]

theorem Traded.deals (traded : Traded side orderId m best i qty m')
    (trading : Trading side price m free queue best i) (visible : Visible m.book) :
    m.executions.map Execution.toNat ++
        LimitOrderBook.deals side orderId m.remaining.toNat (m.book.ladder side price) =
      m'.executions.map Execution.toNat ++
        LimitOrderBook.deals side orderId m'.remaining.toNat (m'.book.ladder side price) := by
  have placed := trading.rep.nodes.placed _ _ _ trading.mem
  obtain ⟨rest, line, others⟩ := trading.ladder visible
  have next : m'.book.ladder side price =
      reduce (m.book.orderOf i).id qty.toNat (m.book.orderOf i :: rest) := by
    rw [← line]
    exact lineUp_reduce (traded.orders side.opposite) side price
  have recorded : (m.execution side orderId best i qty).toNat =
      deal side orderId (m.book.orderOf i, qty.toNat) := by
    rw [deal, orderOf, placed.price_eq]
    rfl
  rw [next, line, deals_cons side orderId (toNat_ne_zero trading.remaining) others traded.qty_eq,
    traded.remaining, BitVec.toNat_sub_of_le traded.leTaker, traded.executions, List.map_append,
    List.map_singleton, recorded, List.append_assoc, List.singleton_append]

theorem Stopped.ladder (stopped : Stopped side price m) (rep : Represents m.book free queue)
    (visible : Visible m.book) (left : m.remaining ≠ 0) : m.book.ladder side price = [] := by
  refine List.filter_eq_nil_iff.mpr fun o member => ?_
  obtain ⟨level, -, inside⟩ := List.mem_flatMap.mp member
  simp [stopped.exhausted rep visible left inside]

theorem Stopped.deals (stopped : Stopped side price m) (rep : Represents m.book free queue)
    (visible : Visible m.book) :
    LimitOrderBook.deals side orderId m.remaining.toNat (m.book.ladder side price) = [] := by
  by_cases left : m.remaining = 0
  · rw [left]
    exact congrArg _ (fill_zero _)
  · rw [Stopped.ladder stopped rep visible left]
    rfl

end

section

variable {s s' : LimitOrderBook c} {side : Side} {price orderId : Int} {qty : c.Qty}

theorem Tidy.executions_eq (tidy : Tidy s) {outcome : Outcome c}
    (accepts : Accepts c price qty orderId)
    (processed : s.processOrder side price qty orderId = some outcome) :
    outcome.executions.map Execution.toNat =
      deals side orderId qty.toNat (s.ladder side price) := by
  obtain ⟨free, queue, rep⟩ := tidy.represents
  obtain ⟨m, free', queue', finished, rep', ⟨-, visible, same⟩, stopped⟩ :=
    processOrder_trades rep side accepts
      (I := fun m => Small m.book ∧ Visible m.book ∧
        deals side orderId qty.toNat (s.ladder side price) = m.executions.map Execution.toNat ++
          deals side orderId m.remaining.toNat (m.book.ladder side price))
      ⟨tidy.small, tidy.visible, rfl⟩ (by
        rintro m free queue best i traded m' free' queue' trading trade rep' ⟨small, visible, same⟩
        have shrinks := trade.shrinks
        have small' := shrinks.small small
        exact ⟨small', visible.step rep' small' trade.fades shrinks.fewer,
          same.trans (trade.deals trading visible)⟩)
  rw [Stopped.deals stopped rep' visible, List.append_nil] at same
  obtain rfl := Option.some.inj (finished.symm.trans processed)
  rw [same, finish_executions]

theorem tally_deals (f : Int → Nat → Int) (takerId : Int) (want : Nat) (line : List Order) :
    tally (fun e : Execution Nat => f e.price e.qty) (deals side takerId want line) =
      tally (fun filled : Order × Nat => f filled.1.price filled.2) (fill Order.qty want line) := by
  rw [tally, tally, deals, List.map_map]
  rfl

theorem traded_deals (takerId : Int) (want : Nat) (line : List Order) :
    tally Execution.qty (deals side takerId want line) =
      tally Prod.snd (fill Order.qty want line) := by
  rw [tally, tally, deals, List.map_map]
  rfl

theorem tally_ladder {M : Type} [AddCommMonoid M] (f : Order → M) :
    tally f (s.ladder side price) = tally f (s.inReach side price) :=
  ((lineUp_perm side price _).map f).sum_eq

theorem executions_eq {start : LimitOrderBook c} {calls : List (Call c)}
    {log : List (Call c × Reply c.Qty)} {reply : Reply c.Qty} (noWrap : NoWrap start.reset calls)
    (ran : Runs.run step start.reset calls = some (s, log))
    (accepts : Accepts c price qty orderId)
    (stepped : s.step (.processOrder side price qty orderId) = some (s', reply)) :
    Tidy s ∧ reply.executions.map Execution.toNat =
      deals side orderId qty.toNat (s.ladder side price) := by
  have tidy := (run_follows noWrap ran).1
  obtain ⟨outcome, processed, same⟩ := Option.map_eq_some_iff.mp stepped
  obtain ⟨rfl, rfl⟩ := Prod.mk.inj same
  exact ⟨tidy, tidy.executions_eq accepts processed⟩

end

/--
Whatever was called before, an accepted order trades with the opposite orders within its
limit best price first and in order of arrival at each price, from each what it still wants up
to all of it, at the price of that order, and with no other.
-/
theorem price_time_priority {start s s' : LimitOrderBook c} {calls : List (Call c)}
    {log : List (Call c × Reply c.Qty)} {reply : Reply c.Qty} (noWrap : NoWrap start.reset calls)
    (ran : Runs.run step start.reset calls = some (s, log)) {side : Side} {price orderId : Int}
    {qty : c.Qty} (accepts : Accepts c price qty orderId)
    (stepped : s.step (.processOrder side price qty orderId) = some (s', reply)) :
    reply.executions.map Execution.toNat =
      deals side orderId qty.toNat (Reference.line (Reference.run calls).1 side price) := by
  obtain ⟨tidy, refines, -⟩ := run_follows noWrap ran
  rw [← refines.ladder_eq tidy]
  exact (executions_eq noWrap ran accepts stepped).2

-- Three asks at two prices, the younger of two at the lower price last.
def askingCalls : List (Call fourByFour) :=
  [.processOrder .Sell 102 5 0, .processOrder .Sell 101 3 1, .processOrder .Sell 102 4 2]

theorem askingCalls_taken : ∃ s log s' reply, Runs.run step
    (LimitOrderBook.new fourByFour).reset askingCalls = some (s, log) ∧
    s.step (.processOrder .Buy 103 10 3) = some (s', reply) ∧
    s.inReach .Buy 103 = [⟨1, .Sell, 101, 3⟩, ⟨0, .Sell, 102, 5⟩, ⟨2, .Sell, 102, 4⟩] := by
  have value : (Runs.run step (LimitOrderBook.new fourByFour).reset askingCalls).map
      (fun final => ((final.1.step (.processOrder .Buy 103 10 3)).isSome,
        final.1.inReach .Buy 103)) =
        some (true, [⟨1, .Sell, 101, 3⟩, ⟨0, .Sell, 102, 5⟩, ⟨2, .Sell, 102, 4⟩]) := by
    decide +kernel
  obtain ⟨⟨s, log⟩, ran, same⟩ := Option.map_eq_some_iff.mp value
  obtain ⟨defined, reach⟩ := Prod.mk.inj same
  obtain ⟨⟨s', reply⟩, stepped⟩ := Option.isSome_iff_exists.mp defined
  exact ⟨s, log, s', reply, ran, stepped, reach⟩

theorem price_time_priority_askingCalls : ∃ s log s' reply, Runs.run step
    (LimitOrderBook.new fourByFour).reset askingCalls = some (s, log) ∧
    s.step (.processOrder .Buy 103 10 3) = some (s', reply) ∧
    reply.executions.map Execution.toNat =
      deals .Buy 3 10 (Reference.line (Reference.run askingCalls).1 .Buy 103) := by
  obtain ⟨s, log, s', reply, ran, stepped, -⟩ := askingCalls_taken
  exact ⟨s, log, s', reply, ran, stepped,
    price_time_priority (by decide +kernel) ran ⟨by decide, by decide, by decide⟩ stepped⟩

theorem best_execution {start s s' : LimitOrderBook c} {calls : List (Call c)}
    {log : List (Call c × Reply c.Qty)} {reply : Reply c.Qty} (noWrap : NoWrap start.reset calls)
    (ran : Runs.run step start.reset calls = some (s, log)) {side : Side} {price orderId : Int}
    {qty : c.Qty} (accepts : Accepts c price qty orderId)
    (stepped : s.step (.processOrder side price qty orderId) = some (s', reply))
    {take : Order → Nat} (within : ∀ o ∈ s.inReach side price, take o ≤ o.qty)
    (wanted : tally take (s.inReach side price) ≤ qty.toNat) :
    tally take (s.inReach side price) ≤ tally (fun e => e.qty.toNat) reply.executions ∧
      (tally take (s.inReach side price) = tally (fun e => e.qty.toNat) reply.executions →
        tally (fun e => side.cost e.price * e.qty.toNat) reply.executions ≤
          tally (fun o => side.cost o.price * take o) (s.inReach side price)) := by
  obtain ⟨tidy, same⟩ := executions_eq noWrap ran accepts stepped
  obtain ⟨free, queue, rep⟩ := tidy.represents
  have within' : ∀ o ∈ s.ladder side price, take o ≤ o.qty :=
    fun o member => within o (mem_ladder.mp member)
  have traded : tally (fun e => e.qty.toNat) reply.executions =
      tally Prod.snd (fill Order.qty qty.toNat (s.ladder side price)) := by
    rw [← traded_deals orderId, ← same, tally, tally, List.map_map]
    rfl
  have paid : tally (fun e => side.cost e.price * e.qty.toNat) reply.executions =
      Greedy.cost (fun o => side.cost o.price) (fill Order.qty qty.toNat (s.ladder side price)) := by
    rw [Greedy.cost, ← tally_deals (fun price qty => side.cost price * qty) orderId, ← same, tally,
      tally, List.map_map]
    rfl
  rw [traded, paid, ← tally_ladder, ← tally_ladder]
  rw [← tally_ladder] at wanted
  exact ⟨fill_most within' wanted, fill_cheapest (rep.ladder_sorted side price) within'⟩

theorem best_execution_askingCalls : ∃ s log s' reply, Runs.run step
    (LimitOrderBook.new fourByFour).reset askingCalls = some (s, log) ∧
    s.step (.processOrder .Buy 103 10 3) = some (s', reply) ∧
    tally (fun o => if o.id = 1 then 1 else o.qty) (s.inReach .Buy 103) ≤
      tally (fun e => e.qty.toNat) reply.executions ∧
    (tally (fun o => if o.id = 1 then 1 else o.qty) (s.inReach .Buy 103) =
      tally (fun e => e.qty.toNat) reply.executions →
      tally (fun e => Side.Buy.cost e.price * e.qty.toNat) reply.executions ≤
        tally (fun o => Side.Buy.cost o.price * ((if o.id = 1 then 1 else o.qty : Nat) : Int))
          (s.inReach .Buy 103)) := by
  obtain ⟨s, log, s', reply, ran, stepped, reach⟩ := askingCalls_taken
  refine ⟨s, log, s', reply, ran, stepped,
    best_execution (by decide +kernel) ran ⟨by decide, by decide, by decide⟩ stepped ?_ ?_⟩ <;>
    rw [reach] <;> decide

end LimitOrderBook

end CppPractice
