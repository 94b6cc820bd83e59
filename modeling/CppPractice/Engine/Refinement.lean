import Mathlib.Algebra.BigOperators.Group.Finset.Piecewise
import CppPractice.Engine.Visibility

set_option autoImplicit false

namespace CppPractice

variable {c : Config}

def Execution.toNat {w : Nat} (e : Execution (BitVec w)) : Execution Nat :=
  { takerSide := e.takerSide
    takerOrderId := e.takerOrderId
    makerSide := e.makerSide
    makerOrderId := e.makerOrderId
    price := e.price
    qty := e.qty.toNat }

def LimitOrderBook.Reply.toNat {w : Nat} (reply : LimitOrderBook.Reply (BitVec w)) :
    LimitOrderBook.Reply Nat :=
  ⟨reply.ok, reply.executions.map Execution.toNat⟩

namespace LimitOrderBook

open Reference (Order reduce bestMaker sweep)

/-- Each level's queue holds the reference's orders of that side and price, in order. -/
structure Refines (s : LimitOrderBook c) (book : List Order) : Prop where
  orders : ∀ side level,
    s.ordersAt side level = Reference.ordersAt book side (c.levelToPrice level)
  inRange : ∀ o ∈ book, c.inRange o.price = true

theorem isAt_levelToPrice {o : Order} (level : Nat) (inRange : c.inRange o.price = true)
    {side : Side} : Order.isAt side (c.levelToPrice level) o = true ↔
      o.side = side ∧ level = c.priceToLevel o.price := by
  rw [Order.isAt, decide_eq_true_iff]
  refine and_congr_right fun _ => ⟨fun same => ?_, fun same => ?_⟩
  · rw [same, priceToLevel_levelToPrice]
  · rw [same, (level_of_price inRange).2]

theorem better_levelToPrice (side : Side) (left right : Nat) :
    Reference.better side (c.levelToPrice left) (c.levelToPrice right) = side.beats left right := by
  cases side <;> simp [Reference.better, Side.beats, Config.levelToPrice]

section

variable {s : LimitOrderBook c} {book : List Order}

theorem Refines.queued (refines : Refines s book) {o : Order} (member : o ∈ book) :
    o ∈ s.ordersAt o.side (c.priceToLevel o.price) := by
  rw [refines.orders, (level_of_price (refines.inRange o member)).2]
  exact List.mem_filter.mpr ⟨member, by simp [Order.isAt]⟩

theorem Refines.mem (refines : Refines s book) {side : Side} {level : Nat} {o : Order}
    (member : o ∈ s.ordersAt side level) : o ∈ book := by
  rw [refines.orders] at member
  exact (List.mem_filter.mp member).1

theorem Refines.restingQty (refines : Refines s book) (side : Side) (level : Nat) :
    s.restingQty side level =
      ((Reference.ordersAt book side (c.levelToPrice level)).map Order.qty).sum := by
  rw [LimitOrderBook.restingQty, refines.orders]

theorem Refines.next_maker {m : Matching c} {side : Side} {price : Int} {free : List Nat}
    {queue : Side → Nat → List Nat} {best i : Nat} (refines : Refines m.book book)
    (visible : Visible m.book) (trading : Trading side price m free queue best i) :
    bestMaker side.opposite book = some (m.book.orderOf i) := by
  refine Reference.bestMaker_first (c.levelToPrice best) ?_ ?_
  · rw [← refines.orders]
    exact trading.order
  · intro o member mine
    have occupied := visible _ _ (List.ne_nil_of_mem (refines.queued member))
    have top := (trading.rep.best_eq_some side.opposite best).mp trading.best_eq
    rw [mine] at occupied
    rw [← (level_of_price (refines.inRange o member)).2, better_levelToPrice]
    exact top.2 _ occupied

theorem Refines.sweep_stopped {m : Matching c} {side : Side} {price : Int} (orderId : Int)
    {free : List Nat} {queue : Side → Nat → List Nat} (refines : Refines m.book book)
    (visible : Visible m.book) (rep : Represents m.book free queue)
    (stopped : Stopped side price m) :
    sweep side price orderId book m.remaining.toNat = ⟨book, m.remaining.toNat, []⟩ := by
  rw [sweep]
  split
  · rename_i done
    rw [done]
  · rename_i left
    have left : m.remaining ≠ 0 := by
      rintro zero
      exact left (by rw [zero]; rfl)
    split
    · rfl
    · rename_i maker found
      obtain ⟨inside, mine⟩ := Reference.bestMaker_mem found
      have queued := refines.queued inside
      rw [mine] at queued
      rw [if_pos (stopped.exhausted rep visible left queued)]

theorem Refines.reduce {s' : LimitOrderBook c} {id : Int} {trade : Nat} (refines : Refines s book)
    (orders : ∀ side level, s'.ordersAt side level = reduce id trade (s.ordersAt side level)) :
    Refines s' (Reference.reduce id trade book) where
  orders side level := by rw [orders, refines.orders, Reference.ordersAt_reduce]
  inRange o member := by
    obtain ⟨old, inside, -, -, price⟩ := Reference.mem_reduce member
    rw [price]
    exact refines.inRange old inside

theorem Refines.sweep_traded {m m' : Matching c} {side : Side} {price orderId : Int}
    {free : List Nat} {queue : Side → Nat → List Nat} {best i : Nat} {qty : c.Qty}
    (refines : Refines m.book book) (visible : Visible m.book)
    (trading : Trading side price m free queue best i)
    (traded : Traded side orderId m best i qty m') :
    sweep side price orderId book m.remaining.toNat =
      let rest := sweep side price orderId
        (Reference.reduce (m.book.orderId i) qty.toNat book) m'.remaining.toNat
      { rest with executions :=
          (m.execution side orderId best i qty).toNat :: rest.executions } := by
  have placed := trading.rep.nodes.placed _ _ _ trading.mem
  have left := toNat_ne_zero trading.remaining
  have found := refines.next_maker visible trading
  have price_eq : (m.book.orderOf i).price = c.levelToPrice best := placed.price_eq
  have qty_eq : min m.remaining.toNat (m.book.orderOf i).qty = qty.toNat := by
    have leMaker := BitVec.le_def.mp traded.leMaker
    have leTaker := BitVec.le_def.mp traded.leTaker
    have maker : (m.book.orderOf i).qty = (m.book.orderQty i).toNat := rfl
    rw [maker]
    rcases traded.exhausts with whole | whole
    · rw [← whole, Nat.min_eq_right leTaker]
    · rw [← whole, Nat.min_eq_left leMaker]
  have remaining_eq : m'.remaining.toNat = m.remaining.toNat - qty.toNat := by
    rw [traded.remaining, BitVec.toNat_sub_of_le traded.leTaker]
  rw [sweep, dif_neg left]
  split
  · rename_i none
    rw [found] at none
    exact absurd none (by simp)
  · rename_i maker some
    obtain rfl : m.book.orderOf i = maker := by simpa [found] using some
    rw [price_eq, trading.within]
    simp only [Bool.false_eq_true, if_false, qty_eq, orderOf_id, ← remaining_eq]
    rfl

end

theorem sum_count {n : Nat} {l : List Nat} (bounded : ∀ i ∈ l, i < n) :
    ∑ i ∈ Finset.range n, l.count i = l.length := by
  induction l with
  | nil => simp
  | cons a rest ih =>
    have inside := Finset.mem_range.mpr (bounded a (by simp))
    have earlier := ih fun i member => bounded i (by simp [member])
    simp only [List.count_cons, Finset.sum_add_distrib, earlier, beq_iff_eq,
      Finset.sum_ite_eq, if_pos inside, List.length_cons]

theorem Represents.count {s : LimitOrderBook c} {free : List Nat} {queue : Side → Nat → List Nat}
    (rep : Represents s free queue) :
    free.length + ∑ level ∈ Finset.range c.kLevels,
      ((queue .Buy level).length + (queue .Sell level).length) = c.maxOrders := by
  have queued (side : Side) (level : Nat) :
      ∑ i ∈ Finset.range c.maxOrders, (queue side level).count i = (queue side level).length :=
    sum_count fun i inside => (rep.nodes.placed _ _ _ inside).valid
  calc free.length + ∑ level ∈ Finset.range c.kLevels,
        ((queue .Buy level).length + (queue .Sell level).length)
      = ∑ i ∈ Finset.range c.maxOrders, free.count i +
          ∑ level ∈ Finset.range c.kLevels, ∑ i ∈ Finset.range c.maxOrders,
            ((queue .Buy level).count i + (queue .Sell level).count i) := by
        rw [sum_count rep.nodes.freeValid]
        simp only [Finset.sum_add_distrib, queued]
    _ = ∑ i ∈ Finset.range c.maxOrders, (free.count i +
          ∑ level ∈ Finset.range c.kLevels,
            ((queue .Buy level).count i + (queue .Sell level).count i)) := by
        rw [Finset.sum_comm, Finset.sum_add_distrib]
    _ = ∑ i ∈ Finset.range c.maxOrders, 1 :=
        Finset.sum_congr rfl fun i inside => rep.onePlace (Finset.mem_range.mp inside)
    _ = c.maxOrders := by simp

theorem length_by_level {book : List Order} (inRange : ∀ o ∈ book, c.inRange o.price = true) :
    book.length = ∑ level ∈ Finset.range c.kLevels,
      ((Reference.ordersAt book .Buy (c.levelToPrice level)).length +
        (Reference.ordersAt book .Sell (c.levelToPrice level)).length) := by
  induction book with
  | nil => simp [Reference.ordersAt]
  | cons o rest ih =>
    have inLevels := (level_of_price (inRange o (by simp))).1
    have one (side : Side) (level : Nat) :
        (Reference.ordersAt (o :: rest) side (c.levelToPrice level)).length =
          (Reference.ordersAt rest side (c.levelToPrice level)).length +
            if o.side = side ∧ level = c.priceToLevel o.price then 1 else 0 := by
      simp only [Reference.ordersAt, List.filter_cons, isAt_levelToPrice level (inRange o (by simp))]
      split <;> simp
    simp only [one, List.length_cons, ih fun o member => inRange o (by simp [member])]
    have single (side : Side) : ∑ level ∈ Finset.range c.kLevels,
        (if o.side = side ∧ level = c.priceToLevel o.price then 1 else 0) =
          if o.side = side then 1 else 0 := by
      by_cases mine : o.side = side
      · simp only [mine, true_and, if_true, Finset.sum_ite_eq',
          if_pos (Finset.mem_range.mpr inLevels)]
      · simp [mine]
    simp only [Finset.sum_add_distrib, single]
    cases o.side <;> simp <;> omega

theorem Refines.length {s : LimitOrderBook c} {free : List Nat} {queue : Side → Nat → List Nat}
    {book : List Order} (refines : Refines s book) (rep : Represents s free queue) :
    free.length + book.length = c.maxOrders := by
  rw [length_by_level refines.inRange, ← rep.count]
  simp only [← refines.orders, rep.nodes.ordersAt, List.length_map]

theorem Refines.resting {s : LimitOrderBook c} {free : List Nat} {queue : Side → Nat → List Nat}
    {book : List Order} (refines : Refines s book) (rep : Represents s free queue) {orderId : Int}
    (valid : c.validId orderId = true) :
    Reference.resting book orderId = true ↔ s.idToIdx orderId.toNat ≠ none := by
  rw [Reference.resting, List.any_eq_true]
  constructor
  · rintro ⟨o, member, same⟩
    obtain rfl : o.id = orderId := by simpa using same
    have queued := refines.queued member
    rw [rep.nodes.ordersAt] at queued
    obtain ⟨i, inside, rfl⟩ := List.mem_map.mp queued
    rw [orderOf_id, (rep.nodes.placed _ _ _ inside).id_maps]
    simp
  · intro mapped
    obtain ⟨i, maps⟩ := Option.ne_none_iff_exists'.mp mapped
    obtain ⟨sameId, side, level, inside⟩ := rep.nodes.mapped _ _ maps
    have queued : s.orderOf i ∈ s.ordersAt side level := by
      rw [rep.nodes.ordersAt]
      exact List.mem_map.mpr ⟨i, inside, rfl⟩
    refine ⟨_, refines.mem queued, ?_⟩
    simp only [orderOf_id, sameId, decide_eq_true_eq]
    exact Int.toNat_of_nonneg (validId_iff.mp valid).1

-- Allocation fails exactly when the reference would drop the remainder.
theorem Refines.alloc_none {s : LimitOrderBook c} {free : List Nat}
    {queue : Side → Nat → List Nat} {book : List Order} (refines : Refines s book)
    (rep : Represents s free queue) {orderId : Int} (valid : c.validId orderId = true) :
    s.allocOrder orderId = none ↔
      Reference.resting book orderId = true ∨ c.maxOrders ≤ book.length := by
  have count := refines.length rep
  have chain := rep.nodes.freeChain
  rw [refines.resting rep valid, allocOrder]
  simp only [valid, Bool.not_true, Bool.false_eq_true, if_false]
  split
  · rename_i mapped
    simp [mapped]
  · rename_i unmapped
    have unmapped : s.idToIdx orderId.toNat = none := by simpa using unmapped
    simp only [unmapped, ne_eq, not_true_eq_false, false_or]
    cases head : s.freeHead with
    | none =>
      rw [head] at chain
      have : free = [] := chain.head_none
      simp only [this, List.length_nil] at count
      simp only [true_iff]
      omega
    | some i =>
      rw [head] at chain
      obtain ⟨rest, rfl, -⟩ := chain.head_some
      simp only [List.length_cons] at count
      simp only [reduceCtorEq, false_iff]
      omega

theorem process_accepts {price orderId : Int} {qty : c.Qty} (accepts : Accepts c price qty orderId)
    (book : List Order) (side : Side) :
    Reference.process c book side price qty.toNat orderId =
      let swept := sweep side price orderId book qty.toNat
      if swept.remaining = 0 then (swept.book, ⟨true, swept.executions⟩)
      else if Reference.resting swept.book orderId ∨ c.maxOrders ≤ swept.book.length then
        (swept.book, ⟨false, swept.executions⟩)
      else (swept.book ++ [⟨orderId, side, price, swept.remaining⟩], ⟨true, swept.executions⟩) := by
  obtain ⟨positive, inRange, valid⟩ := accepts
  have nonzero := toNat_ne_zero positive
  obtain ⟨nonneg, below⟩ := validId_iff.mp valid
  obtain ⟨low, high⟩ := inRange_iff.mp inRange
  rw [Reference.process, if_neg (by omega)]

theorem process_rejects {price orderId : Int} {qty : c.Qty}
    (rejects : ¬Accepts c price qty orderId) (book : List Order) (side : Side) :
    Reference.process c book side price qty.toNat orderId = (book, ⟨false, []⟩) := by
  rw [Reference.process, if_pos]
  by_contra inside
  simp only [not_or, not_lt, not_le] at inside
  obtain ⟨nonzero, low, high, nonneg, below⟩ := inside
  exact rejects ⟨fun zero => nonzero (by simp [zero]), inRange_iff.mpr ⟨low, high⟩,
    validId_iff.mpr ⟨nonneg, by omega⟩⟩

theorem Refines.rest {m : Matching c} {free : List Nat} {queue : Side → Nat → List Nat}
    {book : List Order} {allocated : LimitOrderBook c} {i : Nat} (refines : Refines m.book book)
    (rep : Represents m.book free queue) (side : Side) {price orderId : Int}
    (inRange : c.inRange price = true) (left : m.remaining ≠ 0)
    (alloc : m.book.allocOrder orderId = some (allocated, i)) :
    Refines (allocated.restOrder side price m.remaining orderId i)
      (book ++ [⟨orderId, side, price, m.remaining.toNat⟩]) where
  orders other level := by
    rw [rested_ordersAt rep side inRange left alloc, refines.orders, Reference.ordersAt,
      Reference.ordersAt, List.filter_append, List.filter_singleton]
    congr 1
    have here : Order.isAt other (c.levelToPrice level)
        ⟨orderId, side, price, m.remaining.toNat⟩ = true ↔
          other = side ∧ level = c.priceToLevel price := by
      rw [isAt_levelToPrice _ inRange, eq_comm]
    by_cases same : other = side ∧ level = c.priceToLevel price
    · rw [if_pos same, here.mpr same]
      rfl
    · rw [if_neg same, Bool.eq_false_iff.mpr (mt here.mp same)]
      rfl
  inRange o member := by
    rcases List.mem_append.mp member with old | new
    · exact refines.inRange o old
    · obtain rfl := List.mem_singleton.mp new
      exact inRange

theorem Refines.finish {m : Matching c} {free : List Nat} {queue : Side → Nat → List Nat}
    {book before : List Order} {side : Side} {price orderId : Int} {qty : c.Qty}
    (refines : Refines m.book book) (rep : Represents m.book free queue)
    (accepts : Accepts c price qty orderId)
    (swept : sweep side price orderId before qty.toNat =
      ⟨book, m.remaining.toNat, m.executions.map Execution.toNat⟩) :
    Refines (LimitOrderBook.finish m side price orderId).book
        (Reference.process c before side price qty.toNat orderId).1 ∧
      Reply.toNat ⟨(LimitOrderBook.finish m side price orderId).ok,
          (LimitOrderBook.finish m side price orderId).executions⟩ =
        (Reference.process c before side price qty.toNat orderId).2 := by
  rw [process_accepts accepts, swept]
  dsimp only
  by_cases done : m.remaining = 0
  · have zero : m.remaining.toNat = 0 := by rw [done]; rfl
    rw [finish_done done, if_pos zero]
    exact ⟨refines, rfl⟩
  · have nonzero := toNat_ne_zero done
    have allocates := refines.alloc_none rep accepts.2.2
    rw [if_neg nonzero]
    cases alloc : m.book.allocOrder orderId with
    | none =>
      rw [finish_refused done alloc, if_pos (allocates.mp alloc)]
      exact ⟨refines, rfl⟩
    | some allocated =>
      have room : ¬(Reference.resting book orderId = true ∨ c.maxOrders ≤ book.length) := by
        rw [← allocates, alloc]
        simp
      rw [finish_rested done alloc, if_neg room]
      exact ⟨refines.rest rep side accepts.2.1 done alloc, rfl⟩

theorem Refines.processOrder {s : LimitOrderBook c} {book : List Order} {side : Side}
    {price orderId : Int} {qty : c.Qty} {outcome : Outcome c} (refines : Refines s book)
    (tidy : Tidy s) (processed : s.processOrder side price qty orderId = some outcome) :
    Refines outcome.book (Reference.process c book side price qty.toNat orderId).1 ∧
      Reply.toNat ⟨outcome.ok, outcome.executions⟩ =
        (Reference.process c book side price qty.toNat orderId).2 := by
  obtain ⟨free, queue, rep⟩ := tidy.represents
  by_cases accepts : Accepts c price qty orderId
  · -- Between two trades, sweeping what is left gives what sweeping the first book gave.
    obtain ⟨m, free', queue', finished, rep', ⟨now, refines', small, visible, swept⟩, stopped⟩ :=
      processOrder_trades rep side accepts
        (I := fun m => ∃ now, Refines m.book now ∧ Small m.book ∧ Visible m.book ∧
          sweep side price orderId book qty.toNat =
            let rest := sweep side price orderId now m.remaining.toNat
            { rest with
              executions := m.executions.map Execution.toNat ++ rest.executions })
        ⟨book, refines, tidy.small, tidy.visible, rfl⟩ (by
          rintro m free queue best i traded m' free' queue' trading trade rep'
            ⟨now, refines, small, visible, swept⟩
          have shrinks := trade.shrinks
          have small' := shrinks.small small
          refine ⟨_, refines.reduce trade.orders, small',
            visible.step rep' small' trade.fades shrinks.fewer, ?_⟩
          rw [swept, refines.sweep_traded visible trading trade, trade.executions]
          simp)
    have ended := refines'.sweep_stopped orderId visible rep' stopped
    rw [ended] at swept
    obtain rfl := Option.some.inj (finished.symm.trans processed)
    exact refines'.finish rep' accepts (by simpa using swept)
  · rw [processOrder_rejects accepts] at processed
    obtain rfl := Option.some.inj processed
    rw [process_rejects accepts]
    exact ⟨refines, rfl⟩

theorem Refines.absent_id {s : LimitOrderBook c} {free : List Nat}
    {queue : Side → Nat → List Nat} {book : List Order} (refines : Refines s book)
    (rep : Represents s free queue) {orderId : Int}
    (absent : c.validId orderId = false ∨ s.idToIdx orderId.toNat = none) :
    ∀ o ∈ book, o.id ≠ orderId := by
  rintro o member rfl
  have queued := refines.queued member
  rw [rep.nodes.ordersAt] at queued
  obtain ⟨i, inside, rfl⟩ := List.mem_map.mp queued
  have placed := rep.nodes.placed _ _ _ inside
  rcases absent with invalid | unmapped
  · rw [orderOf_id, placed.id_valid] at invalid
    exact absurd invalid (by decide)
  · rw [orderOf_id, placed.id_maps] at unmapped
    exact absurd unmapped (by simp)

theorem Refines.cancel {s : LimitOrderBook c} {free : List Nat} {queue : Side → Nat → List Nat}
    {book : List Order} (refines : Refines s book) (rep : Represents s free queue)
    (orderId : Int) :
    Refines (s.cancel orderId).1 (book.filter fun o => decide (o.id ≠ orderId)) ∧
      (s.cancel orderId).2 = Reference.resting book orderId := by
  rcases cancel_orders rep orderId with ⟨same, absent⟩ |
    ⟨side, level, i, free', queue', inside, ids, ok, rep', -, orders⟩
  · have missing := refines.absent_id rep absent
    have kept : (book.filter fun o => decide (o.id ≠ orderId)) = book :=
      List.filter_eq_self.mpr fun o member => by simp [missing o member]
    have notResting : Reference.resting book orderId = false := by
      rw [Reference.resting, List.any_eq_false]
      exact fun o member => by simp [missing o member]
    rw [kept, notResting, same]
    exact ⟨refines, rfl⟩
  · have queued : s.orderOf i ∈ s.ordersAt side level := by
      rw [rep.nodes.ordersAt]
      exact List.mem_map.mpr ⟨i, inside, rfl⟩
    have rests : Reference.resting book orderId = true := by
      rw [Reference.resting, List.any_eq_true]
      exact ⟨_, refines.mem queued, by simp [ids]⟩
    refine ⟨⟨fun other at' => ?_, fun o member => ?_⟩, by rw [ok, rests]⟩
    · rw [orders, refines.orders, Reference.ordersAt, Reference.ordersAt, List.filter_filter,
        List.filter_filter]
      congr 1
      funext o
      exact Bool.and_comm _ _
    · exact refines.inRange o (List.mem_filter.mp member).1

theorem Refines.step {s s' : LimitOrderBook c} {book : List Order} {call : Call c}
    {reply : Reply c.Qty} (refines : Refines s book) (tidy : Tidy s)
    (stepped : s.step call = some (s', reply)) :
    Refines s' (Reference.step book call).1 ∧ reply.toNat = (Reference.step book call).2 := by
  cases call with
  | processOrder side price qty orderId =>
    obtain ⟨outcome, processed, answered⟩ := Option.map_eq_some_iff.mp stepped
    obtain ⟨rfl, rfl⟩ := Prod.mk.inj answered
    exact refines.processOrder tidy processed
  | cancel orderId =>
    obtain ⟨free, queue, rep⟩ := tidy.represents
    obtain ⟨rfl, rfl⟩ := Prod.mk.inj (Option.some.inj stepped)
    obtain ⟨left, ok⟩ := refines.cancel rep orderId
    rw [ok]
    exact ⟨left, rfl⟩
  | reset =>
    obtain ⟨rfl, rfl⟩ := Prod.mk.inj (Option.some.inj stepped)
    refine ⟨⟨fun side level => ?_, by simp [Reference.step]⟩, rfl⟩
    rw [reset_ordersAt]
    rfl

end LimitOrderBook

end CppPractice
