import CppPractice.Engine.Priority

set_option autoImplicit false

namespace CppPractice.LimitOrderBook

open Tally (tally tally_append)
open Greedy (fill fill_zero leave leave_zero leave_leave cost_fill_add)
open Reference (Order reduce reduceOne reduce_absent)

variable {c : Config}

def shrink (o : Order) (n : Nat) : Order := { o with qty := o.qty - n }

theorem shrink_shrinking : Greedy.Shrinking Order.qty shrink where
  size _ _ := rfl
  none _ := rfl
  again o m n := by rw [shrink, shrink, shrink, Nat.sub_sub]

def takenFrom (id price : Int) (executions : List (Execution c.Qty)) : Nat :=
  tally (fun e => if e.makerOrderId = id ∧ e.price = price then e.qty.toNat else 0) executions

def atMaker (id price : Int) (o : Order) : Nat := if o.id = id ∧ o.price = price then 1 else 0

section

variable {side : Side} {price orderId : Int} {m m' : Matching c} {free free' : List Nat}
variable {queue queue' : Side → Nat → List Nat} {best i : Nat} {qty : c.Qty}

theorem Represents.ladder_positive {s : LimitOrderBook c} (rep : Represents s free queue)
    (side : Side) (price : Int) : ∀ o ∈ s.ladder side price, 0 < o.qty := by
  intro o member
  obtain ⟨⟨level, -, inside⟩, -⟩ := mem_withinLimit.mp (mem_ladder.mp member)
  exact (mem_ordersAt rep inside).2.2.2

theorem Traded.leave (traded : Traded side orderId m best i qty m')
    (trading : Trading side price m free queue best i) (visible : Visible m.book)
    (rep' : Represents m'.book free' queue') :
    Greedy.leave Order.qty shrink m.remaining.toNat (m.book.ladder side price) =
      Greedy.leave Order.qty shrink m'.remaining.toNat (m'.book.ladder side price) := by
  obtain ⟨rest, line, others⟩ := trading.ladder visible
  have kept : reduce (m.book.orderOf i).id qty.toNat rest = rest := reduce_absent others
  have next : m'.book.ladder side price =
      reduce (m.book.orderOf i).id qty.toNat (m.book.orderOf i :: rest) := by
    rw [← line]
    exact lineUp_reduce (traded.orders side.opposite) side price
  have taken := traded.qty_eq
  have positive := rep'.ladder_positive side price
  rw [reduce] at kept
  rw [next, reduce, List.filterMap_cons, reduceOne, if_pos rfl, kept] at positive ⊢
  rw [line, Greedy.leave, traded.remaining, BitVec.toNat_sub_of_le traded.leTaker]
  by_cases part : m.remaining.toNat < (m.book.orderOf i).qty
  · have all : qty.toNat = m.remaining.toNat := by omega
    have stays : ¬(m.book.orderOf i).qty = qty.toNat := by omega
    rw [if_neg stays, all] at positive ⊢
    rw [if_pos part, Nat.sub_self]
    exact (leave_zero shrink_shrinking positive).symm
  · have whole : qty.toNat = (m.book.orderOf i).qty := by omega
    rw [if_neg part, if_pos whole.symm, whole]

theorem Stopped.leave (stopped : Stopped side price m) (rep : Represents m.book free queue)
    (visible : Visible m.book) :
    Greedy.leave Order.qty shrink m.remaining.toNat (m.book.ladder side price) =
      m.book.ladder side price := by
  by_cases left : m.remaining = 0
  · rw [left]
    exact leave_zero shrink_shrinking (rep.ladder_positive side price)
  · rw [Stopped.ladder stopped rep visible left]
    rfl

theorem finish_ladder (rep : Represents m.book free queue) (inRange : c.inRange price = true) :
    (finish m side price orderId).book.ladder side price = m.book.ladder side price := by
  by_cases done : m.remaining = 0
  · rw [finish_done done]
  · cases alloc : m.book.allocOrder orderId with
    | none => rw [finish_refused done alloc]
    | some allocated =>
      rw [finish_rested done alloc]
      have same (level : Nat) : (allocated.1.restOrder side price m.remaining orderId
          allocated.2).ordersAt side.opposite level = m.book.ordersAt side.opposite level := by
        rw [rested_ordersAt rep side inRange done alloc, if_neg, List.append_nil]
        rintro ⟨own, -⟩
        cases side <;> exact absurd own (by decide)
      rw [ladder, ladder, funext same]

end

section

variable {s s' : LimitOrderBook c} {side : Side} {price orderId : Int} {qty : c.Qty}

theorem Tidy.ladder_left (tidy : Tidy s) {outcome : Outcome c}
    (accepts : Accepts c price qty orderId)
    (processed : s.processOrder side price qty orderId = some outcome) :
    outcome.book.ladder side price =
      leave Order.qty shrink qty.toNat (s.ladder side price) := by
  obtain ⟨free, queue, rep⟩ := tidy.represents
  obtain ⟨m, free', queue', finished, rep', ⟨-, visible, same⟩, stopped⟩ :=
    processOrder_trades rep side accepts
      (I := fun m => Small m.book ∧ Visible m.book ∧
        leave Order.qty shrink qty.toNat (s.ladder side price) =
          leave Order.qty shrink m.remaining.toNat (m.book.ladder side price))
      ⟨tidy.small, tidy.visible, rfl⟩ (by
        rintro m free queue best i traded m' free' queue' trading trade rep' ⟨small, visible, same⟩
        have shrinks := trade.shrinks
        have small' := shrinks.small small
        exact ⟨small', visible.step rep' small' trade.fades shrinks.fewer,
          same.trans (trade.leave trading visible rep')⟩)
  obtain rfl := Option.some.inj (finished.symm.trans processed)
  rw [finish_ladder rep' accepts.2.1, same, Stopped.leave stopped rep' visible]

theorem takenFrom_deals (id at' takerId : Int) (want : Nat) (line : List Order)
    {executions : List (Execution c.Qty)}
    (same : executions.map Execution.toNat = deals side takerId want line) :
    takenFrom id at' executions = Greedy.cost (atMaker id at') (fill Order.qty want line) := by
  have counted : takenFrom id at' executions =
      tally (fun e : Execution Nat => if e.makerOrderId = id ∧ e.price = at' then e.qty else 0)
        (executions.map Execution.toNat) := by
    rw [takenFrom, tally, tally, List.map_map]
    rfl
  rw [counted, same, deals, Greedy.cost, tally, tally, List.map_map]
  congr 1
  refine List.map_congr_left fun filled _ => ?_
  by_cases here : filled.1.id = id ∧ filled.1.price = at' <;> simp [deal, atMaker, here]

end

theorem split_order {start s s₁ s₂ s' : LimitOrderBook c} {calls : List (Call c)}
    {log : List (Call c × Reply c.Qty)} {side : Side} {price firstId secondId orderId : Int}
    {first second : c.Qty} {reply₁ reply₂ reply : Reply c.Qty}
    (noWrap : NoWrap start.reset (calls ++ [.processOrder side price first firstId]))
    (ran : Runs.run step start.reset calls = some (s, log))
    (accepts₁ : Accepts c price first firstId) (accepts₂ : Accepts c price second secondId)
    (accepts : Accepts c price (first + second) orderId)
    (fits : first.toNat + second.toNat < 2 ^ c.qtyBits)
    (stepped₁ : s.step (.processOrder side price first firstId) = some (s₁, reply₁))
    (stepped₂ : s₁.step (.processOrder side price second secondId) = some (s₂, reply₂))
    (stepped : s.step (.processOrder side price (first + second) orderId) = some (s', reply)) :
    (∀ id at', takenFrom id at' (reply₁.executions ++ reply₂.executions) =
        takenFrom id at' reply.executions) ∧
      s₂.ladder side price = s'.ladder side price := by
  have early := noWrap.of_prefix (List.prefix_append calls _)
  have later := Runs.run_snoc_iff.mpr ⟨s, log, reply₁, ran, stepped₁, rfl⟩
  obtain ⟨tidy, deals₁⟩ := executions_eq early ran accepts₁ stepped₁
  obtain ⟨tidy₁, deals₂⟩ := executions_eq noWrap later accepts₂ stepped₂
  obtain ⟨-, whole⟩ := executions_eq early ran accepts stepped
  have sum : (first + second).toNat = first.toNat + second.toNat := by
    rw [BitVec.toNat_add, Nat.mod_eq_of_lt fits]
  obtain ⟨outcome₁, processed₁, same₁⟩ := Option.map_eq_some_iff.mp stepped₁
  obtain ⟨outcome₂, processed₂, same₂⟩ := Option.map_eq_some_iff.mp stepped₂
  obtain ⟨outcome, processed, same⟩ := Option.map_eq_some_iff.mp stepped
  obtain ⟨rfl, -⟩ := Prod.mk.inj same₁
  obtain ⟨rfl, -⟩ := Prod.mk.inj same₂
  obtain ⟨rfl, -⟩ := Prod.mk.inj same
  have left := tidy.ladder_left accepts₁ processed₁
  constructor
  · intro id at'
    have same : ∀ o n, atMaker id at' (shrink o n) = atMaker id at' o := fun _ _ => rfl
    have split := cost_fill_add shrink_shrinking same first.toNat second.toNat (s.ladder side price)
    rw [takenFrom, tally_append, ← takenFrom, ← takenFrom, takenFrom_deals id at' _ _ _ deals₁,
      takenFrom_deals id at' _ _ _ deals₂, takenFrom_deals id at' _ _ _ whole, left, sum]
    exact split.symm
  · rw [tidy₁.ladder_left accepts₂ processed₂, left, leave_leave shrink_shrinking,
      tidy.ladder_left accepts processed, sum]

theorem split_order_askingCalls : ∃ s log s₁ s₂ s' reply₁ reply₂ reply, Runs.run step
    (LimitOrderBook.new fourByFour).reset askingCalls = some (s, log) ∧
    s.step (.processOrder .Buy 103 6 3) = some (s₁, reply₁) ∧
    s₁.step (.processOrder .Buy 103 4 3) = some (s₂, reply₂) ∧
    s.step (.processOrder .Buy 103 (6 + 4) 3) = some (s', reply) ∧
    (∀ id at', takenFrom id at' (reply₁.executions ++ reply₂.executions) =
        takenFrom id at' reply.executions) ∧
      s₂.ladder .Buy 103 = s'.ladder .Buy 103 := by
  have value : (Runs.run step (LimitOrderBook.new fourByFour).reset askingCalls).map (fun final =>
      (((final.1.step (.processOrder .Buy 103 6 3)).bind fun next =>
          next.1.step (.processOrder .Buy 103 4 3)).isSome,
        (final.1.step (.processOrder .Buy 103 (6 + 4) 3)).isSome)) = some (true, true) := by
    decide +kernel
  obtain ⟨⟨s, log⟩, ran, same⟩ := Option.map_eq_some_iff.mp value
  obtain ⟨twice, once⟩ := Prod.mk.inj same
  obtain ⟨⟨s₂, reply₂⟩, both⟩ := Option.isSome_iff_exists.mp twice
  obtain ⟨⟨s₁, reply₁⟩, stepped₁, stepped₂⟩ := Option.bind_eq_some_iff.mp both
  obtain ⟨⟨s', reply⟩, stepped⟩ := Option.isSome_iff_exists.mp once
  exact ⟨s, log, s₁, s₂, s', reply₁, reply₂, reply, ran, stepped₁, stepped₂, stepped,
    split_order (by decide +kernel) ran ⟨by decide, by decide, by decide⟩
      ⟨by decide, by decide, by decide⟩ ⟨by decide, by decide, by decide⟩ (by decide) stepped₁
      stepped₂ stepped⟩

end CppPractice.LimitOrderBook
