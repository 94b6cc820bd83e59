import Mathlib.Tactic.Linarith
import Mathlib.Tactic.Ring
import CppPractice.Wrapper.Steps

set_option autoImplicit false

namespace CppPractice.OrderBook

/-- One execution, seen as the sale of `e.qty` shares by the owner of `ask` to that of `bid`. -/
structure Exchange (maker taker bid ask : LiveOrder) (e : Execution Qty) : Prop where
  isBid : bid.isBid = true
  isAsk : ask.isBid = false
  roles : (bid = taker ∧ ask = maker) ∨ (bid = maker ∧ ask = taker ∧ bid.limitPrice = e.price)
  limit : e.price ≤ bid.limitPrice
  nonneg : 0 ≤ mulMoney e.price e.qty
  -- A bid pays the execution price, and is then credited what it saved.
  quote : ∀ v, (tradeDelta maker taker e v).quote =
    (if v = ask.user then mulMoney e.price e.qty else 0) -
      (if v = bid.user then mulMoney e.price e.qty else 0) +
      (if v = bid.user then mulMoney bid.limitPrice e.qty - mulMoney e.price e.qty else 0)
  base : ∀ v, (tradeDelta maker taker e v).base =
    (if v = bid.user then e.qty else 0) - (if v = ask.user then e.qty else 0)
  lockedQuote : ∀ v, (tradeDelta maker taker e v).lockedQuote =
    -(if v = bid.user then mulMoney bid.limitPrice e.qty else 0)

theorem mulMoney_le {low high : Price} (le : low ≤ high) (qty : Qty) :
    mulMoney low qty ≤ mulMoney high qty :=
  Int.mul_le_mul_of_nonneg_right le (Int.natCast_nonneg _)

theorem refund_quote (o : LiveOrder) (traded : Qty) {notional : Money}
    (enough : notional ≤ mulMoney o.limitPrice traded) :
    (Delta.refund o traded notional).quote =
      if o.isBid then mulMoney o.limitPrice traded - notional else 0 := by
  unfold Delta.refund
  cases o.isBid with
  | false => rfl
  | true =>
    by_cases gains : mulMoney o.limitPrice traded - notional > 0
    · rw [if_pos ⟨rfl, gains⟩, if_pos rfl]
    · rw [if_neg fun both => gains both.2, if_pos rfl, Delta.zero_quote]
      linarith

theorem refund_base (o : LiveOrder) (traded : Qty) (notional : Money) :
    (Delta.refund o traded notional).base = 0 := by
  unfold Delta.refund
  split <;> rfl

theorem Settles.exchange {s s' : Impl} {takerId : Nat} {e : Execution Qty}
    {maker taker : LiveOrder} (settles : Settles s s' takerId e maker taker) :
    ∃ bid ask, Exchange maker taker bid ask e := by
  have low := (LimitOrderBook.inRange_iff.mp settles.inRange).1
  have nonneg : 0 ≤ mulMoney e.price e.qty :=
    Int.mul_nonneg (le_trans (by decide) low) (Int.natCast_nonneg _)
  have within := settles.within
  have opposite := settles.opposite
  have makerRefund := refund_quote maker e.qty
    (le_of_eq (by rw [settles.price]) : mulMoney e.price e.qty ≤ _)
  rw [settles.price, sub_self, ite_self] at makerRefund
  have makerLock := (refund_locks maker e.qty (mulMoney e.price e.qty)).1
  have takerLock := (refund_locks taker e.qty (mulMoney e.price e.qty)).1
  cases taking : taker.isBid with
  | true =>
    have making : maker.isBid = false := by
      rw [maker.isBid_eq, opposite, LiveOrder.side, taking]
      rfl
    rw [LiveOrder.side, making] at within
    have limit : e.price ≤ taker.limitPrice := by
      simpa [Side.beyond] using within
    have takerRefund := refund_quote taker e.qty (mulMoney_le limit e.qty)
    rw [taking, if_pos rfl] at takerRefund
    refine ⟨taker, maker, taking, making, Or.inl ⟨rfl, rfl⟩, limit, nonneg, ?_, ?_, ?_⟩ <;>
      intro v <;>
      simp only [tradeDelta, settleDelta, making, taking, Bool.false_eq_true, if_false,
        LiveOrder.side, if_true, Delta.unlock, Delta.add_quote, Delta.add_base,
        Delta.add_lockedQuote, only_quote, only_base, only_lockedQuote, makerRefund, takerRefund,
        makerLock, takerLock, refund_base, Delta.buys, Delta.sells] <;>
      split_ifs <;> ring
  | false =>
    have making : maker.isBid = true := by
      rw [maker.isBid_eq, opposite, LiveOrder.side, taking]
      rfl
    have takerRefund : (Delta.refund taker e.qty (mulMoney e.price e.qty)).quote = 0 := by
      simp [Delta.refund, taking]
    refine ⟨maker, taker, making, taking, Or.inr ⟨rfl, rfl, settles.price⟩,
      le_of_eq settles.price.symm, nonneg, ?_, ?_, ?_⟩ <;>
      intro v <;>
      simp only [tradeDelta, settleDelta, making, taking, Bool.false_eq_true, if_false,
        LiveOrder.side, if_true, Delta.unlock, Delta.add_quote, Delta.add_base,
        Delta.add_lockedQuote, only_quote, only_base, only_lockedQuote, makerRefund, takerRefund,
        makerLock, takerLock, refund_base, Delta.buys, Delta.sells, settles.price] <;>
      split_ifs <;> ring

end CppPractice.OrderBook
