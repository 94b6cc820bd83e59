import CppPractice.Engine.Resting
import CppPractice.Wrapper.Accounts

set_option autoImplicit false

namespace CppPractice.OrderBook

open Tally (tally)

def LiveOrder.resting (o : LiveOrder) : Option (Resting Qty) :=
  if o.active then some ⟨o.side, o.limitPrice, o.remaining⟩ else none

def Impl.table (s : Impl) (id : Nat) : Option (Resting Qty) :=
  (s.orders[id]?).bind LiveOrder.resting

theorem table_eq_some {s : Impl} {id : Nat} {r : Resting Qty} :
    s.table id = some r ↔ ∃ o, s.orders[id]? = some o ∧ o.active = true ∧
      (⟨o.side, o.limitPrice, o.remaining⟩ : Resting Qty) = r := by
  simp only [Impl.table, Option.bind_eq_some_iff, LiveOrder.resting, Option.ite_none_right_eq_some,
    Option.some.injEq]

theorem LiveOrder.resting_fill {o : LiveOrder} (active : o.active = true) (traded : Qty) :
    (o.fill traded).resting = Resting.take ⟨o.side, o.limitPrice, o.remaining⟩ traded := by
  rw [resting, fill_active, Resting.take, fill_side, fill_limitPrice, fill_remaining]
  by_cases whole : o.remaining = traded
  · simp [whole]
  · simp [whole, Ne.symm whole, active]

def settleDelta (maker taker : LiveOrder) (traded : Qty) (notional : Money) (v : Nat) : Delta :=
  if maker.isBid then
    (Delta.buys traded notional).only maker.user v + (Delta.sells traded notional).only taker.user v
  else
    (Delta.sells traded notional).only maker.user v + (Delta.buys traded notional).only taker.user v

def tradeDelta (maker taker : LiveOrder) (e : Execution Qty) (v : Nat) : Delta :=
  let notional := mulMoney e.price e.qty
  (Delta.unlock maker.side maker.limitPrice e.qty).only maker.user v +
    (Delta.unlock taker.side taker.limitPrice e.qty).only taker.user v +
    settleDelta maker taker e.qty notional v +
    (Delta.refund taker e.qty notional).only taker.user v +
    (Delta.refund maker e.qty notional).only maker.user v

section

variable (s : Impl)

@[simp]
theorem pushTrade_users (e : Execution Qty) : (s.pushTrade e).users = s.users := by
  unfold Impl.pushTrade
  split <;> rfl

@[simp]
theorem pushTrade_orders (e : Execution Qty) : (s.pushTrade e).orders = s.orders := by
  unfold Impl.pushTrade
  split <;> rfl

theorem settle_orders (maker taker : LiveOrder) (traded : Qty) (notional : Money) :
    (s.settle maker taker traded notional).orders = s.orders := by
  unfold Impl.settle
  split <;> rfl

theorem settle_moves (maker taker : LiveOrder) (traded : Qty) (notional : Money) :
    Moves s.users (s.settle maker taker traded notional).users
      (settleDelta maker taker traded notional) := by
  unfold Impl.settle settleDelta
  split
  · exact (Moves.modify _ _ (buys_eq · traded notional)).trans
      (Moves.modify _ _ (sells_eq · traded notional))
  · exact (Moves.modify _ _ (sells_eq · traded notional)).trans
      (Moves.modify _ _ (buys_eq · traded notional))

theorem refund_orders (o : LiveOrder) (traded : Qty) (notional : Money) :
    (s.refund o traded notional).orders = s.orders := by
  unfold Impl.refund
  dsimp only
  split <;> rfl

theorem refund_moves (o : LiveOrder) (traded : Qty) (notional : Money) :
    Moves s.users (s.refund o traded notional).users
      ((Delta.refund o traded notional).only o.user) := by
  unfold Impl.refund Delta.refund
  dsimp only
  split
  · exact Moves.modify _ _ fun u => by simp [User.credit, User.plus]
  · have none : Delta.only o.user 0 = fun _ => 0 := by
      funext v
      simp [Delta.only]
    rw [none]
    exact Moves.refl _

theorem fillOrder_found {id : Nat} {o : LiveOrder} (found : s.orders[id]? = some o) (traded : Qty) :
    (s.fillOrder id traded).orders = s.orders.set id (o.fill traded) ∧
      Moves s.users (s.fillOrder id traded).users
        ((Delta.unlock o.side o.limitPrice traded).only o.user) := by
  unfold Impl.fillOrder
  rw [found]
  exact ⟨rfl, Moves.modify _ _ (unlock_eq · o.side o.limitPrice traded)⟩

def SameEngine (s s' : Impl) : Prop :=
  s'.engine = s.engine ∧ s'.nextOrderId = s.nextOrderId

theorem SameEngine.trans {s s' s'' : Impl} (first : SameEngine s s') (second : SameEngine s' s'') :
    SameEngine s s'' :=
  ⟨second.1.trans first.1, second.2.trans first.2⟩

theorem applyExecution_sameEngine (takerId : Nat) (e : Execution Qty) :
    SameEngine s (s.applyExecution takerId e) := by
  have pushed (s : Impl) : SameEngine s (s.pushTrade e) := by
    unfold Impl.pushTrade
    split <;> exact ⟨rfl, rfl⟩
  have filled (s : Impl) (id : Nat) : SameEngine s (s.fillOrder id e.qty) := by
    unfold Impl.fillOrder
    split <;> exact ⟨rfl, rfl⟩
  have settled (s : Impl) (maker taker : LiveOrder) (notional : Money) :
      SameEngine s (s.settle maker taker e.qty notional) := by
    unfold Impl.settle
    split <;> exact ⟨rfl, rfl⟩
  have refunded (s : Impl) (o : LiveOrder) (notional : Money) :
      SameEngine s (s.refund o e.qty notional) := by
    unfold Impl.refund
    dsimp only
    split <;> exact ⟨rfl, rfl⟩
  unfold Impl.applyExecution
  dsimp only
  split
  · exact ⟨rfl, rfl⟩
  · split
    · split
      · exact ⟨rfl, rfl⟩
      · exact ((((pushed _).trans (filled _ _)).trans (filled _ _)).trans (settled _ _ _ _)).trans
          ((refunded _ _ _).trans (refunded _ _ _))
    · exact ⟨rfl, rfl⟩

end

structure Settles (s s' : Impl) (takerId : Nat) (e : Execution Qty) (maker taker : LiveOrder) :
    Prop where
  makerAt : s.orders[toOrderId e.makerOrderId]? = some maker
  takerAt : s.orders[takerId]? = some taker
  apart : toOrderId e.makerOrderId ≠ takerId
  makerActive : maker.active = true
  takerActive : taker.active = true
  makerOwned : maker.user < s.users.length
  takerOwned : taker.user < s.users.length
  opposite : maker.side = taker.side.opposite
  price : maker.limitPrice = e.price
  inRange : Engine.inRange e.price = true
  within : maker.side.beyond e.price taker.limitPrice = false
  leMaker : e.qty ≤ maker.remaining
  leTaker : e.qty ≤ taker.remaining
  orders : s'.orders =
    (s.orders.set (toOrderId e.makerOrderId) (maker.fill e.qty)).set takerId (taker.fill e.qty)
  moves : Moves s.users s'.users (tradeDelta maker taker e)

/-- Between two executions: the table agrees with `resting`, and the taker has `remaining` left. -/
structure Settling (s : Impl) (takerId user : Nat) (side : Side) (price : Price)
    (resting : Nat → Option (Resting Qty)) (remaining : Qty) : Prop where
  accounts : Accounts s.users s.orders
  unused : ∀ o, s.orders[0]? = some o → o.active = false
  others : ∀ id, id ≠ takerId → s.table id = resting id
  taker : ∃ o, s.orders[takerId]? = some o ∧ o.user = user ∧ o.side = side ∧
    o.limitPrice = price ∧ o.remaining = remaining

theorem toOrderId_valid {id : Int} (valid : Engine.validId id = true) :
    toOrderId id = id.toNat ∧ id.toNat < 1000000 := by
  obtain ⟨nonneg, below⟩ := LimitOrderBook.validId_iff.mp valid
  have below : id.toNat < 1000000 := below
  refine ⟨?_, below⟩
  rw [toOrderId, BitVec.toNat_ofInt]
  omega

theorem Accounts.fillOrder {s : Impl} (accounts : Accounts s.users s.orders) {id : Nat}
    {o : LiveOrder} (found : s.orders[id]? = some o) (active : o.active = true) {traded : Qty}
    (enough : traded ≤ o.remaining) :
    Accounts (s.fillOrder id traded).users (s.fillOrder id traded).orders := by
  obtain ⟨orders, moves⟩ := fillOrder_found s found traded
  have member := List.mem_of_getElem? found
  have accurate := accounts.accurate o member
  rw [orders]
  refine accounts.replace found moves (accurate.fill enough) ?_ ?_ ?_
  · rw [LiveOrder.fill_user]
    exact fun _ => accounts.owned o member active
  · intro v
    by_cases mine : v = o.user
    · cases isBid : o.isBid <;>
        simp [LiveOrder.quoteOf, LiveOrder.fill_lockedQuote, Delta.only, Delta.unlock,
          LiveOrder.side, mine, isBid, sub_eq_add_neg, add_comm]
    · simp [LiveOrder.quoteOf, Delta.only, mine, Ne.symm mine]
  · intro v
    by_cases mine : v = o.user
    · cases isBid : o.isBid <;>
        simp [LiveOrder.baseOf, LiveOrder.fill_lockedBase, Delta.only, Delta.unlock,
          LiveOrder.side, mine, isBid, sub_eq_add_neg, add_comm]
    · simp [LiveOrder.baseOf, Delta.only, mine, Ne.symm mine]

theorem settleDelta_locks (maker taker : LiveOrder) (traded : Qty) (notional : Money) (v : Nat) :
    (settleDelta maker taker traded notional v).lockedQuote = 0 ∧
      (settleDelta maker taker traded notional v).lockedBase = 0 := by
  unfold settleDelta
  split <;> simp [only_lockedQuote, only_lockedBase, Delta.buys, Delta.sells]

theorem refund_locks (o : LiveOrder) (traded : Qty) (notional : Money) :
    (Delta.refund o traded notional).lockedQuote = 0 ∧
      (Delta.refund o traded notional).lockedBase = 0 := by
  unfold Delta.refund
  split <;> exact ⟨rfl, rfl⟩

theorem Accounts.refund {s : Impl} (accounts : Accounts s.users s.orders) (o : LiveOrder)
    (traded : Qty) (notional : Money) :
    Accounts (s.refund o traded notional).users (s.refund o traded notional).orders := by
  rw [refund_orders]
  refine accounts.balances (refund_moves s o traded notional) (fun v => ?_) (fun v => ?_)
  · rw [only_lockedQuote, (refund_locks o traded notional).1, ite_self]
  · rw [only_lockedBase, (refund_locks o traded notional).2, ite_self]

theorem applyExecution_moves {s : Impl} (accounts : Accounts s.users s.orders) {takerId : Nat}
    {e : Execution Qty} {maker taker : LiveOrder}
    (makerAt : s.orders[toOrderId e.makerOrderId]? = some maker)
    (takerAt : s.orders[takerId]? = some taker) (apart : toOrderId e.makerOrderId ≠ takerId)
    (nonzero : toOrderId e.makerOrderId ≠ 0) (makerActive : maker.active = true)
    (takerActive : taker.active = true) (leMaker : e.qty ≤ maker.remaining)
    (leTaker : e.qty ≤ taker.remaining) :
    (s.applyExecution takerId e).orders = (s.orders.set (toOrderId e.makerOrderId)
        (maker.fill e.qty)).set takerId (taker.fill e.qty) ∧
      Moves s.users (s.applyExecution takerId e).users (tradeDelta maker taker e) ∧
      Accounts (s.applyExecution takerId e).users (s.applyExecution takerId e).orders := by
  have inside := (List.getElem?_eq_some_iff.mp makerAt).1
  have guard : ¬(toOrderId e.makerOrderId = 0 ∨ toOrderId e.makerOrderId ≥ s.orders.length) := by
    omega
  unfold Impl.applyExecution
  dsimp only
  rw [if_neg guard, makerAt, takerAt]
  dsimp only
  rw [makerActive, Bool.not_true, if_neg (by decide)]
  let notional := mulMoney e.price e.qty
  let pushed := s.pushTrade e
  let made := pushed.fillOrder (toOrderId e.makerOrderId) e.qty
  let taken := made.fillOrder takerId e.qty
  let settled := taken.settle maker taker e.qty notional
  let refunded := settled.refund taker e.qty notional
  have makerAt' : pushed.orders[toOrderId e.makerOrderId]? = some maker := by
    rw [pushTrade_orders]
    exact makerAt
  obtain ⟨madeOrders, madeMoves⟩ := fillOrder_found pushed makerAt' e.qty
  have takerAt' : made.orders[takerId]? = some taker := by
    rw [madeOrders, List.getElem?_set_ne apart, pushTrade_orders]
    exact takerAt
  obtain ⟨takenOrders, takenMoves⟩ := fillOrder_found made takerAt' e.qty
  have start : Accounts pushed.users pushed.orders := by
    rw [pushTrade_users, pushTrade_orders]
    exact accounts
  have filled := (start.fillOrder makerAt' makerActive leMaker).fillOrder takerAt' takerActive leTaker
  have settles := settle_moves taken maker taker e.qty notional
  have refunds := refund_moves settled taker e.qty notional
  have refunds' := refund_moves refunded maker e.qty notional
  refine ⟨?_, ?_, ?_⟩
  · rw [refund_orders, refund_orders, settle_orders, takenOrders, madeOrders, pushTrade_orders]
  · have all := (((madeMoves.trans takenMoves).trans settles).trans refunds).trans refunds'
    rw [pushTrade_users] at all
    exact all
  · have afterSettle : Accounts settled.users settled.orders := by
      rw [settle_orders]
      exact filled.balances settles
        (fun v => (settleDelta_locks maker taker e.qty notional v).1)
        (fun v => (settleDelta_locks maker taker e.qty notional v).2)
    exact (afterSettle.refund taker e.qty notional).refund maker e.qty notional

theorem Settling.maker {s : Impl} {takerId user : Nat} {side : Side} {price : Price} {id : Nat}
    {resting : Nat → Option (Resting Qty)} {remaining : Qty} {r : Resting Qty}
    (settling : Settling s takerId user side price resting remaining)
    (absent : resting takerId = none) (rests : resting id = some r) :
    ∃ maker, s.orders[id]? = some maker ∧ maker.active = true ∧
      r = ⟨maker.side, maker.limitPrice, maker.remaining⟩ ∧ id ≠ takerId ∧ id ≠ 0 := by
  have apart : id ≠ takerId := by
    rintro rfl
    rw [rests] at absent
    exact absurd absent (by simp)
  have here := settling.others id apart
  rw [rests] at here
  obtain ⟨maker, found, active, rfl⟩ := table_eq_some.mp here
  refine ⟨maker, found, active, rfl, apart, ?_⟩
  rintro rfl
  rw [settling.unused maker found] at active
  exact absurd active (by decide)

theorem Settling.applyExecution {s : Impl} {takerId user : Nat} {side : Side} {price : Price}
    {orderId : Int} {resting : Nat → Option (Resting Qty)} {remaining : Qty}
    (settling : Settling s takerId user side price resting remaining)
    (absent : resting takerId = none) {e : Execution Qty} {r : Resting Qty}
    (fill : Fill Engine side price orderId resting remaining e r) :
    ∃ maker taker, Settles s (s.applyExecution takerId e) takerId e maker taker ∧
      (taker.user = user ∧ taker.side = side ∧ taker.limitPrice = price ∧
        taker.remaining = remaining) ∧
      Settling (s.applyExecution takerId e) takerId user side price
        (Function.update resting e.makerOrderId.toNat (r.take e.qty)) (remaining - e.qty) := by
  obtain ⟨sameId, -⟩ := toOrderId_valid fill.valid
  obtain ⟨maker, makerAt, makerActive, rfl, apart, nonzero⟩ := settling.maker absent fill.rests
  obtain ⟨taker, takerAt, rfl, rfl, rfl, rfl⟩ := settling.taker
  have takerAccurate := settling.accounts.accurate taker (List.mem_of_getElem? takerAt)
  have takerActive : taker.active = true := by
    refine takerAccurate.active.mpr fun zero => ?_
    have le := fill.leTaker
    rw [zero] at le
    exact fill.positive (BitVec.le_zero_iff.mp le)
  rw [← sameId] at makerAt apart nonzero
  obtain ⟨orders, moves, accounts⟩ := applyExecution_moves settling.accounts makerAt takerAt apart
    nonzero makerActive takerActive fill.leMaker fill.leTaker
  have sides : maker.side = taker.side.opposite := fill.side_eq
  have settles : Settles s (s.applyExecution takerId e) takerId e maker taker :=
    ⟨makerAt, takerAt, apart, makerActive, takerActive,
      settling.accounts.owned _ (List.mem_of_getElem? makerAt) makerActive,
      settling.accounts.owned _ (List.mem_of_getElem? takerAt) takerActive, sides,
      fill.price_eq.symm, fill.inRange, by rw [sides]; exact fill.within, fill.leMaker,
      fill.leTaker, orders, moves⟩
  refine ⟨maker, taker, settles, ⟨rfl, rfl, rfl, rfl⟩, accounts, ?_, ?_, ?_⟩
  · intro o first
    rw [orders, List.getElem?_set_ne (fun zero => ?_), List.getElem?_set_ne nonzero] at first
    · exact settling.unused o first
    · subst zero
      rw [settling.unused taker takerAt] at takerActive
      exact absurd takerActive (by decide)
  · intro id different
    rw [Impl.table, orders, List.getElem?_set_ne different.symm, Function.update_apply, ← sameId]
    by_cases here : id = toOrderId e.makerOrderId
    · subst here
      rw [if_pos rfl, List.getElem?_set_self (List.getElem?_eq_some_iff.mp makerAt).1,
        Option.bind_some, LiveOrder.resting_fill makerActive]
    · rw [if_neg here, List.getElem?_set_ne (Ne.symm here)]
      exact settling.others id different
  · refine ⟨taker.fill e.qty, ?_, by simp, by simp, by simp, by simp⟩
    rw [orders, List.getElem?_set_self]
    rw [List.length_set]
    exact (List.getElem?_eq_some_iff.mp takerAt).1

end CppPractice.OrderBook
