import CppPractice.Wrapper.Exchange

set_option autoImplicit false

namespace CppPractice.OrderBook

open Tally (tally)
open LimitOrderBook (Accepts Improves)

def totalQuote (s : Impl) : Money := tally (·.bal.quote) s.users

def depositOf : Op × Reply → Money
  | (.addBalance _ quoteDelta _, .flag true) => quoteDelta
  | _ => 0

-- All deposits since the constructor began: its two seeds and those of the run.
def deposits (log : List (Op × Reply)) : Money := 2 * 10000000 + tally depositOf log

/-- A bid that the wrapper and the engine take, with a limit above the best ask. -/
def PriceImproving (s : Impl) (op : Op) : Prop :=
  ∃ sub, op.submission = some sub ∧ sub.side = .Buy ∧
    s.Admits .Buy sub.user sub.price sub.qty ∧
    Accepts Engine sub.price sub.qty (toInt s.nextOrderId) ∧
    ∃ best, s.engine.bestPrice .Sell = some best ∧ best < sub.price

def gain (side : Side) (price : Price) (e : Execution Qty) : Money :=
  match side with
  | .Buy => mulMoney price e.qty - mulMoney e.price e.qty
  | .Sell => 0

theorem sum_of_user (user : Nat) (amount : Money) {n : Nat} (inside : user < n) :
    ∑ v ∈ Finset.range n, (if v = user then amount else 0) = amount := by
  rw [Finset.sum_ite_eq', if_pos (Finset.mem_range.mpr inside)]

theorem Settles.totalQuote {s s' : Impl} {takerId : Nat} {e : Execution Qty}
    {maker taker : LiveOrder} (settles : Settles s s' takerId e maker taker) :
    totalQuote s' = totalQuote s + gain taker.side taker.limitPrice e := by
  obtain ⟨bid, ask, exchange⟩ := settles.exchange
  have owned : bid.user < s.users.length ∧ ask.user < s.users.length := by
    rcases exchange.roles with ⟨rfl, rfl⟩ | ⟨rfl, rfl, -⟩
    · exact ⟨settles.takerOwned, settles.makerOwned⟩
    · exact ⟨settles.makerOwned, settles.takerOwned⟩
  have total := settles.moves.tally (·.bal.quote) (·.quote) plus_quote
  simp only [exchange.quote, Finset.sum_add_distrib, Finset.sum_sub_distrib,
    sum_of_user _ _ owned.1, sum_of_user _ _ owned.2, sub_self, zero_add] at total
  rw [OrderBook.totalQuote, total, OrderBook.totalQuote]
  congr 1
  rcases exchange.roles with ⟨rfl, rfl⟩ | ⟨rfl, rfl, atLimit⟩
  · rw [LiveOrder.side, exchange.isBid]
    rfl
  · rw [LiveOrder.side, exchange.isAsk, atLimit, sub_self]
    rfl

theorem gain_nonneg {side : Side} {price : Price} {e : Execution Qty}
    (within : side.opposite.beyond e.price price = false) : 0 ≤ gain side price e := by
  cases side with
  | Buy =>
    have limit : e.price ≤ price := by simpa [Side.opposite, Side.beyond] using within
    exact sub_nonneg.mpr (mulMoney_le limit e.qty)
  | Sell => exact le_refl _

theorem gain_eq_zero {side : Side} {price : Price} {e : Execution Qty} (positive : e.qty ≠ 0)
    (within : side.opposite.beyond e.price price = false) :
    gain side price e = 0 ↔ (side = .Buy → ¬Improves side e.price price) := by
  cases side with
  | Buy =>
    have some : (e.qty.toNat : Int) ≠ 0 := Int.natCast_ne_zero.mpr (LimitOrderBook.toNat_ne_zero positive)
    rw [gain, mulMoney, mulMoney, ← Int.sub_mul, Int.mul_eq_zero, or_iff_left some, sub_eq_zero]
    simp [Improves, within, eq_comm]
  | Sell => simp [gain]

theorem gains_eq_zero {side : Side} {price : Price} {execs : List (Execution Qty)}
    (each : ∀ e ∈ execs, side.opposite.beyond e.price price = false ∧ e.qty ≠ 0) :
    tally (gain side price) execs = 0 ↔
      (side = .Buy → ¬∃ e ∈ execs, Improves side e.price price) := by
  constructor
  · rintro zero isBuy ⟨e, member, improves⟩
    have all := List.all_zero_of_le_zero_le_of_sum_eq_zero (l := execs.map (gain side price))
      (by
        intro amount inside
        obtain ⟨e, member, rfl⟩ := List.mem_map.mp inside
        exact gain_nonneg (each e member).1)
      zero (List.mem_map.mpr ⟨e, member, rfl⟩)
    exact (gain_eq_zero (each e member).2 (each e member).1).mp all isBuy improves
  · intro never
    refine Tally.tally_zero fun e member => ?_
    refine (gain_eq_zero (each e member).2 (each e member).1).mpr fun isBuy improves => ?_
    exact never isBuy ⟨e, member, improves⟩

theorem cancelled_totalQuote (s : Impl) (user id : Nat) (o : LiveOrder) :
    totalQuote (s.cancelled user id o) = totalQuote s := by
  have total := (Moves.modify s.users user (release_eq · o)).tally (·.bal.quote) (·.quote)
    plus_quote
  simp only [only_quote, (Delta.release_balances o).1, ite_self, Finset.sum_const_zero, add_zero] at total
  exact total

theorem opened_totalQuote (s : Impl) (side : Side) (user : Nat) (price : Price) (qty : Qty) :
    totalQuote (s.opened side user price qty) = totalQuote s := by
  have moves : Moves s.users (s.opened side user price qty).users _ := opened_moves
  have total := moves.tally (·.bal.quote) (·.quote) plus_quote
  simp only [only_quote, (Delta.lock_balances side price qty).1, ite_self, Finset.sum_const_zero,
    add_zero] at total
  exact total

theorem submit_totalQuote {s s' : Impl} (synced : Synced s) {sub : Submission}
    {reply : Option Nat} (submitted : s.submits sub = some (s', reply)) :
    totalQuote s' = totalQuote s ↔
      ¬(sub.side = .Buy ∧ s.Admits .Buy sub.user sub.price sub.qty ∧
        Accepts Engine sub.price sub.qty (toInt s.nextOrderId) ∧
        ∃ best, s.engine.bestPrice .Sell = some best ∧ best < sub.price) := by
  rcases submit_cases synced submitted with ⟨refused, -, rfl⟩ | ⟨admits, room, ⟨rejects, -, rfl⟩ |
    ⟨accepts, sameId, -, outcome, after, remaining, -, processed, rfl⟩⟩
  · refine iff_of_true rfl ?_
    rintro ⟨isBuy, admits, -⟩
    exact refused (by rw [isBuy]; exact admits)
  · exact iff_of_true rfl fun improving => rejects improving.2.2.1
  · have total := acceptOrder_rule synced admits room sameId processed sub.discardUnfilled
      (J := fun execs t => totalQuote t = totalQuote s + tally (gain sub.side sub.price) execs)
      (P := fun t =>
        totalQuote t = totalQuote s + tally (gain sub.side sub.price) outcome.executions)
      (fun _ _ => (opened_totalQuote s sub.side sub.user sub.price sub.qty).trans (by simp))
      (by
        rintro execs t e maker taker total settles ⟨-, sameSide, samePrice⟩
        rw [settles.totalQuote, total, sameSide, samePrice]
        simp [add_assoc])
      (fun _ total _ _ => total)
      (fun t o total _ _ _ => (cancelled_totalQuote t sub.user s.nextOrderId o).trans total)
    rw [total, add_eq_left, gains_eq_zero processed.fills.each, processed.improves]
    cases side : sub.side with
    | Sell => simp
    | Buy =>
      rw [side] at admits
      have improving (best : Int) : Improves .Buy best sub.price ↔ best < sub.price := by
        simp only [Improves, Side.opposite, Side.beyond, decide_eq_false_iff_not]
        omega
      simp only [forall_const, improving, admits, sameId, accepts, true_and, Side.opposite]

theorem step_totalQuote {s s' : Impl} (synced : Synced s) {op : Op} {reply : Reply}
    (stepped : step s op = some (s', reply)) :
    totalQuote s' = totalQuote s + depositOf (op, reply) ↔ ¬PriceImproving s op := by
  have trades (none : op.submission = none) : ¬PriceImproving s op := by
    rintro ⟨sub, some, -⟩
    rw [none] at some
    exact absurd some (by simp)
  rcases step_cases stepped with ⟨name, rfl, rfl, rfl⟩ |
    ⟨user, quoteDelta, baseDelta, rfl, rfl, rfl⟩ | ⟨sub, result, submission, submitted, rfl⟩ |
    ⟨user, id, isBid, rfl, rfl, rfl⟩ | ⟨same, none, rfl, -⟩
  · refine iff_of_true ?_ (trades rfl)
    unfold Impl.makeUser
    split <;> simp [totalQuote, depositOf]
  · refine iff_of_true ?_ (trades rfl)
    rcases addBalance_cases s user quoteDelta baseDelta with ⟨-, same⟩ | ⟨u, users, found, done, moves⟩
    · rw [same]
      simp [depositOf]
    · rw [done]
      have total := moves.tally (·.bal.quote) (·.quote) plus_quote
      have inside := (List.getElem?_eq_some_iff.mp found.1).1
      simp only [only_quote, sum_of_user _ _ inside] at total
      exact total
  · have nothing : depositOf (op, .order result) = 0 := by
      cases op <;> rfl
    rw [nothing, add_zero, submit_totalQuote synced submitted, PriceImproving]
    simp only [submission, Option.some.injEq, exists_eq_left']
  · refine iff_of_true ?_ (trades (by cases isBid <;> rfl))
    have nothing : depositOf (if isBid then .cancelBid user id else .cancelAsk user id,
        .flag (s.cancel user id isBid).2) = 0 := by
      cases isBid <;> rfl
    rw [nothing, add_zero]
    exact cancel_rule synced (P := fun t => totalQuote t = totalQuote s) rfl
      fun o _ => cancelled_totalQuote s user id o
  · refine iff_of_true ?_ (trades none)
    have nothing : depositOf (op, .unit) = 0 := by
      cases op <;> rfl
    rw [totalQuote, same.users, nothing, add_zero, totalQuote]

theorem quote_conserved_iff (ops : List Op) :
    (∀ front s log, front <+: ops → Runs.run step new front = some (s, log) →
        totalQuote s = deposits log) ↔
      ∀ front op s log next, front ++ [op] <+: ops → Runs.run step new front = some (s, log) →
        step s op = some next → ¬PriceImproving s op := by
  refine Runs.always_iff (P := fun log s => totalQuote s = deposits log)
    (Q := fun s op => ¬PriceImproving s op) (by decide +kernel) ?_
  intro front s log op s' reply ran total stepped
  rw [← step_totalQuote (run_synced ran) stepped, total, deposits, deposits, Tally.tally_append,
    Tally.tally_cons, Tally.tally_nil, add_zero, add_assoc]

-- A bid at 150.60 for ten shares, while sixty are on offer at 150.50.
def improvingOps : List Op :=
  [.makeUser "carol", .addBalance 2 10000000 0, .addBid 2 15060 10]

theorem quote_not_conserved :
    ¬∀ ops s log, Runs.run step new ops = some (s, log) → totalQuote s = deposits log := by
  intro conserved
  have value : (Runs.run step new improvingOps).map
      (fun result => (totalQuote result.1, deposits result.2)) = some (30000100, 30000000) := by
    decide +kernel
  obtain ⟨⟨s, log⟩, ran, same⟩ := Option.map_eq_some_iff.mp value
  obtain ⟨total, deposited⟩ := Prod.mk.inj same
  have := conserved improvingOps s log ran
  rw [total, deposited] at this
  exact absurd this (by decide)

end CppPractice.OrderBook
