import CppPractice.Wrapper.Bystanders
import CppPractice.Wrapper.Lifetimes

set_option autoImplicit false

namespace CppPractice.OrderBook

open Tally (tally)
open LimitOrderBook (Processed)

def Impl.getBalance (s : Impl) (user : Nat) : Balance :=
  match s.users[user]? with
  | none => {}
  | some u => u.bal

def Impl.label (s : Impl) (id : Nat) : Option (Nat × Bool × Price) :=
  (s.orders[id]?).map LiveOrder.label

structure Deal where
  buyer : Nat
  limit : Price
  seller : Nat

def Impl.deal (s : Impl) (takerId : Nat) (e : Execution Qty) : Option Deal :=
  match s.label takerId, s.label (toOrderId e.makerOrderId) with
  | some (taker, true, limit), some (maker, _, _) => some ⟨taker, limit, maker⟩
  | some (taker, false, _), some (maker, _, limit) => some ⟨maker, limit, taker⟩
  | _, _ => none

-- The buyer pays the execution price and is then credited what it saved on its limit.
def Deal.cash (d : Deal) (e : Execution Qty) (v : Nat) : Money :=
  let cost := mulMoney e.price e.qty
  (if v = d.seller then cost else 0) - (if v = d.buyer then cost else 0) +
    (if v = d.buyer then mulMoney d.limit e.qty - cost else 0)

def Deal.shares (d : Deal) (e : Execution Qty) (v : Nat) : Qty :=
  (if v = d.buyer then e.qty else 0) - (if v = d.seller then e.qty else 0)

def Impl.cashOf (s : Impl) (v takerId : Nat) (e : Execution Qty) : Money :=
  (s.deal takerId e).elim 0 fun d => d.cash e v

def Impl.sharesOf (s : Impl) (v takerId : Nat) (e : Execution Qty) : Qty :=
  (s.deal takerId e).elim 0 fun d => d.shares e v

section

variable {s t t' : Impl} {takerId : Nat} {e : Execution Qty} {execs : List (Execution Qty)}

theorem deal_congr (taker : t.label takerId = s.label takerId)
    (maker : t.label (toOrderId e.makerOrderId) = s.label (toOrderId e.makerOrderId)) :
    t.deal takerId e = s.deal takerId e := by
  rw [Impl.deal, taker, maker, Impl.deal]

theorem getBalance_moves {users : List User} {delta : Nat → Delta}
    (moves : Moves s.users users delta) (users_eq : t.users = users)
    (absent : ∀ v, s.users[v]? = none → (delta v).quote = 0 ∧ (delta v).base = 0) (v : Nat) :
    (t.getBalance v).quote = (s.getBalance v).quote + (delta v).quote ∧
      (t.getBalance v).base = (s.getBalance v).base + (delta v).base := by
  rw [Impl.getBalance, Impl.getBalance, users_eq, moves]
  cases found : s.users[v]? with
  | none => simp [absent v found]
  | some u => simp

structure Paid (s t : Impl) (takerId : Nat) (execs : List (Execution Qty)) : Prop where
  labels : t.label = s.label
  quote : ∀ v, (t.getBalance v).quote =
    (s.getBalance v).quote + tally (s.cashOf v takerId) execs
  base : ∀ v, (t.getBalance v).base =
    (s.getBalance v).base + tally (s.sharesOf v takerId) execs

theorem Settles.deal {maker taker : LiveOrder} (settles : Settles s t takerId e maker taker) :
    ∃ d, s.deal takerId e = some d ∧ d.buyer < s.users.length ∧ d.seller < s.users.length ∧
      ∀ v, (tradeDelta maker taker e v).quote = d.cash e v ∧
        (tradeDelta maker taker e v).base = d.shares e v := by
  obtain ⟨bid, ask, exchange⟩ := settles.exchange
  refine ⟨⟨bid.user, bid.limitPrice, ask.user⟩, ?_, ?_, ?_, fun v => ⟨exchange.quote v,
    exchange.base v⟩⟩
  · rw [Impl.deal, Impl.label, Impl.label, settles.takerAt, settles.makerAt]
    rcases exchange.roles with ⟨rfl, rfl⟩ | ⟨rfl, rfl, -⟩
    · simp [LiveOrder.label, exchange.isBid]
    · simp [LiveOrder.label, exchange.isAsk]
  · rcases exchange.roles with ⟨rfl, rfl⟩ | ⟨rfl, rfl, -⟩
    · exact settles.takerOwned
    · exact settles.makerOwned
  · rcases exchange.roles with ⟨rfl, rfl⟩ | ⟨rfl, rfl, -⟩
    · exact settles.makerOwned
    · exact settles.takerOwned

theorem Paid.settle {maker taker : LiveOrder} (paid : Paid s t takerId execs)
    (settles : Settles t t' takerId e maker taker) : Paid s t' takerId (execs ++ [e]) := by
  obtain ⟨d, deal, buyer, seller, moved⟩ := settles.deal
  have deal' : s.deal takerId e = some d := by
    rw [← deal, deal_congr (congrFun paid.labels _) (congrFun paid.labels _)]
  have amounts := getBalance_moves (t := t') settles.moves rfl fun v absent => by
    have outside := List.getElem?_eq_none_iff.mp absent
    rw [(moved v).1, (moved v).2, Deal.cash, Deal.shares, if_neg (by omega), if_neg (by omega),
      if_neg (by omega), if_neg (by omega), if_neg (by omega)]
    simp
  refine ⟨?_, fun v => ?_, fun v => ?_⟩
  · rw [← paid.labels]
    funext id
    by_cases here : id = takerId
    · subst here
      have inside := (List.getElem?_eq_some_iff.mp settles.takerAt).1
      rw [Impl.label, Impl.label, settles.takerAt, settles.orders,
        List.getElem?_set_self (by simpa using inside), Option.map_some, Option.map_some,
        LiveOrder.fill_label]
    · exact settles.map_orders _ LiveOrder.fill_label here
  · rw [(amounts v).1, paid.quote, (moved v).1, Tally.tally_append, Tally.tally_cons,
      Tally.tally_nil, Impl.cashOf, deal', Option.elim_some]
    ring
  · rw [(amounts v).2, paid.base, (moved v).2, Tally.tally_append, Tally.tally_cons,
      Tally.tally_nil, Impl.sharesOf, deal', Option.elim_some]
    ring

end

def depositFor (v : Nat) : Op × Reply → Delta
  | (.addBalance user quoteDelta baseDelta, .flag true) =>
    (Delta.deposit quoteDelta baseDelta).only user v
  | _ => 0

structure Flows (s s' : Impl) (entry : Op × Reply) (execs : List (Execution Qty)) : Prop where
  labels : ∀ id < s.orders.length, s'.label id = s.label id
  quote : ∀ v, (s'.getBalance v).quote = (s.getBalance v).quote + (depositFor v entry).quote +
    tally (fun e => s'.cashOf v (toOrderId e.takerOrderId) e) execs
  base : ∀ v, (s'.getBalance v).base = (s.getBalance v).base + (depositFor v entry).base +
    tally (fun e => s'.sharesOf v (toOrderId e.takerOrderId) e) execs

section

variable {s s' t : Impl} {op : Op} {reply : Reply}

theorem Flows.quiet (labels : ∀ id < s.orders.length, s'.label id = s.label id)
    (balances : ∀ v, s'.getBalance v = s.getBalance v) (deposit : ∀ v, depositFor v (op, reply) = 0)
    (silent : s.executions op = []) : Flows s s' (op, reply) (s.executions op) := by
  refine ⟨labels, fun v => ?_, fun v => ?_⟩
  · rw [balances, deposit, silent]
    simp
  · rw [balances, deposit, silent]
    simp

theorem getBalance_congr (users : t.users = s.users) (v : Nat) : t.getBalance v = s.getBalance v := by
  rw [Impl.getBalance, Impl.getBalance, users]

theorem getBalance_locks {users : List User} {d : Delta} {user : Nat}
    (moves : Moves s.users users (d.only user)) (users_eq : t.users = users)
    (still : d.quote = 0 ∧ d.base = 0) (v : Nat) : t.getBalance v = s.getBalance v := by
  have zero (v : Nat) : (d.only user v).quote = 0 ∧ (d.only user v).base = 0 := by
    rw [only_quote, only_base, still.1, still.2, ite_self, ite_self]
    exact ⟨rfl, rfl⟩
  obtain ⟨quote, base⟩ := getBalance_moves moves users_eq (fun v _ => zero v) v
  rw [(zero v).1, add_zero] at quote
  rw [(zero v).2, add_zero] at base
  cases before : s.getBalance v
  cases after : t.getBalance v
  rw [before, after] at quote base
  simp_all

theorem depositFor_submission {sub : Submission} (submission : op.submission = some sub)
    (reply : Reply) (v : Nat) : depositFor v (op, reply) = 0 := by
  cases op <;> first | rfl | simp [Op.submission] at submission

theorem opened_label (synced : Synced s) {side : Side} {user : Nat} {price : Price} {qty : Qty}
    {id : Nat} (inside : id < s.orders.length) :
    (s.opened side user price qty).label id = s.label id := by
  rw [Impl.label, opened_others synced (by rw [← synced.length]; omega), Impl.label]

theorem Paid.flows {sub : Submission} {execs : List (Execution Qty)} {entry : Op × Reply} {u : Impl}
    (synced : Synced s)
    (paid : Paid (s.opened sub.side sub.user sub.price sub.qty) t s.nextOrderId execs)
    (ours : ∀ e ∈ execs, toOrderId e.takerOrderId = s.nextOrderId)
    (deposit : ∀ v, depositFor v entry = 0) (labels : u.label = t.label)
    (balances : ∀ v, u.getBalance v = t.getBalance v) : Flows s u entry execs := by
  have before (v : Nat) : (s.opened sub.side sub.user sub.price sub.qty).getBalance v =
      s.getBalance v :=
    getBalance_locks opened_moves rfl (Delta.lock_balances _ _ _) v
  have same (e : Execution Qty) (member : e ∈ execs) : u.deal (toOrderId e.takerOrderId) e =
      (s.opened sub.side sub.user sub.price sub.qty).deal s.nextOrderId e := by
    rw [ours e member, deal_congr] <;> rw [labels, paid.labels]
  refine ⟨fun id inside => ?_, fun v => ?_, fun v => ?_⟩
  · rw [labels, paid.labels, opened_label synced inside]
  · rw [balances, paid.quote, before, deposit, Delta.zero_quote, add_zero, tally, tally]
    exact congrArg (_ + List.sum ·) (List.map_congr_left fun e member => by
      rw [Impl.cashOf, Impl.cashOf, same e member])
  · rw [balances, paid.base, before, deposit, Delta.zero_base, add_zero, tally, tally]
    exact congrArg (_ + List.sum ·) (List.map_congr_left fun e member => by
      rw [Impl.sharesOf, Impl.sharesOf, same e member])

theorem cancelled_label {user id : Nat} {isBid : Bool} {o : LiveOrder}
    (cancels : t.Cancels user id isBid o) : (t.cancelled user id o).label = t.label := by
  funext other
  by_cases here : other = id
  · subst here
    have inside := (List.getElem?_eq_some_iff.mp cancels.1).1
    rw [Impl.label, Impl.label, Impl.cancelled, List.getElem?_set_self inside, cancels.1]
    rfl
  · rw [Impl.label, Impl.label, Impl.cancelled, List.getElem?_set_ne (Ne.symm here)]

theorem cancelled_balance (user id : Nat) (o : LiveOrder) (v : Nat) :
    (t.cancelled user id o).getBalance v = t.getBalance v :=
  getBalance_locks (Moves.modify _ _ (release_eq · o)) rfl (Delta.release_balances o) v

theorem submit_flows (synced : Synced s) {sub : Submission} {result : Option Nat}
    (submission : op.submission = some sub) (submitted : s.submits sub = some (s', result)) :
    Flows s s' (op, .order result) (s.executions op) := by
  have deposit := depositFor_submission submission (.order result)
  rcases submit_cases synced submitted with ⟨refused, -, rfl⟩ | ⟨admits, room, ⟨rejects, -, rfl⟩ |
    ⟨-, sameId, -, outcome, after, remaining, answered, processed, rfl⟩⟩
  · exact .quiet (fun _ _ => rfl) (getBalance_congr rfl) deposit
      (executions_refused submission refused)
  · refine .quiet (fun id inside => ?_) (getBalance_congr rfl) deposit
      (executions_rejected submission rejects)
    rw [Impl.label, Impl.rejected, List.getElem?_append_left inside, Impl.label]
  · rw [← sameId] at answered
    rw [executions_accepted submission admits answered]
    have ours (e : Execution Qty) (member : e ∈ outcome.executions) :
        toOrderId e.takerOrderId = s.nextOrderId := (accepted_named synced processed.fills member).1
    refine acceptOrder_rule synced admits room sameId processed sub.discardUnfilled
      (J := fun execs t => Paid (s.opened sub.side sub.user sub.price sub.qty) t s.nextOrderId execs)
      (P := fun t => Flows s t (op, .order result) outcome.executions) ?_ ?_ ?_ ?_
    · exact fun book stats => ⟨rfl, fun v => (add_zero _).symm, fun v => (add_zero _).symm⟩
    · exact fun execs t e maker taker paid settles _ => paid.settle settles
    · exact fun t paid _ _ => paid.flows synced ours deposit rfl (getBalance_congr rfl)
    · exact fun t o paid _ _ cancels => paid.flows synced ours deposit (cancelled_label cancels)
        (cancelled_balance sub.user s.nextOrderId o)

theorem step_flows (synced : Synced s) (stepped : step s op = some (s', reply)) :
    Flows s s' (op, reply) (s.executions op) := by
  rcases step_cases stepped with ⟨name, rfl, rfl, rfl⟩ |
    ⟨user, quoteDelta, baseDelta, rfl, rfl, rfl⟩ | ⟨sub, result, submission, submitted, rfl⟩ |
    ⟨user, id, isBid, rfl, rfl, rfl⟩ | ⟨same, none, rfl, other⟩
  · refine .quiet (fun id _ => ?_) (fun v => ?_) (fun _ => rfl) (executions_none rfl)
    · unfold Impl.makeUser
      split <;> rfl
    · unfold Impl.makeUser
      split
      · rfl
      · -- The new user has what a missing one has.
        simp only [Impl.getBalance]
        rcases Nat.lt_trichotomy v s.users.length with below | rfl | above
        · rw [List.getElem?_append_left below]
        · simp
        · rw [List.getElem?_eq_none (Nat.le_of_lt above),
            List.getElem?_eq_none (by rw [List.length_append]; exact above)]
  · have silent : s.executions (.addBalance user quoteDelta baseDelta) = [] := executions_none rfl
    rcases addBalance_cases s user quoteDelta baseDelta with ⟨-, same⟩ | ⟨u, users, found, done, moves⟩
    · rw [same]
      exact .quiet (fun _ _ => rfl) (fun _ => rfl) (fun _ => rfl) silent
    · have amounts := getBalance_moves (t := { s with users := users }) moves rfl fun v absent => by
        have apart : v ≠ user := by
          rintro rfl
          rw [found.1] at absent
          exact absurd absent (by simp)
        rw [only_quote, only_base, if_neg apart, if_neg apart]
        exact ⟨rfl, rfl⟩
      rw [done, silent]
      exact ⟨fun _ _ => rfl, fun v => by rw [(amounts v).1]; simp [depositFor],
        fun v => by rw [(amounts v).2]; simp [depositFor]⟩
  · exact submit_flows synced submission submitted
  · have silent : s.executions (if isBid then .cancelBid user id else .cancelAsk user id) = [] :=
      executions_none (by cases isBid <;> rfl)
    have deposit (v : Nat) (reply : Reply) :
        depositFor v (if isBid then .cancelBid user id else .cancelAsk user id, reply) = 0 := by
      cases isBid <;> rfl
    rcases cancel_cases synced user id isBid with ⟨-, same⟩ | ⟨o, cancels, done⟩
    · rw [same]
      exact .quiet (fun _ _ => rfl) (getBalance_congr rfl) (deposit · _) silent
    · rw [done]
      exact .quiet (fun _ _ => by rw [cancelled_label cancels]) (cancelled_balance _ _ o)
        (deposit · _) silent
  · refine .quiet (fun id _ => by rw [Impl.label, same.orders, Impl.label])
      (getBalance_congr same.users) (fun v => ?_) (executions_none none)
    cases op <;> rfl

end

def seedFor (v : Nat) : Delta := if v < 2 then Delta.deposit 10000000 10000 else 0

structure Explained (s : Impl) (log : List (Op × Reply)) (execs : List (Execution Qty)) : Prop where
  quote : ∀ v, (s.getBalance v).quote = (seedFor v).quote +
    tally (fun entry => (depositFor v entry).quote) log +
    tally (fun e => s.cashOf v (toOrderId e.takerOrderId) e) execs
  base : ∀ v, (s.getBalance v).base = (seedFor v).base +
    tally (fun entry => (depositFor v entry).base) log +
    tally (fun e => s.sharesOf v (toOrderId e.takerOrderId) e) execs

theorem Explained.step {s s' : Impl} {log : List (Op × Reply)} {execs more : List (Execution Qty)}
    {entry : Op × Reply} (explained : Explained s log execs)
    (named : ∀ e ∈ execs, toOrderId e.takerOrderId < s.orders.length ∧
      toOrderId e.makerOrderId < s.orders.length) (flows : Flows s s' entry more) :
    Explained s' (log ++ [entry]) (execs ++ more) := by
  -- The labels of old orders stay, and with them who bought and who sold.
  have same (e : Execution Qty) (member : e ∈ execs) :
      s'.deal (toOrderId e.takerOrderId) e = s.deal (toOrderId e.takerOrderId) e :=
    deal_congr (flows.labels _ (named e member).1) (flows.labels _ (named e member).2)
  have cash (v : Nat) : tally (fun e => s'.cashOf v (toOrderId e.takerOrderId) e) execs =
      tally (fun e => s.cashOf v (toOrderId e.takerOrderId) e) execs :=
    congrArg List.sum (List.map_congr_left fun e member => by
      rw [Impl.cashOf, Impl.cashOf, same e member])
  have shares (v : Nat) : tally (fun e => s'.sharesOf v (toOrderId e.takerOrderId) e) execs =
      tally (fun e => s.sharesOf v (toOrderId e.takerOrderId) e) execs :=
    congrArg List.sum (List.map_congr_left fun e member => by
      rw [Impl.sharesOf, Impl.sharesOf, same e member])
  refine ⟨fun v => ?_, fun v => ?_⟩
  · rw [flows.quote, explained.quote, Tally.tally_append, Tally.tally_append, cash]
    simp only [Tally.tally_cons, Tally.tally_nil]
    ring
  · rw [flows.base, explained.base, Tally.tally_append, Tally.tally_append, shares]
    simp only [Tally.tally_cons, Tally.tally_nil]
    ring

theorem run_explained {ops : List Op} {s : Impl} {log : List (Op × Reply)}
    (ran : Runs.run step new ops = some (s, log)) : Explained s log (executionsOf new ops) := by
  have seeds (v : Nat) : new.getBalance v = ⟨(seedFor v).quote, (seedFor v).base⟩ := by
    rcases Nat.lt_or_ge v 2 with seeded | other
    · have each : ∀ v < 2, new.getBalance v = ⟨(seedFor v).quote, (seedFor v).base⟩ := by
        decide +kernel
      exact each v seeded
    · have users : new.users.length = 2 := by decide +kernel
      rw [Impl.getBalance, List.getElem?_eq_none (by omega), seedFor, if_neg (by omega)]
      rfl
  have whole : (∀ e ∈ executionsOf new ops, toOrderId e.takerOrderId < s.nextOrderId ∧
      toOrderId e.makerOrderId < s.nextOrderId) ∧ Explained s log (executionsOf new ops) := by
    refine Runs.run_traced Impl.executions
      (P := fun execs log s => (∀ e ∈ execs, toOrderId e.takerOrderId < s.nextOrderId ∧
        toOrderId e.makerOrderId < s.nextOrderId) ∧ Explained s log execs) ?_ ?_ ran
    · refine ⟨by simp, fun v => ?_, fun v => ?_⟩
      · rw [seeds, Tally.tally_nil, Tally.tally_nil, add_zero, add_zero]
      · rw [seeds, Tally.tally_nil, Tally.tally_nil, add_zero, add_zero]
    · rintro front s execs log op s' reply early ⟨named, explained⟩ stepped
      have synced := run_synced early
      have grows := (step_nextOrderId synced stepped).1
      refine ⟨fun e member => ?_,
        explained.step (by rwa [synced.length]) (step_flows synced stepped)⟩
      rcases List.mem_append.mp member with old | new
      · have := named e old
        omega
      · exact (step_lived synced stepped).named e new
  exact whole.2

theorem balances_explained (ops : List Op) (few : submissions ops < 2 ^ 31) :
    ∃ s log, Runs.run step new ops = some (s, log) ∧ Explained s log (executionsOf new ops) := by
  obtain ⟨s, log, ran, -⟩ := run_defined few
  exact ⟨s, log, ran, run_explained ran⟩

theorem balances_explained_mixedOps :
    ∃ s log, Runs.run step new mixedOps = some (s, log) ∧
      Explained s log (executionsOf new mixedOps) :=
  balances_explained mixedOps (by decide)

end CppPractice.OrderBook
