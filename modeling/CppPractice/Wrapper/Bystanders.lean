import CppPractice.Engine.InPlace
import CppPractice.Wrapper.Executions
import CppPractice.Wrapper.Shares

set_option autoImplicit false

namespace CppPractice.OrderBook

open Tally (tally)
open LimitOrderBook (Accepts InPlace Processed)

def Op.caller : Op → Option Nat
  | .cancelBid user _ => some user
  | .cancelAsk user _ => some user
  | op => op.submission.map (·.user)

theorem caller_cases {op : Op} {a : Nat} (caller : op.caller = some a) :
    (∃ sub, op.submission = some sub ∧ sub.user = a) ∨
      ∃ id isBid, op.submission = none ∧ ∀ s : Impl,
        step s op = some ((s.cancel a id isBid).1, .flag (s.cancel a id isBid).2) := by
  cases op with
  | cancelBid user id =>
    obtain rfl := Option.some.inj caller
    exact Or.inr ⟨id, true, rfl, fun _ => rfl⟩
  | cancelAsk user id =>
    obtain rfl := Option.some.inj caller
    exact Or.inr ⟨id, false, rfl, fun _ => rfl⟩
  | _ => exact Or.inl (Option.map_eq_some_iff.mp caller)

def Impl.filled (s : Impl) (v : Nat) (isBid : Bool) (execs : List (Execution Qty)) :
    List (Execution Qty) :=
  execs.filter fun e =>
    (s.orders[toOrderId e.makerOrderId]?).any fun o => decide (o.user = v ∧ o.isBid = isBid)

def Impl.makerLimit (s : Impl) (e : Execution Qty) : Price :=
  (s.orders[toOrderId e.makerOrderId]?).elim 0 (·.limitPrice)

structure OwnFills (s : Impl) (v : Nat) (execs : List (Execution Qty)) (u u' : User) : Prop where
  quote : u'.bal.quote = u.bal.quote +
    tally (fun e => mulMoney e.price e.qty) (s.filled v false execs) -
    tally (fun e => mulMoney (s.makerLimit e) e.qty) (s.filled v true execs)
  base : u'.bal.base = u.bal.base + tally (·.qty) (s.filled v true execs) -
    tally (·.qty) (s.filled v false execs)
  lockedQuote : u'.lockedQuote = u.lockedQuote -
    tally (fun e => mulMoney (s.makerLimit e) e.qty) (s.filled v true execs)
  lockedBase : u'.lockedBase = u.lockedBase - tally (·.qty) (s.filled v false execs)

def Delta.makerFill (isBid : Bool) (e : Execution Qty) : Delta :=
  let notional := mulMoney e.price e.qty
  if isBid then { quote := -notional, base := e.qty, lockedQuote := -notional }
  else { quote := notional, base := -e.qty, lockedBase := -e.qty }

theorem Settles.makerFill {s s' : Impl} {takerId : Nat} {e : Execution Qty}
    {maker taker : LiveOrder} (settles : Settles s s' takerId e maker taker) {v : Nat}
    (other : v ≠ taker.user) :
    tradeDelta maker taker e v = if v = maker.user then Delta.makerFill maker.isBid e else 0 := by
  have refund : Delta.refund maker e.qty (mulMoney e.price e.qty) = 0 := by
    rw [Delta.refund, settles.price, sub_self]
    exact if_neg fun gains => lt_irrefl _ gains.2
  have nothing (d : Delta) : d.only taker.user v = 0 := if_neg other
  by_cases mine : v = maker.user
  · have whole (d : Delta) : d.only maker.user v = d := if_pos mine
    rw [if_pos mine]
    cases isBid : maker.isBid <;>
      simp only [tradeDelta, settleDelta, Delta.makerFill, isBid, refund, nothing, whole,
        LiveOrder.side, settles.price, Bool.false_eq_true, if_false, if_true] <;>
      ext <;> simp [Delta.unlock, Delta.buys, Delta.sells]
  · have none (d : Delta) : d.only maker.user v = 0 := if_neg mine
    rw [if_neg mine]
    cases isBid : maker.isBid <;>
      simp only [tradeDelta, settleDelta, isBid, nothing, none, Bool.false_eq_true, if_false,
        if_true] <;>
      ext <;> simp

def LiveOrder.label (o : LiveOrder) : Nat × Bool × Price := (o.user, o.isBid, o.limitPrice)

theorem LiveOrder.fill_label (o : LiveOrder) (traded : Qty) : (o.fill traded).label = o.label := by
  rw [label, fill_user, fill_isBid, fill_limitPrice, label]

structure Passing (s t : Impl) (id v : Nat) (u : User) (execs : List (Execution Qty)) : Prop where
  account : ∃ u', t.users[v]? = some u' ∧ OwnFills s v execs u u'
  labels : ∀ other, other ≠ id →
    (t.orders[other]?).map LiveOrder.label = (s.orders[other]?).map LiveOrder.label
  records : ∀ other o, other ≠ id → s.orders[other]? = some o →
    (∀ e ∈ execs, toOrderId e.makerOrderId ≠ other) → t.orders[other]? = some o

theorem Passing.maker {s t t' : Impl} {id v : Nat} {u : User} {execs : List (Execution Qty)}
    {e : Execution Qty} {maker taker : LiveOrder} (passing : Passing s t id v u execs)
    (settles : Settles t t' id e maker taker) :
    ∃ o, s.orders[toOrderId e.makerOrderId]? = some o ∧ o.user = maker.user ∧
      o.isBid = maker.isBid ∧ o.limitPrice = maker.limitPrice := by
  have same := passing.labels _ settles.apart
  rw [settles.makerAt, Option.map_some] at same
  obtain ⟨o, found, labels⟩ := Option.map_eq_some_iff.mp same.symm
  obtain ⟨owner, kind, limit⟩ : o.user = maker.user ∧ o.isBid = maker.isBid ∧
      o.limitPrice = maker.limitPrice := by
    simpa [LiveOrder.label] using labels
  exact ⟨o, found, owner, kind, limit⟩

theorem OwnFills.settle {s t t' : Impl} {id v : Nat} {u u' : User} {execs : List (Execution Qty)}
    {e : Execution Qty} {maker taker o : LiveOrder} (fills : OwnFills s v execs u u')
    (settles : Settles t t' id e maker taker)
    (found : s.orders[toOrderId e.makerOrderId]? = some o) (owner : o.user = maker.user)
    (kind : o.isBid = maker.isBid) (limit : o.limitPrice = maker.limitPrice)
    (other : v ≠ taker.user) :
    OwnFills s v (execs ++ [e]) u (u'.plus (tradeDelta maker taker e v)) := by
  have paid : s.makerLimit e = e.price := by
    rw [Impl.makerLimit, found]
    exact limit.trans settles.price
  have grown (isBid : Bool) : s.filled v isBid (execs ++ [e]) = s.filled v isBid execs ++
      if maker.user = v ∧ maker.isBid = isBid then [e] else [] := by
    rw [Impl.filled, List.filter_append, List.filter_singleton, found, Option.any_some, owner, kind]
    by_cases here : maker.user = v ∧ maker.isBid = isBid <;> simp [here, Impl.filled]
  rw [settles.makerFill other]
  by_cases mine : maker.user = v
  · rw [if_pos mine.symm]
    cases isBid : maker.isBid
    · constructor <;>
        simp [grown, mine, isBid, Delta.makerFill, fills.quote, fills.base, fills.lockedQuote,
          fills.lockedBase] <;> ring
    · constructor <;>
        simp [grown, mine, isBid, Delta.makerFill, fills.quote, fills.base, fills.lockedQuote,
          fills.lockedBase, paid] <;> ring
  · rw [if_neg (Ne.symm mine), plus_zero]
    constructor <;> simp [grown, mine, fills.quote, fills.base, fills.lockedQuote, fills.lockedBase]

theorem Passing.settle {s t t' : Impl} {id v : Nat} {u : User} {execs : List (Execution Qty)}
    {e : Execution Qty} {maker taker : LiveOrder} (passing : Passing s t id v u execs)
    (settles : Settles t t' id e maker taker) (other : v ≠ taker.user) :
    Passing s t' id v u (execs ++ [e]) where
  account := by
    obtain ⟨u', found, fills⟩ := passing.account
    obtain ⟨o, at_maker, owner, kind, limit⟩ := passing.maker settles
    exact ⟨_, by rw [settles.moves, found, Option.map_some],
      fills.settle settles at_maker owner kind limit other⟩
  labels other different :=
    (settles.map_orders _ LiveOrder.fill_label different).trans (passing.labels other different)
  records other o different found unnamed := by
    have kept := passing.records other o different found fun e member =>
      unnamed e (List.mem_append_left _ member)
    have apart := unnamed e (List.mem_append_right _ (by simp))
    rw [settles.orders, List.getElem?_set_ne (Ne.symm different), List.getElem?_set_ne apart, kept]

theorem Passing.refl (s : Impl) (id : Nat) {v : Nat} {u : User} (found : s.users[v]? = some u) :
    Passing s s id v u [] where
  account := ⟨u, found, ⟨by simp [Impl.filled], by simp [Impl.filled], by simp [Impl.filled],
    by simp [Impl.filled]⟩⟩
  labels _ _ := rfl
  records _ _ _ found _ := found

theorem Passing.opened {s : Impl} (synced : Synced s) {v user : Nat} {u : User}
    (found : s.users[v]? = some u) (other : v ≠ user) (side : Side) (price : Price) (qty : Qty) :
    Passing s (s.opened side user price qty) s.nextOrderId v u [] where
  account := by
    obtain ⟨u', same, fills⟩ := (Passing.refl s 0 found).account
    obtain rfl := Option.some.inj (found.symm.trans same)
    refine ⟨u, ?_, fills⟩
    rw [opened_moves, found, Option.map_some, Delta.only, if_neg other, plus_zero]
  labels _ different := congrArg _ (opened_others synced different)
  records _ _ different found _ := (opened_others synced different).trans found

theorem Passing.cancelled {s t : Impl} {id v user : Nat} {u : User} {execs : List (Execution Qty)}
    (passing : Passing s t id v u execs) (other : v ≠ user) (o : LiveOrder) :
    Passing s (t.cancelled user id o) id v u execs where
  account := by
    obtain ⟨u', found, fills⟩ := passing.account
    have moves : Moves t.users (t.cancelled user id o).users ((Delta.release o).only user) :=
      Moves.modify _ _ (release_eq · o)
    refine ⟨u', ?_, fills⟩
    rw [moves, found, Option.map_some, Delta.only, if_neg other, plus_zero]
  labels other different := by
    rw [Impl.cancelled, List.getElem?_set_ne (Ne.symm different)]
    exact passing.labels other different
  records other o different found unnamed := by
    rw [Impl.cancelled, List.getElem?_set_ne (Ne.symm different)]
    exact passing.records other o different found unnamed

structure Bystander (s s' : Impl) (v : Nat) (u u' : User) (execs : List (Execution Qty)) :
    Prop where
  fills : OwnFills s v execs u u'
  available : u'.bal.quote - u'.lockedQuote = u.bal.quote - u.lockedQuote +
    tally (fun e => mulMoney e.price e.qty) (s.filled v false execs)
  noLess : u.bal.quote - u.lockedQuote ≤ u'.bal.quote - u'.lockedQuote
  availableBase : u'.bal.base - u'.lockedBase = u.bal.base - u.lockedBase +
    tally (·.qty) (s.filled v true execs)
  records : ∀ id o, s.orders[id]? = some o → o.user = v →
    (∀ e ∈ execs, toOrderId e.makerOrderId ≠ id) → s'.orders[id]? = some o
  resting : ∀ side level, ∀ o ∈ s.engine.ordersAt side level, s.owner o.id = some v →
    (∀ e ∈ execs, e.makerOrderId ≠ o.id) → o ∈ s'.engine.ordersAt side level
  places : ∀ side level,
    (s'.engine.idsAt side level).filter (fun id => decide (id ∈ s.engine.idsAt side level)) =
      (s.engine.idsAt side level).filter fun id => decide (id ∈ s'.engine.idsAt side level)

theorem Passing.bystander {s s' : Impl} {id v : Nat} {u : User} {execs : List (Execution Qty)}
    {named : List Int} (passing : Passing s s' id v u execs)
    (engine : InPlace s.engine s'.engine named)
    (apart : ∀ o, s.orders[id]? = some o → o.user ≠ v)
    (unnamed : ∀ id, s.owner id = some v → (∀ e ∈ execs, e.makerOrderId ≠ id) → id ∉ named)
    (prices : ∀ e ∈ execs, 0 ≤ e.price) :
    ∃ u', s'.users[v]? = some u' ∧ Bystander s s' v u u' execs := by
  obtain ⟨u', found, fills⟩ := passing.account
  have available : u'.bal.quote - u'.lockedQuote = u.bal.quote - u.lockedQuote +
      tally (fun e => mulMoney e.price e.qty) (s.filled v false execs) := by
    rw [fills.quote, fills.lockedQuote]
    ring
  have gains : 0 ≤ tally (fun e => mulMoney e.price e.qty) (s.filled v false execs) := by
    refine List.sum_nonneg fun amount inside => ?_
    obtain ⟨e, member, rfl⟩ := List.mem_map.mp inside
    exact Int.mul_nonneg (prices e (List.mem_filter.mp member).1) (Int.natCast_nonneg _)
  refine ⟨u', found, fills, available, by linarith, ?_, ?_, ?_, engine.places⟩
  · rw [fills.base, fills.lockedBase]
    ring
  · intro other o found mine others
    have different : other ≠ id := by
      rintro rfl
      exact apart o found mine
    exact passing.records other o different found others
  · intro side level o member owner others
    exact engine.orders side level o member (unnamed o.id owner others)

section

variable {s s' : Impl} {v : Nat} {u : User}

theorem Synced.inPlace (synced : Synced s) (engine : s'.engine = s.engine) :
    InPlace s.engine s'.engine [] := by
  obtain ⟨free, queue, rep⟩ := synced.represents
  rw [engine]
  exact (LimitOrderBook.Narrowed.refl s.engine).inPlace rep

theorem quiet_bystander (s' : Impl) (synced : Synced s) (found : s.users[v]? = some u)
    (engine : s'.engine = s.engine) (users : s'.users = s.users)
    (orders : ∀ (id : Nat) (o : LiveOrder), s.orders[id]? = some o → s'.orders[id]? = some o) :
    s'.users[v]? = some u ∧ Bystander s s' v u u [] := by
  have none (isBid : Bool) : s.filled v isBid [] = [] := rfl
  have inPlace := synced.inPlace engine
  refine ⟨by rw [users, found], ⟨?_, ?_, ?_, ?_⟩, ?_, le_refl _, ?_, ?_, ?_, inPlace.places⟩
  · simp [none]
  · simp [none]
  · simp [none]
  · simp [none]
  · simp [none]
  · simp [none]
  · exact fun id o found _ _ => orders id o found
  · exact fun side level o member _ _ => inPlace.orders side level o member (by simp)

theorem accepted_bystander (synced : Synced s) (found : s.users[v]? = some u) {sub : Submission}
    (other : v ≠ sub.user) (admits : s.Admits sub.side sub.user sub.price sub.qty)
    (room : s.nextOrderId + 1 < 2 ^ 32) (sameId : toInt s.nextOrderId = s.nextOrderId)
    (accepts : Accepts Engine sub.price sub.qty s.nextOrderId)
    {outcome : LimitOrderBook.Outcome Engine} {after : Nat → Option (Resting Qty)} {remaining : Qty}
    (processed :
      s.engine.processOrder sub.side sub.price sub.qty s.nextOrderId = some outcome)
    (spec : Processed s.engine sub.side sub.price sub.qty s.nextOrderId outcome after remaining)
    (ends : s' = { s.opened sub.side sub.user sub.price sub.qty with
      engine := outcome.book }.acceptOrder sub.side sub.user s.nextOrderId sub.discardUnfilled
        outcome.executions) :
    ∃ u', s'.users[v]? = some u' ∧ Bystander s s' v u u' outcome.executions := by
  obtain ⟨free, queue, rep⟩ := synced.represents
  have absent : s.engine.resting ((s.nextOrderId : Int)).toNat = none := synced.fresh
  have inPlace := LimitOrderBook.processOrder_inPlace rep accepts absent processed
  have unused (o : LiveOrder) (found : s.orders[s.nextOrderId]? = some o) : o.user ≠ v := by
    rw [← synced.length, List.getElem?_eq_none (le_refl _)] at found
    exact absurd found (by simp)
  have unnamed (id : Int) (_ : s.owner id = some v)
      (others : ∀ e ∈ outcome.executions, e.makerOrderId ≠ id) :
      id ∉ outcome.executions.map Execution.makerOrderId := by
    intro member
    obtain ⟨e, inside, same⟩ := List.mem_map.mp member
    exact others e inside same
  have prices (e : Execution Qty) (member : e ∈ outcome.executions) : 0 ≤ e.price := by
    obtain ⟨_, _, _, _, -, fill⟩ := spec.fills.member member
    exact le_trans (by decide) (LimitOrderBook.inRange_iff.mp fill.inRange).1
  obtain ⟨t, passing, syncedT, book, next, ⟨-, same⟩ | ⟨-, -, o, cancels, same⟩⟩ :=
    accepted_rule synced admits room sameId spec sub.discardUnfilled
      (J := fun execs t => Passing s t s.nextOrderId v u execs)
      (fun book stats =>
        have opened := Passing.opened synced found other sub.side sub.price sub.qty
        ⟨opened.account, opened.labels, opened.records⟩)
      (fun execs t e maker taker passing settles same =>
        passing.settle settles (by rw [same.1]; exact other))
  all_goals
    rw [ends, same]
    rw [← book] at inPlace
  · have counted : Passing s t.countAccepted s.nextOrderId v u outcome.executions :=
      ⟨passing.account, passing.labels, passing.records⟩
    exact counted.bystander inPlace unused unnamed prices
  · have cancelled := passing.cancelled other o
    have counted : Passing s (t.cancelled sub.user s.nextOrderId o).countAccepted s.nextOrderId v u
        outcome.executions := ⟨cancelled.account, cancelled.labels, cancelled.records⟩
    obtain ⟨free', queue', rep'⟩ := syncedT.represents
    have discarded := inPlace.cancel rep rep' absent
    rw [← sameId] at discarded
    exact counted.bystander discarded unused unnamed prices

theorem submit_bystander (synced : Synced s) (found : s.users[v]? = some u) {op : Op}
    {sub : Submission} (submission : op.submission = some sub) (other : v ≠ sub.user)
    {reply : Option Nat} (submitted : s.submits sub = some (s', reply)) :
    ∃ u', s'.users[v]? = some u' ∧ Bystander s s' v u u' (s.executions op) ∧
      (reply = none → s.executions op = [] ∧ u' = u) := by
  rcases submit_cases synced submitted with ⟨refused, -, rfl⟩ | ⟨admits, room, ⟨rejects, -, rfl⟩ |
    ⟨accepts, sameId, answer, outcome, after, remaining, processed, spec, ends⟩⟩
  · rw [executions_refused submission refused]
    obtain ⟨after, bystander⟩ := quiet_bystander s.counted synced found rfl rfl
      fun _ _ found => found
    exact ⟨u, after, bystander, fun _ => ⟨rfl, rfl⟩⟩
  · rw [executions_rejected submission rejects]
    obtain ⟨after, bystander⟩ :=
      quiet_bystander (s.rejected sub.side sub.user sub.price sub.qty) synced found rfl rfl
        fun _ _ => rejected_older
    exact ⟨u, after, bystander, fun _ => ⟨rfl, rfl⟩⟩
  · rw [executions_accepted submission admits (by rw [sameId]; exact processed)]
    obtain ⟨u', touched, bystander⟩ :=
      accepted_bystander synced found other admits room sameId accepts processed spec ends
    exact ⟨u', touched, bystander, fun refused => absurd (answer.symm.trans refused) (by simp)⟩

theorem cancel_bystander (synced : Synced s) (found : s.users[v]? = some u) {user : Nat}
    (other : v ≠ user) (id : Nat) (isBid : Bool) :
    (s.cancel user id isBid).1.users[v]? = some u ∧
      Bystander s (s.cancel user id isBid).1 v u u [] := by
  rcases cancel_cases synced user id isBid with ⟨-, same⟩ | ⟨o, cancels, done⟩
  · rw [same]
    exact quiet_bystander _ synced found rfl rfl fun _ _ found => found
  · rw [done]
    obtain ⟨at_id, active, rfl, -⟩ := cancels
    obtain ⟨-, small, sameId⟩ := synced.activeId at_id active
    obtain ⟨free, queue, rep⟩ := synced.represents
    obtain ⟨u', after, bystander⟩ := ((Passing.refl s id found).cancelled other o).bystander
      (LimitOrderBook.cancel_inPlace rep (toInt id)) (fun o' same mine => by
        obtain rfl := Option.some.inj (at_id.symm.trans same)
        exact other mine.symm) (fun named owner _ member => by
        obtain rfl := List.mem_singleton.mp member
        rw [Impl.owner, sameId, toOrderId, BitVec.ofInt_natCast, BitVec.toNat_ofNat,
          Nat.mod_eq_of_lt (by omega), at_id] at owner
        exact other (Option.some.inj owner).symm) (by simp)
    have same : u' = u := by
      have moves : Moves s.users (s.cancelled o.user id o).users ((Delta.release o).only o.user) :=
        Moves.modify _ _ (release_eq · o)
      rw [moves, found, Option.map_some, Delta.only, if_neg other, plus_zero] at after
      exact (Option.some.inj after).symm
    rw [same] at after bystander
    exact ⟨after, bystander⟩

theorem step_bystander {op : Op} {reply : Reply} {a : Nat} (synced : Synced s)
    (found : s.users[v]? = some u) (caller : op.caller = some a) (other : v ≠ a)
    (stepped : step s op = some (s', reply)) :
    ∃ u', s'.users[v]? = some u' ∧ Bystander s s' v u u' (s.executions op) ∧
      (op.submission = none ∨ reply = .order none → s.executions op = [] ∧ u' = u) := by
  rcases caller_cases caller with ⟨sub, submission, rfl⟩ | ⟨id, isBid, none, cancels⟩
  · rw [step_submission submission, Option.map_eq_some_iff] at stepped
    obtain ⟨⟨t, result⟩, submitted, same⟩ := stepped
    obtain ⟨rfl, rfl⟩ := Prod.mk.inj same
    obtain ⟨u', after, bystander, refused⟩ := submit_bystander synced found submission other submitted
    refine ⟨u', after, bystander, ?_⟩
    rintro (none | same)
    · exact absurd (submission.symm.trans none) (by simp)
    · exact refused (Reply.order.inj same)
  · obtain ⟨rfl, -⟩ := Prod.mk.inj (Option.some.inj ((cancels s).symm.trans stepped))
    rw [executions_none none]
    obtain ⟨after, bystander⟩ := cancel_bystander synced found other id isBid
    exact ⟨u, after, bystander, fun _ => ⟨rfl, rfl⟩⟩

end

theorem bystanders_fair (ops : List Op) (few : submissions ops < 2 ^ 31) :
    ∃ s log, Runs.run step new ops = some (s, log) ∧
      ∀ op a, op.caller = some a → ∃ s' reply, step s op = some (s', reply) ∧
        ∀ v u, v ≠ a → s.users[v]? = some u →
          ∃ u', s'.users[v]? = some u' ∧ Bystander s s' v u u' (s.executions op) ∧
            (op.submission = none ∨ reply = .order none → s.executions op = [] ∧ u' = u) := by
  obtain ⟨s, log, ran, synced, bound⟩ := run_defined few
  refine ⟨s, log, ran, fun op a caller => ?_⟩
  obtain ⟨s', reply, stepped⟩ := step_defined synced (by omega) op
  exact ⟨s', reply, stepped, fun v u other found =>
    step_bystander synced found caller other stepped⟩

theorem bystanders_fair_mixedOps :
    ∃ s log, Runs.run step new mixedOps = some (s, log) ∧
      ∀ op a, op.caller = some a → ∃ s' reply, step s op = some (s', reply) ∧
        ∀ v u, v ≠ a → s.users[v]? = some u →
          ∃ u', s'.users[v]? = some u' ∧ Bystander s s' v u u' (s.executions op) ∧
            (op.submission = none ∨ reply = .order none → s.executions op = [] ∧ u' = u) :=
  bystanders_fair mixedOps (by decide)

end CppPractice.OrderBook
