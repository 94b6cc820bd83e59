import CppPractice.Wrapper.Consistency
import CppPractice.Wrapper.Executions

set_option autoImplicit false

namespace CppPractice.OrderBook

open Tally (tally)
open LimitOrderBook (Processed)

def tradedBy (id : Nat) (e : Execution Qty) : Nat :=
  if toOrderId e.takerOrderId = id ∨ toOrderId e.makerOrderId = id then e.qty.toNat else 0

-- The submission's order is not to rest and still has units left after its executions.
def Impl.Discards (s : Impl) (sub : Submission) : Prop :=
  sub.discardUnfilled = true ∧ s.Admits sub.side sub.user sub.price sub.qty ∧
    ∃ outcome ∈ s.engine.processOrder sub.side sub.price sub.qty (toInt s.nextOrderId),
      ∃ o ∈ (s.settled sub outcome.book outcome.executions).orders[s.nextOrderId]?,
        outcome.ok = true ∧ o.active = true

instance (s : Impl) (sub : Submission) : Decidable (s.Discards sub) :=
  inferInstanceAs (Decidable (_ ∧ _ ∧ _))

def Impl.withdraws (s : Impl) (op : Op) : List Nat :=
  match op with
  | .cancelBid user id => if (s.cancel user id true).2 then [id] else []
  | .cancelAsk user id => if (s.cancel user id false).2 then [id] else []
  | op => (op.submission).elim [] fun sub => if s.Discards sub then [s.nextOrderId] else []

/-- Order `id` goes from `qty` units to `left` units through executions and withdrawals. -/
structure Spends (id : Nat) (execs : List (Execution Qty)) (withdrawn : List Nat)
    (qty left : Qty) : Prop where
  within : tally (tradedBy id) execs + left.toNat ≤ qty.toNat
  kept : id ∉ withdrawn → tally (tradedBy id) execs + left.toNat = qty.toNat
  withdrawn : id ∈ withdrawn → left = 0

section

variable {id : Nat} {execs execs' : List (Execution Qty)} {withdrawn withdrawn' : List Nat}
variable {qty left left' : Qty}

theorem Spends.unnamed (unnamed : tally (tradedBy id) execs = 0) (kept : id ∉ withdrawn)
    (qty : Qty) : Spends id execs withdrawn qty qty :=
  ⟨by omega, fun _ => by omega, fun inside => absurd inside kept⟩

theorem Spends.append (first : Spends id execs withdrawn qty left)
    (second : Spends id execs' withdrawn' left left') :
    Spends id (execs ++ execs') (withdrawn ++ withdrawn') qty left' where
  within := by
    have := first.within
    have := second.within
    rw [Tally.tally_append]
    omega
  kept none := by
    rw [List.mem_append, not_or] at none
    have := first.kept none.1
    have := second.kept none.2
    rw [Tally.tally_append]
    omega
  withdrawn some := by
    rcases List.mem_append.mp some with early | late
    · have bound := second.within
      have zero : (0 : Qty).toNat = 0 := rfl
      rw [first.withdrawn early, zero] at bound
      exact BitVec.eq_of_toNat_eq (by rw [zero]; omega)
    · exact second.withdrawn late

theorem tradedBy_zero (positive : ∀ e ∈ execs, e.qty ≠ 0) (none : tally (tradedBy id) execs = 0)
    {e : Execution Qty} (member : e ∈ execs) :
    toOrderId e.takerOrderId ≠ id ∧ toOrderId e.makerOrderId ≠ id := by
  rw [← not_or]
  intro named
  have part := Tally.le_tally (f := tradedBy id) member
  rw [none, tradedBy, if_pos named, Nat.le_zero] at part
  exact positive e member (BitVec.eq_of_toNat_eq part)

end

section

variable {s t t' : Impl} {user : Nat} {side : Side} {price : Price} {qty : Qty}

theorem toOrderId_natCast {id : Nat} (bounded : id < 2 ^ 32) : toOrderId id = id := by
  rw [toOrderId, BitVec.ofInt_natCast, BitVec.toNat_ofNat, Nat.mod_eq_of_lt bounded]

def tradedIn (takerId id : Nat) (e : Execution Qty) : Nat :=
  if takerId = id ∨ toOrderId e.makerOrderId = id then e.qty.toNat else 0

def Spent (opened t : Impl) (takerId : Nat) (execs : List (Execution Qty)) : Prop :=
  ∀ (id : Nat) (o : LiveOrder), opened.orders[id]? = some o →
    ∃ o', t.orders[id]? = some o' ∧
      tally (tradedIn takerId id) execs + o'.remaining.toNat = o.remaining.toNat

theorem Spent.settle {opened : Impl} {takerId : Nat} {execs : List (Execution Qty)}
    {e : Execution Qty} {maker taker : LiveOrder} (spent : Spent opened t takerId execs)
    (settles : Settles t t' takerId e maker taker) : Spent opened t' takerId (execs ++ [e]) := by
  intro id o found
  obtain ⟨o', now, left⟩ := spent id o found
  rw [Tally.tally_append, Tally.tally_cons, Tally.tally_nil, Nat.add_zero, settles.orders, tradedIn]
  have apart := settles.apart
  have filled {o : LiveOrder} (enough : e.qty ≤ o.remaining) :
      (o.fill e.qty).remaining.toNat = o.remaining.toNat - e.qty.toNat := by
    rw [LiveOrder.fill_remaining, BitVec.toNat_sub_of_le enough]
  by_cases isTaker : takerId = id
  · subst isTaker
    obtain rfl := Option.some.inj (settles.takerAt.symm.trans now)
    have enough := BitVec.le_def.mp settles.leTaker
    have inside := (List.getElem?_eq_some_iff.mp now).1
    refine ⟨_, List.getElem?_set_self (by rw [List.length_set]; exact inside), ?_⟩
    rw [if_pos (Or.inl rfl), filled settles.leTaker]
    omega
  · rw [List.getElem?_set_ne isTaker]
    by_cases isMaker : toOrderId e.makerOrderId = id
    · subst isMaker
      obtain rfl := Option.some.inj (settles.makerAt.symm.trans now)
      have enough := BitVec.le_def.mp settles.leMaker
      have inside := (List.getElem?_eq_some_iff.mp now).1
      refine ⟨_, List.getElem?_set_self inside, ?_⟩
      rw [if_pos (Or.inr rfl), filled settles.leMaker]
      omega
    · rw [List.getElem?_set_ne isMaker, if_neg (by simp [isTaker, isMaker])]
      exact ⟨o', now, left⟩

section

variable {opened : Impl} {takerId : Nat} {execs : List (Execution Qty)} {id : Nat} {o : LiveOrder}

theorem Spent.keep (spent : Spent opened t takerId execs)
    (taker : ∀ e ∈ execs, toOrderId e.takerOrderId = takerId) (found : opened.orders[id]? = some o) :
    ∃ o', t.orders[id]? = some o' ∧ Spends id execs [] o.remaining o'.remaining := by
  have traded : tally (tradedIn takerId id) execs = tally (tradedBy id) execs := by
    refine congrArg List.sum (List.map_congr_left fun e member => ?_)
    rw [tradedIn, tradedBy, taker e member]
  obtain ⟨o', now, sum⟩ := spent id o found
  rw [traded] at sum
  exact ⟨o', now, le_of_eq sum, fun _ => sum, by simp⟩

theorem Spent.discard (spent : Spent opened t takerId execs)
    (taker : ∀ e ∈ execs, toOrderId e.takerOrderId = takerId) (found : opened.orders[id]? = some o)
    (rest : LiveOrder) :
    ∃ o', (t.orders.set takerId rest.close)[id]? = some o' ∧
      Spends id execs [takerId] o.remaining o'.remaining := by
  obtain ⟨o', now, spends⟩ := spent.keep taker found
  have sum := spends.kept (by simp)
  by_cases here : id = takerId
  · subst here
    have inside := (List.getElem?_eq_some_iff.mp now).1
    have nothing : rest.close.remaining.toNat = 0 := rfl
    exact ⟨rest.close, List.getElem?_set_self inside, by omega, by simp, fun _ => rfl⟩
  · rw [List.getElem?_set_ne (Ne.symm here)]
    exact ⟨o', now, le_of_eq sum, fun _ => sum, by simp [here]⟩

end

structure Lived (s s' : Impl) (op : Op) : Prop where
  older : ∀ (id : Nat) (o : LiveOrder), s.orders[id]? = some o → ∃ o', s'.orders[id]? = some o' ∧
    Spends id (s.executions op) (s.withdraws op) o.remaining o'.remaining
  positive : ∀ e ∈ s.executions op, e.qty ≠ 0
  named : ∀ e ∈ s.executions op,
    toOrderId e.takerOrderId < s'.nextOrderId ∧ toOrderId e.makerOrderId < s'.nextOrderId
  withdrawn : ∀ id ∈ s.withdraws op, id < s'.nextOrderId

theorem Lived.quiet {s s' : Impl} {op : Op} (executions : s.executions op = [])
    (withdraws : s.withdraws op = [])
    (orders : ∀ (id : Nat) (o : LiveOrder), s.orders[id]? = some o → s'.orders[id]? = some o) :
    Lived s s' op where
  older id o found := by
    rw [executions, withdraws]
    exact ⟨o, orders id o found, .unnamed rfl (by simp) _⟩
  positive := by simp [executions]
  named := by simp [executions]
  withdrawn := by simp [withdraws]

theorem withdraws_submission {op : Op} {sub : Submission} (submission : op.submission = some sub)
    (s : Impl) : s.withdraws op = if s.Discards sub then [s.nextOrderId] else [] := by
  cases op <;> simp_all [Op.submission, Impl.withdraws]

theorem accepted_named {s : Impl} (synced : Synced s) {side : Side} {price : Price} {qty : Qty}
    {execs : List (Execution Qty)} {after : Nat → Option (Resting Qty)} {remaining : Qty}
    (fills : Fills Engine side price s.nextOrderId s.engine.resting qty execs after remaining)
    {e : Execution Qty} (member : e ∈ execs) :
    toOrderId e.takerOrderId = s.nextOrderId ∧ toOrderId e.makerOrderId < s.nextOrderId := by
  obtain ⟨_, _, _, _, earlier, fill⟩ := fills.member member
  refine ⟨by rw [fill.takerOrderId, toOrderId_natCast synced.bounded], ?_⟩
  have rests : s.engine.resting e.makerOrderId.toNat ≠ none := fun absent =>
    absurd ((earlier.absent absent).symm.trans fill.rests) (by simp)
  rw [(toOrderId_valid fill.valid).1, ← synced.length]
  by_contra outside
  apply rests
  rw [← synced.table, Impl.table, List.getElem?_eq_none (Nat.le_of_not_lt outside),
    Option.bind_none]

theorem accepted_spends {s f : Impl} {sub : Submission} (synced : Synced s)
    (admits : s.Admits sub.side sub.user sub.price sub.qty)
    (room : s.nextOrderId + 1 < 2 ^ 32) (sameId : toInt s.nextOrderId = s.nextOrderId)
    {outcome : LimitOrderBook.Outcome Engine} {after : Nat → Option (Resting Qty)}
    {remaining : Qty}
    (answered : s.engine.processOrder sub.side sub.price sub.qty s.nextOrderId = some outcome)
    (spec : Processed s.engine sub.side sub.price sub.qty s.nextOrderId outcome after remaining)
    (ends : f = { s.opened sub.side sub.user sub.price sub.qty with
      engine := outcome.book }.acceptOrder sub.side sub.user s.nextOrderId sub.discardUnfilled
        outcome.executions) :
    f.nextOrderId = s.nextOrderId + 1 ∧ ∀ (id : Nat) (o : LiveOrder),
      (s.opened sub.side sub.user sub.price sub.qty).orders[id]? = some o →
      ∃ o', f.orders[id]? = some o' ∧ Spends id outcome.executions
        (if s.Discards sub then [s.nextOrderId] else []) o.remaining o'.remaining := by
  obtain ⟨settling, book, next, lengths, spent⟩ := opened_settles synced admits sameId spec.fills
    (J := fun execs t => Spent (s.opened sub.side sub.user sub.price sub.qty) t s.nextOrderId execs)
    (fun _ id o found => ⟨o, found, by simp⟩)
    (fun _ _ _ _ _ spent settles _ => spent.settle settles) (t := s.settled sub outcome.book
      outcome.executions) rfl
  have ours (e : Execution Qty) (member : e ∈ outcome.executions) :
      toOrderId e.takerOrderId = s.nextOrderId := (accepted_named synced spec.fills member).1
  have bounded := room
  rw [← next] at bounded
  have syncedT := settling.synced spec synced.fresh book lengths bounded
  obtain ⟨taker, found, -, -, -, left⟩ := settling.taker
  have accurate := settling.accounts.accurate taker (List.mem_of_getElem? found)
  rcases settling.accepted syncedT rfl sub.discardUnfilled with ⟨kept, same⟩ |
    ⟨discard, some, o, cancels, same⟩
  · have silent : ¬s.Discards sub := by
      rintro ⟨discard, -, outcome', answered', o', at_id, -, active⟩
      rw [sameId] at answered'
      obtain rfl := Option.some.inj (answered.symm.trans answered')
      obtain rfl := Option.some.inj (found.symm.trans at_id)
      exact kept ⟨discard, by rw [← left]; exact accurate.active.mp active⟩
    rw [if_neg silent, ends, same]
    exact ⟨next, fun id o old => spent.keep ours old⟩
  · have discards : s.Discards sub :=
      ⟨discard, admits, outcome, by rw [sameId]; exact answered, o, cancels.1, spec.ok, cancels.2.1⟩
    rw [if_pos discards, ends, same]
    exact ⟨next, fun id o' old => spent.discard ours old o⟩

theorem submit_lived {s s' : Impl} (synced : Synced s) {op : Op} {sub : Submission}
    (submission : op.submission = some sub) {reply : Option Nat}
    (submitted : s.submits sub = some (s', reply)) :
    Lived s s' op ∧ ∀ id, reply = some id → id = s.nextOrderId ∧ id < s'.nextOrderId ∧
      ∃ o, s'.orders[id]? = some o ∧
        Spends id (s.executions op) (s.withdraws op) sub.qty o.remaining := by
  have withdraws := withdraws_submission submission s
  rcases submit_cases synced submitted with ⟨refused, rfl, rfl⟩ |
    ⟨admits, room, ⟨rejects, rfl, rfl⟩ |
    ⟨accepts, sameId, rfl, outcome, after, remaining, processed, spec, ends⟩⟩
  · rw [if_neg fun discards => refused discards.2.1] at withdraws
    exact ⟨Lived.quiet (executions_refused submission refused) withdraws fun _ _ found => found,
      by simp⟩
  · have silent : ¬s.Discards sub := by
      rintro ⟨-, -, outcome, answered, -, -, ok, -⟩
      rw [LimitOrderBook.processOrder_rejects rejects] at answered
      obtain rfl := Option.some.inj answered
      exact Bool.false_ne_true ok
    rw [if_neg silent] at withdraws
    exact ⟨Lived.quiet (executions_rejected submission rejects) withdraws fun _ _ => rejected_older,
      by simp⟩
  · have executions := executions_accepted submission admits (by rw [sameId]; exact processed)
    obtain ⟨next, spends⟩ := accepted_spends synced admits room sameId processed spec ends
    refine ⟨⟨fun id o found => ?_, fun e member => ?_, fun e member => ?_, fun id inside => ?_⟩, ?_⟩
    · rw [executions, withdraws]
      exact spends id o (opened_older found)
    · rw [executions] at member
      exact (spec.fills.each e member).2
    · rw [executions] at member
      obtain ⟨taker, maker⟩ := accepted_named synced spec.fills member
      rw [next, taker]
      exact ⟨Nat.lt_succ_self _, Nat.lt_succ_of_lt maker⟩
    · rw [withdraws] at inside
      split at inside
      · obtain rfl := List.mem_singleton.mp inside
        rw [next]
        exact Nat.lt_succ_self _
      · exact absurd inside (by simp)
    · rintro id same
      obtain rfl := Option.some.inj same
      have whole : (LiveOrder.fresh sub.side sub.user sub.price sub.qty).remaining = sub.qty := by
        cases sub.side <;> rfl
      obtain ⟨o, now, spent⟩ := spends _ _ (opened_fresh synced)
      rw [executions, withdraws, next]
      rw [whole] at spent
      exact ⟨rfl, Nat.lt_succ_self _, o, now, spent⟩

theorem withdraws_cancel (s : Impl) (user id : Nat) (isBid : Bool) :
    s.withdraws (if isBid then .cancelBid user id else .cancelAsk user id) =
      if (s.cancel user id isBid).2 then [id] else [] := by
  cases isBid <;> rfl

theorem cancel_lived {s : Impl} (synced : Synced s) (user id : Nat) (isBid : Bool) :
    Lived s (s.cancel user id isBid).1 (if isBid then .cancelBid user id else .cancelAsk user id) := by
  have executions : s.executions (if isBid then .cancelBid user id else .cancelAsk user id) = [] :=
    executions_none (by cases isBid <;> rfl)
  have withdraws := withdraws_cancel s user id isBid
  rcases cancel_cases synced user id isBid with ⟨-, same⟩ | ⟨o, cancels, done⟩
  · rw [same] at withdraws ⊢
    exact Lived.quiet executions withdraws fun _ _ found => found
  · rw [done, if_pos rfl] at withdraws
    rw [done]
    have inside := (List.getElem?_eq_some_iff.mp cancels.1).1
    refine ⟨fun other o' found => ?_, by simp [executions], by simp [executions], ?_⟩
    · rw [executions, withdraws]
      by_cases here : other = id
      · subst here
        exact ⟨o.close, List.getElem?_set_self inside, by simp [LiveOrder.close], by simp,
          fun _ => rfl⟩
      · refine ⟨o', ?_, .unnamed rfl (by simp [here]) _⟩
        rw [Impl.cancelled, List.getElem?_set_ne (Ne.symm here), found]
    · rw [withdraws]
      intro other member
      obtain rfl := List.mem_singleton.mp member
      exact lt_of_lt_of_eq inside synced.length

theorem step_lived {s s' : Impl} {op : Op} {reply : Reply} (synced : Synced s)
    (stepped : step s op = some (s', reply)) : Lived s s' op := by
  rcases step_cases stepped with ⟨name, rfl, rfl, -⟩ | ⟨user, quoteDelta, baseDelta, rfl, rfl, -⟩ |
    ⟨sub, result, submission, submitted, -⟩ | ⟨user, id, isBid, rfl, rfl, -⟩ |
    ⟨same, none, rfl, -⟩
  · refine Lived.quiet (executions_none rfl) rfl fun id o found => ?_
    unfold Impl.makeUser
    split <;> exact found
  · refine Lived.quiet (executions_none rfl) rfl fun id o found => ?_
    rcases addBalance_cases s user quoteDelta baseDelta with ⟨-, same⟩ | ⟨u, users, -, done, -⟩
    · rw [same]
      exact found
    · rw [done]
      exact found
  · exact (submit_lived synced submission submitted).1
  · exact cancel_lived synced user id isBid
  · have silent : s.withdraws op = [] := by
      cases op with
      | cancelBid user id => exact absurd (Prod.mk.inj (Option.some.inj stepped)).2 (by simp)
      | cancelAsk user id => exact absurd (Prod.mk.inj (Option.some.inj stepped)).2 (by simp)
      | _ => first | rfl | exact absurd none (by simp [Op.submission])
    exact Lived.quiet (executions_none none) silent fun id o found => by rw [same.orders]; exact found

theorem step_returned {s s' : Impl} {op : Op} {id : Nat} (synced : Synced s)
    (stepped : step s op = some (s', .order (some id))) :
    id = s.nextOrderId ∧ id < s'.nextOrderId ∧ ∀ sub, op.submission = some sub →
      ∃ o, s'.orders[id]? = some o ∧
        Spends id (s.executions op) (s.withdraws op) sub.qty o.remaining := by
  rcases step_cases stepped with ⟨name, -, -, same⟩ | ⟨user, quoteDelta, baseDelta, -, -, same⟩ |
    ⟨sub, result, submission, submitted, same⟩ | ⟨user, id, isBid, -, -, same⟩ | ⟨-, -, same, -⟩
  · exact absurd same (by simp)
  · exact absurd same (by simp)
  · obtain rfl := Reply.order.inj same
    obtain ⟨next, below, o, found, spent⟩ := (submit_lived synced submission submitted).2 id rfl
    refine ⟨next, below, fun sub' submission' => ?_⟩
    obtain rfl := Option.some.inj (submission.symm.trans submission')
    exact ⟨o, found, spent⟩
  · exact absurd same (by simp)
  · exact absurd same (by simp)

theorem step_closed {s s' : Impl} {op : Op} {reply : Reply} {id : Nat} {o : LiveOrder}
    (synced : Synced s) (stepped : step s op = some (s', reply))
    (found : s.orders[id]? = some o) (closed : o.active = false) :
    (∃ o', s'.orders[id]? = some o' ∧ o'.active = false) ∧
      (∀ e ∈ s.executions op, toOrderId e.takerOrderId ≠ id ∧ toOrderId e.makerOrderId ≠ id) ∧
      ∀ user, op = .cancelBid user id ∨ op = .cancelAsk user id → reply = .flag false := by
  have lived := step_lived synced stepped
  have accounts := (step_synced synced stepped).accounts
  obtain ⟨o', now, spent⟩ := lived.older id o found
  have accurate := synced.accounts.accurate o (List.mem_of_getElem? found)
  have zero := (Accounts.lockedQuote_inactive accurate closed).1
  have bound := spent.within
  rw [zero, show (0 : Qty).toNat = 0 from rfl] at bound
  refine ⟨⟨o', now, ?_⟩, fun e member => tradedBy_zero lived.positive (by omega) member, ?_⟩
  · have accurate' := accounts.accurate o' (List.mem_of_getElem? now)
    by_contra active
    refine accurate'.active.mp (by simpa using active) (BitVec.eq_of_toNat_eq ?_)
    rw [show (0 : Engine.Qty).toNat = 0 from rfl]
    omega
  · have refused (user : Nat) (isBid : Bool) : (s.cancel user id isBid).2 = false := by
      rcases cancel_cases synced user id isBid with ⟨-, same⟩ | ⟨o', cancels, -⟩
      · rw [same]
      · obtain rfl := Option.some.inj (found.symm.trans cancels.1)
        exact absurd (closed.symm.trans cancels.2.1) (by decide)
    rintro user (rfl | rfl)
    · exact (Prod.mk.inj (Option.some.inj stepped)).2.symm.trans (congrArg _ (refused user true))
    · exact (Prod.mk.inj (Option.some.inj stepped)).2.symm.trans (congrArg _ (refused user false))

end

def executionsOf (s : Impl) (ops : List Op) : List (Execution Qty) :=
  Runs.trace step Impl.executions s ops

def withdrawalsOf (s : Impl) (ops : List Op) : List Nat := Runs.trace step Impl.withdraws s ops

structure Kept (s : Impl) (execs : List (Execution Qty)) (withdrawn : List Nat)
    (log : List (Op × Reply)) : Prop where
  synced : Synced s
  named : ∀ e ∈ execs,
    toOrderId e.takerOrderId < s.nextOrderId ∧ toOrderId e.makerOrderId < s.nextOrderId
  used : ∀ id ∈ withdrawn, id < s.nextOrderId
  returned : ∀ op id, (op, .order (some id)) ∈ log → id < s.nextOrderId ∧
    ∀ sub, op.submission = some sub →
      ∃ o, s.orders[id]? = some o ∧ Spends id execs withdrawn sub.qty o.remaining

theorem Kept.step {s s' : Impl} {execs : List (Execution Qty)} {withdrawn : List Nat}
    {log : List (Op × Reply)} {op : Op} {reply : Reply} (kept : Kept s execs withdrawn log)
    (stepped : step s op = some (s', reply)) :
    Kept s' (execs ++ s.executions op) (withdrawn ++ s.withdraws op) (log ++ [(op, reply)]) := by
  have lived := step_lived kept.synced stepped
  have later := (step_nextOrderId kept.synced stepped).1
  refine ⟨step_synced kept.synced stepped, fun e member => ?_, fun id member => ?_, ?_⟩
  · rcases List.mem_append.mp member with old | new
    · obtain ⟨taker, maker⟩ := kept.named e old
      exact ⟨lt_of_lt_of_le taker later, lt_of_lt_of_le maker later⟩
    · exact lived.named e new
  · rcases List.mem_append.mp member with old | new
    · exact lt_of_lt_of_le (kept.used id old) later
    · exact lived.withdrawn id new
  · intro op' id member
    rcases List.mem_append.mp member with old | new
    · obtain ⟨below, spent⟩ := kept.returned op' id old
      refine ⟨lt_of_lt_of_le below later, fun sub submission => ?_⟩
      obtain ⟨o, found, early⟩ := spent sub submission
      obtain ⟨o', now, late⟩ := lived.older id o found
      exact ⟨o', now, early.append late⟩
    · obtain ⟨rfl, rfl⟩ := Prod.mk.inj (List.mem_singleton.mp new)
      obtain ⟨rfl, below, spent⟩ := step_returned kept.synced stepped
      refine ⟨below, fun sub submission => ?_⟩
      obtain ⟨o, found, late⟩ := spent sub submission
      -- Nothing has named the new id before.
      have early : Spends s.nextOrderId execs withdrawn sub.qty sub.qty := by
        refine .unnamed (Tally.tally_zero fun e member => if_neg ?_) (fun inside => ?_) _
        · obtain ⟨taker, maker⟩ := kept.named e member
          omega
        · exact absurd (kept.used _ inside) (lt_irrefl _)
      exact ⟨o, found, early.append late⟩

theorem run_kept {ops : List Op} {s : Impl} {log : List (Op × Reply)}
    (ran : Runs.run step new ops = some (s, log)) :
    Kept s (executionsOf new ops) (withdrawalsOf new ops) log := by
  have whole : Kept s (executionsOf new (log.map Prod.fst)) (withdrawalsOf new (log.map Prod.fst))
      log := by
    refine Runs.run_induction (P := fun log s => Kept s (executionsOf new (log.map Prod.fst))
      (withdrawalsOf new (log.map Prod.fst)) log) ?_ ?_ ran
    · exact ⟨new_synced, by simp [executionsOf, Runs.trace], by simp [withdrawalsOf, Runs.trace],
        by simp⟩
    · intro front s log op s' reply early kept stepped
      rw [Runs.run_inputs early] at kept
      rw [List.map_append, List.map_singleton, Runs.run_inputs early, executionsOf, withdrawalsOf,
        Runs.trace_snoc _ early, Runs.trace_snoc _ early]
      exact kept.step stepped
  rwa [Runs.run_inputs ran] at whole

structure Lifetime (o : LiveOrder) (id : Nat) (qty : Qty) (execs : List (Execution Qty))
    (withdrawn : List Nat) : Prop where
  opened : o.active = true → tally (tradedBy id) execs + o.remaining.toNat = qty.toNat
  closed : o.active = false → tally (tradedBy id) execs ≤ qty.toNat
  filled : o.active = false → id ∉ withdrawn → tally (tradedBy id) execs = qty.toNat

theorem Spends.lifetime {o : LiveOrder} {id : Nat} {qty : Qty} {execs : List (Execution Qty)}
    {withdrawn : List Nat} (spends : Spends id execs withdrawn qty o.remaining)
    (accurate : o.Accurate) : Lifetime o id qty execs withdrawn where
  opened active :=
    spends.kept fun inside => accurate.active.mp active (spends.withdrawn inside)
  closed _ := le_trans (Nat.le_add_right _ _) spends.within
  filled closed kept := by
    have sum := spends.kept kept
    rw [(Accounts.lockedQuote_inactive accurate closed).1] at sum
    exact sum

structure Ended (s' : Impl) (id : Nat) (execs : List (Execution Qty)) (log : List (Op × Reply)) :
    Prop where
  closed : ∃ o, s'.orders[id]? = some o ∧ o.active = false
  unnamed : ∀ e ∈ execs, toOrderId e.takerOrderId ≠ id ∧ toOrderId e.makerOrderId ≠ id
  refused : ∀ user reply,
    (.cancelBid user id, reply) ∈ log ∨ (.cancelAsk user id, reply) ∈ log → reply = .flag false

theorem run_ended {s s' : Impl} {ops : List Op} {log : List (Op × Reply)} {id : Nat}
    {o : LiveOrder} (synced : Synced s) (found : s.orders[id]? = some o) (closed : o.active = false)
    (ran : Runs.run step s ops = some (s', log)) : Ended s' id (executionsOf s ops) log := by
  have whole : Synced s' ∧ Ended s' id (executionsOf s (log.map Prod.fst)) log := by
    refine Runs.run_induction
      (P := fun log s' => Synced s' ∧ Ended s' id (executionsOf s (log.map Prod.fst)) log) ?_ ?_ ran
    · exact ⟨synced, ⟨o, found, closed⟩, by simp [executionsOf, Runs.trace], by simp⟩
    · rintro front t log op t' reply early ⟨syncedT, ended⟩ stepped
      obtain ⟨o', now, still⟩ := ended.closed
      obtain ⟨closed', unnamed, refused⟩ := step_closed syncedT stepped now still
      have before := ended.unnamed
      rw [Runs.run_inputs early] at before
      refine ⟨step_synced syncedT stepped, closed', ?_, ?_⟩
      · rw [List.map_append, List.map_singleton, Runs.run_inputs early, executionsOf,
          Runs.trace_snoc _ early]
        intro e member
        rcases List.mem_append.mp member with old | new
        · exact before e old
        · exact unnamed e new
      · intro user reply' member
        simp only [List.mem_append, List.mem_singleton, Prod.mk.injEq] at member
        rcases member with (old | ⟨same, rfl⟩) | old | ⟨same, rfl⟩
        · exact ended.refused user reply' (Or.inl old)
        · exact refused user (Or.inl same.symm)
        · exact ended.refused user reply' (Or.inr old)
        · exact refused user (Or.inr same.symm)
  rw [Runs.run_inputs ran] at whole
  exact whole.2

theorem run_returned {s s' : Impl} {ops : List Op} {log : List (Op × Reply)} (synced : Synced s)
    (ran : Runs.run step s ops = some (s', log)) {op : Op} {id : Nat}
    (returned : (op, .order (some id)) ∈ log) : s.nextOrderId ≤ id := by
  have whole : Synced s' ∧ s.nextOrderId ≤ s'.nextOrderId ∧
      ∀ op id, (op, .order (some id)) ∈ log → s.nextOrderId ≤ id := by
    refine Runs.run_induction (P := fun log s' => Synced s' ∧ s.nextOrderId ≤ s'.nextOrderId ∧
      ∀ op id, (op, .order (some id)) ∈ log → s.nextOrderId ≤ id) ?_ ?_ ran
    · exact ⟨synced, le_refl _, by simp⟩
    · rintro front t log op t' reply early ⟨syncedT, grown, before⟩ stepped
      refine ⟨step_synced syncedT stepped,
        le_trans grown (step_nextOrderId syncedT stepped).1, fun op' id member => ?_⟩
      rcases List.mem_append.mp member with old | new
      · exact before op' id old
      · obtain ⟨rfl, rfl⟩ := Prod.mk.inj (List.mem_singleton.mp new)
        obtain ⟨rfl, -⟩ := step_returned syncedT stepped
        exact grown
  exact whole.2.2 op id returned

/--
Along every run, an order trades its quantity at most, and exactly unless it is withdrawn;
once closed it is closed for good, and its id is never returned again.
-/
theorem lifetimes (ops : List Op) (few : submissions ops < 2 ^ 31) :
    ∃ s log, Runs.run step new ops = some (s, log) ∧
      ∀ op sub id, (op, .order (some id)) ∈ log → op.submission = some sub →
        ∃ o, s.orders[id]? = some o ∧
          Lifetime o id sub.qty (executionsOf new ops) (withdrawalsOf new ops) ∧
          ∀ rest, submissions (ops ++ rest) < 2 ^ 31 →
            ∃ s' log', Runs.run step s rest = some (s', log') ∧
              (∀ op', (op', .order (some id)) ∉ log') ∧
              (o.active = false → Ended s' id (executionsOf s rest) log') := by
  obtain ⟨s, log, ran, synced, -⟩ := run_defined few
  have kept := run_kept ran
  refine ⟨s, log, ran, fun op sub id returned submission => ?_⟩
  obtain ⟨below, spent⟩ := kept.returned op id returned
  obtain ⟨o, found, spends⟩ := spent sub submission
  have accurate := synced.accounts.accurate o (List.mem_of_getElem? found)
  refine ⟨o, found, spends.lifetime accurate, fun rest few' => ?_⟩
  obtain ⟨final, log'', ran', -, -⟩ := run_defined few'
  rw [Runs.run_append, ran, Option.bind_some, Option.map_eq_some_iff] at ran'
  obtain ⟨⟨s', log'⟩, later, -⟩ := ran'
  refine ⟨s', log', later, fun op' again => ?_, fun closed => run_ended synced found closed later⟩
  exact absurd (run_returned synced later again) (Nat.not_le_of_lt below)

theorem lifetimes_mixedOps :
    ∃ s log, Runs.run step new mixedOps = some (s, log) ∧
      ∀ op sub id, (op, .order (some id)) ∈ log → op.submission = some sub →
        ∃ o, s.orders[id]? = some o ∧
          Lifetime o id sub.qty (executionsOf new mixedOps) (withdrawalsOf new mixedOps) ∧
          ∀ rest, submissions (mixedOps ++ rest) < 2 ^ 31 →
            ∃ s' log', Runs.run step s rest = some (s', log') ∧
              (∀ op', (op', .order (some id)) ∉ log') ∧
              (o.active = false → Ended s' id (executionsOf s rest) log') :=
  lifetimes mixedOps (by decide)

end CppPractice.OrderBook
