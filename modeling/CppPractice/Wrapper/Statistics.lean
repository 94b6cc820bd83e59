import CppPractice.Wrapper.Consistency
import CppPractice.Wrapper.Lifetimes
import CppPractice.Wrapper.Registry

set_option autoImplicit false

namespace CppPractice.OrderBook

open Tally (tally)
open LimitOrderBook (Processed)

structure Served where
  op : Op
  reply : Reply
  executions : List (Execution Qty)
  withdrawn : List Nat

def Impl.serves (s : Impl) (op : Op) : List Served :=
  (step s op).toList.map fun next => ⟨op, next.2, s.executions op, s.withdraws op⟩

def history (ops : List Op) : List Served :=
  Runs.trace step Impl.serves Impl.empty (openingOps ++ ops)

def sinceReset (entries : List Served) : List Served :=
  entries.foldl (fun kept e => if e.op = .resetStats then [] else kept ++ [e]) []

namespace Served

variable (e : Served)

def submits : Bool := e.op.submission.isSome

def accepted : Bool :=
  match e.reply with
  | .order (some _) => true
  | _ => false

def attempts : Nat :=
  match e.op with
  | .cancelBid _ _ | .cancelAsk _ _ => 1
  | _ => e.withdrawn.length

end Served

def Impl.getStats (s : Impl) : Stats := s.stats

def Stats.of (entries : List Served) : Stats where
  ordersSubmitted := .ofNat (entries.countP Served.submits)
  ordersAccepted := .ofNat (entries.countP Served.accepted)
  tradesExecuted := .ofNat (tally (·.executions.length) entries)
  cancelsAttempted := .ofNat (tally Served.attempts entries)
  cancelsSucceeded := .ofNat (tally (·.withdrawn.length) entries)

def Stats.plus (stats : Stats) (e : Served) : Stats where
  ordersSubmitted := stats.ordersSubmitted + .ofNat (if e.submits then 1 else 0)
  ordersAccepted := stats.ordersAccepted + .ofNat (if e.accepted then 1 else 0)
  tradesExecuted := stats.tradesExecuted + .ofNat e.executions.length
  cancelsAttempted := stats.cancelsAttempted + .ofNat e.attempts
  cancelsSucceeded := stats.cancelsSucceeded + .ofNat e.withdrawn.length

theorem Stats.of_snoc (entries : List Served) (e : Served) :
    Stats.of (entries ++ [e]) = (Stats.of entries).plus e := by
  simp only [Stats.of, Stats.plus, List.countP_append, List.countP_singleton, Tally.tally_append,
    Tally.tally_cons, Tally.tally_nil, add_zero, UInt64.ofNat_add]

theorem Stats.plus_quiet (stats : Stats) {e : Served} (submits : e.submits = false)
    (accepted : e.accepted = false) (attempts : e.attempts = 0) (executions : e.executions = [])
    (withdrawn : e.withdrawn = []) : stats.plus e = stats := by
  simp [Stats.plus, submits, accepted, attempts, executions, withdrawn]

section

variable {s s' : Impl} {op : Op} {reply : Reply}

theorem accepted_ends {sub : Submission} (synced : Synced s)
    (admits : s.Admits sub.side sub.user sub.price sub.qty)
    (room : s.nextOrderId + 1 < 2 ^ 32) (sameId : toInt s.nextOrderId = s.nextOrderId)
    {outcome : LimitOrderBook.Outcome Engine} {after : Nat → Option (Resting Qty)}
    {remaining : Qty}
    (answered : s.engine.processOrder sub.side sub.price sub.qty s.nextOrderId = some outcome)
    (spec : Processed s.engine sub.side sub.price sub.qty s.nextOrderId outcome after remaining) :
    (¬s.Discards sub ∧ { s.opened sub.side sub.user sub.price sub.qty with
        engine := outcome.book }.acceptOrder sub.side sub.user s.nextOrderId sub.discardUnfilled
          outcome.executions = (s.settled sub outcome.book outcome.executions).countAccepted) ∨
      (s.Discards sub ∧ ∃ o, { s.opened sub.side sub.user sub.price sub.qty with
        engine := outcome.book }.acceptOrder sub.side sub.user s.nextOrderId sub.discardUnfilled
          outcome.executions = ((s.settled sub outcome.book outcome.executions).cancelled sub.user
            s.nextOrderId o).countAccepted) := by
  obtain ⟨settling, book, next, lengths, -⟩ := opened_settles synced admits sameId spec.fills
    (J := fun _ _ => True) (fun _ => trivial) (fun _ _ _ _ _ _ _ _ => trivial)
    (t := s.settled sub outcome.book outcome.executions) rfl
  have bounded := room
  rw [← next] at bounded
  have syncedT := settling.synced spec synced.fresh book lengths bounded
  obtain ⟨taker, found, -, -, -, left⟩ := settling.taker
  have accurate := settling.accounts.accurate taker (List.mem_of_getElem? found)
  rcases settling.accepted syncedT rfl sub.discardUnfilled with ⟨kept, same⟩ |
    ⟨discard, some, o, cancels, same⟩
  · refine .inl ⟨?_, same⟩
    rintro ⟨discard, -, outcome', answered', o', at_id, -, active⟩
    rw [sameId] at answered'
    obtain rfl := Option.some.inj (answered.symm.trans answered')
    obtain rfl := Option.some.inj (found.symm.trans at_id)
    exact kept ⟨discard, by rw [← left]; exact accurate.active.mp active⟩
  · exact .inr ⟨⟨discard, admits, outcome, by rw [sameId]; exact answered, o, cancels.1, spec.ok,
      cancels.2.1⟩, o, same⟩

-- Settlement counts the executions once, whatever they do.
theorem settled_stats (sub : Submission) (synced : Synced s)
    (sameId : toInt s.nextOrderId = s.nextOrderId) (book : LimitOrderBook Engine)
    (execs : List (Execution Qty)) :
    (s.settled sub book execs).stats = { s.counted.stats with
      tradesExecuted := s.stats.tradesExecuted + .ofNat execs.length } := by
  have active : (LiveOrder.fresh sub.side sub.user sub.price sub.qty).active = true := by
    cases sub.side <;> rfl
  have fold (t : Impl) :
      (execs.foldl (fun t e => t.applyExecution s.nextOrderId e) t).stats = t.stats := by
    induction execs generalizing t with
    | nil => rfl
    | cons e rest ih =>
      exact (ih _).trans (applyExecution_frame (f := Impl.stats) (fun _ _ _ _ _ _ => rfl) t _ e)
  have found : { s.opened sub.side sub.user sub.price sub.qty with
      engine := book }.orders[s.nextOrderId]? = some (.fresh sub.side sub.user sub.price sub.qty) :=
    opened_fresh synced
  rw [Impl.settled, applyExecutions_eq found active (Nat.ne_of_gt synced.positive) sameId, fold]
  rfl

theorem submit_stats {sub : Submission} {result : Option Nat} (synced : Synced s)
    (submission : op.submission = some sub) (submitted : s.submits sub = some (s', result)) :
    s'.stats = s.stats.plus ⟨op, .order result, s.executions op, s.withdraws op⟩ := by
  have submits (reply : Reply) (execs : List (Execution Qty)) (withdrawn : List Nat) :
      Served.submits ⟨op, reply, execs, withdrawn⟩ = true := by
    rw [Served.submits, submission]
    rfl
  have attempts (reply : Reply) (execs : List (Execution Qty)) (withdrawn : List Nat) :
      Served.attempts ⟨op, reply, execs, withdrawn⟩ = withdrawn.length := by
    cases op <;> first | rfl | simp [Op.submission] at submission
  have withdraws := withdraws_submission submission s
  rw [Stats.plus, submits, attempts]
  rcases submit_cases synced submitted with ⟨refused, rfl, rfl⟩ | ⟨admits, room,
    ⟨rejects, rfl, rfl⟩ | ⟨accepts, sameId, rfl, outcome, after, remaining, answered, spec, rfl⟩⟩
  · have silent : ¬s.Discards sub := fun discards => refused discards.2.1
    rw [executions_refused submission refused, withdraws, if_neg silent]
    simp [Served.accepted, Impl.counted]
  · have silent : ¬s.Discards sub := by
      rintro ⟨-, -, outcome, answered, -, -, ok, -⟩
      rw [LimitOrderBook.processOrder_rejects rejects] at answered
      obtain rfl := Option.some.inj answered
      exact Bool.false_ne_true ok
    rw [executions_rejected submission rejects, withdraws, if_neg silent]
    simp [Served.accepted, Impl.rejected, Impl.counted]
  · rw [executions_accepted submission admits (by rw [sameId]; exact answered), withdraws]
    have settled := settled_stats sub synced sameId outcome.book outcome.executions
    rcases accepted_ends synced admits room sameId answered spec with ⟨keeps, same⟩ |
      ⟨discards, o, same⟩
    · rw [same, if_neg keeps, Impl.countAccepted, settled]
      simp [Served.accepted, Impl.counted]
    · rw [same, if_pos discards, Impl.countAccepted, Impl.cancelled, settled]
      simp [Served.accepted, Impl.counted]

theorem step_stats (synced : Synced s) (stepped : step s op = some (s', reply)) :
    s'.stats = if op = .resetStats then {} else
      s.stats.plus ⟨op, reply, s.executions op, s.withdraws op⟩ := by
  rcases step_cases stepped with ⟨name, rfl, rfl, rfl⟩ | ⟨user, quote, base, rfl, rfl, rfl⟩ |
    ⟨sub, result, submission, submitted, rfl⟩ | ⟨user, id, isBid, rfl, rfl, rfl⟩ |
    ⟨same, none, rfl, -⟩
  · have stats : (s.makeUser name).1.stats = s.stats := by
      unfold Impl.makeUser
      split <;> rfl
    rw [stats, if_neg (by simp), Stats.plus_quiet _ rfl rfl rfl rfl rfl]
  · have stats : (s.addBalance user quote base).1.stats = s.stats := by
      rcases addBalance_cases s user quote base with ⟨-, same⟩ | ⟨u, users, -, done, -⟩
      · rw [same]
      · rw [done]
    rw [stats, if_neg (by simp), Stats.plus_quiet _ rfl rfl rfl rfl rfl]
  · rw [if_neg (by rintro rfl; simp [Op.submission] at submission)]
    exact submit_stats synced submission submitted
  · have apart : (if isBid then Op.cancelBid user id else .cancelAsk user id) ≠ .resetStats := by
      cases isBid <;> simp
    have served (executions : List (Execution Qty)) (withdrawn : List Nat) (reply : Bool) :
        s.stats.plus ⟨if isBid then .cancelBid user id else .cancelAsk user id, .flag reply,
          executions, withdrawn⟩ = { s.stats with
            tradesExecuted := s.stats.tradesExecuted + .ofNat executions.length
            cancelsAttempted := s.stats.cancelsAttempted + 1
            cancelsSucceeded := s.stats.cancelsSucceeded + .ofNat withdrawn.length } := by
      cases isBid <;>
        simp [Stats.plus, Served.submits, Op.submission, Served.accepted, Served.attempts]
    rw [if_neg apart, served, withdraws_cancel, executions_none (by cases isBid <;> rfl)]
    rcases cancel_cases synced user id isBid with ⟨-, same⟩ | ⟨o, -, done⟩
    · rw [same]
      simp
    · rw [done, if_pos rfl, Impl.cancelled]
      simp
  · rcases step_unit stepped with ⟨enabled, rfl⟩ | rfl | rfl <;>
      obtain ⟨rfl, -⟩ := Prod.mk.inj (Option.some.inj stepped)
    · rw [if_neg (by simp), Stats.plus_quiet _ rfl rfl rfl rfl rfl]
      rfl
    · rw [if_neg (by simp), Stats.plus_quiet _ rfl rfl rfl rfl rfl]
      rfl
    · rfl

theorem sinceReset_snoc (entries : List Served) (e : Served) : sinceReset (entries ++ [e]) =
    if e.op = .resetStats then [] else sinceReset entries ++ [e] := by
  rw [sinceReset, List.foldl_append]
  rfl

theorem step_served (stepped : step s op = some (s', reply)) (executions : List (Execution Qty)) :
    (s.withdraws op).length ≤ Served.attempts ⟨op, reply, executions, s.withdraws op⟩ ∧
      (Served.accepted ⟨op, reply, executions, s.withdraws op⟩ = true →
        Served.submits ⟨op, reply, executions, s.withdraws op⟩ = true) := by
  cases op with
  | cancelBid user id | cancelAsk user id =>
    obtain ⟨-, rfl⟩ := Prod.mk.inj (Option.some.inj stepped)
    refine ⟨?_, fun accepted => absurd accepted (by simp [Served.accepted])⟩
    rw [Impl.withdraws, Served.attempts]
    split
    · exact le_rfl
    · exact Nat.zero_le _
  | makeUser | addBalance | setTradeLogEnabled | clearTradeLog | resetStats =>
    obtain ⟨-, rfl⟩ := Prod.mk.inj (Option.some.inj stepped)
    exact ⟨le_rfl, fun accepted => absurd accepted (by simp [Served.accepted])⟩
  | addBid | addAsk | addBidIoc | addAskIoc | addMarketBid | addMarketAsk =>
    exact ⟨le_rfl, fun _ => rfl⟩

end

structure Counted (s : Impl) (entries : List Served) : Prop where
  stats : s.getStats = Stats.of (sinceReset entries)
  accepted : (sinceReset entries).countP Served.accepted ≤
    (sinceReset entries).countP Served.submits
  succeeded : tally (·.withdrawn.length) (sinceReset entries) ≤
    tally Served.attempts (sinceReset entries)

theorem Counted.step {s s' : Impl} {entries : List Served} {op : Op} {reply : Reply}
    (counted : Counted s entries) (synced : Synced s) (stepped : step s op = some (s', reply)) :
    Counted s' (entries ++ s.serves op) := by
  have stats := step_stats synced stepped
  have serves : s.serves op = [⟨op, reply, s.executions op, s.withdraws op⟩] := by
    rw [Impl.serves, stepped]
    rfl
  obtain ⟨withdrawn, submits⟩ := step_served stepped (s.executions op)
  rw [serves]
  refine ⟨?_, ?_, ?_⟩ <;> rw [sinceReset_snoc]
  · rw [Impl.getStats, stats]
    split
    · rfl
    · rw [Stats.of_snoc, ← counted.stats, Impl.getStats]
  · split
    · exact le_rfl
    · rw [List.countP_append, List.countP_append]
      refine Nat.add_le_add counted.accepted (List.countP_mono_left fun e member => ?_)
      rw [List.mem_singleton.mp member]
      exact submits
  · split
    · exact le_rfl
    · rw [Tally.tally_append, Tally.tally_append]
      refine Nat.add_le_add counted.succeeded ?_
      simpa using withdrawn

theorem stats_exact (ops : List Op) :
    (submissions ops < 2 ^ 31 → ∃ s log, Runs.run step new ops = some (s, log)) ∧
    ∀ s log, Runs.run step new ops = some (s, log) → Counted s (history ops) := by
  refine ⟨fun few => ?_, fun s log ran => ?_⟩
  · obtain ⟨s, log, ran, -⟩ := run_defined few
    exact ⟨s, log, ran⟩
  · obtain ⟨early, opened⟩ := run_openingOps
    have whole : Runs.run step Impl.empty (openingOps ++ ops) = some (s, early ++ log) := by
      rw [Runs.run_append, opened, Option.bind_some, ran, Option.map_some]
    refine (Runs.run_traced Impl.serves (P := fun entries _ s => Synced s ∧ Counted s entries)
      ⟨empty_synced, rfl, le_rfl, le_rfl⟩ ?_ whole).2
    rintro front s entries log op s' reply - ⟨synced, counted⟩ stepped
    exact ⟨step_synced synced stepped, counted.step synced stepped⟩

theorem stats_exact_mixedOps :
    ∃ s log, Runs.run step new mixedOps = some (s, log) ∧ Counted s (history mixedOps) := by
  obtain ⟨defined, counted⟩ := stats_exact mixedOps
  obtain ⟨s, log, ran⟩ := defined (by decide)
  exact ⟨s, log, ran, counted s log ran⟩

end CppPractice.OrderBook
