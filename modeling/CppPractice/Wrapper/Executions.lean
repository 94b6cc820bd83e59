import CppPractice.Wrapper.Steps

set_option autoImplicit false

namespace CppPractice

variable {c : Config}

theorem Fills.front {side : Side} {price orderId : Int} {before after : Nat → Option (Resting c.Qty)}
    {qty remaining : c.Qty} {execs front : List (Execution c.Qty)} {e : Execution c.Qty}
    (fills : Fills c side price orderId before qty execs after remaining)
    (isPrefix : front ++ [e] <+: execs) :
    ∃ resting left maker, Fills c side price orderId before qty front resting left ∧
      Fill c side price orderId resting left e maker := by
  induction fills with
  | start =>
    have none := List.prefix_nil.mp isPrefix
    exact absurd none (by simp)
  | trade earlier fill ih =>
    rcases List.prefix_concat_iff.mp isPrefix with whole | part
    · obtain ⟨rfl, same⟩ := List.append_inj' whole rfl
      obtain rfl := List.singleton_inj.mp same
      exact ⟨_, _, _, earlier, fill⟩
    · exact ih part

namespace OrderBook

open LimitOrderBook (Accepts Processed)

def Impl.executions (s : Impl) (op : Op) : List (Execution Qty) :=
  match op.submission with
  | none => []
  | some sub =>
    if s.Admits sub.side sub.user sub.price sub.qty then
      match s.engine.processOrder sub.side sub.price sub.qty (toInt s.nextOrderId) with
      | none => []
      | some outcome => outcome.executions
    else []

section

variable {s : Impl} {op : Op}

theorem executions_none (none : op.submission = none) : s.executions op = [] := by
  rw [Impl.executions, none]

theorem executions_refused {sub : Submission} (submission : op.submission = some sub)
    (refused : ¬s.Admits sub.side sub.user sub.price sub.qty) : s.executions op = [] := by
  rw [Impl.executions, submission]
  exact if_neg refused

theorem executions_rejected {sub : Submission} (submission : op.submission = some sub)
    (rejects : ¬Accepts Engine sub.price sub.qty (toInt s.nextOrderId)) : s.executions op = [] := by
  rw [Impl.executions, submission]
  dsimp only
  rw [LimitOrderBook.processOrder_rejects rejects]
  split <;> rfl

theorem executions_accepted {sub : Submission} (submission : op.submission = some sub)
    (admits : s.Admits sub.side sub.user sub.price sub.qty)
    {outcome : LimitOrderBook.Outcome Engine}
    (answered : s.engine.processOrder sub.side sub.price sub.qty (toInt s.nextOrderId) =
      some outcome) : s.executions op = outcome.executions := by
  rw [Impl.executions, submission]
  dsimp only
  rw [if_pos admits, answered]

end

def Impl.settled (s : Impl) (sub : Submission) (book : LimitOrderBook Engine)
    (front : List (Execution Qty)) : Impl :=
  { s.opened sub.side sub.user sub.price sub.qty with engine := book }.applyExecutions
    (toInt s.nextOrderId) front

theorem settled_each {s : Impl} {sub : Submission} (synced : Synced s)
    (admits : s.Admits sub.side sub.user sub.price sub.qty)
    (sameId : toInt s.nextOrderId = s.nextOrderId) {outcome : LimitOrderBook.Outcome Engine}
    {after : Nat → Option (Resting Qty)} {remaining : Qty}
    (processed : Processed s.engine sub.side sub.price sub.qty s.nextOrderId outcome after remaining)
    {J : List (Execution Qty) → Impl → Prop}
    (start : ∀ stats, J [] { s.opened sub.side sub.user sub.price sub.qty with
      engine := outcome.book, stats := stats })
    (settles : ∀ execs t e maker taker, J execs t →
      Settles t (t.applyExecution s.nextOrderId e) s.nextOrderId e maker taker →
      taker.user = sub.user ∧ taker.side = sub.side ∧ taker.limitPrice = sub.price →
      J (execs ++ [e]) (t.applyExecution s.nextOrderId e))
    {front : List (Execution Qty)} {e : Execution Qty} (isPrefix : front ++ [e] <+: outcome.executions) :
    J front (s.settled sub outcome.book front) ∧
      Accounts (s.settled sub outcome.book front).users (s.settled sub outcome.book front).orders ∧
      ∃ t' maker taker, Settles (s.settled sub outcome.book front) t' s.nextOrderId e maker taker := by
  obtain ⟨resting, left, r, fills, fill⟩ := processed.fills.front isPrefix
  obtain ⟨settling, -, -, -, holds⟩ := opened_settles synced admits sameId fills start settles rfl
  obtain ⟨maker, taker, step, -⟩ := settling.applyExecution (fills.absent synced.fresh) fill
  exact ⟨holds, settling.accounts, _, maker, taker, step⟩

end OrderBook

end CppPractice
