import CppPractice.Wrapper.Identity
import Mathlib.Algebra.BigOperators.Ring.Finset
import Mathlib.Algebra.BigOperators.Ring.List

set_option autoImplicit false

namespace CppPractice.OrderBook

open Tally (tally)

def Takes (isBid : Bool) (limit price : Price) : Prop :=
  if isBid then price ≤ limit else limit ≤ price

def Fair (labels : List (Nat × Bool × Price)) (takerId : Nat) (e : Execution Qty) : Prop :=
  ∃ maker taker isBid limit, labels[toOrderId e.makerOrderId]? = some (maker, !isBid, e.price) ∧
    labels[takerId]? = some (taker, isBid, limit) ∧ Takes isBid limit e.price

theorem Fair.grow {labels more : List (Nat × Bool × Price)} {takerId : Nat} {e : Execution Qty}
    (fair : Fair labels takerId e) : Fair (labels ++ more) takerId e := by
  obtain ⟨maker, taker, isBid, limit, there, here, takes⟩ := fair
  have kept {id : Nat} {label : Nat × Bool × Price} (found : labels[id]? = some label) :
      (labels ++ more)[id]? = some label :=
    (List.getElem?_append_left (List.getElem?_eq_some_iff.mp found).1).trans found
  exact ⟨maker, taker, isBid, limit, kept there, kept here, takes⟩

section

variable {s s' : Impl} {op : Op} {reply : Reply}

theorem Settles.fair {takerId : Nat} {e : Execution Qty} {maker taker : LiveOrder}
    (settles : Settles s s' takerId e maker taker) : Fair s.labels takerId e := by
  have within := settles.within
  refine ⟨maker.user, taker.user, taker.isBid, taker.limitPrice, ?_, ?_, ?_⟩
  · have side : maker.isBid = !taker.isBid := by
      rw [maker.isBid_eq, taker.isBid_eq, settles.opposite]
      cases taker.side <;> rfl
    rw [Impl.labels, List.getElem?_map, settles.makerAt, ← side, ← settles.price]
    rfl
  · rw [Impl.labels, List.getElem?_map, settles.takerAt]
    rfl
  · rw [settles.opposite] at within
    rw [Takes, taker.isBid_eq]
    cases side : taker.side <;> simpa [side, Side.opposite, Side.beyond] using within

theorem step_fair (synced : Synced s) (stepped : step s op = some (s', reply)) :
    ∀ e ∈ s.executions op, toOrderId e.makerOrderId < toOrderId e.takerOrderId ∧
      Fair s'.labels (toOrderId e.takerOrderId) e := by
  intro e member
  cases submission : op.submission with
  | none =>
    rw [executions_none submission] at member
    exact absurd member List.not_mem_nil
  | some sub =>
    rcases step_cases stepped with ⟨name, rfl, -⟩ | ⟨user, quote, base, rfl, -⟩ |
      ⟨sub', result, submission', submitted, -⟩ | ⟨user, id, isBid, rfl, -⟩ | ⟨-, none, -⟩
    · exact absurd submission (by simp [Op.submission])
    · exact absurd submission (by simp [Op.submission])
    · obtain rfl := Option.some.inj (submission.symm.trans submission')
      rcases submit_cases synced submitted with ⟨refused, -⟩ | ⟨admits, room, ⟨rejects, -⟩ |
        ⟨-, sameId, -, outcome, after, remaining, answered, processed, -⟩⟩
      · rw [executions_refused submission refused] at member
        exact absurd member List.not_mem_nil
      · rw [executions_rejected submission rejects] at member
        exact absurd member List.not_mem_nil
      · rw [executions_accepted submission admits (by rw [sameId]; exact answered)] at member
        obtain ⟨taker, maker⟩ := accepted_named synced processed.fills member
        rw [taker]
        refine ⟨maker, ?_⟩
        obtain ⟨front, back, split⟩ := List.append_of_mem member
        have isPrefix : front ++ [e] <+: outcome.executions :=
          ⟨back, by rw [split, List.append_assoc, List.singleton_append]⟩
        have labels : s'.labels = s.labels ++ [sub.label] := by
          rw [step_labels synced stepped, Impl.adds, submission, Option.elim_some, if_pos admits]
        obtain ⟨same, -, t', maker, taker, settles⟩ := settled_each synced admits sameId processed
          (J := fun _ t => t.labels = s.labels ++ [sub.label])
          (fun _ => by
            rw [Impl.labels, Impl.opened, List.map_append, List.map_singleton,
              LiveOrder.fresh_label]
            rfl)
          (fun _ _ _ _ _ same settles _ => settles.labels.trans same) isPrefix
        rw [labels, ← same]
        exact settles.fair
    · cases isBid <;> exact absurd submission (by simp [Op.submission])
    · rw [none] at submission
      exact absurd submission (by simp)

end

theorem run_fair {ops : List Op} {s : Impl} {log : List (Op × Reply)}
    (ran : Runs.run step new ops = some (s, log)) :
    ∀ e ∈ executionsOf new ops, toOrderId e.makerOrderId < toOrderId e.takerOrderId ∧
      Fair s.labels (toOrderId e.takerOrderId) e := by
  refine (Runs.run_traced Impl.executions
    (P := fun execs _ s => Synced s ∧ ∀ e ∈ execs,
      toOrderId e.makerOrderId < toOrderId e.takerOrderId ∧
        Fair s.labels (toOrderId e.takerOrderId) e) ⟨new_synced, by simp⟩ ?_ ran).2
  rintro front s execs log op s' reply - ⟨synced, fair⟩ stepped
  refine ⟨step_synced synced stepped, fun e member => ?_⟩
  rcases List.mem_append.mp member with early | late
  · rw [step_labels synced stepped]
    exact ⟨(fair e early).1, (fair e early).2.grow⟩
  · exact step_fair synced stepped e late

def turnover (id : Nat) (execs : List (Execution Qty)) : Money :=
  tally (fun e => e.price * (tradedBy id e : Int)) execs

theorem turnover_bound {id : Nat} {execs : List (Execution Qty)} {isBid : Bool} {limit : Price}
    (takes : ∀ e ∈ execs, tradedBy id e ≠ 0 → Takes isBid limit e.price) :
    Takes isBid (limit * (tally (tradedBy id) execs : Nat)) (turnover id execs) := by
  have whole : limit * (tally (tradedBy id) execs : Nat) =
      tally (fun e => limit * (tradedBy id e : Int)) execs := by
    rw [tally, tally, List.sum_map_mul_left, Nat.cast_list_sum, List.map_map]
    rfl
  have each {left right : Price} (e : Execution Qty) (le : tradedBy id e ≠ 0 → left ≤ right) :
      left * (tradedBy id e : Int) ≤ right * (tradedBy id e : Int) := by
    by_cases none : tradedBy id e = 0
    · simp [none]
    · exact mul_le_mul_of_nonneg_right (le none) (Int.natCast_nonneg _)
  rw [whole, turnover]
  cases isBid with
  | true => exact List.sum_le_sum fun e member => each e (takes e member)
  | false => exact List.sum_le_sum fun e member => each e (takes e member)

/--
Along every run, each execution is between a bid and an ask, the older of the two sets its price,
and the price is within the limit of the other. Over its whole life a bid pays at most its limit for
every unit that it buys, and an ask gets at least its limit for every unit that it sells.
-/
theorem limits_respected (ops : List Op) (few : submissions ops < 2 ^ 31) :
    ∃ s log, Runs.run step new ops = some (s, log) ∧
      (∀ e ∈ executionsOf new ops, ∃ maker taker : LiveOrder,
        s.orders[toOrderId e.makerOrderId]? = some maker ∧
        s.orders[toOrderId e.takerOrderId]? = some taker ∧
        toOrderId e.makerOrderId < toOrderId e.takerOrderId ∧ maker.isBid = !taker.isBid ∧
        maker.limitPrice = e.price ∧ Takes taker.isBid taker.limitPrice e.price) ∧
      ∀ (id : Nat) (o : LiveOrder), s.orders[id]? = some o →
        Takes o.isBid (o.limitPrice * (tally (tradedBy id) (executionsOf new ops) : Nat))
          (turnover id (executionsOf new ops)) := by
  obtain ⟨s, log, ran, -⟩ := run_defined few
  have between : ∀ e ∈ executionsOf new ops, ∃ maker taker : LiveOrder,
      s.orders[toOrderId e.makerOrderId]? = some maker ∧
      s.orders[toOrderId e.takerOrderId]? = some taker ∧
      toOrderId e.makerOrderId < toOrderId e.takerOrderId ∧ maker.isBid = !taker.isBid ∧
      maker.limitPrice = e.price ∧ Takes taker.isBid taker.limitPrice e.price := by
    intro e member
    obtain ⟨older, _, _, isBid, limit, there, here, takes⟩ := run_fair ran e member
    rw [Impl.labels, List.getElem?_map, Option.map_eq_some_iff] at there here
    obtain ⟨maker, found, same⟩ := there
    obtain ⟨taker, found', same'⟩ := here
    simp only [LiveOrder.label, Prod.mk.injEq] at same same'
    obtain ⟨-, side, price⟩ := same
    obtain ⟨-, rfl, rfl⟩ := same'
    exact ⟨maker, taker, found, found', older, side, price, takes⟩
  refine ⟨s, log, ran, between, fun id o found => turnover_bound fun e member named => ?_⟩
  obtain ⟨maker, taker, there, here, -, -, price, takes⟩ := between e member
  rw [tradedBy] at named
  split at named
  · rename_i either
    rcases either with rfl | rfl
    · obtain rfl := Option.some.inj (here.symm.trans found)
      exact takes
    · obtain rfl := Option.some.inj (there.symm.trans found)
      rw [Takes, price]
      split <;> exact le_rfl
  · exact absurd rfl named

theorem limits_respected_mixedOps : ∃ s log, Runs.run step new mixedOps = some (s, log) ∧
    (∀ e ∈ executionsOf new mixedOps, ∃ maker taker : LiveOrder,
      s.orders[toOrderId e.makerOrderId]? = some maker ∧
      s.orders[toOrderId e.takerOrderId]? = some taker ∧
      toOrderId e.makerOrderId < toOrderId e.takerOrderId ∧ maker.isBid = !taker.isBid ∧
      maker.limitPrice = e.price ∧ Takes taker.isBid taker.limitPrice e.price) ∧
    ∀ (id : Nat) (o : LiveOrder), s.orders[id]? = some o →
      Takes o.isBid (o.limitPrice * (tally (tradedBy id) (executionsOf new mixedOps) : Nat))
        (turnover id (executionsOf new mixedOps)) :=
  limits_respected mixedOps (by decide)

end CppPractice.OrderBook
