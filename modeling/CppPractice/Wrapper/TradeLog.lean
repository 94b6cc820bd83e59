import CppPractice.Shared.Slots
import CppPractice.Wrapper.Executions

set_option autoImplicit false

namespace CppPractice.OrderBook

open LimitOrderBook (Accepts Processed)
open Slots (Holds)

def Impl.getRecentTrades (s : Impl) (max : Nat) : List Trade :=
  if s.tradeLogSize = 0 ∨ max = 0 then []
  else
    let n := min max s.tradeLogSize
    (List.range n).map fun i =>
      s.tradeLog ((s.tradeLogHead + kTradeLogCap - 1 - i) % kTradeLogCap)

-- The entry that `push_trade` makes of an execution.
def Trade.ofExecution (e : Execution Qty) : Trade where
  takerOrderId := toOrderId e.takerOrderId
  makerOrderId := toOrderId e.makerOrderId
  price := e.price
  qty := e.qty
  takerIsBid := decide (e.takerSide = .Buy)
  makerIsBid := decide (e.makerSide = .Buy)

/-- The log as its switch and its clearing define it, without a ring. -/
structure Recorded where
  enabled : Bool := false
  execs : List (Execution Qty) := []

namespace Recorded

variable (r : Recorded)

def append (execs : List (Execution Qty)) : Recorded :=
  if r.enabled then { r with execs := r.execs ++ execs } else r

def next (op : Op) (execs : List (Execution Qty)) : Recorded :=
  match op with
  | .setTradeLogEnabled enabled => { r with enabled := enabled }
  | .clearTradeLog => { r with execs := [] }
  | _ => r.append execs

theorem append_nil : r.append [] = r := by
  unfold append
  split
  · rw [List.append_nil]
  · rfl

theorem append_snoc (execs : List (Execution Qty)) (e : Execution Qty) :
    (r.append execs).append [e] = r.append (execs ++ [e]) := by
  by_cases enabled : r.enabled = true
  · simp [append, enabled]
  · simp [append, enabled]

theorem next_submission {op : Op} {sub : Submission} (submission : op.submission = some sub)
    (execs : List (Execution Qty)) : r.next op execs = r.append execs := by
  cases op <;> first | rfl | simp [Op.submission] at submission

theorem next_execs {op : Op} {execs : List (Execution Qty)} {e : Execution Qty}
    (member : e ∈ (r.next op execs).execs) : e ∈ r.execs ∨ e ∈ execs := by
  have appended : e ∈ (r.append execs).execs → e ∈ r.execs ∨ e ∈ execs := by
    unfold append
    split
    · exact List.mem_append.mp
    · exact Or.inl
  cases op with
  | setTradeLogEnabled enabled => exact Or.inl member
  | clearTradeLog => exact absurd member List.not_mem_nil
  | _ => exact appended member

end Recorded

def recorded (s : Impl) (ops : List Op) : Recorded :=
  (Runs.trace step (fun s op => [(op, s.executions op)]) s ops).foldl
    (fun r entry => r.next entry.1 entry.2) {}

theorem recorded_snoc {s s' : Impl} {front : List Op} {log : List (Op × Reply)}
    (ran : Runs.run step s front = some (s', log)) (op : Op) :
    recorded s (front ++ [op]) = (recorded s front).next op (s'.executions op) := by
  rw [recorded, Runs.trace_snoc _ ran, List.foldl_append]
  rfl

structure Logged (s : Impl) (r : Recorded) : Prop where
  enabled : s.tradeLogEnabled = r.enabled
  holds : Holds kTradeLogCap s.tradeLog s.tradeLogHead s.tradeLogSize
    (r.execs.map Trade.ofExecution)

structure SameLog (s s' : Impl) : Prop where
  enabled : s'.tradeLogEnabled = s.tradeLogEnabled
  tradeLog : s'.tradeLog = s.tradeLog
  size : s'.tradeLogSize = s.tradeLogSize
  head : s'.tradeLogHead = s.tradeLogHead

section

variable {s s' s'' : Impl} {r : Recorded}

theorem SameLog.trans (first : SameLog s s') (second : SameLog s' s'') : SameLog s s'' :=
  ⟨second.enabled.trans first.enabled, second.tradeLog.trans first.tradeLog,
    second.size.trans first.size, second.head.trans first.head⟩

theorem Logged.same (logged : Logged s r) (same : SameLog s s') : Logged s' r where
  enabled := same.enabled.trans logged.enabled
  holds := by
    rw [same.tradeLog, same.size, same.head]
    exact logged.holds

theorem Logged.push (logged : Logged s r) (e : Execution Qty) :
    Logged (s.pushTrade e) (r.append [e]) := by
  have enabled := logged.enabled
  cases on : s.tradeLogEnabled with
  | false =>
    have kept : s.pushTrade e = s := by rw [Impl.pushTrade, on]; rfl
    have skipped : r.append [e] = r := by rw [Recorded.append, ← enabled, on]; rfl
    rw [kept, skipped]
    exact logged
  | true =>
    rw [on] at enabled
    rw [Impl.pushTrade, on, Bool.not_true, if_neg (by decide), Recorded.append, ← enabled,
      if_pos rfl]
    refine ⟨rfl, ?_⟩
    dsimp only
    rw [List.map_append]
    exact logged.holds.write (Trade.ofExecution e)

theorem applyExecution_log {takerId : Nat} {e : Execution Qty} {maker taker : LiveOrder}
    (settles : Settles s s' takerId e maker taker) (nonzero : toOrderId e.makerOrderId ≠ 0) :
    SameLog (s.pushTrade e) (s.applyExecution takerId e) := by
  have filled (s : Impl) (id : Nat) : SameLog s (s.fillOrder id e.qty) := by
    unfold Impl.fillOrder
    split <;> exact ⟨rfl, rfl, rfl, rfl⟩
  have settled (s : Impl) (notional : Money) : SameLog s (s.settle maker taker e.qty notional) := by
    unfold Impl.settle
    split <;> exact ⟨rfl, rfl, rfl, rfl⟩
  have refunded (s : Impl) (o : LiveOrder) (notional : Money) :
      SameLog s (s.refund o e.qty notional) := by
    unfold Impl.refund
    dsimp only
    split <;> exact ⟨rfl, rfl, rfl, rfl⟩
  have inside := (List.getElem?_eq_some_iff.mp settles.makerAt).1
  unfold Impl.applyExecution
  dsimp only
  rw [if_neg (by omega), settles.makerAt, settles.takerAt]
  dsimp only
  rw [settles.makerActive, Bool.not_true, if_neg (by decide)]
  exact (((filled _ _).trans (filled _ _)).trans (settled _ _)).trans
    ((refunded _ _ _).trans (refunded _ _ _))

-- Record 0 of the table stays unused, so the guard on the maker's id never skips an execution.
theorem Settles.unused {takerId : Nat} {e : Execution Qty} {maker taker : LiveOrder}
    (settles : Settles s s' takerId e maker taker)
    (unused : ∀ o, s.orders[0]? = some o → o.active = false) :
    toOrderId e.makerOrderId ≠ 0 ∧ ∀ o, s'.orders[0]? = some o → o.active = false := by
  have used {id : Nat} {o : LiveOrder} (found : s.orders[id]? = some o) (active : o.active = true) :
      id ≠ 0 := by
    rintro rfl
    rw [unused o found] at active
    exact absurd active (by decide)
  have maker := used settles.makerAt settles.makerActive
  refine ⟨maker, fun o first => unused o ?_⟩
  rwa [settles.orders, List.getElem?_set_ne (used settles.takerAt settles.takerActive),
    List.getElem?_set_ne maker] at first

theorem submit_logged {op : Op} {sub : Submission} {reply : Option Nat} (synced : Synced s)
    (submission : op.submission = some sub) (submitted : s.submits sub = some (s', reply))
    (logged : Logged s r) : Logged s' (r.append (s.executions op)) := by
  rcases submit_cases synced submitted with ⟨refused, -, rfl⟩ | ⟨admits, room, ⟨rejects, -, rfl⟩ |
    ⟨-, sameId, -, outcome, after, remaining, answered, processed, rfl⟩⟩
  · rw [executions_refused submission refused, r.append_nil]
    exact logged.same ⟨rfl, rfl, rfl, rfl⟩
  · rw [executions_rejected submission rejects, r.append_nil]
    exact logged.same ⟨rfl, rfl, rfl, rfl⟩
  · rw [← sameId] at answered
    rw [executions_accepted submission admits answered]
    refine acceptOrder_rule synced admits room sameId processed sub.discardUnfilled
      (J := fun execs t => Logged t (r.append execs) ∧
        ∀ o, t.orders[0]? = some o → o.active = false)
      (P := fun t => Logged t (r.append outcome.executions)) ?_ ?_ ?_ ?_
    · intro book stats
      refine ⟨?_, fun o first => ?_⟩
      · rw [r.append_nil]
        exact logged.same ⟨rfl, rfl, rfl, rfl⟩
      · have inside : 0 < s.orders.length := by
          rw [synced.length]
          exact synced.positive
        exact synced.unused o ((List.getElem?_append_left inside).symm.trans first)
    · rintro execs t e maker taker ⟨earlier, unused⟩ settles -
      obtain ⟨nonzero, unused'⟩ := settles.unused unused
      rw [← r.append_snoc]
      exact ⟨(earlier.push e).same (applyExecution_log settles nonzero), unused'⟩
    · exact fun t holds _ _ => holds.1.same ⟨rfl, rfl, rfl, rfl⟩
    · exact fun t o holds _ _ _ => holds.1.same ⟨rfl, rfl, rfl, rfl⟩

theorem step_logged {op : Op} {reply : Reply} (synced : Synced s)
    (stepped : step s op = some (s', reply)) (logged : Logged s r) :
    Logged s' (r.next op (s.executions op)) := by
  cases submission : op.submission with
  | some sub =>
    rw [step_submission submission, Option.map_eq_some_iff] at stepped
    obtain ⟨⟨t, result⟩, submitted, same⟩ := stepped
    obtain ⟨rfl, -⟩ := Prod.mk.inj same
    rw [r.next_submission submission]
    exact submit_logged synced submission submitted logged
  | none =>
    have quiet : Logged s (r.append (s.executions op)) := by
      rw [executions_none submission, r.append_nil]
      exact logged
    cases op with
    | makeUser name =>
      obtain ⟨rfl, -⟩ := Prod.mk.inj (Option.some.inj stepped)
      refine quiet.same ?_
      unfold Impl.makeUser
      split <;> exact ⟨rfl, rfl, rfl, rfl⟩
    | addBalance user quoteDelta baseDelta =>
      obtain ⟨rfl, -⟩ := Prod.mk.inj (Option.some.inj stepped)
      refine quiet.same ?_
      rcases addBalance_cases s user quoteDelta baseDelta with ⟨-, same⟩ | ⟨u, users, -, done, -⟩
      · rw [same]
        exact ⟨rfl, rfl, rfl, rfl⟩
      · rw [done]
        exact ⟨rfl, rfl, rfl, rfl⟩
    | cancelBid user id =>
      obtain ⟨rfl, -⟩ := Prod.mk.inj (Option.some.inj stepped)
      exact quiet.same (cancel_rule synced (P := SameLog s) ⟨rfl, rfl, rfl, rfl⟩
        fun _ _ => ⟨rfl, rfl, rfl, rfl⟩)
    | cancelAsk user id =>
      obtain ⟨rfl, -⟩ := Prod.mk.inj (Option.some.inj stepped)
      exact quiet.same (cancel_rule synced (P := SameLog s) ⟨rfl, rfl, rfl, rfl⟩
        fun _ _ => ⟨rfl, rfl, rfl, rfl⟩)
    | setTradeLogEnabled enabled =>
      obtain ⟨rfl, -⟩ := Prod.mk.inj (Option.some.inj stepped)
      exact ⟨rfl, logged.holds⟩
    | clearTradeLog =>
      obtain ⟨rfl, -⟩ := Prod.mk.inj (Option.some.inj stepped)
      exact ⟨logged.enabled, .empty _ _⟩
    | resetStats =>
      obtain ⟨rfl, -⟩ := Prod.mk.inj (Option.some.inj stepped)
      exact quiet.same ⟨rfl, rfl, rfl, rfl⟩
    | _ => simp [Op.submission] at submission

theorem executions_ids {op : Op} {s : Impl} (synced : Synced s) {e : Execution Qty}
    (member : e ∈ s.executions op) :
    (toOrderId e.takerOrderId : Int) = e.takerOrderId ∧
      (toOrderId e.makerOrderId : Int) = e.makerOrderId := by
  cases submission : op.submission with
  | none =>
    rw [executions_none submission] at member
    exact absurd member List.not_mem_nil
  | some sub =>
    by_cases admits : s.Admits sub.side sub.user sub.price sub.qty
    · by_cases accepts : Accepts Engine sub.price sub.qty (toInt s.nextOrderId)
      · obtain ⟨free, queue, rep⟩ := synced.represents
        obtain ⟨sameId, small⟩ := toInt_valid synced.bounded accepts.2.2
        rw [sameId] at accepts
        obtain ⟨outcome, after, remaining, answered, processed⟩ :=
          LimitOrderBook.processOrder_processed rep sub.side accepts synced.fresh
        rw [← sameId] at answered
        rw [executions_accepted submission admits answered] at member
        obtain ⟨_, _, _, _, -, fill⟩ := processed.fills.member member
        have valid (id : Int) (valid : Engine.validId id = true) : (toOrderId id : Int) = id := by
          rw [(toOrderId_valid valid).1]
          exact Int.toNat_of_nonneg (LimitOrderBook.validId_iff.mp valid).1
        refine ⟨valid _ ?_, valid _ fill.valid⟩
        rw [fill.takerOrderId]
        exact accepts.2.2
      · rw [executions_rejected submission accepts] at member
        exact absurd member List.not_mem_nil
    · rw [executions_refused submission admits] at member
      exact absurd member List.not_mem_nil

end

structure Records (t : Trade) (e : Execution Qty) : Prop where
  takerOrderId : (t.takerOrderId : Int) = e.takerOrderId
  makerOrderId : (t.makerOrderId : Int) = e.makerOrderId
  price : t.price = e.price
  qty : t.qty = e.qty
  takerIsBid : t.takerIsBid = true ↔ e.takerSide = .Buy
  makerIsBid : t.makerIsBid = true ↔ e.makerSide = .Buy

theorem run_logged {ops : List Op} {s : Impl} {log : List (Op × Reply)}
    (ran : Runs.run step new ops = some (s, log)) :
    Logged s (recorded new ops) ∧
      ∀ e ∈ (recorded new ops).execs, Records (.ofExecution e) e := by
  have whole : Logged s (recorded new (log.map Prod.fst)) ∧
      ∀ e ∈ (recorded new (log.map Prod.fst)).execs, Records (.ofExecution e) e := by
    refine Runs.run_induction (P := fun log s => Logged s (recorded new (log.map Prod.fst)) ∧
      ∀ e ∈ (recorded new (log.map Prod.fst)).execs, Records (.ofExecution e) e) ?_ ?_ ran
    · refine ⟨⟨by decide +kernel, ?_⟩, by simp [recorded, Runs.trace]⟩
      have head : new.tradeLogHead = 0 := by decide +kernel
      have size : new.tradeLogSize = 0 := by decide +kernel
      rw [head, size]
      exact .empty _ _
    · rintro front s log op s' reply early ⟨logged, records⟩ stepped
      rw [Runs.run_inputs early] at logged records
      rw [List.map_append, List.map_singleton, Runs.run_inputs early, recorded_snoc early]
      have synced := run_synced early
      refine ⟨step_logged synced stepped logged, fun e member => ?_⟩
      rcases Recorded.next_execs _ member with old | new
      · exact records e old
      · obtain ⟨taker, maker⟩ := executions_ids synced new
        exact ⟨taker, maker, rfl, rfl, decide_eq_true_iff, decide_eq_true_iff⟩
  rwa [Runs.run_inputs ran] at whole

theorem Logged.recent {s : Impl} {r : Recorded} (logged : Logged s r) (max : Nat) :
    s.getRecentTrades max =
      (r.execs.map Trade.ofExecution).reverse.take (min max kTradeLogCap) := by
  have size := logged.holds.size
  unfold Impl.getRecentTrades
  split
  · rename_i none
    have empty : min max kTradeLogCap = 0 ∨ (r.execs.map Trade.ofExecution).length = 0 := by
      have : 0 < kTradeLogCap := by decide
      omega
    rcases empty with zero | zero
    · rw [zero, List.take_zero]
    · rw [List.eq_nil_of_length_eq_zero zero, List.reverse_nil, List.take_nil]
  · rw [logged.holds.newest (Nat.min_le_right _ _), size]
    rw [List.take_eq_take_iff, List.length_reverse]
    omega

theorem recent_trades (ops : List Op) (few : submissions ops < 2 ^ 31) (max : Nat) :
    ∃ s log, Runs.run step new ops = some (s, log) ∧
      List.Forall₂ Records (s.getRecentTrades max)
        ((recorded new ops).execs.reverse.take (min max 4096)) := by
  obtain ⟨s, log, ran, -, -⟩ := run_defined few
  obtain ⟨logged, records⟩ := run_logged ran
  refine ⟨s, log, ran, ?_⟩
  rw [logged.recent, ← List.map_reverse, ← List.map_take, List.forall₂_map_left_iff]
  exact List.forall₂_same.mpr fun e member =>
    records e (List.mem_reverse.mp (List.mem_of_mem_take member))

def loggedOps : List Op :=
  [.setTradeLogEnabled true, .makeUser "carol", .addBalance 2 2000000 100, .addBid 2 15100 90,
    .clearTradeLog, .addAskIoc 2 14900 60, .setTradeLogEnabled false, .addMarketBid 2 5]

theorem recent_trades_loggedOps :
    ∃ s log, Runs.run step new loggedOps = some (s, log) ∧
      List.Forall₂ Records (s.getRecentTrades 50)
        ((recorded new loggedOps).execs.reverse.take (min 50 4096)) :=
  recent_trades loggedOps (by decide) 50

end CppPractice.OrderBook
