import CppPractice.Wrapper.Steps

set_option autoImplicit false

namespace CppPractice

def LimitOrderBook.Queued {c : Config} (s : LimitOrderBook c) (id i : Nat) : Prop :=
  s.idToIdx id = some i ∧ ∃ side, ∃ level < c.kLevels,
    i ∈ Links.walk s.next c.maxOrders ((s.book side).head level)

namespace OrderBook

open Lists (snoc_eq_some)
open Tally (tally)
open LimitOrderBook (Queued Represents Accepts)

structure InStep (s : Impl) : Prop where
  resting : ∀ id, 1 ≤ id → id < s.nextOrderId → ∃ o, s.orders[id]? = some o ∧
    (o.active = true ↔ ∃ i, Queued s.engine id i) ∧
    ∀ i, Queued s.engine id i →
      s.engine.orderSide i = (if o.isBid then kBuy else kSell) ∧
      s.engine.orderPrice i = o.limitPrice ∧ s.engine.orderQty i = o.remaining
  others : ∀ side level, ∀ i ∈ Links.walk s.engine.next Engine.maxOrders
      ((s.engine.book side).head level),
    ∃ id, 1 ≤ id ∧ id < s.nextOrderId ∧ s.engine.orderId i = (id : Int) ∧ Queued s.engine id i

theorem queued_iff {c : Config} {s : LimitOrderBook c} {free : List Nat}
    {queue : Side → Nat → List Nat} (rep : Represents s free queue) {id i : Nat} :
    Queued s id i ↔ s.idToIdx id = some i := by
  refine ⟨fun queued => queued.1, fun maps => ⟨maps, ?_⟩⟩
  obtain ⟨-, side, level, inside⟩ := rep.nodes.mapped _ _ maps
  refine ⟨side, level, (rep.nodes.placed _ _ _ inside).level_lt, ?_⟩
  rwa [(rep.nodes.linked side level).chain.walk_eq
    (rep.nodes.queue_length_le side level)]

theorem Synced.inStep {s : Impl} (synced : Synced s) : InStep s := by
  obtain ⟨free, queue, rep⟩ := synced.represents
  refine ⟨fun id low high => ?_, fun side level i walked => ?_⟩
  · have inside : id < s.orders.length := by
      rw [synced.length]
      exact high
    refine ⟨s.orders[id], List.getElem?_eq_getElem inside, ?_, ?_⟩
    · have agree := synced.table id
      rw [Impl.table, List.getElem?_eq_getElem inside, Option.bind_some, LiveOrder.resting,
        LimitOrderBook.resting] at agree
      simp only [queued_iff rep]
      cases maps : s.engine.idToIdx id with
      | none =>
        rw [maps] at agree
        simpa using agree
      | some i =>
        rw [maps, Option.map_some, Option.ite_none_right_eq_some] at agree
        exact iff_of_true agree.1 ⟨i, rfl⟩
    · intro i queued
      have maps := queued.1
      have agree := synced.table id
      rw [Impl.table, List.getElem?_eq_getElem inside, Option.bind_some, LiveOrder.resting,
        LimitOrderBook.resting, maps, Option.map_some, Option.ite_none_right_eq_some,
        Option.some.injEq, Resting.mk.injEq] at agree
      obtain ⟨-, side_eq, price, qty⟩ := agree
      refine ⟨?_, price.symm, qty.symm⟩
      obtain ⟨-, side, level, member⟩ := rep.nodes.mapped _ _ maps
      have placed := rep.nodes.placed _ _ _ member
      rw [placed.sideOf] at side_eq
      rw [placed.side_eq, ← side_eq, LiveOrder.side]
      split <;> rfl
  · rw [(rep.nodes.linked side level).chain.walk_eq
      (rep.nodes.queue_length_le side level)] at walked
    have placed := rep.nodes.placed _ _ _ walked
    have nonneg := (LimitOrderBook.validId_iff.mp placed.id_valid).1
    have rests := rep.nodes.resting_queued walked
    rw [← synced.table] at rests
    obtain ⟨o, found, active, -⟩ := table_eq_some.mp rests
    have small := (List.getElem?_eq_some_iff.mp found).1
    rw [synced.length] at small
    have positive := (synced.activeId found active).1
    exact ⟨(s.engine.orderId i).toNat, Nat.pos_of_ne_zero positive, small,
      (Int.toNat_of_nonneg nonneg).symm, (queued_iff rep).mpr placed.id_maps⟩

theorem table_in_step (ops : List Op) (few : submissions ops < 2 ^ 31) :
    ∃ s log, Runs.run step new ops = some (s, log) ∧ InStep s := by
  obtain ⟨s, log, ran, synced, -⟩ := run_defined few
  exact ⟨s, log, ran, synced.inStep⟩

-- A fill from three makers, a discarded rest, a cancel and a rejected price.
def mixedOps : List Op :=
  [.makeUser "carol", .addBalance 2 2000000 100, .addBid 2 15100 90, .addAskIoc 2 14950 60,
    .cancelBid 2 5, .addAsk 2 9999 5]

theorem table_in_step_mixedOps :
    ∃ s log, Runs.run step new mixedOps = some (s, log) ∧ InStep s :=
  table_in_step mixedOps (by decide)

def LiveOrder.bidLock (v : Nat) (o : LiveOrder) : Money :=
  if o.user = v ∧ o.active = true ∧ o.isBid = true then mulMoney o.limitPrice o.remaining else 0

def LiveOrder.offered (v : Nat) (o : LiveOrder) : Nat :=
  if o.user = v ∧ o.active = true ∧ o.isBid = false then o.remaining.toNat else 0

structure LocksExact (s : Impl) : Prop where
  quote : ∀ v u, s.users[v]? = some u → u.lockedQuote = tally (LiveOrder.bidLock v) s.orders
  base : ∀ v u, s.users[v]? = some u →
    u.lockedBase.toNat = tally (LiveOrder.offered v) s.orders % 2 ^ 32
  bids : ∀ o ∈ s.orders, o.active = true → o.isBid = true →
    o.lockedQuote = mulMoney o.limitPrice o.remaining ∧ o.lockedBase = 0
  asks : ∀ o ∈ s.orders, o.active = true → o.isBid = false →
    o.lockedBase = o.remaining ∧ o.lockedQuote = 0
  closed : ∀ o ∈ s.orders, o.active = false →
    o.remaining = 0 ∧ o.lockedQuote = 0 ∧ o.lockedBase = 0

theorem LiveOrder.Accurate.quoteOf {o : LiveOrder} (accurate : o.Accurate) (v : Nat) :
    o.quoteOf v = o.bidLock v := by
  unfold LiveOrder.quoteOf LiveOrder.bidLock
  cases active : o.active with
  | false => simp [(Accounts.lockedQuote_inactive accurate active).2.1]
  | true =>
    rw [accurate.quote]
    cases o.isBid <;> simp

theorem LiveOrder.Accurate.baseOf {o : LiveOrder} (accurate : o.Accurate) (v : Nat) :
    (o.baseOf v).toNat = o.offered v := by
  unfold LiveOrder.baseOf LiveOrder.offered
  cases active : o.active with
  | false => simp [(Accounts.lockedQuote_inactive accurate active).2.2]
  | true =>
    rw [accurate.base]
    cases o.isBid <;> by_cases mine : o.user = v <;> simp [mine]

theorem Accounts.locked_base {users : List User} {orders : List LiveOrder}
    (accounts : Accounts users orders) {v : Nat} {u : User} (found : users[v]? = some u) :
    u.lockedBase.toNat = tally (LiveOrder.offered v) orders % 2 ^ 32 := by
  rw [accounts.base v u found, tally, LimitOrderBook.toNat_sum, tally]
  congr 2
  exact List.map_congr_left fun o member => (accounts.accurate o member).baseOf v

theorem Accounts.locked_quote {users : List User} {orders : List LiveOrder}
    (accounts : Accounts users orders) {v : Nat} {u : User} (found : users[v]? = some u) :
    u.lockedQuote = tally (LiveOrder.bidLock v) orders := by
  rw [accounts.quote v u found, tally, tally]
  congr 1
  exact List.map_congr_left fun o member => (accounts.accurate o member).quoteOf v

theorem Synced.locksExact {s : Impl} (synced : Synced s) : LocksExact s where
  quote _ _ found := synced.accounts.locked_quote found
  base _ _ found := synced.accounts.locked_base found
  bids o member _ isBid := by
    have accurate := synced.accounts.accurate o member
    rw [accurate.quote, accurate.base, isBid]
    exact ⟨rfl, rfl⟩
  asks o member _ isBid := by
    have accurate := synced.accounts.accurate o member
    rw [accurate.quote, accurate.base, isBid]
    exact ⟨rfl, rfl⟩
  closed o member inactive :=
    Accounts.lockedQuote_inactive (synced.accounts.accurate o member) inactive

theorem locks_exact (ops : List Op) (few : submissions ops < 2 ^ 31) :
    ∃ s log, Runs.run step new ops = some (s, log) ∧ LocksExact s := by
  obtain ⟨s, log, ran, synced, -⟩ := run_defined few
  exact ⟨s, log, ran, synced.locksExact⟩

theorem locks_exact_mixedOps :
    ∃ s log, Runs.run step new mixedOps = some (s, log) ∧ LocksExact s :=
  locks_exact mixedOps (by decide)

/-- What a failed operation may leave behind: statistics, a used id and a closed record. -/
structure Untouched (s s' : Impl) : Prop where
  users : s'.users = s.users
  engine : s'.engine = s.engine
  orders : ∀ id < s.orders.length, s'.orders[id]? = s.orders[id]?
  fresh : ∀ id o, s.orders.length ≤ id → s'.orders[id]? = some o → o.active = false
  nameToId : s'.nameToId = s.nameToId
  tradeLogEnabled : s'.tradeLogEnabled = s.tradeLogEnabled
  tradeLog : s'.tradeLog = s.tradeLog
  tradeLogSize : s'.tradeLogSize = s.tradeLogSize
  tradeLogHead : s'.tradeLogHead = s.tradeLogHead

theorem untouched_stats (s : Impl) (stats : Stats) : Untouched s { s with stats := stats } := by
  refine ⟨rfl, rfl, fun _ _ => rfl, fun id o beyond found => ?_, rfl, rfl, rfl, rfl, rfl⟩
  have := (List.getElem?_eq_some_iff.mp found).1
  exact absurd this (Nat.not_lt.mpr beyond)

theorem submit_refused_untouched {s s' : Impl} (synced : Synced s) {sub : Submission}
    (submitted : s.submits sub = some (s', none)) : Untouched s s' := by
  rcases submit_cases synced submitted with ⟨-, -, rfl⟩ | ⟨-, -, ⟨-, -, rfl⟩ | ⟨-, -, reply, -⟩⟩
  · exact untouched_stats s _
  · refine ⟨rfl, rfl, fun id old => ?_, fun id o beyond found => ?_, rfl, rfl, rfl, rfl, rfl⟩
    · exact List.getElem?_append_left old
    · rcases snoc_eq_some found with old | ⟨-, rfl⟩
      · exact absurd (List.getElem?_eq_some_iff.mp old).1 (Nat.not_lt.mpr beyond)
      · rfl
  · exact absurd reply (by simp)

theorem cancel_refused_untouched {s : Impl} (synced : Synced s) {user id : Nat} {isBid : Bool}
    (refused : (s.cancel user id isBid).2 = false) : Untouched s (s.cancel user id isBid).1 := by
  rcases cancel_cases synced user id isBid with ⟨-, same⟩ | ⟨o, -, done⟩
  · rw [same]
    exact untouched_stats s _
  · rw [done] at refused
    exact absurd refused (by simp)

theorem step_refused_untouched {s s' : Impl} (synced : Synced s) {op : Op} {reply : Reply}
    (stepped : step s op = some (s', reply)) (refused : reply = .order none ∨ reply = .flag false) :
    Untouched s s' := by
  rcases step_cases stepped with ⟨name, -, -, rfl⟩ | ⟨user, quoteDelta, baseDelta, -, rfl, rfl⟩ |
    ⟨sub, result, -, submitted, rfl⟩ | ⟨user, id, isBid, -, rfl, rfl⟩ | ⟨-, -, rfl, -⟩
  · simp at refused
  · rcases addBalance_cases s user quoteDelta baseDelta with ⟨-, same⟩ | ⟨u, users, -, done, -⟩
    · rw [same]
      exact untouched_stats s s.stats
    · rw [done] at refused
      simp at refused
  · obtain rfl : result = none := by simpa using refused
    exact submit_refused_untouched synced submitted
  · exact cancel_refused_untouched synced (by simpa using refused)
  · simp at refused

theorem engine_fails_clean {s : Impl} (synced : Synced s) {side : Side} {price : Price} {qty : Qty}
    {outcome : LimitOrderBook.Outcome Engine}
    (processed : s.engine.processOrder side price qty (toInt s.nextOrderId) = some outcome)
    (failed : outcome.ok = false) : outcome.executions = [] ∧ outcome.book = s.engine := by
  by_cases accepts : Accepts Engine price qty (toInt s.nextOrderId)
  · obtain ⟨free, queue, rep⟩ := synced.represents
    have sameId := (toInt_valid synced.bounded accepts.2.2).1
    have fresh : s.engine.resting (toInt s.nextOrderId).toNat = none := by
      rw [sameId]
      exact synced.fresh
    obtain ⟨outcome', after, remaining, processed', spec⟩ :=
      LimitOrderBook.processOrder_processed rep side accepts fresh
    obtain rfl : outcome = outcome' := by simpa [processed] using processed'
    rw [spec.ok] at failed
    exact absurd failed (by decide)
  · rw [LimitOrderBook.processOrder_rejects accepts] at processed
    obtain rfl := Option.some.inj processed
    exact ⟨rfl, rfl⟩

theorem rejections_atomic (ops : List Op) (few : submissions ops < 2 ^ 31) :
    ∃ s log, Runs.run step new ops = some (s, log) ∧
      (∀ op, ∃ s' reply, step s op = some (s', reply) ∧
        (reply = .order none ∨ reply = .flag false → Untouched s s')) ∧
      (∀ side price qty, ∃ outcome,
        s.engine.processOrder side price qty (toInt s.nextOrderId) = some outcome ∧
        (outcome.ok = false → outcome.executions = [] ∧ outcome.book = s.engine)) ∧
      ∀ id o, s.orders[id]? = some o → o.active = true → (s.engine.cancel (toInt id)).2 = true := by
  obtain ⟨s, log, ran, synced, bound⟩ := run_defined few
  refine ⟨s, log, ran, fun op => ?_, fun side price qty => ?_, fun id o found active =>
    (engine_cancel synced found active).1⟩
  · obtain ⟨s', reply, stepped⟩ := step_defined synced (by omega) op
    exact ⟨s', reply, stepped, step_refused_untouched synced stepped⟩
  · obtain ⟨free, queue, rep⟩ := synced.represents
    obtain ⟨outcome, processed, -⟩ := LimitOrderBook.processOrder_represents rep side price qty
      (toInt s.nextOrderId)
    exact ⟨outcome, processed, engine_fails_clean synced processed⟩

theorem rejections_atomic_mixedOps :
    ∃ s log, Runs.run step new mixedOps = some (s, log) ∧
      (∀ op, ∃ s' reply, step s op = some (s', reply) ∧
        (reply = .order none ∨ reply = .flag false → Untouched s s')) ∧
      (∀ side price qty, ∃ outcome,
        s.engine.processOrder side price qty (toInt s.nextOrderId) = some outcome ∧
        (outcome.ok = false → outcome.executions = [] ∧ outcome.book = s.engine)) ∧
      ∀ id o, s.orders[id]? = some o → o.active = true → (s.engine.cancel (toInt id)).2 = true :=
  rejections_atomic mixedOps (by decide)

end OrderBook

end CppPractice
