import CppPractice.Engine.InPlace
import CppPractice.Engine.Refinement
import CppPractice.Engine.Totals

set_option autoImplicit false

namespace CppPractice.LimitOrderBook

open Reference (Order reduce)

variable {c : Config}

/-- The same orders in the same queues, wherever their nodes lie. -/
structure Alike (s t : LimitOrderBook c) : Prop where
  left : ∃ free queue, Represents s free queue
  right : ∃ free queue, Represents t free queue
  orders : ∀ side level, t.ordersAt side level = s.ordersAt side level
  occupied : ∀ side level, t.isOccupied side level = s.isOccupied side level

section

variable {s t : LimitOrderBook c} {free free' : List Nat} {queue queue' : Side → Nat → List Nat}

theorem levelQty_congr (rep : Represents s free queue) (rep' : Represents t free' queue')
    {side : Side} {level : Nat} (same : t.ordersAt side level = s.ordersAt side level) :
    (t.book side).levelQty level = (s.book side).levelQty level := by
  refine BitVec.eq_of_toNat_eq ?_
  rw [rep.levelQty_toNat, rep'.levelQty_toNat, restingQty, restingQty, same]

theorem resting_congr (rep : Represents s free queue) (rep' : Represents t free' queue')
    (same : ∀ side level, t.ordersAt side level = s.ordersAt side level) :
    t.resting = s.resting := by
  funext id
  refine Option.ext fun r => ?_
  rw [rep.resting_iff, rep'.resting_iff, same]

end

namespace Alike

variable {s t : LimitOrderBook c}

theorem best (alike : Alike s t) (side : Side) : t.best side = s.best side := by
  obtain ⟨free, queue, rep⟩ := alike.left
  obtain ⟨free', queue', rep'⟩ := alike.right
  refine Option.ext fun level => ?_
  rw [rep.best_eq_some, rep'.best_eq_some]
  simp only [alike.occupied]

theorem resting (alike : Alike s t) : t.resting = s.resting := by
  obtain ⟨free, queue, rep⟩ := alike.left
  obtain ⟨free', queue', rep'⟩ := alike.right
  exact resting_congr rep rep' alike.orders

theorem bestPrice (alike : Alike s t) (side : Side) : t.bestPrice side = s.bestPrice side := by
  rw [LimitOrderBook.bestPrice, LimitOrderBook.bestPrice, alike.best]

theorem levelQuantity (alike : Alike s t) (side : Side) (price : Int) :
    t.levelQuantity side price = s.levelQuantity side price := by
  obtain ⟨free, queue, rep⟩ := alike.left
  obtain ⟨free', queue', rep'⟩ := alike.right
  rw [LimitOrderBook.levelQuantity, LimitOrderBook.levelQuantity,
    levelQty_congr rep rep' (alike.orders side _)]

end Alike

def Matching.tradeQty (m : Matching c) (i : Nat) : c.Qty :=
  if m.book.orderQty i < m.remaining then m.book.orderQty i else m.remaining

theorem Trading.traded {side : Side} {price : Int} {m : Matching c} {free : List Nat}
    {queue : Side → Nat → List Nat} {best i : Nat}
    (trading : Trading side price m free queue best i) (orderId : Int) :
    Traded side orderId m best i (m.tradeQty i) (m.trade side orderId best i) ∧
      ∃ free' queue', Represents (m.trade side orderId best i).book free' queue' := by
  rw [Matching.tradeQty]
  split
  · rename_i short
    obtain ⟨traded, rep⟩ := trading.traded_whole orderId (BitVec.le_of_lt short)
    exact ⟨traded, _, _, rep⟩
  · rename_i long
    by_cases same : m.remaining = m.book.orderQty i
    · obtain ⟨traded, rep⟩ := trading.traded_whole orderId (BitVec.le_of_eq same.symm)
      rw [same]
      exact ⟨traded, _, _, rep⟩
    · obtain ⟨traded, rep⟩ := trading.traded_part orderId
        (BitVec.lt_of_le_ne (BitVec.not_lt.mp long) same)
      exact ⟨traded, _, _, rep⟩

structure Cancelled (s : LimitOrderBook c) (orderId : Int) (side : Side) (level : Nat) : Prop where
  ok : (s.cancel orderId).2 = true
  represents : ∃ free queue, Represents (s.cancel orderId).1 free queue
  rested : ∃ qty, s.resting orderId.toNat = some ⟨side, c.levelToPrice level, qty⟩
  orders : ∀ other at', (s.cancel orderId).1.ordersAt other at' =
    (s.ordersAt other at').filter fun o => decide (o.id ≠ orderId)
  occupied : ∀ other at', (s.cancel orderId).1.isOccupied other at' =
    if other = side ∧ at' = level ∧ ((s.cancel orderId).1.book side).levelQty level = 0 then false
    else s.isOccupied other at'

theorem cancel_cases {s : LimitOrderBook c} {free : List Nat} {queue : Side → Nat → List Nat}
    (rep : Represents s free queue) (orderId : Int) :
    (s.cancel orderId = (s, false) ∧
        (c.validId orderId = false ∨ s.resting orderId.toNat = none)) ∨
      c.validId orderId = true ∧ ∃ side level, Cancelled s orderId side level := by
  rcases cancel_orders rep orderId with ⟨same, unknown⟩ |
    ⟨-, -, -, free', queue', -, -, ok, rep', -, orders⟩
  · exact .inl ⟨same, unknown.imp_right resting_eq_none.mpr⟩
  · rcases cancel_represents rep orderId with ⟨same, -⟩ | ⟨side, level, i, inside, rfl, done, -⟩
    · rw [same] at ok
      exact absurd ok Bool.false_ne_true
    · have placed := rep.nodes.placed _ _ _ inside
      refine .inr ⟨placed.id_valid, side, level, ok, ⟨_, _, rep'⟩,
        ⟨_, rep.nodes.resting_queued inside⟩, orders, fun other at' => ?_⟩
      rw [done]
      exact removed_isOccupied placed other at'

structure AlikeMatching (m n : Matching c) : Prop where
  book : Alike m.book n.book
  remaining : n.remaining = m.remaining
  executions : n.executions = m.executions

section

variable {m n : Matching c} {side : Side} {price orderId : Int}

theorem AlikeMatching.trade (alike : AlikeMatching m n) (orderId : Int) {free : List Nat}
    {queue : Side → Nat → List Nat} {best i : Nat}
    (trading : Trading side price m free queue best i) :
    ∃ j, (n.book.book side.opposite).head best = some j ∧
      AlikeMatching (m.trade side orderId best i) (n.trade side orderId best j) := by
  obtain ⟨free', queue', rep'⟩ := alike.book.right
  obtain ⟨j, head, trading'⟩ := rep'.trading (by rw [alike.remaining]; exact trading.remaining)
    (by rw [alike.book.best, trading.best_eq]) trading.within
  have maker : n.book.orderOf j = m.book.orderOf i := by
    have first := trading'.order
    rw [alike.book.orders, trading.order] at first
    exact (Option.some.inj first).symm
  obtain ⟨id_eq, -, -, qty_eq⟩ := Order.mk.inj maker
  have makerQty := BitVec.eq_of_toNat_eq qty_eq
  have tradeQty : n.tradeQty j = m.tradeQty i := by
    rw [Matching.tradeQty, Matching.tradeQty, makerQty, alike.remaining]
  obtain ⟨traded, free₁, queue₁, rep₁⟩ := trading.traded orderId
  obtain ⟨traded', free₂, queue₂, rep₂⟩ := trading'.traded orderId
  have orders (other : Side) (level : Nat) :
      (n.trade side orderId best j).book.ordersAt other level =
        (m.trade side orderId best i).book.ordersAt other level := by
    rw [traded.orders, traded'.orders, alike.book.orders, id_eq, tradeQty]
  refine ⟨j, head, ⟨⟨_, _, rep₁⟩, ⟨_, _, rep₂⟩, orders, fun other level => ?_⟩, ?_, ?_⟩
  · have placed := trading.rep.nodes.placed _ _ _ trading.mem
    have placed' := trading'.rep.nodes.placed _ _ _ trading'.mem
    have total := levelQty_congr rep₁ rep₂ (orders side.opposite best)
    change (n.book.fillMaker side.opposite best j (n.tradeQty j)).isOccupied other level =
      (m.book.fillMaker side.opposite best i (m.tradeQty i)).isOccupied other level
    change ((n.book.fillMaker side.opposite best j (n.tradeQty j)).book side.opposite).levelQty best
      = ((m.book.fillMaker side.opposite best i (m.tradeQty i)).book side.opposite).levelQty best
      at total
    rw [fillMaker_isOccupied placed, fillMaker_isOccupied placed', total, tradeQty, makerQty,
      alike.book.occupied]
  · rw [traded.remaining, traded'.remaining, alike.remaining, tradeQty]
  · rw [traded.executions, traded'.executions, alike.executions, Matching.execution,
      Matching.execution, id_eq, tradeQty]

theorem AlikeMatching.matchLoop {fuel : Nat} {m' : Matching c} (alike : AlikeMatching m n)
    (ran : LimitOrderBook.matchLoop side price orderId fuel m = some m') :
    ∃ n', LimitOrderBook.matchLoop side price orderId fuel n = some n' ∧
      AlikeMatching m' n' := by
  induction fuel generalizing m n with
  | zero => simp [LimitOrderBook.matchLoop, matchTrace] at ran
  | succ fuel ih =>
    rw [LimitOrderBook.matchLoop, matchTrace] at ran ⊢
    dsimp only at ran ⊢
    rw [alike.remaining, alike.book.best]
    by_cases done : m.remaining = 0
    · rw [if_pos done] at ran ⊢
      exact ⟨n, rfl, Option.some.inj ran ▸ alike⟩
    rw [if_neg done] at ran ⊢
    cases cached : m.book.best side.opposite with
    | none =>
      rw [cached] at ran
      exact ⟨n, rfl, Option.some.inj ran ▸ alike⟩
    | some best =>
      rw [cached] at ran
      dsimp only at ran ⊢
      by_cases past : side.opposite.beyond (c.levelToPrice best) price = true
      · rw [if_pos past] at ran ⊢
        exact ⟨n, rfl, Option.some.inj ran ▸ alike⟩
      · rw [if_neg past] at ran ⊢
        obtain ⟨free, queue, rep⟩ := alike.book.left
        obtain ⟨i, head, trading⟩ := rep.trading done cached (Bool.eq_false_iff.mpr past)
        obtain ⟨j, head', next⟩ := alike.trade orderId trading
        rw [head] at ran
        rw [head']
        exact ih next ran

theorem AlikeMatching.finish (alike : AlikeMatching m n) (inRange : c.inRange price = true)
    (valid : c.validId orderId = true) :
    Alike (LimitOrderBook.finish m side price orderId).book
        (LimitOrderBook.finish n side price orderId).book ∧
      (LimitOrderBook.finish n side price orderId).ok =
        (LimitOrderBook.finish m side price orderId).ok ∧
      (LimitOrderBook.finish n side price orderId).executions =
        (LimitOrderBook.finish m side price orderId).executions := by
  by_cases done : m.remaining = 0
  · rw [finish_done done, finish_done (alike.remaining.trans done)]
    exact ⟨alike.book, rfl, alike.executions⟩
  have left : n.remaining ≠ 0 := by rwa [alike.remaining]
  obtain ⟨free, queue, rep⟩ := alike.book.left
  obtain ⟨free', queue', rep'⟩ := alike.book.right
  have same := congrFun alike.book.resting orderId.toNat
  cases known : m.book.resting orderId.toNat with
  | some r =>
    have taken (s : LimitOrderBook c) (found : s.resting orderId.toNat = some r) :
        s.allocOrder orderId = none := by
      have busy : s.idToIdx orderId.toNat ≠ none := by
        rw [ne_eq, ← resting_eq_none, found]
        exact Option.some_ne_none r
      rw [allocOrder, if_neg (by simp [valid]), if_pos busy]
    rw [finish_refused done (taken _ known), finish_refused left (taken _ (same.trans known))]
    exact ⟨alike.book, rfl, alike.executions⟩
  | none =>
    obtain ⟨s, i, alloc⟩ := rep.alloc_fresh valid (resting_eq_none.mp known)
    obtain ⟨t, j, alloc'⟩ := rep'.alloc_fresh valid (resting_eq_none.mp (same.trans known))
    rw [finish_rested done alloc, finish_rested left alloc', alike.remaining]
    obtain ⟨rest, rested⟩ := restOrder_represents rep side inRange done alloc
    obtain ⟨rest', rested'⟩ := restOrder_represents rep' side inRange done alloc'
    refine ⟨⟨⟨_, _, rested⟩, ⟨_, _, rested'⟩, fun other level => ?_, fun other level => ?_⟩, rfl,
      alike.executions⟩
    · rw [rested_ordersAt rep side inRange done alloc,
        rested_ordersAt rep' side inRange done alloc', alike.book.orders]
    · rw [rested_isOccupied alloc, rested_isOccupied alloc', alike.book.occupied]

end

namespace Alike

variable {s t : LimitOrderBook c}

theorem processOrder {side : Side} {price orderId : Int} {qty : c.Qty} {outcome : Outcome c}
    (alike : Alike s t) (ran : s.processOrder side price qty orderId = some outcome) :
    ∃ outcome', t.processOrder side price qty orderId = some outcome' ∧
      Alike outcome.book outcome'.book ∧ outcome'.ok = outcome.ok ∧
      outcome'.executions = outcome.executions := by
  by_cases accepts : Accepts c price qty orderId
  · rw [processOrder_accepts accepts] at ran ⊢
    obtain ⟨m, looped, rfl⟩ := Option.map_eq_some_iff.mp ran
    obtain ⟨n, looped', next⟩ :=
      (⟨alike, rfl, rfl⟩ : AlikeMatching ⟨s, qty, []⟩ ⟨t, qty, []⟩).matchLoop looped
    rw [looped']
    exact ⟨_, rfl, next.finish accepts.2.1 accepts.2.2⟩
  · rw [processOrder_rejects accepts] at ran ⊢
    obtain rfl := Option.some.inj ran
    exact ⟨_, rfl, alike, rfl, rfl⟩

theorem cancel (alike : Alike s t) (orderId : Int) :
    (t.cancel orderId).2 = (s.cancel orderId).2 ∧
      Alike (s.cancel orderId).1 (t.cancel orderId).1 := by
  obtain ⟨free, queue, rep⟩ := alike.left
  obtain ⟨free', queue', rep'⟩ := alike.right
  have known := congrFun alike.resting orderId.toNat
  rcases cancel_cases rep orderId with ⟨same, unknown⟩ | ⟨valid, side, level, done⟩ <;>
    rcases cancel_cases rep' orderId with ⟨same', unknown'⟩ | ⟨valid', side', level', done'⟩
  · rw [same, same']
    exact ⟨rfl, alike⟩
  · obtain ⟨qty, rested⟩ := done'.rested
    rw [← known, rested, valid'] at unknown
    simp at unknown
  · obtain ⟨qty, rested⟩ := done.rested
    rw [known, rested, valid] at unknown'
    simp at unknown'
  · obtain ⟨qty, rested⟩ := done.rested
    obtain ⟨qty', rested'⟩ := done'.rested
    rw [known, rested] at rested'
    obtain ⟨rfl, price, -⟩ := Resting.mk.inj (Option.some.inj rested')
    obtain rfl := levelToPrice_injective price
    obtain ⟨_, _, rep₁⟩ := done.represents
    obtain ⟨_, _, rep₂⟩ := done'.represents
    have orders (other : Side) (at' : Nat) : (t.cancel orderId).1.ordersAt other at' =
        (s.cancel orderId).1.ordersAt other at' := by
      rw [done.orders, done'.orders, alike.orders]
    refine ⟨done'.ok.trans done.ok.symm, ⟨_, _, rep₁⟩, ⟨_, _, rep₂⟩, orders, fun other at' => ?_⟩
    rw [done.occupied, done'.occupied, levelQty_congr rep₁ rep₂ (orders side level), alike.occupied]

theorem reset (s t : LimitOrderBook c) : Alike s.reset t.reset where
  left := ⟨_, _, reset_represents s⟩
  right := ⟨_, _, reset_represents t⟩
  orders side level := by rw [reset_ordersAt, reset_ordersAt]
  occupied _ _ := rfl

theorem step {call : Call c} {s' : LimitOrderBook c} {reply : Reply c.Qty} (alike : Alike s t)
    (stepped : s.step call = some (s', reply)) :
    ∃ t', t.step call = some (t', reply) ∧ Alike s' t' := by
  cases call with
  | processOrder side price qty orderId =>
    obtain ⟨outcome, ran, same⟩ := Option.map_eq_some_iff.mp stepped
    obtain ⟨rfl, rfl⟩ := Prod.mk.inj same
    obtain ⟨outcome', ran', next, ok, executions⟩ := alike.processOrder ran
    refine ⟨outcome'.book, ?_, next⟩
    rw [LimitOrderBook.step, ran', Option.map_some, ok, executions]
  | cancel orderId =>
    obtain ⟨rfl, rfl⟩ := Prod.mk.inj (Option.some.inj stepped)
    obtain ⟨reply, next⟩ := alike.cancel orderId
    exact ⟨_, by rw [LimitOrderBook.step, reply], next⟩
  | reset =>
    obtain ⟨rfl, rfl⟩ := Prod.mk.inj (Option.some.inj stepped)
    exact ⟨_, rfl, reset s t⟩

theorem run {calls : List (Call c)} {s' : LimitOrderBook c} {log : List (Call c × Reply c.Qty)}
    (alike : Alike s t) (ran : Runs.run LimitOrderBook.step s calls = some (s', log)) :
    ∃ t', Runs.run LimitOrderBook.step t calls = some (t', log) ∧ Alike s' t' :=
  Runs.run_lockstep (J := Alike) (C := fun _ _ => True)
    (fun s t call s' reply alike stepped => by
      obtain ⟨t', stepped', next⟩ := alike.step stepped
      exact ⟨t', stepped', fun _ => next⟩) alike (fun _ _ _ _ _ _ _ => trivial) ran

end Alike

/-- Whatever is called from here on, two states give the same replies and show the same market. -/
def SameAnswers (s t : LimitOrderBook c) : Prop :=
  ∀ calls, ∃ s' t' log, Runs.run step s calls = some (s', log) ∧
    Runs.run step t calls = some (t', log) ∧
    ∀ side, t'.bestPrice side = s'.bestPrice side ∧
      ∀ price, t'.levelQuantity side price = s'.levelQuantity side price

theorem Alike.sameAnswers {s t : LimitOrderBook c} (alike : Alike s t) : SameAnswers s t := by
  intro calls
  obtain ⟨s', log, ran, -⟩ : ∃ s' log, Runs.run LimitOrderBook.step s calls = some (s', log) ∧
      ∃ free queue, Represents s' free queue :=
    Runs.run_total (P := fun _ s => ∃ free queue, Represents s free queue)
      (C := fun _ => True) alike.left (fun _ _ _ => trivial)
      (fun _ s call _ ⟨_, _, rep⟩ => step_represents rep call) trivial
  obtain ⟨t', ran', same⟩ := alike.run ran
  exact ⟨s', t', log, ran, ran', fun side => ⟨same.bestPrice side, same.levelQuantity side⟩⟩

theorem equal_queues_same_answers {start start' s t : LimitOrderBook c} {calls calls' : List (Call c)}
    {log log' : List (Call c × Reply c.Qty)}
    (ran : Runs.run step start.reset calls = some (s, log))
    (ran' : Runs.run step start'.reset calls' = some (t, log'))
    (orders : ∀ side level, t.ordersAt side level = s.ordersAt side level)
    (occupied : ∀ side level, t.isOccupied side level = s.isOccupied side level) :
    SameAnswers s t := by
  obtain ⟨s₀, _, run₀, rep⟩ := run_represents start calls
  obtain ⟨t₀, _, run₁, rep'⟩ := run_represents start' calls'
  obtain ⟨rfl, -⟩ := Prod.mk.inj (Option.some.inj (run₀.symm.trans ran))
  obtain ⟨rfl, -⟩ := Prod.mk.inj (Option.some.inj (run₁.symm.trans ran'))
  exact Alike.sameAnswers ⟨rep, rep', orders, occupied⟩

/--
`reset` leaves ids, prices and sides of the pool nodes as they are, and still no later
answer shows what the book held before: it is as good as a new one.
-/
theorem reset_like_new (s : LimitOrderBook c) : SameAnswers s.reset (LimitOrderBook.new c) :=
  (Alike.reset s _).sameAnswers

theorem processOrder_quiet {s : LimitOrderBook c} {free : List Nat}
    {queue : Side → Nat → List Nat} (rep : Represents s free queue) {side : Side}
    {price orderId : Int} {qty : c.Qty} {outcome : Outcome c}
    (processed : s.processOrder side price qty orderId = some outcome) (ok : outcome.ok = true)
    (quiet : outcome.executions = []) :
    qty ≠ 0 ∧ c.inRange price = true ∧ ∃ s' i, s.allocOrder orderId = some (s', i) ∧
      outcome.book = s'.restOrder side price qty orderId i := by
  by_cases accepts : Accepts c price qty orderId
  · obtain ⟨m, -, -, ran, -, still, -⟩ := processOrder_trades rep side accepts
      (I := fun m => m.executions = [] → m.book = s ∧ m.remaining = qty) (fun _ => ⟨rfl, rfl⟩)
      fun m _ _ _ _ _ m' _ _ _ traded _ _ none => by
        rw [traded.executions] at none
        exact absurd none (by simp)
    obtain rfl := Option.some.inj (ran.symm.trans processed)
    have none : m.executions = [] := by
      unfold LimitOrderBook.finish at quiet
      split at quiet
      · exact quiet
      · split at quiet <;> exact quiet
    obtain ⟨rfl, rfl⟩ := still none
    refine ⟨accepts.1, accepts.2.1, ?_⟩
    cases alloc : m.book.allocOrder orderId with
    | none =>
      rw [finish_refused accepts.1 alloc] at ok
      exact absurd ok Bool.false_ne_true
    | some found =>
      rw [finish_rested accepts.1 alloc]
      exact ⟨found.1, found.2, rfl, rfl⟩
  · rw [processOrder_rejects accepts] at processed
    obtain rfl := Option.some.inj processed
    exact absurd ok Bool.false_ne_true

theorem rest_cancel_alike {s : LimitOrderBook c} (tidy : Tidy s) {side : Side}
    {price orderId : Int} {qty : c.Qty} {outcome : Outcome c}
    (processed : s.processOrder side price qty orderId = some outcome) (ok : outcome.ok = true)
    (quiet : outcome.executions = []) :
    (outcome.book.cancel orderId).2 = true ∧ Alike s (outcome.book.cancel orderId).1 := by
  obtain ⟨free, queue, rep⟩ := tidy.represents
  obtain ⟨positive, inRange, s', i, alloc, book⟩ := processOrder_quiet rep processed ok quiet
  obtain ⟨valid, unknown, -, -⟩ := allocOrder_eq_some.mp alloc
  obtain ⟨rest, rested⟩ := restOrder_represents rep side inRange positive alloc
  rw [← book] at rested
  have here : outcome.book.resting orderId.toNat = some ⟨side, price, qty⟩ := by
    rw [book, rested_resting rep.nodes alloc, Function.update_self]
  rcases cancel_cases rested orderId with ⟨-, invalid | absent⟩ | ⟨-, side', level, done⟩
  · rw [valid] at invalid
    exact absurd invalid (by decide)
  · rw [here] at absent
    exact absurd absent (by simp)
  · refine ⟨done.ok, ?_⟩
    obtain ⟨qty', there⟩ := done.rested
    rw [here] at there
    obtain ⟨rfl, rfl, -⟩ := Resting.mk.inj (Option.some.inj there)
    obtain ⟨_, _, left⟩ := done.represents
    have orders (other : Side) (at' : Nat) :
        (outcome.book.cancel orderId).1.ordersAt other at' = s.ordersAt other at' := by
      have old : ((s.ordersAt other at').filter fun o => decide (o.id ≠ orderId)) =
          s.ordersAt other at' := by
        refine List.filter_eq_self.mpr fun o member => decide_eq_true ?_
        rintro rfl
        exact absent_idsAt rep (resting_eq_none.mpr unknown) other at'
          (List.mem_map.mpr ⟨o, member, rfl⟩)
      rw [done.orders, book, rested_ordersAt rep side inRange positive alloc, List.filter_append,
        old]
      split <;> simp
    refine ⟨tidy.represents, ⟨_, _, left⟩, orders, fun other at' => ?_⟩
    rw [done.occupied, levelQty_congr rep left (orders side level), book, rested_isOccupied alloc,
      priceToLevel_levelToPrice]
    by_cases at_level : other = side ∧ at' = level
    · obtain ⟨rfl, rfl⟩ := at_level
      simp only [true_and, if_true]
      rw [eq_comm]
      by_cases empty : (s.book other).levelQty at' = 0
      · rw [if_pos empty, Bool.eq_false_iff, ne_eq, tidy.shown.isOccupied_iff, not_not]
        exact (tidy.levelQty_eq_zero other at').mp empty
      · rw [if_neg empty, tidy.shown.isOccupied_iff]
        exact mt (tidy.levelQty_eq_zero other at').mpr empty
    · rw [if_neg at_level, if_neg fun both => at_level ⟨both.1, both.2.1⟩]

theorem crossingCalls_rest : ∃ s log s', Runs.run step (LimitOrderBook.new fourByFour).reset
    crossingCalls = some (s, log) ∧ s.step (.processOrder .Buy 100 7 3) = some (s', ⟨true, []⟩) := by
  have value : (Runs.run step (LimitOrderBook.new fourByFour).reset crossingCalls).bind
      (fun final => (final.1.step (.processOrder .Buy 100 7 3)).map Prod.snd) =
        some ⟨true, []⟩ := by decide +kernel
  obtain ⟨⟨s, log⟩, ran, answered⟩ := Option.bind_eq_some_iff.mp value
  obtain ⟨⟨s', reply⟩, stepped, rfl⟩ := Option.map_eq_some_iff.mp answered
  exact ⟨s, log, s', ran, stepped⟩

theorem equal_queues_same_answers_crossingCalls :
    ∃ s t log log', Runs.run step (LimitOrderBook.new fourByFour).reset crossingCalls =
        some (s, log) ∧
      Runs.run step (LimitOrderBook.new fourByFour).reset
        (crossingCalls ++ [.processOrder .Buy 100 7 3, .cancel 3]) = some (t, log') ∧
      SameAnswers s t := by
  obtain ⟨s, log, s', ran, rested⟩ := crossingCalls_rest
  have noWrap : NoWrap (LimitOrderBook.new fourByFour).reset crossingCalls := by decide +kernel
  obtain ⟨s₀, _, run₀, tidy⟩ := run_tidy noWrap
  obtain ⟨rfl, -⟩ := Prod.mk.inj (Option.some.inj (run₀.symm.trans ran))
  obtain ⟨outcome, processed, same⟩ := Option.map_eq_some_iff.mp rested
  obtain ⟨rfl, reply⟩ := Prod.mk.inj same
  obtain ⟨ok, quiet⟩ := Reply.mk.inj reply
  obtain ⟨-, alike⟩ := rest_cancel_alike tidy processed ok quiet
  have back : Runs.run step s₀ [.processOrder .Buy 100 7 3, .cancel 3] =
      some ((outcome.book.cancel 3).1, [(.processOrder .Buy 100 7 3, ⟨true, []⟩),
        (.cancel 3, ⟨(outcome.book.cancel 3).2, []⟩)]) := by
    rw [Runs.run, rested, Option.bind_some]
    rfl
  obtain ⟨log', ran'⟩ : ∃ log', Runs.run step (LimitOrderBook.new fourByFour).reset
      (crossingCalls ++ [.processOrder .Buy 100 7 3, .cancel 3]) =
        some ((outcome.book.cancel 3).1, log') := by
    rw [Runs.run_append, ran, Option.bind_some, back]
    exact ⟨_, rfl⟩
  exact ⟨s₀, _, log, _, ran, ran', equal_queues_same_answers ran ran' alike.orders alike.occupied⟩

theorem rest_then_cancel {start s s' : LimitOrderBook c} {calls : List (Call c)}
    {log : List (Call c × Reply c.Qty)} (noWrap : NoWrap start.reset calls)
    (ran : Runs.run step start.reset calls = some (s, log)) {side : Side} {price orderId : Int}
    {qty : c.Qty} (rested : s.step (.processOrder side price qty orderId) = some (s', ⟨true, []⟩)) :
    ∃ t, s'.step (.cancel orderId) = some (t, ⟨true, []⟩) ∧ SameAnswers s t := by
  obtain ⟨s₀, _, run₀, tidy⟩ := run_tidy noWrap
  obtain ⟨rfl, -⟩ := Prod.mk.inj (Option.some.inj (run₀.symm.trans ran))
  obtain ⟨outcome, processed, same⟩ := Option.map_eq_some_iff.mp rested
  obtain ⟨rfl, reply⟩ := Prod.mk.inj same
  obtain ⟨ok, quiet⟩ := Reply.mk.inj reply
  obtain ⟨cancels, alike⟩ := rest_cancel_alike tidy processed ok quiet
  exact ⟨_, by rw [step, cancels], alike.sameAnswers⟩

theorem rest_then_cancel_crossingCalls :
    ∃ s log s' t, Runs.run step (LimitOrderBook.new fourByFour).reset crossingCalls =
        some (s, log) ∧
      s.step (.processOrder .Buy 100 7 3) = some (s', ⟨true, []⟩) ∧
      s'.step (.cancel 3) = some (t, ⟨true, []⟩) ∧ SameAnswers s t := by
  obtain ⟨s, log, s', ran, rested⟩ := crossingCalls_rest
  obtain ⟨t, cancels, same⟩ := rest_then_cancel (by decide +kernel) ran rested
  exact ⟨s, log, s', t, ran, rested, cancels, same⟩

end CppPractice.LimitOrderBook
