import CppPractice.Engine.Immediate
import CppPractice.Wrapper.Executions
import CppPractice.Wrapper.OpenOrders

set_option autoImplicit false

namespace CppPractice.OrderBook

open LimitOrderBook (Accepts Matched Processed SameSide Small Tidy inRange_levelToPrice mem_ordersAt
  mem_withinLimit)
open Reference (Order)
open Tally (tally tally_eq_sum)

def OwnKept (s t : Impl) (side : Side) (id : Nat) : Prop :=
  ∀ other o, other ≠ id → s.orders[other]? = some o →
    ∃ o', t.orders[other]? = some o' ∧ o'.side = o.side ∧ (o.side = side → o' = o)

structure Discarded (s s' : Impl) (side : Side) (price : Price) (qty : Qty) (id : Nat)
    (outcome : LimitOrderBook.Outcome Engine) (m : LimitOrderBook Engine) : Prop where
  accepts : Accepts Engine price qty id
  answered : s.engine.processOrder side price qty id = some outcome
  matched : Matched s.engine side id m
  opposite : ∀ level, outcome.book.ordersAt side.opposite level = m.ordersAt side.opposite level
  synced : Synced s'
  next : s'.nextOrderId = id + 1
  users : s'.users.length = s.users.length
  tidy : Tidy s'.engine
  orders : ∀ other at', s'.engine.ordersAt other at' = m.ordersAt other at'
  own : OwnKept s s' side id

section

variable {s s' t : Impl} {side : Side} {user : Nat} {price : Price} {qty : Qty} {id : Nat}

theorem OwnKept.settle {e : Execution Qty} {maker taker : LiveOrder} (kept : OwnKept s t side id)
    (settles : Settles t s' id e maker taker) (taking : taker.side = side) :
    OwnKept s s' side id := by
  intro other o apart found
  obtain ⟨o', now, sameSide, same⟩ := kept other o apart found
  rw [settles.orders, List.getElem?_set_ne (Ne.symm apart)]
  by_cases here : toOrderId e.makerOrderId = other
  · subst here
    obtain rfl := Option.some.inj (settles.makerAt.symm.trans now)
    refine ⟨maker.fill e.qty, List.getElem?_set_self (List.getElem?_eq_some_iff.mp now).1, ?_, ?_⟩
    · rw [LiveOrder.fill_side, sameSide]
    · intro mine
      have opposite := settles.opposite
      rw [sameSide, mine, taking] at opposite
      exact absurd opposite (by cases side <;> decide)
  · rw [List.getElem?_set_ne here]
    exact ⟨o', now, sameSide, same⟩

theorem submit_discards (synced : Synced s) (tidy : Tidy s.engine)
    (submitted : s.submit side user price qty true = some (s', some id)) :
    s.Admits side user price qty ∧ id = s.nextOrderId ∧ toInt id = id ∧
      ∃ outcome m, Discarded s s' side price qty id outcome m := by
  rcases submit_cases synced submitted with ⟨-, none, -⟩ | ⟨admits, room, ⟨-, none, -⟩ |
    ⟨accepts, sameId, same, outcome, after, remaining, answered, processed, rfl⟩⟩
  · exact absurd none (by simp)
  · exact absurd none (by simp)
  · obtain rfl := Option.some.inj same
    obtain ⟨m, matched, without, opposite⟩ := tidy.without accepts synced.fresh answered
    have shown := tidy.processOrder answered
    obtain ⟨free, queue, rep⟩ := shown.represents
    have small {book : LimitOrderBook Engine} (orders : ∀ other at',
        book.ordersAt other at' = m.ordersAt other at') : Small book := by
      intro other at'
      rw [LimitOrderBook.restingQty, orders]
      exact matched.small other at'
    obtain ⟨t, ⟨own, users⟩, syncedT, book, next, ends⟩ :=
      accepted_rule synced admits room sameId processed true
        (J := fun _ t => OwnKept s t side s.nextOrderId ∧ t.users.length = s.users.length)
        (fun _ _ => ⟨fun other o apart found => ⟨o, (opened_others synced apart).trans found, rfl,
          fun _ => rfl⟩, List.length_modify ..⟩)
        (fun _ _ _ _ _ kept settles taking => ⟨kept.1.settle settles taking.2.1,
          settles.moves.length.trans kept.2⟩)
    refine ⟨admits, rfl, sameId, outcome, m, ?_⟩
    rcases ends with ⟨whole, ends⟩ | ⟨-, -, o, cancels, ends⟩
    · have done : remaining = 0 := by
        by_contra left
        exact whole ⟨rfl, left⟩
      have absent : outcome.book.resting (s.nextOrderId : Int).toNat = none := by
        rw [processed.rests, if_pos done]
        exact processed.fills.absent synced.fresh
      have orders : ∀ other at', t.engine.ordersAt other at' = m.ordersAt other at' := by
        intro other at'
        rw [book, ← LimitOrderBook.ordersWithout_fresh rep absent, without]
      rw [ends]
      refine ⟨accepts, answered, matched, opposite, syncedT.countAccepted, next, users, ?_, orders,
        own⟩
      change Tidy t.engine
      rw [book] at orders ⊢
      exact shown.tidy (small orders)
    · have orders : ∀ other at', (t.engine.cancel (toInt s.nextOrderId)).1.ordersAt other at' =
          m.ordersAt other at' := by
        intro other at'
        rw [book, sameId, LimitOrderBook.cancel_ordersAt rep accepts.2.2, without]
      rw [ends]
      refine ⟨accepts, answered, matched, opposite, (cancelled_synced syncedT cancels).countAccepted,
        next, (List.length_modify ..).trans users, ?_, orders, fun other o apart found => ?_⟩
      · change Tidy (t.engine.cancel (toInt s.nextOrderId)).1
        rw [book] at orders ⊢
        exact shown.cancel (small orders)
      · change ∃ o', (t.orders.set s.nextOrderId _)[other]? = some o' ∧ _
        rw [List.getElem?_set_ne (Ne.symm apart)]
        exact own other o apart found

namespace Discarded

variable {outcome : LimitOrderBook.Outcome Engine} {m : LimitOrderBook Engine}

theorem gone (discarded : Discarded s s' side price qty id outcome m) (other : Side) (at' : Nat) :
    ∀ o ∈ s'.engine.ordersAt other at', o.id ≠ id := by
  intro o member
  rw [discarded.orders] at member
  exact discarded.matched.absent other at' o member

theorem inactive (discarded : Discarded s s' side price qty id outcome m) :
    ∃ o, s'.orders[id]? = some o ∧ o.active = false := by
  obtain ⟨free, queue, rep⟩ := discarded.synced.represents
  have inside : id < s'.orders.length := by
    rw [discarded.synced.length, discarded.next]
    exact Nat.lt_succ_self id
  refine ⟨_, List.getElem?_eq_getElem inside, ?_⟩
  by_contra active
  have rests := discarded.synced.resting (List.getElem?_eq_getElem inside) (by simpa using active)
  exact discarded.gone _ _ _ (rep.resting_iff.mp rests) rfl

theorem same_tally {M : Type} [AddCommMonoid M] (synced : Synced s) (next : id = s.nextOrderId)
    (discarded : Discarded s s' side price qty id outcome m) {f : LiveOrder → M}
    (others : ∀ o, o.Accurate → o.side ≠ side → f o = 0)
    (closed : ∀ o, o.Accurate → o.active = false → f o = 0) :
    tally f s'.orders = tally f s.orders := by
  obtain ⟨o, found, inactive⟩ := discarded.inactive
  have accurate := discarded.synced.accounts.accurate
  have length : s'.orders.length = s.orders.length + 1 := by
    rw [discarded.synced.length, discarded.next, synced.length, next]
  rw [tally_eq_sum, tally_eq_sum, length, Finset.sum_range_succ, synced.length, ← next, found,
    Option.elim_some, closed o (accurate o (List.mem_of_getElem? found)) inactive, add_zero]
  refine Finset.sum_congr rfl fun i member => ?_
  have below := Finset.mem_range.mp member
  have inside : i < s.orders.length := by
    rw [synced.length, ← next]
    exact below
  have here := List.getElem?_eq_getElem inside
  obtain ⟨o', now, sameSide, same⟩ := discarded.own i _ (Nat.ne_of_lt below) here
  rw [now, here, Option.elim_some, Option.elim_some]
  by_cases mine : s.orders[i].side = side
  · rw [same mine]
  · rw [others _ (synced.accounts.accurate _ (List.mem_of_getElem? here)) mine,
      others _ (accurate o' (List.mem_of_getElem? now)) (by rwa [sameSide])]

-- The plain limit order ends in the book that the discarded one is cancelled from.
theorem plain (synced : Synced s) (tidy : Tidy s.engine) (admits : s.Admits side user price qty)
    (next : id = s.nextOrderId) (discarded : Discarded s s' side price qty id outcome m) :
    ∃ plain, s.submit side user price qty false = some (plain, some id) ∧
      SameSide plain.engine s'.engine side.opposite := by
  subst next
  have valid := (LimitOrderBook.validId_iff.mp discarded.accepts.2.2).2
  have small : s.nextOrderId < 1000000 := valid
  obtain ⟨⟨plain, reply⟩, submitted⟩ :=
    submit_defined synced (by omega) side user price qty false
  refine ⟨plain, ?_⟩
  rcases submit_cases synced submitted with ⟨refused, -⟩ | ⟨-, room, ⟨rejects, -⟩ |
    ⟨-, sameId, rfl, outcome', after, remaining, answered, processed, ends⟩⟩
  · exact absurd admits refused
  · rw [toInt_small (by omega)] at rejects
    exact absurd discarded.accepts rejects
  · refine ⟨submitted, ?_⟩
    obtain rfl := Option.some.inj (discarded.answered.symm.trans answered)
    obtain ⟨t, -, -, book, -, ⟨-, kept⟩ | ⟨discards, -⟩⟩ :=
      accepted_rule synced admits room sameId processed false (J := fun _ _ => True)
        (fun _ _ => trivial) (fun _ _ _ _ _ _ _ _ => trivial)
    · rw [ends, kept]
      change SameSide t.engine _ _
      rw [book]
      refine (tidy.processOrder answered).sameSide discarded.tidy.shown fun level => ?_
      rw [discarded.orders, discarded.opposite]
    · exact absurd discards (by decide)

end Discarded

end

def withinReach (side : Side) (limit : Price) : Side → Price → Bool :=
  fun other price => decide (other = side.opposite) && !other.beyond price limit

theorem reach_units {s : Impl} (synced : Synced s) (tidy : Tidy s.engine) (side : Side)
    (limit : Price) : s.openUnits (withinReach side limit) =
      ((s.engine.inReach side limit).map Order.qty).sum := by
  obtain ⟨free, queue, rep⟩ := synced.represents
  have nodup := rep.exposed_nodup side limit
  rw [tidy.exposed] at nodup
  refine synced.openUnits nodup fun o => ?_
  rw [LimitOrderBook.inReach, mem_withinLimit, withinReach, Bool.and_eq_true, decide_eq_true_iff,
    Bool.not_eq_true']
  constructor
  · rintro ⟨⟨level, -, member⟩, within⟩
    have sideEq := (mem_ordersAt rep member).1
    exact ⟨⟨sideEq, by rwa [sideEq]⟩, _, _, member⟩
  · rintro ⟨⟨opposite, within⟩, other, level, member⟩
    obtain ⟨sideEq, -, inLevels, -⟩ := mem_ordersAt rep member
    rw [← sideEq] at member
    rw [opposite] at member within
    exact ⟨⟨level, inLevels, member⟩, within⟩

structure Immediate (s s' : Impl) (sub : Submission) (id : Nat) (execs : List (Execution Qty)) :
    Prop where
  inactive : ∃ o, s'.orders[id]? = some o ∧ o.active = false
  gone : ∀ side level, ∀ o ∈ s'.engine.ordersAt side level, o.id ≠ id
  executed : (execs.map fun e => e.qty.toNat).sum =
    min sub.qty.toNat (s.openUnits (withinReach sub.side sub.price))
  own : SameSide s.engine s'.engine sub.side
  opposite : ∃ plain, s.submit sub.side sub.user sub.price sub.qty false = some (plain, some id) ∧
    SameSide plain.engine s'.engine sub.side.opposite
  locks : ∃ u u', s.users[sub.user]? = some u ∧ s'.users[sub.user]? = some u' ∧
    match sub.side with
    | .Buy => u'.lockedQuote = u.lockedQuote
    | .Sell => u'.lockedBase = u.lockedBase

theorem LiveOrder.Accurate.otherSide {o : LiveOrder} (accurate : o.Accurate) :
    (o.side ≠ .Buy → o.lockedQuote = 0) ∧ (o.side ≠ .Sell → o.lockedBase = 0) := by
  have quote := accurate.quote
  have base := accurate.base
  rw [LiveOrder.side]
  cases isBid : o.isBid <;> rw [isBid] at quote base
  · exact ⟨fun _ => quote, fun other => absurd rfl other⟩
  · exact ⟨fun other => absurd rfl other, fun _ => base⟩

theorem submit_immediate {s s' : Impl} {op : Op} {sub : Submission} {id : Nat}
    (synced : Synced s) (tidy : Tidy s.engine) (submission : op.submission = some sub)
    (discards : sub.discardUnfilled = true) (submitted : s.submits sub = some (s', some id)) :
    Immediate s s' sub id (s.executions op) := by
  rw [Impl.submits, discards] at submitted
  obtain ⟨admits, next, sameId, outcome, m, discarded⟩ := submit_discards synced tidy submitted
  have accounts := synced.accounts
  have accounts' := discarded.synced.accounts
  obtain ⟨u, found⟩ : ∃ u, s.users[sub.user]? = some u := admits.imp fun _ reached => reached.1
  have inside := (List.getElem?_eq_some_iff.mp found).1
  rw [← discarded.users] at inside
  have found' := List.getElem?_eq_getElem inside
  refine ⟨discarded.inactive, discarded.gone, ?_, ?_, discarded.plain synced tidy admits next,
    ⟨_, _, found, found', ?_⟩⟩
  · have answered := discarded.answered
    rw [← sameId, next] at answered
    rw [executions_accepted submission admits answered, reach_units synced tidy]
    exact tidy.executed discarded.accepts discarded.answered
  · refine tidy.shown.sameSide discarded.tidy.shown fun level => ?_
    rw [discarded.orders, discarded.matched.own]
  · cases side : sub.side with
    | Buy =>
      rw [side] at discarded
      dsimp only
      rw [accounts.quote _ _ found, accounts'.quote _ _ found']
      refine discarded.same_tally synced next (fun o accurate other => ?_) fun o accurate closed => ?_
      · rw [LiveOrder.quoteOf, accurate.otherSide.1 other, ite_self]
      · rw [LiveOrder.quoteOf, (Accounts.lockedQuote_inactive accurate closed).2.1, ite_self]
    | Sell =>
      rw [side] at discarded
      dsimp only
      rw [accounts.base _ _ found, accounts'.base _ _ found']
      refine discarded.same_tally synced next (fun o accurate other => ?_) fun o accurate closed => ?_
      · rw [LiveOrder.baseOf, accurate.otherSide.2 other, ite_self]
      · rw [LiveOrder.baseOf, (Accounts.lockedQuote_inactive accurate closed).2.2, ite_self]

theorem market_units {s : Impl} (synced : Synced s) {op : Op} {sub : Submission}
    (submission : op.submission = some sub)
    (market : (∃ user qty, op = .addMarketBid user qty) ∨ ∃ user qty, op = .addMarketAsk user qty) :
    s.openUnits (withinReach sub.side sub.price) =
      s.openUnits fun side _ => decide (side = sub.side.opposite) := by
  have limit : (sub.side = .Buy ∧ sub.price = 30000) ∨ (sub.side = .Sell ∧ sub.price = 10000) := by
    rcases market with ⟨user, qty, rfl⟩ | ⟨user, qty, rfl⟩
    · obtain rfl := Option.some.inj submission
      exact Or.inl ⟨rfl, rfl⟩
    · obtain rfl := Option.some.inj submission
      exact Or.inr ⟨rfl, rfl⟩
  refine congrArg List.sum (List.map_congr_left fun o member => ?_)
  rw [LiveOrder.openFor, LiveOrder.openFor]
  cases active : o.active with
  | false => rfl
  | true =>
    obtain ⟨low, high⟩ := LimitOrderBook.inRange_iff.mp (synced.inRange member active)
    rw [withinReach]
    rcases limit with ⟨side, price⟩ | ⟨side, price⟩
    · cases own : o.side <;> simp [side, price, Side.opposite, Side.beyond, high]
    · cases own : o.side <;> simp [side, price, Side.opposite, Side.beyond, low]

/--
In every run without wrapped totals, an accepted IOC or market order trades all that its
limit reaches, up to its quantity, and leaves nothing else behind.
-/
theorem immediate_leaves_nothing (ops : List Op) (op : Op) (sub : Submission)
    (submission : op.submission = some sub) (discards : sub.discardUnfilled = true)
    (few : submissions (ops ++ [op]) < 2 ^ 31) (noWrap : NoWrap new ops) :
    ∃ s log s' reply, Runs.run step new ops = some (s, log) ∧
      step s op = some (s', .order reply) ∧
      (∀ id, reply = some id → Immediate s s' sub id (s.executions op)) ∧
      ((∃ user qty, op = .addMarketBid user qty) ∨ (∃ user qty, op = .addMarketAsk user qty) →
        s.openUnits (withinReach sub.side sub.price) =
          s.openUnits fun side _ => decide (side = sub.side.opposite)) := by
  have earlier : submissions ops < 2 ^ 31 := by
    rw [submissions, List.countP_append] at few
    rw [submissions]
    omega
  obtain ⟨s, log, ran, -, next⟩ := run_defined earlier
  obtain ⟨synced, tidy⟩ := run_tidy noWrap ran
  obtain ⟨⟨s', reply⟩, submitted⟩ :=
    submit_defined synced (by omega) sub.side sub.user sub.price sub.qty sub.discardUnfilled
  refine ⟨s, log, s', reply, ran, ?_, fun id accepted => ?_, market_units synced submission⟩
  · rw [step_submission submission, Impl.submits, submitted]
    rfl
  · rw [accepted] at submitted
    exact submit_immediate synced tidy submission discards submitted

-- The bid below trades on two ask levels and has 23 units left, which are discarded.
def sweepOps : List Op := [.addBid 1 15040 30, .addAsk 0 15060 7, .addAskIoc 1 14950 20]

theorem immediate_leaves_nothing_sweepOps :
    ∃ s log s' reply, Runs.run step new sweepOps = some (s, log) ∧
      step s (.addBidIoc 1 15070 90) = some (s', .order reply) ∧
      (∀ id, reply = some id → Immediate s s' ⟨.Buy, 1, 15070, 90, true⟩ id
        (s.executions (.addBidIoc 1 15070 90))) ∧
      ((∃ user qty, Op.addBidIoc 1 15070 90 = .addMarketBid user qty) ∨
        (∃ user qty, Op.addBidIoc 1 15070 90 = .addMarketAsk user qty) →
        s.openUnits (withinReach .Buy 15070) = s.openUnits fun side _ => decide (side = .Sell)) :=
  immediate_leaves_nothing sweepOps (.addBidIoc 1 15070 90) ⟨.Buy, 1, 15070, 90, true⟩ rfl rfl
    (by decide) (noWrap_of_total new_synced (by decide +kernel))

end CppPractice.OrderBook
