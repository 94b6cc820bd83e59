import CppPractice.Engine.Invariant
import CppPractice.Engine.Trades

set_option autoImplicit false

namespace CppPractice.LimitOrderBook

open Reference (Order reduce mem_reduce sum_reduce_le)

variable {c : Config}

def Small (s : LimitOrderBook c) : Prop :=
  ∀ side level, s.restingQty side level < 2 ^ c.qtyBits

def Visible (s : LimitOrderBook c) : Prop :=
  ∀ side level, s.ordersAt side level ≠ [] → s.isOccupied side level = true

def Uncrossed (s : LimitOrderBook c) : Prop :=
  ∀ bidLevel askLevel, ∀ bid ∈ s.ordersAt .Buy bidLevel, ∀ ask ∈ s.ordersAt .Sell askLevel,
    bid.price < ask.price

/-- After every call of a run the total resting quantity of each level is below `2 ^ w`. -/
def NoWrap (start : LimitOrderBook c) (calls : List (Call c)) : Prop :=
  ∀ front s log, front <+: calls → Runs.run step start front = some (s, log) →
    ∀ side, ∀ level < c.kLevels, s.restingQty side level < 2 ^ c.qtyBits

instance (start : LimitOrderBook c) (calls : List (Call c)) : Decidable (NoWrap start calls) :=
  decidable_of_iff
    (∀ front ∈ calls.inits, ∀ result ∈ Runs.run step start front, ∀ side ∈ [Side.Buy, Side.Sell],
      ∀ level < c.kLevels, result.1.restingQty side level < 2 ^ c.qtyBits)
    ⟨fun bounded front s log isPrefix ran side =>
        bounded front ((List.mem_inits _ _).mpr isPrefix) (s, log) ran side (by cases side <;> simp),
      fun noWrap front inits result ran side _ =>
        noWrap front result.1 result.2 ((List.mem_inits _ _).mp inits) ran side⟩

section

variable {s : LimitOrderBook c} {free : List Nat} {queue : Side → Nat → List Nat}

theorem Represents.small (rep : Represents s free queue)
    (bounded : ∀ side, ∀ level < c.kLevels, s.restingQty side level < 2 ^ c.qtyBits) :
    Small s := by
  intro side level
  by_cases inLevels : level < c.kLevels
  · exact bounded side level inLevels
  · have none : s.ordersAt side level = [] := by
      by_contra some
      obtain ⟨o, member⟩ := List.exists_mem_of_ne_nil _ some
      exact inLevels (mem_ordersAt rep member).2.2.1
    rw [restingQty, none]
    exact Nat.two_pow_pos _

theorem Represents.levelQty_toNat (rep : Represents s free queue) (side : Side) (level : Nat) :
    ((s.book side).levelQty level).toNat = s.restingQty side level % 2 ^ c.qtyBits := by
  rw [rep.nodes.total, toNat_sum, restingQty, rep.nodes.ordersAt, List.map_map]
  rfl

theorem Represents.restingQty_pos (rep : Represents s free queue) {side : Side} {level : Nat}
    (some : s.ordersAt side level ≠ []) : 0 < s.restingQty side level := by
  obtain ⟨o, member⟩ := List.exists_mem_of_ne_nil _ some
  have positive := (mem_ordersAt rep member).2.2.2
  have le := List.single_le_sum (by simp) _ (List.mem_map.mpr ⟨o, member, rfl⟩ :
    o.qty ∈ (s.ordersAt side level).map Order.qty)
  exact lt_of_lt_of_le positive le

-- Bits fade only over a zero total; with small totals that is an empty level.
theorem Visible.step {s' : LimitOrderBook c} (visible : Visible s)
    (rep : Represents s' free queue) (small : Small s') (fades : Fades s s')
    (fewer : ∀ side level, s'.ordersAt side level ≠ [] → s.ordersAt side level ≠ []) :
    Visible s' := by
  intro side level some
  by_contra dark
  have zero := fades side level (visible side level (fewer side level some)) (by simpa using dark)
  have total := rep.levelQty_toNat side level
  rw [zero, Nat.mod_eq_of_lt (small side level)] at total
  exact absurd (rep.restingQty_pos some) (by simp [← total])

end

def Shrinks (s s' : LimitOrderBook c) : Prop :=
  ∀ side level,
    s'.restingQty side level ≤ s.restingQty side level ∧
    ∀ o ∈ s'.ordersAt side level, ∃ old ∈ s.ordersAt side level, old.price = o.price

namespace Shrinks

variable {s s' : LimitOrderBook c}

theorem small (shrinks : Shrinks s s') (small : Small s) : Small s' :=
  fun side level => lt_of_le_of_lt (shrinks side level).1 (small side level)

theorem fewer (shrinks : Shrinks s s') (side : Side) (level : Nat)
    (some : s'.ordersAt side level ≠ []) : s.ordersAt side level ≠ [] := by
  obtain ⟨o, member⟩ := List.exists_mem_of_ne_nil _ some
  obtain ⟨old, inside, -⟩ := (shrinks side level).2 o member
  exact List.ne_nil_of_mem inside

theorem uncrossed (shrinks : Shrinks s s') (uncrossed : Uncrossed s) : Uncrossed s' := by
  intro bidLevel askLevel bid bidIn ask askIn
  obtain ⟨oldBid, oldBidIn, bidPrice⟩ := (shrinks _ _).2 bid bidIn
  obtain ⟨oldAsk, oldAskIn, askPrice⟩ := (shrinks _ _).2 ask askIn
  rw [← bidPrice, ← askPrice]
  exact uncrossed _ _ _ oldBidIn _ oldAskIn

end Shrinks

theorem Traded.shrinks {side : Side} {orderId : Int} {m m' : Matching c} {best i : Nat}
    {qty : c.Qty} (traded : Traded side orderId m best i qty m') : Shrinks m.book m'.book := by
  intro other at'
  rw [restingQty, restingQty, traded.orders]
  refine ⟨sum_reduce_le _ _ _, fun o member => ?_⟩
  obtain ⟨old, inside, -, -, price⟩ := mem_reduce member
  exact ⟨old, inside, price.symm⟩

theorem cancel_orders {s : LimitOrderBook c} {free : List Nat} {queue : Side → Nat → List Nat}
    (rep : Represents s free queue) (orderId : Int) :
    (s.cancel orderId = (s, false) ∧
        (c.validId orderId = false ∨ s.idToIdx orderId.toNat = none)) ∨
      ∃ side level i free' queue', i ∈ queue side level ∧ s.orderId i = orderId ∧
        (s.cancel orderId).2 = true ∧ Represents (s.cancel orderId).1 free' queue' ∧
        Fades s (s.cancel orderId).1 ∧
        ∀ other at', (s.cancel orderId).1.ordersAt other at' =
          (s.ordersAt other at').filter fun o => decide (o.id ≠ orderId) := by
  rcases cancel_represents rep orderId with same | ⟨side, level, i, inside, ids, removed, rep'⟩
  · exact Or.inl same
  · have placed := rep.nodes.placed _ _ _ inside
    have labels := removed_same placed
    refine Or.inr ⟨side, level, i, _, _, inside, ids, by rw [removed], rep', ?_, ?_⟩
    · rw [removed]
      exact removed_fades placed
    · intro other at'
      rw [rep'.nodes.ordersAt, rep.nodes.ordersAt, ← ids]
      refine orders_cancel rep.nodes inside ?_ other at'
      intro j different
      rw [ids, removed]
      simp [orderOf, sideOf, labels.orderId, labels.orderPrice, labels.orderSide, labels.orderQty,
        unlinkNode, setBook, different]

structure Tidy (s : LimitOrderBook c) : Prop where
  represents : ∃ free queue, Represents s free queue
  small : Small s
  visible : Visible s
  uncrossed : Uncrossed s

-- What of it stays true while the total of a level is wrapped.
structure Shown (s : LimitOrderBook c) : Prop where
  represents : ∃ free queue, Represents s free queue
  visible : Visible s
  uncrossed : Uncrossed s

theorem Tidy.shown {s : LimitOrderBook c} (tidy : Tidy s) : Shown s :=
  ⟨tidy.represents, tidy.visible, tidy.uncrossed⟩

theorem Shown.tidy {s : LimitOrderBook c} (shown : Shown s) (small : Small s) : Tidy s :=
  ⟨shown.represents, small, shown.visible, shown.uncrossed⟩

theorem reset_ordersAt (s : LimitOrderBook c) (side : Side) (level : Nat) :
    s.reset.ordersAt side level = [] := by
  rw [(reset_nodes s).ordersAt]
  rfl

theorem reset_tidy (s : LimitOrderBook c) : Tidy s.reset where
  represents := ⟨_, _, reset_represents s⟩
  small side level := by
    rw [restingQty, reset_ordersAt]
    exact Nat.two_pow_pos _
  visible side level some := absurd (reset_ordersAt s side level) some
  uncrossed bidLevel _ bid bidIn := by
    rw [reset_ordersAt] at bidIn
    exact absurd bidIn (by simp)

theorem beyond_of_not_beats {side : Side} {level best : Nat} {price : Int}
    (notBetter : side.beats level best = false)
    (beyond : side.beyond (c.levelToPrice best) price = true) :
    side.beyond (c.levelToPrice level) price = true := by
  cases side with
  | Buy =>
    simp only [Side.beats, decide_eq_false_iff_not] at notBetter
    simp only [Side.beyond, decide_eq_true_eq] at beyond ⊢
    simp only [Config.levelToPrice] at beyond ⊢
    omega
  | Sell =>
    simp only [Side.beats, decide_eq_false_iff_not] at notBetter
    simp only [Side.beyond, decide_eq_true_eq] at beyond ⊢
    simp only [Config.levelToPrice] at beyond ⊢
    omega

theorem Stopped.exhausted {side : Side} {price : Int} {m : Matching c} {free : List Nat}
    {queue : Side → Nat → List Nat} (stopped : Stopped side price m)
    (rep : Represents m.book free queue) (visible : Visible m.book) (left : m.remaining ≠ 0)
    {level : Nat} {o : Order} (member : o ∈ m.book.ordersAt side.opposite level) :
    side.opposite.beyond o.price price = true := by
  have occupied := visible _ _ (List.ne_nil_of_mem member)
  rw [(mem_ordersAt rep member).2.1]
  rcases stopped with zero | limit
  · exact absurd zero left
  · cases cached : m.book.best side.opposite with
    | none =>
      have dark := (rep.best_eq_none side.opposite).mp cached level
      rw [dark] at occupied
      exact absurd occupied (by decide)
    | some best =>
      have top := (rep.best_eq_some side.opposite best).mp cached
      exact beyond_of_not_beats (top.2 level occupied) (limit best cached)

theorem Uncrossed.rest {s s' : LimitOrderBook c} {side : Side} {level : Nat} {o : Order}
    (uncrossed : Uncrossed s)
    (rested : ∀ other at', s'.ordersAt other at' =
      s.ordersAt other at' ++ if other = side ∧ at' = level then [o] else [])
    (clear : ∀ at', ∀ p ∈ s.ordersAt side.opposite at',
      side.opposite.beyond p.price o.price = true) : Uncrossed s' := by
  intro bidLevel askLevel bid bidIn ask askIn
  rw [rested] at bidIn askIn
  cases side with
  | Buy =>
    have oldAsk : ask ∈ s.ordersAt .Sell askLevel := by simpa using askIn
    rcases List.mem_append.mp bidIn with old | new
    · exact uncrossed _ _ _ old _ oldAsk
    · obtain rfl : bid = o := by
        split at new <;> simp_all
      simpa [Side.opposite, Side.beyond] using clear askLevel ask oldAsk
  | Sell =>
    have oldBid : bid ∈ s.ordersAt .Buy bidLevel := by simpa using bidIn
    rcases List.mem_append.mp askIn with old | new
    · exact uncrossed _ _ _ oldBid _ old
    · obtain rfl : ask = o := by
        split at new <;> simp_all
      simpa [Side.opposite, Side.beyond] using clear bidLevel bid oldBid

theorem finish_shown {m : Matching c} {free : List Nat} {queue : Side → Nat → List Nat}
    (rep : Represents m.book free queue) (visible : Visible m.book)
    (uncrossed : Uncrossed m.book) {side : Side} {price orderId : Int}
    (inRange : c.inRange price = true) (stopped : Stopped side price m) :
    Shown (finish m side price orderId).book := by
  have still : Shown m.book := ⟨⟨free, queue, rep⟩, visible, uncrossed⟩
  by_cases done : m.remaining = 0
  · rw [finish_done done]
    exact still
  · cases alloc : m.book.allocOrder orderId with
    | none =>
      rw [finish_refused done alloc]
      exact still
    | some allocated =>
      rw [finish_rested done alloc]
      have read := rested_ordersAt rep side inRange done alloc
      obtain ⟨rest, rep'⟩ := restOrder_represents rep side inRange done alloc
      refine ⟨⟨_, _, rep'⟩, ?_, uncrossed.rest read fun _ _ member =>
        stopped.exhausted rep visible done member⟩
      intro other at' some
      rw [rested_isOccupied alloc]
      split
      · rfl
      · rename_i apart
        rw [read, if_neg apart, List.append_nil] at some
        exact visible other at' some

section

variable {s s' : LimitOrderBook c}

theorem Tidy.processOrder (tidy : Tidy s) {side : Side} {price orderId : Int} {qty : c.Qty}
    {outcome : Outcome c} (processed : s.processOrder side price qty orderId = some outcome) :
    Shown outcome.book := by
  obtain ⟨free, queue, rep⟩ := tidy.represents
  by_cases accepts : Accepts c price qty orderId
  · obtain ⟨m, free', queue', finished, rep', ⟨small, visible, uncrossed⟩, stopped⟩ :=
      processOrder_trades rep side accepts
        (I := fun m => Small m.book ∧ Visible m.book ∧ Uncrossed m.book)
        ⟨tidy.small, tidy.visible, tidy.uncrossed⟩ (by
          rintro m free queue best i traded m' free' queue' - trade rep' ⟨small, visible, uncrossed⟩
          have shrinks := trade.shrinks
          have small' := shrinks.small small
          exact ⟨small', visible.step rep' small' trade.fades shrinks.fewer,
            shrinks.uncrossed uncrossed⟩)
    obtain rfl := Option.some.inj (finished.symm.trans processed)
    exact finish_shown rep' visible uncrossed accepts.2.1 stopped
  · rw [processOrder_rejects accepts] at processed
    obtain rfl := Option.some.inj processed
    exact tidy.shown

theorem Shown.cancel (shown : Shown s) {orderId : Int} (small' : Small (s.cancel orderId).1) :
    Tidy (s.cancel orderId).1 := by
  obtain ⟨free, queue, rep⟩ := shown.represents
  rcases cancel_orders rep orderId with ⟨same, -⟩ |
    ⟨side, level, i, free', queue', -, -, -, rep', fades, orders⟩
  · rw [same] at small' ⊢
    exact shown.tidy small'
  · have fewer : ∀ side level, ∀ o ∈ (s.cancel orderId).1.ordersAt side level,
        o ∈ s.ordersAt side level := by
      intro other at' o member
      rw [orders] at member
      exact (List.mem_filter.mp member).1
    have levels : ∀ side level, (s.cancel orderId).1.ordersAt side level ≠ [] →
        s.ordersAt side level ≠ [] := by
      intro other at' some
      obtain ⟨o, member⟩ := List.exists_mem_of_ne_nil _ some
      exact List.ne_nil_of_mem (fewer _ _ o member)
    exact ⟨⟨_, _, rep'⟩, small', shown.visible.step rep' small' fades levels,
      fun bidLevel askLevel bid bidIn ask askIn =>
        shown.uncrossed _ _ _ (fewer _ _ bid bidIn) _ (fewer _ _ ask askIn)⟩

theorem Tidy.step {call : Call c} {reply : Reply c.Qty} (tidy : Tidy s)
    (stepped : s.step call = some (s', reply)) (small' : Small s') : Tidy s' := by
  cases call with
  | processOrder side price qty orderId =>
    rw [LimitOrderBook.step, Option.map_eq_some_iff] at stepped
    obtain ⟨outcome, processed, same⟩ := stepped
    obtain ⟨rfl, -⟩ := Prod.mk.inj same
    exact (tidy.processOrder processed).tidy small'
  | cancel orderId =>
    obtain ⟨rfl, -⟩ : (s.cancel orderId).1 = s' ∧ _ := by
      simpa [LimitOrderBook.step] using stepped
    exact tidy.shown.cancel small'
  | reset =>
    obtain ⟨rfl, -⟩ : s.reset = s' ∧ _ := by simpa [LimitOrderBook.step] using stepped
    exact reset_tidy s

end

theorem run_tidy {start : LimitOrderBook c} {calls : List (Call c)}
    (noWrap : NoWrap start.reset calls) :
    ∃ s log, Runs.run step start.reset calls = some (s, log) ∧ Tidy s := by
  obtain ⟨s, log, ran, -⟩ := run_represents start calls
  refine ⟨s, log, ran, ?_⟩
  have always := Runs.run_guarded
    (P := fun _ s => Tidy s)
    (C := fun _ s => ∀ side, ∀ level < c.kLevels, s.restingQty side level < 2 ^ c.qtyBits)
    (reset_tidy start) ?_ noWrap ran
  · exact always
  · intro front s log call s' reply _ tidy stepped bounded
    obtain ⟨free, queue, rep⟩ := tidy.represents
    obtain ⟨free', queue', rep'⟩ := rep.step stepped
    exact tidy.step stepped (rep'.small bounded)

theorem never_crossed (start : LimitOrderBook c) (calls : List (Call c))
    (noWrap : NoWrap start.reset calls) :
    ∃ s log, Runs.run step start.reset calls = some (s, log) ∧ Uncrossed s := by
  obtain ⟨s, log, ran, tidy⟩ := run_tidy noWrap
  exact ⟨s, log, ran, tidy.uncrossed⟩

def fourByFour : Config := ⟨32, 100, 103, 4, by decide, by decide, by decide⟩

-- Partial fills on both sides; the last call trades and then fails on its active id.
def crossingCalls : List (Call fourByFour) :=
  [.processOrder .Sell 102 5 0, .processOrder .Buy 103 8 1, .processOrder .Buy 101 3 2,
    .processOrder .Sell 102 5 2]

theorem never_crossed_crossingCalls :
    ∃ s log, Runs.run step (LimitOrderBook.new fourByFour).reset crossingCalls = some (s, log) ∧
      Uncrossed s :=
  never_crossed _ _ (by decide +kernel)

end CppPractice.LimitOrderBook
