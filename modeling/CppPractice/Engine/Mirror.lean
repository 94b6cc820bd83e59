import CppPractice.Engine.Alike

set_option autoImplicit false

namespace CppPractice

variable {c : Config}

@[simp]
theorem Side.opposite_opposite (side : Side) : side.opposite.opposite = side := by
  cases side <;> rfl

theorem Side.opposite_inj {left right : Side} : left.opposite = right.opposite ↔ left = right := by
  cases left <;> cases right <;> simp [Side.opposite]

def Config.mirror (c : Config) (price : Int) : Int := c.priceMin + c.priceMax - price

def Config.mirrorLevel (c : Config) (level : Nat) : Nat := c.kLevels - 1 - level

theorem mirrorLevel_lt {level : Nat} (inLevels : level < c.kLevels) :
    c.mirrorLevel level < c.kLevels := by
  rw [Config.mirrorLevel]
  omega

theorem mirrorLevel_mirrorLevel {level : Nat} (inLevels : level < c.kLevels) :
    c.mirrorLevel (c.mirrorLevel level) = level := by
  rw [Config.mirrorLevel, Config.mirrorLevel]
  omega

theorem mirrorLevel_inj {left right : Nat} (leftIn : left < c.kLevels) (rightIn : right < c.kLevels) :
    c.mirrorLevel left = c.mirrorLevel right ↔ left = right := by
  rw [Config.mirrorLevel, Config.mirrorLevel]
  omega

theorem levelToPrice_mirrorLevel {level : Nat} (inLevels : level < c.kLevels) :
    c.levelToPrice (c.mirrorLevel level) = c.mirror (c.levelToPrice level) := by
  have := c.priceMin_lt
  simp only [Config.kLevels] at inLevels
  simp only [Config.levelToPrice, Config.mirrorLevel, Config.mirror, Config.kLevels]
  omega

theorem inRange_mirror (price : Int) : c.inRange (c.mirror price) = c.inRange price := by
  rw [Bool.eq_iff_iff, LimitOrderBook.inRange_iff, LimitOrderBook.inRange_iff, Config.mirror]
  omega

theorem priceToLevel_mirror {price : Int} (inRange : c.inRange price = true) :
    c.priceToLevel (c.mirror price) = c.mirrorLevel (c.priceToLevel price) := by
  obtain ⟨low, high⟩ := LimitOrderBook.inRange_iff.mp inRange
  simp only [Config.priceToLevel, Config.mirrorLevel, Config.mirror, Config.kLevels]
  omega

theorem beats_mirrorLevel (side : Side) {left right : Nat} (leftIn : left < c.kLevels)
    (rightIn : right < c.kLevels) :
    side.opposite.beats (c.mirrorLevel left) (c.mirrorLevel right) = side.beats left right := by
  cases side <;> simp only [Side.opposite, Side.beats, Config.mirrorLevel] <;>
    exact decide_eq_decide.mpr (by omega)

theorem beyond_mirror (side : Side) (price limit : Int) :
    side.opposite.beyond (c.mirror price) (c.mirror limit) = side.beyond price limit := by
  cases side <;> simp only [Side.opposite, Side.beyond, Config.mirror] <;>
    exact decide_eq_decide.mpr (by omega)

def Reference.Order.mirror (c : Config) (o : Reference.Order) : Reference.Order :=
  { o with side := o.side.opposite, price := c.mirror o.price }

def Execution.mirror {Qty : Type} (c : Config) (e : Execution Qty) : Execution Qty :=
  { e with
    takerSide := e.takerSide.opposite
    makerSide := e.makerSide.opposite
    price := c.mirror e.price }

namespace LimitOrderBook

open Reference (Order reduce reduceOne)

def Call.mirror : Call c → Call c
  | .processOrder side price qty orderId => .processOrder side.opposite (c.mirror price) qty orderId
  | .cancel orderId => .cancel orderId
  | .reset => .reset

def Reply.mirror {Qty : Type} (c : Config) (reply : Reply Qty) : Reply Qty :=
  { reply with executions := reply.executions.map (Execution.mirror c) }

theorem reduce_mirror (id : Int) (trade : Nat) (orders : List Order) :
    reduce id trade (orders.map (Order.mirror c)) = (reduce id trade orders).map (Order.mirror c) := by
  rw [reduce, List.filterMap_map, reduce, List.map_filterMap]
  refine List.filterMap_congr fun o _ => ?_
  by_cases mine : o.id = id <;> by_cases whole : o.qty = trade <;>
    simp [reduceOne, Order.mirror, mine, whole]

/-- The same orders, each queue on the other side and as far from the other end. -/
structure Mirrored (s t : LimitOrderBook c) : Prop where
  left : ∃ free queue, Represents s free queue
  right : ∃ free queue, Represents t free queue
  orders : ∀ side, ∀ level < c.kLevels, t.ordersAt side.opposite (c.mirrorLevel level) =
    (s.ordersAt side level).map (Order.mirror c)
  occupied : ∀ side, ∀ level < c.kLevels,
    t.isOccupied side.opposite (c.mirrorLevel level) = s.isOccupied side level

section

variable {s t : LimitOrderBook c} {free free' : List Nat} {queue queue' : Side → Nat → List Nat}

theorem levelQty_mirror (rep : Represents s free queue) (rep' : Represents t free' queue')
    {side side' : Side} {level level' : Nat}
    (same : t.ordersAt side' level' = (s.ordersAt side level).map (Order.mirror c)) :
    (t.book side').levelQty level' = (s.book side).levelQty level := by
  refine BitVec.eq_of_toNat_eq ?_
  rw [rep.levelQty_toNat, rep'.levelQty_toNat, restingQty, restingQty, same, List.map_map]
  rfl

theorem Represents.resting_level (rep : Represents s free queue) {id : Nat} {side : Side}
    {level : Nat} {qty : c.Qty} (rests : s.resting id = some ⟨side, c.levelToPrice level, qty⟩) :
    level < c.kLevels := by
  obtain ⟨-, -, inLevels, -⟩ := mem_ordersAt rep (rep.resting_iff.mp rests)
  rwa [priceToLevel_levelToPrice] at inLevels

end

namespace Mirrored

variable {s t : LimitOrderBook c}

theorem best (mirrored : Mirrored s t) (side : Side) :
    t.best side.opposite = (s.best side).map c.mirrorLevel := by
  obtain ⟨free, queue, rep⟩ := mirrored.left
  obtain ⟨free', queue', rep'⟩ := mirrored.right
  refine Option.ext fun level => ?_
  rw [rep'.best_eq_some, Option.map_eq_some_iff]
  constructor
  · rintro ⟨present, bound⟩
    have inLevels := rep'.isOccupied_lt present
    refine ⟨c.mirrorLevel level, (rep.best_eq_some side _).mpr ⟨?_, fun other also => ?_⟩,
      mirrorLevel_mirrorLevel inLevels⟩
    · rw [← mirrored.occupied side _ (mirrorLevel_lt inLevels), mirrorLevel_mirrorLevel inLevels]
      exact present
    · have otherIn := rep.isOccupied_lt also
      rw [← mirrored.occupied side other otherIn] at also
      have := bound _ also
      rw [← beats_mirrorLevel side otherIn (mirrorLevel_lt inLevels),
        mirrorLevel_mirrorLevel inLevels]
      exact this
  · rintro ⟨top, best, rfl⟩
    obtain ⟨present, bound⟩ := (rep.best_eq_some side top).mp best
    have inLevels := rep.isOccupied_lt present
    refine ⟨(mirrored.occupied side top inLevels).trans present, fun other also => ?_⟩
    have otherIn := rep'.isOccupied_lt also
    have back := mirrored.occupied side _ (mirrorLevel_lt otherIn)
    rw [mirrorLevel_mirrorLevel otherIn] at back
    have := bound _ (back.symm.trans also)
    rw [← beats_mirrorLevel side (mirrorLevel_lt otherIn) inLevels,
      mirrorLevel_mirrorLevel otherIn] at this
    exact this

theorem bestPrice (mirrored : Mirrored s t) (side : Side) :
    t.bestPrice side.opposite = (s.bestPrice side).map c.mirror := by
  obtain ⟨free, queue, rep⟩ := mirrored.left
  rw [LimitOrderBook.bestPrice, LimitOrderBook.bestPrice, mirrored.best, Option.map_map,
    Option.map_map]
  refine Option.map_congr fun level best => ?_
  exact levelToPrice_mirrorLevel (rep.isOccupied_lt ((rep.best_eq_some side level).mp best).1)

theorem levelQuantity (mirrored : Mirrored s t) (side : Side) (price : Int) :
    t.levelQuantity side.opposite (c.mirror price) = s.levelQuantity side price := by
  obtain ⟨free, queue, rep⟩ := mirrored.left
  obtain ⟨free', queue', rep'⟩ := mirrored.right
  rw [LimitOrderBook.levelQuantity, LimitOrderBook.levelQuantity, inRange_mirror]
  by_cases inRange : c.inRange price = true
  · rw [priceToLevel_mirror inRange,
      levelQty_mirror rep rep' (mirrored.orders side _ (level_of_price inRange).1)]
  · simp [inRange]

theorem symm (mirrored : Mirrored s t) : Mirrored t s where
  left := mirrored.right
  right := mirrored.left
  orders side level inLevels := by
    have there := mirrored.orders side.opposite _ (mirrorLevel_lt inLevels)
    rw [Side.opposite_opposite, mirrorLevel_mirrorLevel inLevels] at there
    rw [there, List.map_map]
    refine (List.map_id'' (fun o => ?_) _).symm
    simp [Order.mirror, Config.mirror]
  occupied side level inLevels := by
    have there := mirrored.occupied side.opposite _ (mirrorLevel_lt inLevels)
    rw [Side.opposite_opposite, mirrorLevel_mirrorLevel inLevels] at there
    exact there.symm

theorem resting_some (mirrored : Mirrored s t) {id : Nat} {r : Resting c.Qty}
    (rests : s.resting id = some r) :
    t.resting id = some ⟨r.side.opposite, c.mirror r.price, r.qty⟩ := by
  obtain ⟨free, queue, rep⟩ := mirrored.left
  obtain ⟨free', queue', rep'⟩ := mirrored.right
  have queued := rep.resting_iff.mp rests
  obtain ⟨-, price, inLevels, -⟩ := mem_ordersAt rep queued
  have inRange : c.inRange r.price = true := by
    rw [show r.price = _ from price]
    exact inRange_levelToPrice inLevels
  rw [rep'.resting_iff, priceToLevel_mirror inRange, mirrored.orders _ _ inLevels]
  exact List.mem_map_of_mem queued

theorem resting (mirrored : Mirrored s t) (id : Nat) : t.resting id =
    (s.resting id).map fun r => ⟨r.side.opposite, c.mirror r.price, r.qty⟩ := by
  cases here : s.resting id with
  | some r => exact mirrored.resting_some here
  | none =>
    cases there : t.resting id with
    | none => rfl
    | some r => exact absurd (here.symm.trans (mirrored.symm.resting_some there)) (by simp)

end Mirrored

theorem reset_dark (s : LimitOrderBook c) (side : Side) (level : Nat) :
    s.reset.isOccupied side level = false := by
  simp [isOccupied, LimitOrderBook.reset, BookSide.reset, Bitset.test]

structure MirroredMatching (m n : Matching c) : Prop where
  book : Mirrored m.book n.book
  remaining : n.remaining = m.remaining
  executions : n.executions = m.executions.map (Execution.mirror c)

section

variable {m n : Matching c} {side : Side} {price orderId : Int}

theorem MirroredMatching.trade (mirrored : MirroredMatching m n) (orderId : Int) {free : List Nat}
    {queue : Side → Nat → List Nat} {best i : Nat}
    (trading : Trading side price m free queue best i) :
    ∃ j, (n.book.book side.opposite.opposite).head (c.mirrorLevel best) = some j ∧
      MirroredMatching (m.trade side orderId best i)
        (n.trade side.opposite orderId (c.mirrorLevel best) j) := by
  obtain ⟨free', queue', rep'⟩ := mirrored.book.right
  have inLevels := (trading.rep.nodes.placed _ _ _ trading.mem).level_lt
  have cached : n.book.best side.opposite.opposite = some (c.mirrorLevel best) := by
    rw [mirrored.book.best, trading.best_eq, Option.map_some]
  have within : side.opposite.opposite.beyond (c.levelToPrice (c.mirrorLevel best))
      (c.mirror price) = false := by
    rw [levelToPrice_mirrorLevel inLevels, beyond_mirror]
    exact trading.within
  have remaining : n.remaining ≠ 0 := by
    rw [mirrored.remaining]
    exact trading.remaining
  obtain ⟨j, head, trading'⟩ := rep'.trading remaining cached within
  have maker : n.book.orderOf j = (m.book.orderOf i).mirror c := by
    have first := trading'.order
    rw [mirrored.book.orders _ _ inLevels, List.head?_map, trading.order] at first
    exact (Option.some.inj first).symm
  obtain ⟨id_eq, -, -, qty_eq⟩ := Order.mk.inj maker
  have makerQty := BitVec.eq_of_toNat_eq qty_eq
  have tradeQty : n.tradeQty j = m.tradeQty i := by
    rw [Matching.tradeQty, Matching.tradeQty, makerQty, mirrored.remaining]
  obtain ⟨traded, free₁, queue₁, rep₁⟩ := trading.traded orderId
  obtain ⟨traded', free₂, queue₂, rep₂⟩ := trading'.traded orderId
  have orders (other : Side) (level : Nat) (levelIn : level < c.kLevels) :
      (n.trade side.opposite orderId (c.mirrorLevel best) j).book.ordersAt other.opposite
          (c.mirrorLevel level) =
        ((m.trade side orderId best i).book.ordersAt other level).map (Order.mirror c) := by
    rw [traded.orders, traded'.orders, mirrored.book.orders _ _ levelIn, reduce_mirror, id_eq,
      tradeQty]
    rfl
  refine ⟨j, head, ⟨⟨_, _, rep₁⟩, ⟨_, _, rep₂⟩, orders, fun other level levelIn => ?_⟩, ?_, ?_⟩
  · have placed := trading.rep.nodes.placed _ _ _ trading.mem
    have placed' := trading'.rep.nodes.placed _ _ _ trading'.mem
    have total := levelQty_mirror rep₁ rep₂ (orders side.opposite best inLevels)
    change (n.book.fillMaker side.opposite.opposite (c.mirrorLevel best) j
      (n.tradeQty j)).isOccupied other.opposite (c.mirrorLevel level) =
      (m.book.fillMaker side.opposite best i (m.tradeQty i)).isOccupied other level
    change ((n.book.fillMaker side.opposite.opposite (c.mirrorLevel best) j
      (n.tradeQty j)).book side.opposite.opposite).levelQty (c.mirrorLevel best)
      = ((m.book.fillMaker side.opposite best i (m.tradeQty i)).book side.opposite).levelQty best
      at total
    rw [fillMaker_isOccupied placed, fillMaker_isOccupied placed', total, tradeQty, makerQty,
      mirrored.book.occupied _ _ levelIn]
    simp only [Side.opposite_inj, mirrorLevel_inj levelIn inLevels]
  · rw [traded.remaining, traded'.remaining, mirrored.remaining, tradeQty]
  · rw [traded.executions, traded'.executions, mirrored.executions, List.map_append,
      List.map_singleton, Matching.execution, Matching.execution, id_eq, tradeQty,
      levelToPrice_mirrorLevel inLevels]
    rfl

theorem MirroredMatching.matchLoop {fuel : Nat} {m' : Matching c} (mirrored : MirroredMatching m n)
    (ran : LimitOrderBook.matchLoop side price orderId fuel m = some m') :
    ∃ n', LimitOrderBook.matchLoop side.opposite (c.mirror price) orderId fuel n = some n' ∧
      MirroredMatching m' n' := by
  induction fuel generalizing m n with
  | zero => simp [LimitOrderBook.matchLoop, matchTrace] at ran
  | succ fuel ih =>
    rw [LimitOrderBook.matchLoop, matchTrace] at ran ⊢
    dsimp only at ran ⊢
    rw [mirrored.remaining, mirrored.book.best]
    by_cases done : m.remaining = 0
    · rw [if_pos done] at ran ⊢
      exact ⟨n, rfl, Option.some.inj ran ▸ mirrored⟩
    rw [if_neg done] at ran ⊢
    cases cached : m.book.best side.opposite with
    | none =>
      rw [cached] at ran
      exact ⟨n, rfl, Option.some.inj ran ▸ mirrored⟩
    | some best =>
      rw [cached] at ran
      dsimp only [Option.map_some] at ran ⊢
      obtain ⟨free, queue, rep⟩ := mirrored.book.left
      have inLevels := rep.isOccupied_lt ((rep.best_eq_some _ _).mp cached).1
      rw [levelToPrice_mirrorLevel inLevels, beyond_mirror]
      by_cases past : side.opposite.beyond (c.levelToPrice best) price = true
      · rw [if_pos past] at ran ⊢
        exact ⟨n, rfl, Option.some.inj ran ▸ mirrored⟩
      · rw [if_neg past] at ran ⊢
        obtain ⟨i, head, trading⟩ := rep.trading done cached (Bool.eq_false_iff.mpr past)
        obtain ⟨j, head', next⟩ := mirrored.trade orderId trading
        rw [head] at ran
        rw [head']
        exact ih next ran

theorem MirroredMatching.finish (mirrored : MirroredMatching m n) (inRange : c.inRange price = true)
    (valid : c.validId orderId = true) :
    Mirrored (LimitOrderBook.finish m side price orderId).book
        (LimitOrderBook.finish n side.opposite (c.mirror price) orderId).book ∧
      (LimitOrderBook.finish n side.opposite (c.mirror price) orderId).ok =
        (LimitOrderBook.finish m side price orderId).ok ∧
      (LimitOrderBook.finish n side.opposite (c.mirror price) orderId).executions =
        (LimitOrderBook.finish m side price orderId).executions.map (Execution.mirror c) := by
  by_cases done : m.remaining = 0
  · rw [finish_done done, finish_done (mirrored.remaining.trans done)]
    exact ⟨mirrored.book, rfl, mirrored.executions⟩
  have left : n.remaining ≠ 0 := by rwa [mirrored.remaining]
  obtain ⟨free, queue, rep⟩ := mirrored.book.left
  obtain ⟨free', queue', rep'⟩ := mirrored.book.right
  have same := mirrored.book.resting orderId.toNat
  cases known : m.book.resting orderId.toNat with
  | some r =>
    rw [known, Option.map_some] at same
    have taken (s : LimitOrderBook c) {r : Resting c.Qty}
        (found : s.resting orderId.toNat = some r) : s.allocOrder orderId = none := by
      have busy : s.idToIdx orderId.toNat ≠ none := by
        rw [ne_eq, ← resting_eq_none, found]
        exact Option.some_ne_none r
      rw [allocOrder, if_neg (by simp [valid]), if_pos busy]
    rw [finish_refused done (taken _ known), finish_refused left (taken _ same)]
    exact ⟨mirrored.book, rfl, mirrored.executions⟩
  | none =>
    rw [known, Option.map_none] at same
    have inRange' := (inRange_mirror price).trans inRange
    have inLevels := (level_of_price inRange).1
    obtain ⟨s, i, alloc⟩ := rep.alloc_fresh valid (resting_eq_none.mp known)
    obtain ⟨t, j, alloc'⟩ := rep'.alloc_fresh valid (resting_eq_none.mp same)
    rw [finish_rested done alloc, finish_rested left alloc', mirrored.remaining]
    obtain ⟨rest, rested⟩ := restOrder_represents rep side inRange done alloc
    obtain ⟨rest', rested'⟩ := restOrder_represents rep' side.opposite inRange' done alloc'
    refine ⟨⟨⟨_, _, rested⟩, ⟨_, _, rested'⟩, fun other level levelIn => ?_,
      fun other level levelIn => ?_⟩, rfl, mirrored.executions⟩
    · rw [rested_ordersAt rep side inRange done alloc,
        rested_ordersAt rep' side.opposite inRange' done alloc', priceToLevel_mirror inRange,
        mirrored.book.orders _ _ levelIn]
      simp only [Side.opposite_inj, mirrorLevel_inj levelIn inLevels]
      split
      · rw [List.map_append, List.map_singleton, Order.mirror]
      · rw [List.append_nil, List.append_nil]
    · rw [rested_isOccupied alloc, rested_isOccupied alloc', priceToLevel_mirror inRange,
        mirrored.book.occupied _ _ levelIn]
      simp only [Side.opposite_inj, mirrorLevel_inj levelIn inLevels]

end

namespace Mirrored

variable {s t : LimitOrderBook c}

theorem processOrder {side : Side} {price orderId : Int} {qty : c.Qty} {outcome : Outcome c}
    (mirrored : Mirrored s t) (ran : s.processOrder side price qty orderId = some outcome) :
    ∃ outcome', t.processOrder side.opposite (c.mirror price) qty orderId = some outcome' ∧
      Mirrored outcome.book outcome'.book ∧ outcome'.ok = outcome.ok ∧
      outcome'.executions = outcome.executions.map (Execution.mirror c) := by
  by_cases accepts : Accepts c price qty orderId
  · have accepts' : Accepts c (c.mirror price) qty orderId :=
      ⟨accepts.1, (inRange_mirror price).trans accepts.2.1, accepts.2.2⟩
    rw [processOrder_accepts accepts] at ran
    rw [processOrder_accepts accepts']
    obtain ⟨m, looped, rfl⟩ := Option.map_eq_some_iff.mp ran
    obtain ⟨n, looped', next⟩ :=
      (⟨mirrored, rfl, rfl⟩ : MirroredMatching ⟨s, qty, []⟩ ⟨t, qty, []⟩).matchLoop looped
    rw [looped']
    exact ⟨_, rfl, next.finish accepts.2.1 accepts.2.2⟩
  · have rejects : ¬Accepts c (c.mirror price) qty orderId := fun accepts' =>
      accepts ⟨accepts'.1, (inRange_mirror price).symm.trans accepts'.2.1, accepts'.2.2⟩
    rw [processOrder_rejects accepts] at ran
    rw [processOrder_rejects rejects]
    obtain rfl := Option.some.inj ran
    exact ⟨_, rfl, mirrored, rfl, rfl⟩

theorem cancel (mirrored : Mirrored s t) (orderId : Int) :
    (t.cancel orderId).2 = (s.cancel orderId).2 ∧
      Mirrored (s.cancel orderId).1 (t.cancel orderId).1 := by
  obtain ⟨free, queue, rep⟩ := mirrored.left
  obtain ⟨free', queue', rep'⟩ := mirrored.right
  have known := mirrored.resting orderId.toNat
  rcases cancel_cases rep orderId with ⟨same, unknown⟩ | ⟨valid, side, level, done⟩ <;>
    rcases cancel_cases rep' orderId with ⟨same', unknown'⟩ | ⟨valid', side', level', done'⟩
  · rw [same, same']
    exact ⟨rfl, mirrored⟩
  · obtain ⟨qty, rested⟩ := done'.rested
    rw [rested] at known
    rcases unknown with invalid | unknown
    · simp [valid'] at invalid
    · simp [unknown] at known
  · obtain ⟨qty, rested⟩ := done.rested
    rw [rested] at known
    rcases unknown' with invalid | unknown'
    · simp [valid] at invalid
    · simp [unknown'] at known
  · obtain ⟨qty, rested⟩ := done.rested
    obtain ⟨qty', rested'⟩ := done'.rested
    obtain ⟨_, _, rep₁⟩ := done.represents
    obtain ⟨_, _, rep₂⟩ := done'.represents
    have inLevels := rep.resting_level rested
    rw [rested, rested', Option.map_some, ← levelToPrice_mirrorLevel inLevels] at known
    obtain ⟨rfl, price, -⟩ := Resting.mk.inj (Option.some.inj known)
    obtain rfl := levelToPrice_injective price
    have orders (other : Side) (at' : Nat) (atIn : at' < c.kLevels) :
        (t.cancel orderId).1.ordersAt other.opposite (c.mirrorLevel at') =
          ((s.cancel orderId).1.ordersAt other at').map (Order.mirror c) := by
      rw [done.orders, done'.orders, mirrored.orders _ _ atIn, List.filter_map]
      rfl
    refine ⟨done'.ok.trans done.ok.symm, ⟨_, _, rep₁⟩, ⟨_, _, rep₂⟩, orders,
      fun other at' atIn => ?_⟩
    rw [done.occupied, done'.occupied, levelQty_mirror rep₁ rep₂ (orders side level inLevels),
      mirrored.occupied _ _ atIn]
    simp only [Side.opposite_inj, mirrorLevel_inj atIn inLevels]

theorem reset (s t : LimitOrderBook c) : Mirrored s.reset t.reset where
  left := ⟨_, _, reset_represents s⟩
  right := ⟨_, _, reset_represents t⟩
  orders side level _ := by rw [reset_ordersAt, reset_ordersAt, List.map_nil]
  occupied side level _ := by rw [reset_dark, reset_dark]

theorem step {call : Call c} {s' : LimitOrderBook c} {reply : Reply c.Qty} (mirrored : Mirrored s t)
    (stepped : s.step call = some (s', reply)) :
    ∃ t', t.step call.mirror = some (t', reply.mirror c) ∧ Mirrored s' t' := by
  cases call with
  | processOrder side price qty orderId =>
    obtain ⟨outcome, ran, same⟩ := Option.map_eq_some_iff.mp stepped
    obtain ⟨rfl, rfl⟩ := Prod.mk.inj same
    obtain ⟨outcome', ran', next, ok, executions⟩ := mirrored.processOrder ran
    refine ⟨outcome'.book, ?_, next⟩
    rw [Call.mirror, LimitOrderBook.step, ran', Option.map_some, ok, executions]
    rfl
  | cancel orderId =>
    obtain ⟨rfl, rfl⟩ := Prod.mk.inj (Option.some.inj stepped)
    obtain ⟨reply, next⟩ := mirrored.cancel orderId
    exact ⟨_, by rw [Call.mirror, LimitOrderBook.step, reply]; rfl, next⟩
  | reset =>
    obtain ⟨rfl, rfl⟩ := Prod.mk.inj (Option.some.inj stepped)
    exact ⟨_, rfl, reset s t⟩

end Mirrored

/--
No branch favours a side. Replay every call with bids and asks exchanged and each price
mirrored in the range: the replies are the same with their executions turned over, and so
are the best prices and the quantity at every price.
-/
theorem sides_alike (start start' : LimitOrderBook c) (calls : List (Call c)) :
    ∃ s log t log', Runs.run step start.reset calls = some (s, log) ∧
      Runs.run step start'.reset (calls.map Call.mirror) = some (t, log') ∧
      log'.map Prod.snd = log.map (fun entry => entry.2.mirror c) ∧
      ∀ side, t.bestPrice side.opposite = (s.bestPrice side).map c.mirror ∧
        ∀ price, t.levelQuantity side.opposite (c.mirror price) = s.levelQuantity side price := by
  obtain ⟨s, log, ran, -⟩ := run_represents start calls
  obtain ⟨t, ran', mirrored⟩ := Runs.run_mapped (J := Mirrored)
    (fun _ _ _ _ _ mirrored stepped => mirrored.step stepped) (Mirrored.reset start start') ran
  refine ⟨s, log, t, _, ran, ran', ?_, fun side => ⟨mirrored.bestPrice side,
    mirrored.levelQuantity side⟩⟩
  rw [List.map_map]
  rfl

end LimitOrderBook

end CppPractice
