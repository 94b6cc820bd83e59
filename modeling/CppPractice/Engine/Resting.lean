import CppPractice.Engine.Invariant
import CppPractice.Engine.Trades

set_option autoImplicit false

namespace CppPractice

structure Resting (Qty : Type) where
  side : Side
  price : Int
  qty : Qty
  deriving DecidableEq

variable {w : Nat}

def Resting.take (maker : Resting (BitVec w)) (traded : BitVec w) : Option (Resting (BitVec w)) :=
  if traded = maker.qty then none else some { maker with qty := maker.qty - traded }

variable {c : Config}

structure Fill (c : Config) (side : Side) (price orderId : Int)
    (resting : Nat → Option (Resting c.Qty)) (remaining : c.Qty) (e : Execution c.Qty)
    (maker : Resting c.Qty) : Prop where
  takerSide : e.takerSide = side
  takerOrderId : e.takerOrderId = orderId
  makerSide : e.makerSide = side.opposite
  valid : c.validId e.makerOrderId = true
  rests : resting e.makerOrderId.toNat = some maker
  side_eq : maker.side = side.opposite
  price_eq : e.price = maker.price
  inRange : c.inRange e.price = true
  within : side.opposite.beyond e.price price = false
  positive : e.qty ≠ 0
  leMaker : e.qty ≤ maker.qty
  leTaker : e.qty ≤ remaining

inductive Fills (c : Config) (side : Side) (price orderId : Int)
    (before : Nat → Option (Resting c.Qty)) (qty : c.Qty) :
    List (Execution c.Qty) → (Nat → Option (Resting c.Qty)) → c.Qty → Prop
  | start : Fills c side price orderId before qty [] before qty
  | trade {execs : List (Execution c.Qty)} {resting : Nat → Option (Resting c.Qty)}
      {remaining : c.Qty} {e : Execution c.Qty} {maker : Resting c.Qty}
      (earlier : Fills c side price orderId before qty execs resting remaining)
      (fill : Fill c side price orderId resting remaining e maker) :
      Fills c side price orderId before qty (execs ++ [e])
        (Function.update resting e.makerOrderId.toNat (maker.take e.qty)) (remaining - e.qty)

theorem Fills.absent {side : Side} {price orderId : Int} {before after : Nat → Option (Resting c.Qty)}
    {qty remaining : c.Qty} {execs : List (Execution c.Qty)}
    (fills : Fills c side price orderId before qty execs after remaining) {id : Nat}
    (absent : before id = none) : after id = none := by
  induction fills with
  | start => exact absent
  | trade _ fill ih =>
    rw [Function.update_apply]
    split
    · rename_i same
      have rests := fill.rests
      rw [← same, ih] at rests
      exact absurd rests (by simp)
    · exact ih

theorem Fills.member {side : Side} {price orderId : Int}
    {before after : Nat → Option (Resting c.Qty)} {qty remaining : c.Qty}
    {execs : List (Execution c.Qty)}
    (fills : Fills c side price orderId before qty execs after remaining) {e : Execution c.Qty}
    (member : e ∈ execs) :
    ∃ front resting left maker, Fills c side price orderId before qty front resting left ∧
      Fill c side price orderId resting left e maker := by
  induction fills with
  | start => simp at member
  | trade earlier fill ih =>
    rcases List.mem_append.mp member with old | new
    · exact ih old
    · obtain rfl := List.mem_singleton.mp new
      exact ⟨_, _, _, _, earlier, fill⟩

theorem Fills.each {side : Side} {price orderId : Int} {before after : Nat → Option (Resting c.Qty)}
    {qty remaining : c.Qty} {execs : List (Execution c.Qty)}
    (fills : Fills c side price orderId before qty execs after remaining) :
    ∀ e ∈ execs, side.opposite.beyond e.price price = false ∧ e.qty ≠ 0 := by
  intro e member
  obtain ⟨_, _, _, _, -, fill⟩ := fills.member member
  exact ⟨fill.within, fill.positive⟩

namespace LimitOrderBook

def resting (s : LimitOrderBook c) (id : Nat) : Option (Resting c.Qty) :=
  (s.idToIdx id).map fun i => ⟨s.sideOf i, s.orderPrice i, s.orderQty i⟩

theorem resting_eq_none {s : LimitOrderBook c} {id : Nat} :
    s.resting id = none ↔ s.idToIdx id = none := by
  rw [resting, Option.map_eq_none_iff]

theorem reset_resting (s : LimitOrderBook c) (id : Nat) : s.reset.resting id = none :=
  resting_eq_none.mpr rfl

section

variable {s : LimitOrderBook c} {free : List Nat} {queue : Side → Nat → List Nat}
variable {side : Side} {level i : Nat}

theorem Nodes.resting_queued (nodes : Nodes s free queue) (member : i ∈ queue side level) :
    s.resting (s.orderId i).toNat = some ⟨side, c.levelToPrice level, s.orderQty i⟩ := by
  have placed := nodes.placed _ _ _ member
  rw [resting, placed.id_maps, Option.map_some, placed.sideOf, placed.price_eq]

theorem Represents.resting_valid (rep : Represents s free queue) {id : Nat}
    (rests : s.resting id ≠ none) : c.validId id = true := by
  obtain ⟨i, maps⟩ := Option.ne_none_iff_exists'.mp (mt resting_eq_none.mpr rests)
  obtain ⟨ids, side, level, inside⟩ := rep.nodes.mapped _ _ maps
  rw [← ids]
  exact (rep.nodes.placed _ _ _ inside).id_valid

theorem Represents.resting_iff (rep : Represents s free queue) {id : Nat} {r : Resting c.Qty} :
    s.resting id = some r ↔
      ⟨(id : Int), r.side, r.price, r.qty.toNat⟩ ∈ s.ordersAt r.side (c.priceToLevel r.price) := by
  rw [rep.nodes.ordersAt, List.mem_map]
  constructor
  · intro rests
    rw [resting, Option.map_eq_some_iff] at rests
    obtain ⟨i, maps, rfl⟩ := rests
    obtain ⟨ids, side, level, inside⟩ := rep.nodes.mapped _ _ maps
    have placed := rep.nodes.placed _ _ _ inside
    refine ⟨i, ?_, ?_⟩
    · rwa [placed.sideOf, placed.price_eq, priceToLevel_levelToPrice]
    · rw [orderOf, ids]
  · rintro ⟨i, inside, same⟩
    obtain ⟨ids, -, price, qty⟩ := Reference.Order.mk.inj same
    have placed := rep.nodes.placed _ _ _ inside
    have rests := rep.nodes.resting_queued inside
    rw [ids, Int.toNat_natCast, ← placed.price_eq, price,
      show s.orderQty i = r.qty from BitVec.eq_of_toNat_eq qty] at rests
    exact rests

-- With every node queued, every valid id rests; so a free id finds a node.
theorem Represents.alloc_fresh (rep : Represents s free queue) {orderId : Int}
    (valid : c.validId orderId = true) (fresh : s.idToIdx orderId.toNat = none) :
    ∃ s' i, s.allocOrder orderId = some (s', i) := by
  cases head : s.freeHead with
  | some i => exact ⟨_, i, allocOrder_eq_some.mpr ⟨valid, fresh, head, rfl⟩⟩
  | none =>
    have none : free = [] := by
      have chain := rep.nodes.freeChain
      rw [head] at chain
      exact chain.head_none
    have queued (i : Nat) (inside : i ∈ Finset.range c.maxOrders) :
        ∃ side level, i ∈ queue side level :=
      rep.nodes.covered i (Finset.mem_range.mp inside) (by simp [none])
    have maps : Set.MapsTo (fun i => (s.orderId i).toNat) (Finset.range c.maxOrders)
        (Finset.range c.maxOrders) := by
      intro i inside
      obtain ⟨side, level, member⟩ := queued i inside
      exact Finset.mem_coe.mpr (Finset.mem_range.mpr
        (validId_iff.mp (rep.nodes.placed _ _ _ member).id_valid).2)
    have injective : Set.InjOn (fun i => (s.orderId i).toNat) (Finset.range c.maxOrders) := by
      intro i left j right same
      obtain ⟨_, _, leftIn⟩ := queued i left
      obtain ⟨_, _, rightIn⟩ := queued j right
      exact rep.nodes.orderId_injective leftIn rightIn same
    have onto := Finset.surjOn_of_injOn_of_card_le _ maps injective (le_refl _)
    obtain ⟨i, inside, same⟩ := onto (Finset.mem_coe.mpr
      (Finset.mem_range.mpr (validId_iff.mp valid).2))
    obtain ⟨side, level, member⟩ := queued i inside
    have placed := (rep.nodes.placed _ _ _ member).id_maps
    simp only at same
    rw [same, fresh] at placed
    exact absurd placed (by simp)

end

theorem Traded.fill {side : Side} {price orderId : Int} {m m' : Matching c} {free : List Nat}
    {queue : Side → Nat → List Nat} {best i : Nat} {qty : c.Qty}
    (traded : Traded side orderId m best i qty m')
    (trading : Trading side price m free queue best i) :
    ∃ maker, Fill c side price orderId m.book.resting m.remaining
        (m.execution side orderId best i qty) maker ∧
      m'.book.resting = Function.update m.book.resting (m.book.orderId i).toNat
        (maker.take qty) := by
  have member := trading.mem
  have nodes := trading.rep.nodes
  have placed := nodes.placed _ _ _ member
  have rests := nodes.resting_queued member
  refine ⟨_, ⟨rfl, rfl, rfl, placed.id_valid, rests, rfl, rfl,
    inRange_levelToPrice placed.level_lt, trading.within, traded.positive, traded.leMaker,
    traded.leTaker⟩, ?_⟩
  funext id
  have filled := traded.filled
  rw [Function.update_apply, resting, filled.idToIdx, Resting.take]
  by_cases here : id = (m.book.orderId i).toNat
  · subst here
    rw [if_pos rfl]
    by_cases whole : qty = m.book.orderQty i
    · simp [whole]
    · have maps : m.book.idToIdx (m.book.orderId i).toNat = some i := placed.id_maps
      rw [if_neg whole, if_neg whole, maps, Option.map_some, filled.orderQty,
        Function.update_self, filled.orderPrice, placed.price_eq, sideOf, filled.orderSide,
        ← sideOf, placed.sideOf]
  · rw [if_neg here]
    have others : (if qty = m.book.orderQty i then
        Function.update m.book.idToIdx (m.book.orderId i).toNat none else m.book.idToIdx) id =
          m.book.idToIdx id := by
      split
      · rw [Function.update_of_ne here]
      · rfl
    rw [others, resting]
    refine Option.map_congr fun j maps => ?_
    have apart := nodes.mapped_apart maps here
    rw [filled.orderQty, Function.update_of_ne apart, filled.orderPrice, sideOf,
      filled.orderSide, ← sideOf]

theorem rested_resting {s s' : LimitOrderBook c} {free : List Nat}
    {queue : Side → Nat → List Nat} (nodes : Nodes s free queue) {orderId price : Int} {i : Nat}
    (alloc : s.allocOrder orderId = some (s', i)) (side : Side) (remaining : c.Qty) :
    (s'.restOrder side price remaining orderId i).resting =
      Function.update s.resting orderId.toNat (some ⟨side, price, remaining⟩) := by
  have notQueued := nodes.alloc_unqueued alloc
  obtain ⟨-, -, -, rfl⟩ := allocOrder_eq_some.mp alloc
  funext id
  have same := fun t : LimitOrderBook c =>
    markOccupied_same (t.linkNode side (c.priceToLevel price) i) side (c.priceToLevel price)
  simp only [resting, sideOf, restOrder, linkNewOrder, (same _).idToIdx, (same _).orderPrice,
    (same _).orderSide, (same _).orderQty, linkNode_idToIdx, linkNode_orderPrice,
    linkNode_orderSide, linkNode_orderQty, Function.update_apply]
  by_cases here : id = orderId.toNat
  · rw [if_pos here, if_pos here]
    cases side <;> simp [Side.code, kBuy, kSell]
  · rw [if_neg here, if_neg here]
    refine Option.map_congr fun j maps => ?_
    obtain ⟨-, _, _, inside⟩ := nodes.mapped _ _ maps
    have different : j ≠ i := by
      rintro rfl
      exact notQueued _ _ inside
    simp [different]

end LimitOrderBook

end CppPractice
