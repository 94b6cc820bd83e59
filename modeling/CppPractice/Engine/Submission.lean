import CppPractice.Engine.Resting

set_option autoImplicit false

namespace CppPractice.LimitOrderBook

variable {c : Config} {s : LimitOrderBook c} {free : List Nat} {queue : Side → Nat → List Nat}

theorem cancel_resting (rep : Represents s free queue) (orderId : Int) :
    (s.cancel orderId = (s, false) ∧
        (c.validId orderId = false ∨ s.resting orderId.toNat = none)) ∨
      ((s.cancel orderId).2 = true ∧ s.resting orderId.toNat ≠ none ∧
        (∃ free' queue', Represents (s.cancel orderId).1 free' queue') ∧
        (s.cancel orderId).1.resting = Function.update s.resting orderId.toNat none) := by
  rcases cancel_represents rep orderId with ⟨same, absent⟩ |
    ⟨side, level, i, inside, ids, removed, rep'⟩
  · exact Or.inl ⟨same, absent.imp_right resting_eq_none.mpr⟩
  · have placed := rep.nodes.placed _ _ _ inside
    have labels := removed_same placed
    subst ids
    refine Or.inr ⟨by rw [removed], ?_, ⟨_, _, rep'⟩, ?_⟩
    · rw [rep.nodes.resting_queued inside]
      simp
    · rw [removed]
      funext id
      have sides : ((s.unlinkOrder side level i).freeOrder (s.orderId i)).sideOf = s.sideOf := by
        funext j
        rw [sideOf, labels.orderSide]
        rfl
      simp only [resting, sides, labels.idToIdx, labels.orderPrice, labels.orderQty,
        Function.update_apply]
      by_cases here : id = (s.orderId i).toNat
      · simp [here]
      · rw [if_neg here, if_neg here]
        refine Option.map_congr fun j maps => ?_
        have apart := rep.nodes.mapped_apart maps here
        simp [unlinkNode, setBook, apart]

def Improves (side : Side) (price limit : Int) : Prop :=
  side.opposite.beyond price limit = false ∧ price ≠ limit

structure Processed (s : LimitOrderBook c) (side : Side) (price : Int) (qty : c.Qty)
    (orderId : Int) (outcome : Outcome c) (after : Nat → Option (Resting c.Qty))
    (remaining : c.Qty) : Prop where
  represents : ∃ free queue, Represents outcome.book free queue
  ok : outcome.ok = true
  fills : Fills c side price orderId s.resting qty outcome.executions after remaining
  rests : outcome.book.resting =
    if remaining = 0 then after
    else Function.update after orderId.toNat (some ⟨side, price, remaining⟩)
  improves : (∃ e ∈ outcome.executions, Improves side e.price price) ↔
    ∃ best, s.bestPrice side.opposite = some best ∧ Improves side best price

structure Priced (s : LimitOrderBook c) (side : Side) (qty : c.Qty) (m : Matching c) : Prop where
  dims : Dims s m.book
  first : m.executions = [] → m.book = s ∧ m.remaining = qty
  best : ∀ e ∈ m.executions, ∃ top level, s.best side.opposite = some top ∧
    e.price = c.levelToPrice level ∧ side.opposite.beats level top = false
  head : ∀ e, m.executions.head? = some e → ∃ top, s.best side.opposite = some top ∧
    e.price = c.levelToPrice top

theorem Dims.trans {t u : LimitOrderBook c} (first : Dims s t) (second : Dims t u) : Dims s u :=
  fun side level lit => first side level (second side level lit)

theorem Priced.trade (rep : Represents s free queue) {side : Side} {price orderId : Int}
    {qty traded : c.Qty} {m m' : Matching c} {free' : List Nat} {queue' : Side → Nat → List Nat}
    {best i : Nat} (priced : Priced s side qty m)
    (trading : Trading side price m free' queue' best i)
    (trade : Traded side orderId m best i traded m') : Priced s side qty m' := by
  have lit := priced.dims _ _
    ((trading.rep.best_eq_some side.opposite best).mp trading.best_eq).1
  obtain ⟨top, cached⟩ : ∃ top, s.best side.opposite = some top := by
    cases cached : s.best side.opposite with
    | none =>
      rw [(rep.best_eq_none side.opposite).mp cached best] at lit
      exact absurd lit (by decide)
    | some top => exact ⟨top, rfl⟩
  have bound := ((rep.best_eq_some side.opposite top).mp cached).2 best lit
  refine ⟨priced.dims.trans trade.dims, ?_, ?_, ?_⟩
  · intro none
    rw [trade.executions] at none
    exact absurd none (by simp)
  · intro e member
    rw [trade.executions] at member
    rcases List.mem_append.mp member with old | new
    · exact priced.best e old
    · obtain rfl := List.mem_singleton.mp new
      exact ⟨top, best, cached, rfl, bound⟩
  · intro e first
    rw [trade.executions] at first
    cases before : m.executions with
    | nil =>
      rw [before] at first
      obtain rfl : m.execution side orderId best i traded = e := by simpa using first
      have same := trading.best_eq
      rw [(priced.first before).1] at same
      exact ⟨best, same, rfl⟩
    | cons earliest rest =>
      rw [before] at first
      exact priced.head e (by rw [before]; simpa using first)

-- Prices only get worse along a sweep, so the first execution decides whether any improves.
theorem Priced.improves {side : Side} {price orderId : Int} {qty : c.Qty} {m : Matching c}
    {after : Nat → Option (Resting c.Qty)} (priced : Priced s side qty m)
    (fills : Fills c side price orderId s.resting qty m.executions after m.remaining)
    (stopped : Stopped side price m) (positive : qty ≠ 0) :
    (∃ e ∈ m.executions, Improves side e.price price) ↔
      ∃ best, s.bestPrice side.opposite = some best ∧ Improves side best price := by
  constructor
  · rintro ⟨e, member, within, apart⟩
    obtain ⟨top, level, cached, price_eq, bound⟩ := priced.best e member
    refine ⟨c.levelToPrice top, by rw [bestPrice, cached]; rfl, ?_⟩
    rw [price_eq] at within apart
    simp only [Improves]
    cases side with
    | Buy =>
      simp only [Side.opposite, Side.beyond, Side.beats, decide_eq_false_iff_not] at *
      simp only [Config.levelToPrice] at *
      omega
    | Sell =>
      simp only [Side.opposite, Side.beyond, Side.beats, decide_eq_false_iff_not] at *
      simp only [Config.levelToPrice] at *
      omega
  · rintro ⟨best, isBest, within, apart⟩
    cases executed : m.executions with
    | nil =>
      obtain ⟨untouched, left⟩ := priced.first executed
      rcases stopped with zero | limit
      · exact absurd (left.symm.trans zero) positive
      · rw [untouched] at limit
        rw [bestPrice, Option.map_eq_some_iff] at isBest
        obtain ⟨top, cached, rfl⟩ := isBest
        rw [limit top cached] at within
        exact absurd within (by decide)
    | cons e rest =>
      obtain ⟨top, cached, price_eq⟩ := priced.head e (by rw [executed]; rfl)
      rw [bestPrice, cached, Option.map_some, Option.some.injEq] at isBest
      refine ⟨e, List.mem_cons_self, ?_⟩
      rw [price_eq, isBest]
      exact ⟨within, apart⟩

theorem processOrder_processed (rep : Represents s free queue) (side : Side)
    {price orderId : Int} {qty : c.Qty} (accepts : Accepts c price qty orderId)
    (fresh : s.resting orderId.toNat = none) :
    ∃ outcome after remaining, s.processOrder side price qty orderId = some outcome ∧
      Processed s side price qty orderId outcome after remaining := by
  obtain ⟨m, free', queue', processed, rep', ⟨fills, priced⟩, stopped⟩ :=
    processOrder_trades rep side accepts
      (I := fun m => Fills c side price orderId s.resting qty m.executions m.book.resting
        m.remaining ∧ Priced s side qty m)
      ⟨.start, fun _ _ lit => lit, fun _ => ⟨rfl, rfl⟩, by simp, by simp⟩ (by
        rintro m free' queue' best i traded m' free'' queue'' trading trade - ⟨fills, priced⟩
        refine ⟨?_, priced.trade rep trading trade⟩
        obtain ⟨maker, fill, resting⟩ := trade.fill trading
        rw [trade.executions, trade.remaining, resting]
        exact fills.trade fill)
  have improves := priced.improves fills stopped accepts.1
  refine ⟨_, m.book.resting, m.remaining, processed, ?_⟩
  by_cases done : m.remaining = 0
  · rw [finish_done done]
    exact ⟨⟨_, _, rep'⟩, rfl, fills, by rw [if_pos done], improves⟩
  · have free := fills.absent fresh
    obtain ⟨allocated, i, alloc⟩ := rep'.alloc_fresh accepts.2.2 (resting_eq_none.mp free)
    have ended := finish_represents rep' side orderId accepts.2.1
    rw [finish_rested done alloc] at ended ⊢
    exact ⟨ended, rfl, fills,
      by rw [rested_resting rep'.nodes alloc, if_neg done], improves⟩

end CppPractice.LimitOrderBook
