import CppPractice.Engine.Represents

set_option autoImplicit false

namespace CppPractice.LimitOrderBook

variable {c : Config}

namespace Matching

variable {m : Matching c} {side : Side} {orderId : Int} {best i : Nat}

def execution (m : Matching c) (side : Side) (orderId : Int) (best i : Nat) (qty : c.Qty) :
    Execution c.Qty where
  takerSide := side
  takerOrderId := orderId
  makerSide := side.opposite
  makerOrderId := m.book.orderId i
  price := c.levelToPrice best
  qty := qty

theorem trade_whole (enough : m.book.orderQty i ≤ m.remaining) :
    m.trade side orderId best i =
      { book := m.book.fillMaker side.opposite best i (m.book.orderQty i)
        remaining := m.remaining - m.book.orderQty i
        executions := m.executions ++
          [m.execution side orderId best i (m.book.orderQty i)] } := by
  have least : (if m.book.orderQty i < m.remaining then m.book.orderQty i else m.remaining) =
      m.book.orderQty i := by
    split
    · rfl
    · rename_i notLess
      exact BitVec.le_antisymm (BitVec.not_lt.mp notLess) enough
  simp only [trade, least, execution]

theorem trade_part (short : m.remaining < m.book.orderQty i) :
    m.trade side orderId best i =
      { book := m.book.fillMaker side.opposite best i m.remaining
        remaining := 0
        executions := m.executions ++ [m.execution side orderId best i m.remaining] } := by
  have least : (if m.book.orderQty i < m.remaining then m.book.orderQty i else m.remaining) =
      m.remaining := if_neg (fun less => absurd (BitVec.lt_trans short less) (BitVec.lt_irrefl _))
  simp only [trade, least, execution, BitVec.sub_self]
  rfl

end Matching

def Stopped (side : Side) (price : Int) (m : Matching c) : Prop :=
  m.remaining = 0 ∨ ∀ best, m.book.best side.opposite = some best →
    side.opposite.beyond (c.levelToPrice best) price = true

structure Trading (side : Side) (price : Int) (m : Matching c) (free : List Nat)
    (queue : Side → Nat → List Nat) (best i : Nat) : Prop where
  rep : Represents m.book free queue
  remaining : m.remaining ≠ 0
  best_eq : m.book.best side.opposite = some best
  within : side.opposite.beyond (c.levelToPrice best) price = false
  first : (queue side.opposite best).head? = some i

theorem Trading.mem {side : Side} {price : Int} {m : Matching c} {free : List Nat}
    {queue : Side → Nat → List Nat} {best i : Nat}
    (trading : Trading side price m free queue best i) : i ∈ queue side.opposite best :=
  List.mem_of_mem_head? (Option.mem_def.mpr trading.first)

theorem Represents.trading {side : Side} {price : Int} {m : Matching c} {free : List Nat}
    {queue : Side → Nat → List Nat} {best : Nat} (rep : Represents m.book free queue)
    (remaining : m.remaining ≠ 0) (cached : m.book.best side.opposite = some best)
    (within : side.opposite.beyond (c.levelToPrice best) price = false) :
    ∃ i, (m.book.book side.opposite).head best = some i ∧
      Trading side price m free queue best i := by
  have isBest := rep.occupancy.best side.opposite
  rw [cached] at isBest
  have queued := rep.occupancy.occupied _ _ isBest.1
  have linked := rep.nodes.linked side.opposite best
  cases head : (m.book.book side.opposite).head best with
  | none =>
    rw [head] at linked
    exact absurd linked.head_none queued
  | some i =>
    rw [head] at linked
    exact ⟨i, rfl, rep, remaining, cached, within, linked.head_eq.symm⟩

theorem matchLoop_rule {side : Side} {price orderId : Int}
    {I : Matching c → List Nat → (Side → Nat → List Nat) → Prop}
    (whole : ∀ m free queue best i, Trading side price m free queue best i → I m free queue →
      m.book.orderQty i ≤ m.remaining →
      I (m.trade side orderId best i) (i :: free) (dropNode queue i))
    (part : ∀ m free queue best i, Trading side price m free queue best i → I m free queue →
      m.remaining < m.book.orderQty i → I (m.trade side orderId best i) free queue)
    {fuel : Nat} {m : Matching c} {free : List Nat} {queue : Side → Nat → List Nat}
    (rep : Represents m.book free queue) (start : I m free queue)
    (enough : if m.remaining = 0 then 0 < fuel else c.maxOrders - free.length < fuel) :
    ∃ m' free' queue', matchLoop side price orderId fuel m = some m' ∧
      Represents m'.book free' queue' ∧ I m' free' queue' ∧ Stopped side price m' := by
  induction fuel generalizing m free queue with
  | zero => split at enough <;> omega
  | succ fuel ih =>
    rw [matchLoop, matchTrace]
    dsimp only
    by_cases done : m.remaining = 0
    · exact ⟨m, free, queue, by rw [if_pos done], rep, start, Or.inl done⟩
    rw [if_neg done] at enough ⊢
    cases cached : m.book.best side.opposite with
    | none => exact ⟨m, free, queue, rfl, rep, start, Or.inr (by simp [cached])⟩
    | some best =>
      by_cases past : side.opposite.beyond (c.levelToPrice best) price = true
      · refine ⟨m, free, queue, by simp [past], rep, start, Or.inr ?_⟩
        intro other same
        obtain rfl : best = other := by simpa [cached] using same
        exact past
      · obtain ⟨i, head, trading⟩ := rep.trading done cached (by simpa using past)
        have member := trading.mem
        have used : free.length < c.maxOrders := by
          have := (rep.nodes.remove member).free_length_le
          rw [List.length_cons] at this
          omega
        simp only [past, Bool.false_eq_true, if_false, head]
        by_cases short : m.remaining < m.book.orderQty i
        · have next := (fillMaker_part rep member (BitVec.ne_of_lt short)).2
          have kept := part m free queue best i trading start short
          rw [Matching.trade_part short] at kept ⊢
          exact ih next kept (by simp only [if_true]; omega)
        · have le := BitVec.not_lt.mp short
          have next := fillMaker_whole rep member
          have kept := whole m free queue best i trading start le
          rw [Matching.trade_whole le] at kept ⊢
          refine ih next kept ?_
          simp only [List.length_cons]
          split <;> omega

-- The checks before the matching loop.
def Accepts (c : Config) (price : Int) (qty : c.Qty) (orderId : Int) : Prop :=
  qty ≠ 0 ∧ c.inRange price = true ∧ c.validId orderId = true

theorem processOrder_rejects {s : LimitOrderBook c} {side : Side} {price orderId : Int}
    {qty : c.Qty} (rejects : ¬Accepts c price qty orderId) :
    s.processOrder side price qty orderId = some ⟨s, [], false⟩ := by
  unfold processOrder
  unfold Accepts at rejects
  split
  · rfl
  · split
    · rfl
    · split
      · rfl
      · simp_all

def finish (m : Matching c) (side : Side) (price orderId : Int) : Outcome c :=
  if m.remaining = 0 then ⟨m.book, m.executions, true⟩
  else
    match m.book.allocOrder orderId with
    | none => ⟨m.book, m.executions, false⟩
    | some (book, idx) => ⟨book.restOrder side price m.remaining orderId idx, m.executions, true⟩

section

variable {m : Matching c} {side : Side} {price orderId : Int}

theorem finish_done (done : m.remaining = 0) :
    finish m side price orderId = ⟨m.book, m.executions, true⟩ := by
  rw [finish, if_pos done]

theorem finish_refused (left : m.remaining ≠ 0) (alloc : m.book.allocOrder orderId = none) :
    finish m side price orderId = ⟨m.book, m.executions, false⟩ := by
  rw [finish, if_neg left, alloc]

theorem finish_rested {book : LimitOrderBook c} {idx : Nat} (left : m.remaining ≠ 0)
    (alloc : m.book.allocOrder orderId = some (book, idx)) :
    finish m side price orderId =
      ⟨book.restOrder side price m.remaining orderId idx, m.executions, true⟩ := by
  rw [finish, if_neg left, alloc]

end

theorem processOrder_accepts {s : LimitOrderBook c} {side : Side} {price orderId : Int}
    {qty : c.Qty} (accepts : Accepts c price qty orderId) :
    s.processOrder side price qty orderId =
      (matchLoop side price orderId (c.maxOrders + 1) ⟨s, qty, []⟩).map
        fun m => finish m side price orderId := by
  unfold processOrder
  obtain ⟨positive, inRange, valid⟩ := accepts
  rw [if_neg positive]
  simp only [inRange, valid, Bool.not_true, Bool.false_eq_true, if_false]
  rfl

theorem finish_represents {m : Matching c} {free : List Nat} {queue : Side → Nat → List Nat}
    (rep : Represents m.book free queue) (side : Side) {price : Int} (orderId : Int)
    (inRange : c.inRange price = true) :
    ∃ free' queue', Represents (finish m side price orderId).book free' queue' := by
  by_cases done : m.remaining = 0
  · rw [finish_done done]
    exact ⟨free, queue, rep⟩
  · cases alloc : m.book.allocOrder orderId with
    | none =>
      rw [finish_refused done alloc]
      exact ⟨free, queue, rep⟩
    | some allocated =>
      obtain ⟨rest, rested⟩ := restOrder_represents rep side inRange done alloc
      rw [finish_rested done alloc]
      exact ⟨rest, _, rested⟩

theorem processOrder_rule {s : LimitOrderBook c} {free : List Nat}
    {queue : Side → Nat → List Nat} (rep : Represents s free queue) (side : Side)
    {price orderId : Int} {qty : c.Qty} (accepts : Accepts c price qty orderId)
    {I : Matching c → List Nat → (Side → Nat → List Nat) → Prop}
    (whole : ∀ m free queue best i, Trading side price m free queue best i → I m free queue →
      m.book.orderQty i ≤ m.remaining →
      I (m.trade side orderId best i) (i :: free) (dropNode queue i))
    (part : ∀ m free queue best i, Trading side price m free queue best i → I m free queue →
      m.remaining < m.book.orderQty i → I (m.trade side orderId best i) free queue)
    (start : I ⟨s, qty, []⟩ free queue) :
    ∃ m free' queue', s.processOrder side price qty orderId =
        some (finish m side price orderId) ∧
      Represents m.book free' queue' ∧ I m free' queue' ∧ Stopped side price m := by
  have enough : if qty = 0 then 0 < c.maxOrders + 1 else c.maxOrders - free.length < c.maxOrders + 1 := by
    split <;> omega
  obtain ⟨m, free', queue', looped, rep', kept, stopped⟩ :=
    matchLoop_rule (m := ⟨s, qty, []⟩) whole part rep start enough
  exact ⟨m, free', queue', by rw [processOrder_accepts accepts, looped]; rfl, rep', kept, stopped⟩

theorem processOrder_represents {s : LimitOrderBook c} {free : List Nat}
    {queue : Side → Nat → List Nat} (rep : Represents s free queue) (side : Side) (price : Int)
    (qty : c.Qty) (orderId : Int) :
    ∃ outcome, s.processOrder side price qty orderId = some outcome ∧
      ∃ free' queue', Represents outcome.book free' queue' := by
  by_cases accepts : Accepts c price qty orderId
  · obtain ⟨m, free', queue', processed, rep', -, -⟩ :=
      processOrder_rule rep side accepts (I := fun _ _ _ => True) (by simp) (by simp) trivial
    exact ⟨_, processed, finish_represents rep' side orderId accepts.2.1⟩
  · exact ⟨_, processOrder_rejects accepts, free, queue, rep⟩

theorem step_represents {s : LimitOrderBook c} {free : List Nat}
    {queue : Side → Nat → List Nat} (rep : Represents s free queue) (call : Call c) :
    ∃ s' reply, s.step call = some (s', reply) ∧
      ∃ free' queue', Represents s' free' queue' := by
  cases call with
  | processOrder side price qty orderId =>
    obtain ⟨outcome, processed, rep'⟩ := processOrder_represents rep side price qty orderId
    exact ⟨_, _, by rw [step, processed]; rfl, rep'⟩
  | cancel orderId =>
    refine ⟨_, _, rfl, ?_⟩
    rcases cancel_represents rep orderId with ⟨same, -⟩ | ⟨side, level, i, -, -, -, rep'⟩
    · exact ⟨free, queue, by rw [same]; exact rep⟩
    · exact ⟨_, _, rep'⟩
  | reset => exact ⟨_, _, rfl, _, _, reset_represents s⟩

theorem Represents.step {s s' : LimitOrderBook c} {free : List Nat}
    {queue : Side → Nat → List Nat} {call : Call c} {reply : Reply c.Qty}
    (rep : Represents s free queue) (stepped : s.step call = some (s', reply)) :
    ∃ free' queue', Represents s' free' queue' := by
  obtain ⟨t, answer, same, rep'⟩ := step_represents rep call
  obtain ⟨rfl, -⟩ := Prod.mk.inj (Option.some.inj (same.symm.trans stepped))
  exact rep'

end CppPractice.LimitOrderBook
