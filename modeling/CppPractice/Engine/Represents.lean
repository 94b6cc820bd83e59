import CppPractice.Engine.Occupancy

set_option autoImplicit false

namespace CppPractice.LimitOrderBook

variable {c : Config}

structure Represents (s : LimitOrderBook c) (free : List Nat) (queue : Side → Nat → List Nat) :
    Prop where
  nodes : Nodes s free queue
  occupancy : Occupancy s queue
  positive : ∀ side level i, i ∈ queue side level → s.orderQty i ≠ 0

def dropNode (queue : Side → Nat → List Nat) (i : Nat) : Side → Nat → List Nat :=
  fun side level => (queue side level).erase i

@[simp]
theorem freeOrder_book (s : LimitOrderBook c) (orderId : Int) :
    (s.freeOrder orderId).book = s.book := by
  unfold freeOrder
  split
  · rfl
  · split <;> rfl

@[simp]
theorem freeOrder_best (s : LimitOrderBook c) (orderId : Int) :
    (s.freeOrder orderId).best = s.best := by
  unfold freeOrder
  split
  · rfl
  · split <;> rfl

theorem reset_represents (s : LimitOrderBook c) :
    Represents s.reset (List.range c.maxOrders) (fun _ _ => []) where
  nodes := reset_nodes s
  occupancy :=
    { occupied := by simp [isOccupied, reset, BookSide.reset, Bitset.test]
      best := fun side level => by simp [reset, BookSide.reset, Bitset.test] }
  positive := by simp

section

variable {s : LimitOrderBook c} {free : List Nat} {queue : Side → Nat → List Nat}
variable {side : Side} {level i : Nat}

theorem removed_same (here : Placed s side level i) :
    SameNodes
      { s.unlinkNode side level i with
        idToIdx := Function.update s.idToIdx (s.orderId i).toNat none
        nextFree := Function.update s.nextFree i s.freeHead
        freeHead := some i }
      ((s.unlinkOrder side level i).freeOrder (s.orderId i)) := by
  rw [← freeOrder_unlinkNode here]
  exact (dropEmptyLevel_same _ side level).freeOrder _

-- Unlinking and freeing keeps the invariant; the node's own quantity does not matter.
theorem removed_represents (nodes : Nodes s free queue) (occupancy : Occupancy s queue)
    (member : i ∈ queue side level)
    (positive : ∀ side level j, j ∈ queue side level → j ≠ i → s.orderQty j ≠ 0) :
    Represents ((s.unlinkOrder side level i).freeOrder (s.orderId i)) (i :: free)
      (dropNode queue i) := by
  have here := nodes.placed _ _ _ member
  have same := removed_same here
  have unlinked := (nodes.remove member)
  have kept (other : Side) (at' j : Nat) :
      j ∈ dropNode queue i other at' ↔ j ≠ i ∧ j ∈ queue other at' :=
    (nodes.nodup other at').mem_erase_iff
  refine ⟨((dropEmptyLevel_same _ side level).freeOrder _).nodes unlinked, ⟨?_, ?_⟩, ?_⟩
  · intro other at' present
    rw [isOccupied, freeOrder_book, ← isOccupied, unlinkOrder, isOccupied_dropEmptyLevel] at present
    split at present
    · exact absurd present (by decide)
    · rename_i kept'
      have before : s.isOccupied other at' = true := by simpa [isOccupied] using present
      by_cases sameLevel : other = side ∧ at' = level
      · -- A level whose last node left has total zero, so its bit was cleared.
        obtain ⟨rfl, rfl⟩ := sameLevel
        intro empty
        apply kept'
        refine ⟨rfl, rfl, ?_⟩
        have total := unlinked.total other at'
        rw [freeOrder_book] at total
        rw [total]
        have : (queue other at').erase i = [] := empty
        simp [this]
      · have : dropNode queue i other at' = queue other at' :=
          List.erase_of_not_mem fun inside => sameLevel (nodes.unique inside member)
        rw [this]
        exact occupancy.occupied other at' before
  · intro other
    rw [freeOrder_book, freeOrder_best, unlinkOrder]
    apply dropEmptyLevel_best _ here.level_lt
    · intro any
      rw [unlinkNode_occ]
      exact occupancy.best any
    · rw [unlinkNode_occ]
      exact occupancy.within nodes side
  · intro other at' j inside
    obtain ⟨different, old⟩ := (kept other at' j).mp inside
    rw [same.orderQty]
    simpa [unlinkNode, different] using positive other at' j old different

theorem reduceMaker_occupancy (occupancy : Occupancy s queue) (trade : c.Qty) :
    Occupancy (s.reduceMaker side level i trade) queue := by
  refine ⟨fun other at' present => occupancy.occupied other at' ?_, fun other => ?_⟩
  · rw [← present, isOccupied, isOccupied, reduceMaker_occ]
  · rw [reduceMaker_occ]
    exact occupancy.best other

theorem fillMaker_whole (rep : Represents s free queue) (member : i ∈ queue side level) :
    Represents (s.fillMaker side level i (s.orderQty i)) (i :: free) (dropNode queue i) := by
  have used : (s.reduceMaker side level i (s.orderQty i)).orderQty i = 0 := by
    simp
  rw [fillMaker, if_pos used]
  refine removed_represents (rep.nodes.reduceMaker member _)
    (reduceMaker_occupancy rep.occupancy _) member ?_
  intro other at' j inside different
  simpa [different] using rep.positive other at' j inside

theorem fillMaker_part (rep : Represents s free queue) (member : i ∈ queue side level)
    {trade : c.Qty} (part : trade ≠ s.orderQty i) :
    s.fillMaker side level i trade = s.reduceMaker side level i trade ∧
      Represents (s.fillMaker side level i trade) free queue := by
  have left : (s.reduceMaker side level i trade).orderQty i ≠ 0 := by
    simp only [reduceMaker_orderQty, Function.update_self]
    exact fun zero => part (sub_eq_zero.mp zero).symm
  rw [fillMaker, if_neg left]
  refine ⟨rfl, rep.nodes.reduceMaker member _, reduceMaker_occupancy rep.occupancy _, ?_⟩
  intro other at' j inside
  by_cases same : j = i
  · subst same
    exact left
  · simpa [same] using rep.positive other at' j inside

theorem rested_orderQty {s' : LimitOrderBook c} {orderId : Int}
    (alloc : s.allocOrder orderId = some (s', i)) (side : Side) (price : Int) (remaining : c.Qty) :
    (s'.restOrder side price remaining orderId i).orderQty =
      Function.update s.orderQty i remaining := by
  obtain ⟨-, -, -, rfl⟩ := allocOrder_eq_some.mp alloc
  rw [restOrder, linkNewOrder, (markOccupied_same _ _ _).orderQty, linkNode_orderQty]

theorem restOrder_represents {s' : LimitOrderBook c} {orderId price : Int} {remaining : c.Qty}
    (rep : Represents s free queue) (side : Side) (inRange : c.inRange price = true)
    (positive : remaining ≠ 0) (alloc : s.allocOrder orderId = some (s', i)) :
    ∃ rest, Represents (s'.restOrder side price remaining orderId i) rest
      (pushQueue queue side (c.priceToLevel price) i) := by
  obtain ⟨inLevels, samePrice⟩ := level_of_price inRange
  obtain ⟨rest, -, nodes⟩ := rep.nodes.insert side remaining inLevels alloc
  rw [samePrice] at nodes
  refine ⟨rest, nodes, ⟨?_, ?_⟩, ?_⟩
  · intro other at' present
    rw [rested_isOccupied alloc] at present
    by_cases here : other = side ∧ at' = c.priceToLevel price
    · simp [pushQueue, here]
    · rw [if_neg here] at present
      rw [pushQueue, if_neg here]
      exact rep.occupancy.occupied other at' present
  · obtain ⟨-, -, -, rfl⟩ := allocOrder_eq_some.mp alloc
    rw [restOrder, linkNewOrder]
    apply markOccupied_best
    intro other
    rw [linkNode_occ, linkNode_best]
    exact rep.occupancy.best other
  · intro other at' j inside
    rw [rested_orderQty alloc]
    by_cases same : j = i
    · simpa [same] using positive
    · rw [Function.update_of_ne same]
      rcases mem_pushQueue.mp inside with old | ⟨-, -, new⟩
      · exact rep.positive _ _ _ old
      · exact absurd new same

theorem cancel_represents (rep : Represents s free queue) (orderId : Int) :
    (s.cancel orderId = (s, false) ∧
        (c.validId orderId = false ∨ s.idToIdx orderId.toNat = none)) ∨
      ∃ side level i, i ∈ queue side level ∧ s.orderId i = orderId ∧
        s.cancel orderId = ((s.unlinkOrder side level i).freeOrder (s.orderId i), true) ∧
        Represents (s.cancel orderId).1 (i :: free) (dropNode queue i) := by
  unfold cancel
  by_cases valid : c.validId orderId = true
  · simp only [valid, Bool.not_true, Bool.false_eq_true, if_false]
    cases maps : s.idToIdx orderId.toNat with
    | none => exact Or.inl ⟨rfl, Or.inr rfl⟩
    | some i =>
      obtain ⟨sameId, side, level, inside⟩ := rep.nodes.mapped _ _ maps
      have here := rep.nodes.placed _ _ _ inside
      have ids : s.orderId i = orderId := by
        rw [sameId]
        exact Int.toNat_of_nonneg (validId_iff.mp valid).1
      have named : (if s.orderSide i = kBuy then Side.Buy else Side.Sell) = side := by
        rw [here.side_eq]
        cases side <;> decide
      refine Or.inr ⟨side, level, i, inside, ids, ?_⟩
      simp only [named, here.price_eq, priceToLevel_levelToPrice, ← ids, true_and]
      exact removed_represents rep.nodes rep.occupancy inside
        fun other at' j member _ => rep.positive other at' j member
  · simp [valid]

end

end CppPractice.LimitOrderBook
