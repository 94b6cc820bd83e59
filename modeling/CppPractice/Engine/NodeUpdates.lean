import Mathlib.Algebra.BigOperators.Group.List.Lemmas
import Mathlib.Tactic.Abel
import CppPractice.Engine.Nodes

set_option autoImplicit false

namespace CppPractice.LimitOrderBook

variable {c : Config}

theorem map_update_of_notMem {A M : Type} [DecidableEq A] {l : List A} {a : A} (nodup : l.Nodup)
    (absent : a ∉ l) (f : A → M) (value : M) : l.map (Function.update f a value) = l.map f := by
  rw [nodup.map_update, if_neg absent]

theorem sum_map_update {A M : Type} [DecidableEq A] [AddCommGroup M] {a : A} {l : List A}
    (nodup : l.Nodup) (member : a ∈ l) (f : A → M) (change : M) :
    (l.map (Function.update f a (f a - change))).sum = (l.map f).sum - change := by
  rw [← List.sum_map_erase _ member, ← List.sum_map_erase f member,
    map_update_of_notMem (nodup.erase a) nodup.not_mem_erase, Function.update_self]
  abel

section

variable {s : LimitOrderBook c} {free : List Nat} {queue : Side → Nat → List Nat}
variable {side : Side} {level i : Nat}

@[simp]
theorem reduceMaker_orderQty (trade : c.Qty) :
    (s.reduceMaker side level i trade).orderQty =
      Function.update s.orderQty i (s.orderQty i - trade) := rfl

theorem Nodes.reduceMaker (nodes : Nodes s free queue) (member : i ∈ queue side level)
    (trade : c.Qty) : Nodes (s.reduceMaker side level i trade) free queue where
  freeChain := nodes.freeChain
  freeNodup := nodes.freeNodup
  freeValid := nodes.freeValid
  linked other at' := by
    by_cases here : other = side
    · subst here
      simpa [LimitOrderBook.reduceMaker, setBook] using nodes.linked other at'
    · simpa [LimitOrderBook.reduceMaker, setBook, here] using nodes.linked other at'
  placed other at' j inside := by
    have := nodes.placed other at' j inside
    exact ⟨this.valid, this.level_lt, this.side_eq, this.price_eq, this.id_valid, this.id_maps⟩
  notFree := nodes.notFree
  covered := nodes.covered
  mapped := nodes.mapped
  total other at' := by
    by_cases here : other = side ∧ at' = level
    · obtain ⟨rfl, rfl⟩ := here
      have := sum_map_update (nodes.nodup other at') member s.orderQty trade
      simpa [LimitOrderBook.reduceMaker, setBook, nodes.total] using this.symm
    · -- No other queue holds the maker, so no other sum moves.
      have untouched := map_update_of_notMem (nodes.nodup other at')
        (fun inside => here (nodes.unique inside member)) s.orderQty (s.orderQty i - trade)
      by_cases same : other = side
      · subst same
        have different : at' ≠ level := fun same => here ⟨rfl, same⟩
        simp [LimitOrderBook.reduceMaker, setBook, untouched, nodes.total, different]
      · simp [LimitOrderBook.reduceMaker, setBook, untouched, nodes.total, same]

theorem freeOrder_unlinkNode (here : Placed s side level i) :
    (s.unlinkNode side level i).freeOrder (s.orderId i) =
      { s.unlinkNode side level i with
        idToIdx := Function.update s.idToIdx (s.orderId i).toNat none
        nextFree := Function.update s.nextFree i s.freeHead
        freeHead := some i } := by
  simp [freeOrder, here.id_valid, unlinkNode, setBook, here.id_maps]

theorem unlinkNode_apart {other : Side} {at' : Nat} (apart : ¬(other = side ∧ at' = level)) :
    ((s.unlinkNode side level i).book other).head at' = (s.book other).head at' ∧
      ((s.unlinkNode side level i).book other).tail at' = (s.book other).tail at' ∧
      ((s.unlinkNode side level i).book other).levelQty at' = (s.book other).levelQty at' := by
  by_cases sameSide : other = side
  · subst sameSide
    have different : at' ≠ level := fun sameLevel => apart ⟨rfl, sameLevel⟩
    refine ⟨?_, ?_, ?_⟩ <;> simp only [unlinkNode, setBook, Function.update_self]
    · split <;> simp [different]
    · split <;> simp [different]
    · simp [different]
  · simp [unlinkNode, setBook, sameSide]

theorem Nodes.unlinkNode_linked (nodes : Nodes s free queue) (member : i ∈ queue side level)
    (other : Side) (at' : Nat) :
    Links.Queue (s.unlinkNode side level i).next (s.unlinkNode side level i).prev
      (((s.unlinkNode side level i).book other).head at')
      (((s.unlinkNode side level i).book other).tail at') ((queue other at').erase i) := by
  have here := nodes.linked side level
  by_cases same : other = side ∧ at' = level
  · obtain ⟨rfl, rfl⟩ := same
    have joined := here.unlink member
    simp only [unlinkNode, setBook, Function.update_self]
    convert joined using 1
    · split <;> simp_all
    · split <;> simp_all
  · -- The neighbours of the removed node are in its own queue.
    rw [List.erase_of_not_mem fun inside => same (nodes.unique inside member)]
    obtain ⟨head, tail, -⟩ := unlinkNode_apart (s := s) (i := i) same
    rw [head, tail]
    refine (nodes.linked other at').congr ?_ ?_
    · intro j inside
      simp only [unlinkNode, Links.setAt_apply]
      rw [if_neg]
      exact fun neighbour => same (nodes.unique inside (here.prev_mem member neighbour))
    · intro j inside
      simp only [unlinkNode, Links.setAt_apply]
      rw [if_neg]
      exact fun neighbour => same (nodes.unique inside (here.next_mem member neighbour))

theorem Nodes.unlinkNode_total (nodes : Nodes s free queue) (member : i ∈ queue side level)
    (other : Side) (at' : Nat) :
    ((s.unlinkNode side level i).book other).levelQty at' =
      (((queue other at').erase i).map (s.unlinkNode side level i).orderQty).sum := by
  have zeroed := map_update_of_notMem ((nodes.nodup other at').erase i)
    (nodes.nodup other at').not_mem_erase s.orderQty 0
  by_cases same : other = side ∧ at' = level
  · obtain ⟨rfl, rfl⟩ := same
    simp only [unlinkNode, setBook, Function.update_self]
    rw [zeroed, nodes.total, ← List.sum_map_erase s.orderQty member]
    abel
  · rw [List.erase_of_not_mem fun inside => same (nodes.unique inside member)] at zeroed ⊢
    rw [(unlinkNode_apart same).2.2, nodes.total]
    exact congrArg List.sum zeroed.symm

theorem Nodes.remove (nodes : Nodes s free queue) (member : i ∈ queue side level) :
    Nodes ((s.unlinkNode side level i).freeOrder (s.orderId i)) (i :: free)
      (fun side level => (queue side level).erase i) := by
  have here := nodes.placed _ _ _ member
  have kept (other : Side) (at' j : Nat) :
      j ∈ (queue other at').erase i ↔ j ≠ i ∧ j ∈ queue other at' :=
    (nodes.nodup other at').mem_erase_iff
  rw [freeOrder_unlinkNode here]
  constructor
  case freeChain => exact nodes.freeChain.push (nodes.notFree _ _ _ member)
  case freeNodup =>
    exact List.nodup_cons.mpr ⟨nodes.notFree _ _ _ member, nodes.freeNodup⟩
  case freeValid =>
    intro j inside
    rcases List.mem_cons.mp inside with rfl | old
    · exact here.valid
    · exact nodes.freeValid j old
  case linked => exact nodes.unlinkNode_linked member
  case placed =>
    intro other at' j inside
    obtain ⟨different, old⟩ := (kept other at' j).mp inside
    have there := nodes.placed _ _ _ old
    refine ⟨there.valid, there.level_lt, there.side_eq, there.price_eq, there.id_valid, ?_⟩
    have ids : (s.orderId j).toNat ≠ (s.orderId i).toNat :=
      fun same => different (nodes.orderId_injective old member same)
    exact (Function.update_of_ne ids _ _).trans there.id_maps
  case notFree =>
    intro other at' j inside
    obtain ⟨different, old⟩ := (kept other at' j).mp inside
    simp [different, nodes.notFree _ _ _ old]
  case covered =>
    intro j valid absent
    rw [List.mem_cons, not_or] at absent
    obtain ⟨other, at', old⟩ := nodes.covered j valid absent.2
    exact ⟨other, at', (kept other at' j).mpr ⟨absent.1, old⟩⟩
  case mapped =>
    intro id j maps
    have different : id ≠ (s.orderId i).toNat := by
      rintro rfl
      simp at maps
    have maps : s.idToIdx id = some j := by simpa [different] using maps
    obtain ⟨sameId, other, at', old⟩ := nodes.mapped id j maps
    refine ⟨sameId, other, at', (kept other at' j).mpr ⟨?_, old⟩⟩
    rintro rfl
    exact different (by omega)
  case total => exact nodes.unlinkNode_total member

theorem allocOrder_eq_some {orderId : Int} {s' : LimitOrderBook c} :
    s.allocOrder orderId = some (s', i) ↔
      c.validId orderId = true ∧ s.idToIdx orderId.toNat = none ∧ s.freeHead = some i ∧
        s' = { s with
          freeHead := s.nextFree i
          idToIdx := Function.update s.idToIdx orderId.toNat (some i) } := by
  unfold allocOrder
  by_cases valid : c.validId orderId = true
  · cases maps : s.idToIdx orderId.toNat with
    | some other => simp [valid]
    | none =>
      cases head : s.freeHead with
      | none => simp
      | some first =>
        simp only [valid, Bool.not_true, Bool.false_eq_true, if_false, ne_eq, not_true_eq_false,
          Option.some.injEq, Prod.mk.injEq, true_and]
        constructor
        · rintro ⟨rfl, rfl⟩
          exact ⟨rfl, rfl⟩
        · rintro ⟨rfl, rfl⟩
          exact ⟨rfl, rfl⟩
  · simp [valid]

theorem Nodes.alloc_head {s' : LimitOrderBook c} {orderId : Int} (nodes : Nodes s free queue)
    (alloc : s.allocOrder orderId = some (s', i)) :
    ∃ rest, free = i :: rest ∧ Links.Chain s.nextFree (s.nextFree i) rest := by
  have chain := nodes.freeChain
  rw [(allocOrder_eq_some.mp alloc).2.2.1] at chain
  exact chain.head_some

theorem Nodes.alloc_unqueued {s' : LimitOrderBook c} {orderId : Int} (nodes : Nodes s free queue)
    (alloc : s.allocOrder orderId = some (s', i)) (side : Side) (level : Nat) :
    i ∉ queue side level := by
  obtain ⟨rest, rfl, -⟩ := nodes.alloc_head alloc
  exact fun inside => nodes.notFree _ _ _ inside (by simp)

def pushQueue (queue : Side → Nat → List Nat) (side : Side) (level i : Nat) :
    Side → Nat → List Nat :=
  fun other at' => if other = side ∧ at' = level then queue other at' ++ [i] else queue other at'

theorem mem_pushQueue {other : Side} {at' j : Nat} :
    j ∈ pushQueue queue side level i other at' ↔
      j ∈ queue other at' ∨ (other = side ∧ at' = level ∧ j = i) := by
  unfold pushQueue
  split <;> simp_all

theorem linkNode_apart {other : Side} {at' : Nat} (apart : ¬(other = side ∧ at' = level)) :
    ((s.linkNode side level i).book other).head at' = (s.book other).head at' ∧
      ((s.linkNode side level i).book other).tail at' = (s.book other).tail at' := by
  by_cases sameSide : other = side
  · subst sameSide
    have different : at' ≠ level := fun sameLevel => apart ⟨rfl, sameLevel⟩
    cases last : (s.book other).tail level <;> simp [linkNode, setBook, last, different]
  · cases last : (s.book side).tail level <;> simp [linkNode, setBook, last, sameSide]

theorem linkNode_linked (fresh : i ∉ queue side level)
    (linked : ∀ other at', Links.Queue s.next s.prev ((s.book other).head at')
      ((s.book other).tail at') (queue other at'))
    (apart : ∀ other at' j, ¬(other = side ∧ at' = level) → j ∈ queue other at' →
      j ≠ i ∧ j ∉ queue side level) (other : Side) (at' : Nat) :
    Links.Queue (s.linkNode side level i).next (s.linkNode side level i).prev
      (((s.linkNode side level i).book other).head at')
      (((s.linkNode side level i).book other).tail at') (pushQueue queue side level i other at') := by
  have here := linked side level
  by_cases same : other = side ∧ at' = level
  · obtain ⟨rfl, rfl⟩ := same
    cases last : (s.book other).tail at' with
    | none =>
      rw [last] at here
      simpa [linkNode, setBook, last, pushQueue] using here.push_first i
    | some tail =>
      rw [last] at here
      simpa [linkNode, setBook, last, pushQueue] using here.push_back fresh
  · -- Only the links of the new node and of the old tail change.
    have clear := apart other at'
    obtain ⟨headEq, tailEq⟩ := linkNode_apart (s := s) (i := i) same
    rw [pushQueue, if_neg same, headEq, tailEq]
    cases last : (s.book side).tail level with
    | none =>
      refine (linked other at').congr ?_ ?_ <;> intro j inside <;>
        simp [linkNode, setBook, last, (clear j same inside).1]
    | some tail =>
      rw [last] at here
      refine (linked other at').congr ?_ ?_ <;> intro j inside
      · have notTail : j ≠ tail := by
          rintro rfl
          exact (clear j same inside).2 here.tail_mem
        simp [linkNode, setBook, last, (clear j same inside).1, notTail]
      · simp [linkNode, setBook, last, (clear j same inside).1]

theorem linkNode_levelQty (s : LimitOrderBook c) (side other : Side) (level i at' : Nat) :
    ((s.linkNode side level i).book other).levelQty at' =
      if other = side ∧ at' = level then (s.book other).levelQty at' + s.orderQty i
      else (s.book other).levelQty at' := by
  by_cases sameSide : other = side
  · subst sameSide
    by_cases sameLevel : at' = level <;> cases last : (s.book other).tail level <;>
      simp [linkNode, setBook, last, sameLevel]
  · cases last : (s.book side).tail level <;> simp [linkNode, setBook, last, sameSide]

@[simp]
theorem linkNode_orderId : (s.linkNode side level i).orderId = s.orderId := by
  unfold linkNode; dsimp only; split <;> rfl

@[simp]
theorem linkNode_orderPrice : (s.linkNode side level i).orderPrice = s.orderPrice := by
  unfold linkNode; dsimp only; split <;> rfl

@[simp]
theorem linkNode_orderQty : (s.linkNode side level i).orderQty = s.orderQty := by
  unfold linkNode; dsimp only; split <;> rfl

@[simp]
theorem linkNode_orderSide : (s.linkNode side level i).orderSide = s.orderSide := by
  unfold linkNode; dsimp only; split <;> rfl

@[simp]
theorem linkNode_freeHead : (s.linkNode side level i).freeHead = s.freeHead := by
  unfold linkNode; dsimp only; split <;> rfl

@[simp]
theorem linkNode_nextFree : (s.linkNode side level i).nextFree = s.nextFree := by
  unfold linkNode; dsimp only; split <;> rfl

@[simp]
theorem linkNode_idToIdx : (s.linkNode side level i).idToIdx = s.idToIdx := by
  unfold linkNode; dsimp only; split <;> rfl

-- The pool with node `i` off the free list and an order written into it, not queued yet.
def written (s : LimitOrderBook c) (side : Side) (price : Int) (remaining : c.Qty) (orderId : Int)
    (i : Nat) : LimitOrderBook c :=
  { s with
    freeHead := s.nextFree i
    idToIdx := Function.update s.idToIdx orderId.toNat (some i)
    orderId := Function.update s.orderId i orderId
    orderSide := Function.update s.orderSide i side.code
    orderPrice := Function.update s.orderPrice i price
    orderQty := Function.update s.orderQty i remaining }

variable {s' : LimitOrderBook c} {orderId price : Int} {remaining : c.Qty}

theorem restOrder_alloc (alloc : s.allocOrder orderId = some (s', i)) :
    s'.restOrder side (c.levelToPrice level) remaining orderId i =
      ((s.written side (c.levelToPrice level) remaining orderId i).linkNode side level
        i).markOccupied side level := by
  obtain ⟨-, -, -, rfl⟩ := allocOrder_eq_some.mp alloc
  rw [restOrder, linkNewOrder, priceToLevel_levelToPrice]
  rfl

theorem Placed.linkNode {other : Side} {at' j : Nat} (there : Placed s other at' j) :
    Placed (s.linkNode side level i) other at' j where
  valid := there.valid
  level_lt := there.level_lt
  side_eq := by rw [linkNode_orderSide, there.side_eq]
  price_eq := by rw [linkNode_orderPrice, there.price_eq]
  id_valid := by rw [linkNode_orderId, there.id_valid]
  id_maps := by rw [linkNode_orderId, linkNode_idToIdx, there.id_maps]

theorem Placed.written {other : Side} {at' j : Nat} (there : Placed s other at' j)
    (different : j ≠ i) (unmapped : s.idToIdx orderId.toNat = none) :
    Placed (s.written side price remaining orderId i) other at' j := by
  have ids : (s.orderId j).toNat ≠ orderId.toNat := by
    intro same
    have maps := there.id_maps
    rw [same, unmapped] at maps
    cases maps
  refine ⟨there.valid, there.level_lt, ?_, ?_, ?_, ?_⟩ <;>
    simp [LimitOrderBook.written, different, ids, there.side_eq, there.price_eq, there.id_valid,
      there.id_maps]

theorem written_placed (valid : i < c.maxOrders) (inLevels : level < c.kLevels)
    (idValid : c.validId orderId = true) :
    Placed (s.written side (c.levelToPrice level) remaining orderId i) side level i := by
  refine ⟨valid, inLevels, ?_, ?_, ?_, ?_⟩ <;> simp [LimitOrderBook.written, idValid]

theorem Nodes.written_mapped (nodes : Nodes s free queue)
    (notQueued : ∀ side level, i ∉ queue side level) (idValid : c.validId orderId = true) {id j : Nat}
    (maps : (s.written side price remaining orderId i).idToIdx id = some j) :
    (s.written side price remaining orderId i).orderId j = id ∧
      ∃ other at', j ∈ pushQueue queue side level i other at' := by
  simp only [written] at maps ⊢
  by_cases same : id = orderId.toNat
  · subst same
    obtain rfl : i = j := by simpa using maps
    have nonneg := (validId_iff.mp idValid).1
    exact ⟨by simp [nonneg], side, level, mem_pushQueue.mpr (Or.inr ⟨rfl, rfl, rfl⟩)⟩
  · rw [Function.update_of_ne same] at maps
    obtain ⟨sameId, other, at', old⟩ := nodes.mapped id j maps
    have different : j ≠ i := by
      rintro rfl
      exact notQueued _ _ old
    rw [Function.update_of_ne different]
    exact ⟨sameId, other, at', mem_pushQueue.mpr (Or.inl old)⟩

theorem Nodes.linkNode_total (nodes : Nodes s free queue)
    (notQueued : ∀ side level, i ∉ queue side level) (other : Side) (at' : Nat) :
    (((s.written side price remaining orderId i).linkNode side level i).book other).levelQty at' =
      ((pushQueue queue side level i other at').map
        (Function.update s.orderQty i remaining)).sum := by
  have untouched := map_update_of_notMem (nodes.nodup other at') (notQueued other at') s.orderQty
    remaining
  rw [linkNode_levelQty, pushQueue]
  split <;> simp [written, untouched, nodes.total]

theorem Nodes.insert (nodes : Nodes s free queue) (side : Side) (remaining : c.Qty)
    (inLevels : level < c.kLevels) (alloc : s.allocOrder orderId = some (s', i)) :
    ∃ rest, free = i :: rest ∧
      Nodes (s'.restOrder side (c.levelToPrice level) remaining orderId i) rest
        (pushQueue queue side level i) := by
  have notQueued := nodes.alloc_unqueued alloc
  obtain ⟨rest, rfl, restChain⟩ := nodes.alloc_head alloc
  obtain ⟨valid, unmapped, -, -⟩ := allocOrder_eq_some.mp alloc
  obtain ⟨notInRest, restNodup⟩ := List.nodup_cons.mp nodes.freeNodup
  refine ⟨rest, rfl, ?_⟩
  rw [restOrder_alloc alloc]
  refine (markOccupied_same _ side level).nodes ?_
  constructor
  case freeChain =>
    rw [linkNode_nextFree, linkNode_freeHead]
    exact restChain
  case freeNodup => exact restNodup
  case freeValid => exact fun j inside => nodes.freeValid j (by simp [inside])
  case linked =>
    refine linkNode_linked (notQueued side level) nodes.linked fun other at' j apart inside => ⟨?_, ?_⟩
    · rintro rfl
      exact notQueued _ _ inside
    · exact fun also => apart (nodes.unique inside also)
  case placed =>
    intro other at' j inside
    rcases mem_pushQueue.mp inside with old | ⟨rfl, rfl, rfl⟩
    · refine ((nodes.placed _ _ _ old).written ?_ unmapped).linkNode
      rintro rfl
      exact notQueued _ _ old
    · exact (written_placed (nodes.freeValid _ (by simp)) inLevels valid).linkNode
  case notFree =>
    intro other at' j inside
    rcases mem_pushQueue.mp inside with old | ⟨rfl, rfl, rfl⟩
    · exact fun free => nodes.notFree _ _ _ old (List.mem_cons_of_mem _ free)
    · exact notInRest
  case covered =>
    intro j jValid absent
    by_cases same : j = i
    · exact ⟨side, level, mem_pushQueue.mpr (Or.inr ⟨rfl, rfl, same⟩)⟩
    · obtain ⟨other, at', old⟩ := nodes.covered j jValid (by simp [same, absent])
      exact ⟨other, at', mem_pushQueue.mpr (Or.inl old)⟩
  case mapped =>
    intro id j maps
    rw [linkNode_idToIdx] at maps
    rw [linkNode_orderId]
    exact nodes.written_mapped notQueued valid maps
  case total =>
    intro other at'
    rw [linkNode_orderQty]
    exact nodes.linkNode_total notQueued other at'

end

end CppPractice.LimitOrderBook
