import CppPractice.Engine.Model

set_option autoImplicit false

namespace CppPractice.LimitOrderBook

variable {c : Config}

theorem code_injective {left right : Side} (same : left.code = right.code) : left = right := by
  cases left <;> cases right <;> first | rfl | exact absurd same (by decide)

theorem levelToPrice_injective {left right : Nat}
    (same : c.levelToPrice left = c.levelToPrice right) : left = right := by
  simp only [Config.levelToPrice] at same
  omega

@[simp]
theorem priceToLevel_levelToPrice (level : Nat) : c.priceToLevel (c.levelToPrice level) = level := by
  simp only [Config.priceToLevel, Config.levelToPrice]
  omega

theorem inRange_iff {price : Int} :
    c.inRange price = true ↔ c.priceMin ≤ price ∧ price ≤ c.priceMax := by
  simp [Config.inRange]

theorem level_of_price {price : Int} (inRange : c.inRange price = true) :
    c.priceToLevel price < c.kLevels ∧ c.levelToPrice (c.priceToLevel price) = price := by
  obtain ⟨low, high⟩ := inRange_iff.mp inRange
  have := c.priceMin_lt
  simp only [Config.priceToLevel, Config.levelToPrice, Config.kLevels]
  omega

theorem inRange_levelToPrice {level : Nat} (inLevels : level < c.kLevels) :
    c.inRange (c.levelToPrice level) = true := by
  have := c.priceMin_lt
  simp only [Config.kLevels] at inLevels
  rw [inRange_iff, Config.levelToPrice]
  omega

theorem validId_iff {orderId : Int} :
    c.validId orderId = true ↔ 0 ≤ orderId ∧ orderId.toNat < c.maxOrders := by
  simp [Config.validId]

theorem toNat_ne_zero {w : Nat} {x : BitVec w} (nonzero : x ≠ 0) : x.toNat ≠ 0 :=
  fun zero => nonzero (BitVec.eq_of_toNat_eq (by simpa using zero))

theorem length_le_of_lt {l : List Nat} {bound : Nat} (nodup : l.Nodup)
    (below : ∀ i ∈ l, i < bound) : l.length ≤ bound := by
  have := (nodup.subperm fun i member => List.mem_range.mpr (below i member)).length_le
  rwa [List.length_range] at this

structure Placed (s : LimitOrderBook c) (side : Side) (level i : Nat) : Prop where
  valid : i < c.maxOrders
  level_lt : level < c.kLevels
  side_eq : s.orderSide i = side.code
  price_eq : s.orderPrice i = c.levelToPrice level
  id_valid : c.validId (s.orderId i) = true
  id_maps : s.idToIdx (s.orderId i).toNat = some i

structure Nodes (s : LimitOrderBook c) (free : List Nat) (queue : Side → Nat → List Nat) :
    Prop where
  freeChain : Links.Chain s.nextFree s.freeHead free
  freeNodup : free.Nodup
  freeValid : ∀ i ∈ free, i < c.maxOrders
  linked : ∀ side level, Links.Queue s.next s.prev ((s.book side).head level)
    ((s.book side).tail level) (queue side level)
  placed : ∀ side level i, i ∈ queue side level → Placed s side level i
  notFree : ∀ side level i, i ∈ queue side level → i ∉ free
  covered : ∀ i < c.maxOrders, i ∉ free → ∃ side level, i ∈ queue side level
  mapped : ∀ id i, s.idToIdx id = some i → s.orderId i = id ∧ ∃ side level, i ∈ queue side level
  total : ∀ side level,
    (s.book side).levelQty level = ((queue side level).map s.orderQty).sum

namespace Nodes

variable {s : LimitOrderBook c} {free : List Nat} {queue : Side → Nat → List Nat}

theorem unique (nodes : Nodes s free queue) {side side' : Side} {level level' i : Nat}
    (here : i ∈ queue side level) (there : i ∈ queue side' level') :
    side = side' ∧ level = level' := by
  have left := nodes.placed _ _ _ here
  have right := nodes.placed _ _ _ there
  exact ⟨code_injective (left.side_eq.symm.trans right.side_eq),
    levelToPrice_injective (left.price_eq.symm.trans right.price_eq)⟩

theorem orderId_injective (nodes : Nodes s free queue) {side side' : Side}
    {level level' i j : Nat} (left : i ∈ queue side level) (right : j ∈ queue side' level')
    (same : (s.orderId i).toNat = (s.orderId j).toNat) : i = j := by
  have := (nodes.placed _ _ _ left).id_maps
  rw [same, (nodes.placed _ _ _ right).id_maps] at this
  simpa using this.symm

theorem orderId_eq_iff (nodes : Nodes s free queue) {side side' : Side}
    {level level' i j : Nat} (left : i ∈ queue side level) (right : j ∈ queue side' level') :
    s.orderId i = s.orderId j ↔ i = j :=
  ⟨fun same => nodes.orderId_injective left right (by rw [same]), fun same => by rw [same]⟩

theorem mapped_apart (nodes : Nodes s free queue) {id i j : Nat}
    (maps : s.idToIdx id = some j) (different : id ≠ (s.orderId i).toNat) : j ≠ i := by
  rintro rfl
  exact different (by rw [(nodes.mapped _ _ maps).1, Int.toNat_natCast])

theorem nodup (nodes : Nodes s free queue) (side : Side) (level : Nat) :
    (queue side level).Nodup :=
  (nodes.linked side level).nodup

theorem free_length_le (nodes : Nodes s free queue) : free.length ≤ c.maxOrders :=
  length_le_of_lt nodes.freeNodup nodes.freeValid

theorem queue_length_le (nodes : Nodes s free queue) (side : Side) (level : Nat) :
    (queue side level).length ≤ c.maxOrders :=
  length_le_of_lt (nodes.nodup side level) fun i inside => (nodes.placed _ _ i inside).valid

end Nodes

structure SameNodes (s s' : LimitOrderBook c) : Prop where
  head : ∀ side, (s'.book side).head = (s.book side).head
  tail : ∀ side, (s'.book side).tail = (s.book side).tail
  levelQty : ∀ side, (s'.book side).levelQty = (s.book side).levelQty
  next : s'.next = s.next
  prev : s'.prev = s.prev
  orderId : s'.orderId = s.orderId
  orderPrice : s'.orderPrice = s.orderPrice
  orderQty : s'.orderQty = s.orderQty
  orderSide : s'.orderSide = s.orderSide
  freeHead : s'.freeHead = s.freeHead
  nextFree : s'.nextFree = s.nextFree
  idToIdx : s'.idToIdx = s.idToIdx

namespace SameNodes

variable {s s' s'' : LimitOrderBook c}

theorem refl (s : LimitOrderBook c) : SameNodes s s := by
  constructor <;> intros <;> rfl

theorem trans (first : SameNodes s s') (second : SameNodes s' s'') : SameNodes s s'' where
  head side := (second.head side).trans (first.head side)
  tail side := (second.tail side).trans (first.tail side)
  levelQty side := (second.levelQty side).trans (first.levelQty side)
  next := second.next.trans first.next
  prev := second.prev.trans first.prev
  orderId := second.orderId.trans first.orderId
  orderPrice := second.orderPrice.trans first.orderPrice
  orderQty := second.orderQty.trans first.orderQty
  orderSide := second.orderSide.trans first.orderSide
  freeHead := second.freeHead.trans first.freeHead
  nextFree := second.nextFree.trans first.nextFree
  idToIdx := second.idToIdx.trans first.idToIdx

theorem placed {side : Side} {level i : Nat} (same : SameNodes s s')
    (placed : Placed s side level i) : Placed s' side level i where
  valid := placed.valid
  level_lt := placed.level_lt
  side_eq := by rw [same.orderSide, placed.side_eq]
  price_eq := by rw [same.orderPrice, placed.price_eq]
  id_valid := by rw [same.orderId, placed.id_valid]
  id_maps := by rw [same.orderId, same.idToIdx, placed.id_maps]

theorem nodes {free : List Nat} {queue : Side → Nat → List Nat} (same : SameNodes s s')
    (nodes : Nodes s free queue) : Nodes s' free queue where
  freeChain := by rw [same.nextFree, same.freeHead]; exact nodes.freeChain
  freeNodup := nodes.freeNodup
  freeValid := nodes.freeValid
  linked side level := by
    rw [same.next, same.prev, same.head, same.tail]
    exact nodes.linked side level
  placed side level i member := same.placed (nodes.placed side level i member)
  notFree := nodes.notFree
  covered := nodes.covered
  mapped id i maps := by
    rw [same.idToIdx] at maps
    rw [same.orderId]
    exact nodes.mapped id i maps
  total side level := by rw [same.levelQty, same.orderQty, nodes.total]

theorem freeOrder (same : SameNodes s s') (orderId : Int) :
    SameNodes (s.freeOrder orderId) (s'.freeOrder orderId) := by
  unfold LimitOrderBook.freeOrder
  rw [same.idToIdx, same.nextFree, same.freeHead]
  split
  · exact same
  · cases s.idToIdx orderId.toNat with
    | none => exact same
    | some idx => exact { same with freeHead := rfl, nextFree := rfl, idToIdx := rfl }

end SameNodes

theorem setOccupied_same (s : LimitOrderBook c) (side : Side) (level : Nat) (occupied : Bool) :
    SameNodes s (s.setOccupied side level occupied) := by
  refine { SameNodes.refl s with head := ?_, tail := ?_, levelQty := ?_ } <;>
    intro other <;> by_cases here : other = side <;>
    simp [setOccupied, setBook, here]

theorem setBest_same (s : LimitOrderBook c) (side : Side) (level : Option Nat) :
    SameNodes s (s.setBest side level) :=
  { SameNodes.refl s with }

theorem markOccupied_same (s : LimitOrderBook c) (side : Side) (level : Nat) :
    SameNodes s (s.markOccupied side level) := by
  have marked := setOccupied_same s side level true
  unfold markOccupied
  dsimp only
  split
  · exact marked.trans (setBest_same _ _ _)
  · split
    · exact marked.trans (setBest_same _ _ _)
    · exact marked

theorem dropEmptyLevel_same (s : LimitOrderBook c) (side : Side) (level : Nat) :
    SameNodes s (s.dropEmptyLevel side level) := by
  have cleared := setOccupied_same s side level false
  unfold dropEmptyLevel
  dsimp only
  split
  · split
    · exact cleared.trans (setBest_same _ _ _)
    · exact cleared
  · exact SameNodes.refl s

theorem chain_range (start count : Nat) (next : Links.Link)
    (inside : ∀ i, start ≤ i → i + 1 < start + count → next i = some (i + 1))
    (stops : 0 < count → next (start + count - 1) = none) :
    Links.Chain next (if 0 < count then some start else none) (List.range' start count) := by
  induction count generalizing start with
  | zero => simp [Links.Chain]
  | succ count ih =>
    rw [List.range'_succ]
    refine ⟨by simp, ?_⟩
    have rest := ih (start + 1) (fun i low high => inside i (by omega) (by omega))
      (fun positive => by simpa [Nat.add_right_comm, Nat.add_assoc] using stops (by omega))
    by_cases more : 0 < count
    · rw [inside start le_rfl (by omega)]
      simpa [more] using rest
    · obtain rfl : count = 0 := by omega
      rw [show next start = none by simpa using stops (by omega)]
      simp [Links.Chain]

theorem reset_nodes (s : LimitOrderBook c) :
    Nodes s.reset (List.range c.maxOrders) (fun _ _ => []) where
  freeChain := by
    have chain := chain_range 0 c.maxOrders s.reset.nextFree
      (fun i _ below => by simp only [reset]; rw [if_pos (by omega)])
      (fun positive => by simp only [reset]; rw [if_neg (by omega)])
    rw [if_pos c.maxOrders_pos] at chain
    rw [List.range_eq_range']
    exact chain
  freeNodup := List.nodup_range
  freeValid i member := List.mem_range.mp member
  linked side level := Links.Queue.empty _ _
  placed side level i member := by simp at member
  notFree side level i member := by simp at member
  covered i valid absent := absurd (List.mem_range.mpr valid) absent
  mapped id i maps := by simp [reset] at maps
  total side level := by simp [reset, BookSide.reset]

end CppPractice.LimitOrderBook
