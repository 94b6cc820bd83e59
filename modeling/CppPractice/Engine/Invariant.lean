import Mathlib.Algebra.BigOperators.Group.Finset.Basic
import Mathlib.Algebra.Order.BigOperators.Group.Finset
import CppPractice.Engine.Matching
import CppPractice.Shared.Runs

set_option autoImplicit false

namespace CppPractice.LimitOrderBook

variable {c : Config}

open Finset in
structure RepInv (s : LimitOrderBook c) (free : List Nat) (queue : Side → Nat → List Nat) :
    Prop where
  -- (a) The free list is acyclic, and every pool index is in one place, once.
  freeList : Links.Chain s.nextFree s.freeHead free
  freeBounded : ∀ i ∈ free, i < c.maxOrders
  onePlace : ∀ i < c.maxOrders,
    free.count i + ∑ level ∈ range c.kLevels,
      ((queue .Buy level).count i + (queue .Sell level).count i) = 1
  -- (b) Each queue runs from head to tail by `next`, and back by `prev`.
  forward : ∀ side, ∀ level < c.kLevels,
    Links.Chain s.next ((s.book side).head level) (queue side level)
  backward : ∀ side, ∀ level < c.kLevels,
    Links.Chain s.prev ((s.book side).tail level) (queue side level).reverse
  ends : ∀ side, ∀ level < c.kLevels,
    (s.book side).head level = none ↔ (s.book side).tail level = none
  queueBounded : ∀ side, ∀ level < c.kLevels, ∀ i ∈ queue side level, i < c.maxOrders
  -- (c) The id map and the id fields are inverse to each other.
  nodeToId : ∀ side, ∀ level < c.kLevels, ∀ i ∈ queue side level,
    0 ≤ s.orderId i ∧ (s.orderId i).toNat < c.maxOrders ∧
      s.idToIdx (s.orderId i).toNat = some i
  idToNode : ∀ id < c.maxOrders, ∀ i, s.idToIdx id = some i →
    s.orderId i = id ∧ ∃ side, ∃ level < c.kLevels, i ∈ queue side level
  -- (d) Queued orders are not empty and name their queue.
  queued : ∀ side, ∀ level < c.kLevels, ∀ i ∈ queue side level,
    0 < (s.orderQty i).toNat ∧ s.orderSide i = side.code ∧
      s.orderPrice i = c.levelToPrice level
  -- (e) Level totals are exact modulo `2 ^ w`.
  levelTotal : ∀ side, ∀ level < c.kLevels,
    ((s.book side).levelQty level).toNat =
      ((queue side level).map fun i => (s.orderQty i).toNat).sum % 2 ^ c.qtyBits
  -- (f) Occupied levels have a queue.
  occupied : ∀ side, ∀ level < c.kLevels, s.isOccupied side level = true → queue side level ≠ []
  -- (g) The cached best levels are the best occupied ones.
  bestBid : ∀ level, s.best .Buy = some level ↔
    IsGreatest {level | level < c.kLevels ∧ s.isOccupied .Buy level = true} level
  bestAsk : ∀ level, s.best .Sell = some level ↔
    IsLeast {level | level < c.kLevels ∧ s.isOccupied .Sell level = true} level
  bestNone : ∀ side, s.best side = none ↔ ∀ level < c.kLevels, s.isOccupied side level = false

theorem toNat_sum {A : Type} {w : Nat} (f : A → BitVec w) (l : List A) :
    ((l.map f).sum).toNat = (l.map fun a => (f a).toNat).sum % 2 ^ w := by
  induction l with
  | nil => simp
  | cons a rest ih =>
    simp only [List.map_cons, List.sum_cons, BitVec.toNat_add, ih]
    rw [Nat.add_mod_mod]

section

variable {s : LimitOrderBook c} {free : List Nat} {queue : Side → Nat → List Nat}

theorem Represents.onePlace (rep : Represents s free queue) {i : Nat} (valid : i < c.maxOrders) :
    free.count i + ∑ level ∈ Finset.range c.kLevels,
      ((queue .Buy level).count i + (queue .Sell level).count i) = 1 := by
  have absent (side : Side) (level : Nat) (outside : i ∉ queue side level) :
      (queue side level).count i = 0 := List.count_eq_zero.mpr outside
  by_cases isFree : i ∈ free
  · have nowhere (side : Side) (level : Nat) : i ∉ queue side level :=
      fun inside => rep.nodes.notFree _ _ _ inside isFree
    have zero : ∑ level ∈ Finset.range c.kLevels,
        ((queue .Buy level).count i + (queue .Sell level).count i) = 0 :=
      Finset.sum_eq_zero fun level _ => by
        rw [absent _ _ (nowhere .Buy level), absent _ _ (nowhere .Sell level), Nat.add_zero]
    rw [zero, List.count_eq_one_of_mem rep.nodes.freeNodup isFree]
  · obtain ⟨side, level, inside⟩ := rep.nodes.covered i valid isFree
    have inLevels := (rep.nodes.placed _ _ _ inside).level_lt
    have once := List.count_eq_one_of_mem (rep.nodes.nodup side level) inside
    have apart (other : Side) (at' : Nat) (different : ¬(other = side ∧ at' = level)) :
        (queue other at').count i = 0 :=
      absent _ _ fun also => different (rep.nodes.unique also inside)
    rw [List.count_eq_zero.mpr isFree,
      Finset.sum_eq_single_of_mem level (Finset.mem_range.mpr inLevels) fun other _ different => by
        rw [apart .Buy other (by simp [different]), apart .Sell other (by simp [different]),
          Nat.add_zero]]
    cases side with
    | Buy => rw [once, apart .Sell level (by simp)]
    | Sell => rw [once, apart .Buy level (by simp)]

theorem Represents.isOccupied_lt (rep : Represents s free queue) {side : Side} {level : Nat}
    (present : s.isOccupied side level = true) : level < c.kLevels :=
  rep.occupancy.within rep.nodes side level present

theorem Represents.best_eq_some (rep : Represents s free queue) (side : Side) (level : Nat) :
    s.best side = some level ↔ s.isOccupied side level = true ∧
      ∀ other, s.isOccupied side other = true → side.beats other level = false := by
  have best := rep.occupancy.best side
  cases cached : s.best side with
  | none =>
    rw [cached] at best
    simp [isOccupied, best level]
  | some top =>
    rw [cached] at best
    constructor
    · rintro ⟨rfl⟩
      exact best
    · rintro ⟨present, least⟩
      have one := best.2 level present
      have two := least top best.1
      cases side <;> simp only [Side.beats, decide_eq_false_iff_not] at one two <;>
        simp only [Option.some.injEq] <;> omega

theorem Represents.best_within (rep : Represents s free queue) (side : Side) (level : Nat) :
    s.best side = some level ↔ (level < c.kLevels ∧ s.isOccupied side level = true) ∧
      ∀ other, other < c.kLevels ∧ s.isOccupied side other = true →
        side.beats other level = false := by
  rw [rep.best_eq_some]
  constructor
  · rintro ⟨present, bound⟩
    exact ⟨⟨rep.isOccupied_lt present, present⟩, fun other also => bound other also.2⟩
  · rintro ⟨⟨-, present⟩, bound⟩
    exact ⟨present, fun other also => bound other ⟨rep.isOccupied_lt also, also⟩⟩

theorem Represents.best_eq_none (rep : Represents s free queue) (side : Side) :
    s.best side = none ↔ ∀ level, s.isOccupied side level = false := by
  have best := rep.occupancy.best side
  cases cached : s.best side with
  | none =>
    rw [cached] at best
    simp only [true_iff]
    exact best
  | some top =>
    rw [cached] at best
    simp only [reduceCtorEq, false_iff]
    intro none
    exact absurd best.1 (by simpa [isOccupied] using none top)

theorem Represents.repInv (rep : Represents s free queue) : RepInv s free queue where
  freeList := rep.nodes.freeChain
  freeBounded := rep.nodes.freeValid
  onePlace i valid := rep.onePlace valid
  forward side level _ := (rep.nodes.linked side level).chain
  backward side level _ := (rep.nodes.linked side level).reverse.chain
  ends side level _ := (rep.nodes.linked side level).tail_none_iff
  queueBounded side level _ i inside := (rep.nodes.placed _ _ _ inside).valid
  nodeToId side level _ i inside := by
    have placed := rep.nodes.placed _ _ _ inside
    obtain ⟨nonneg, valid⟩ := validId_iff.mp placed.id_valid
    exact ⟨nonneg, valid, placed.id_maps⟩
  idToNode id _ i maps := by
    obtain ⟨sameId, side, level, inside⟩ := rep.nodes.mapped id i maps
    exact ⟨sameId, side, level, (rep.nodes.placed _ _ _ inside).level_lt, inside⟩
  queued side level _ i inside := by
    have placed := rep.nodes.placed _ _ _ inside
    exact ⟨Nat.pos_of_ne_zero (toNat_ne_zero (rep.positive _ _ _ inside)), placed.side_eq,
      placed.price_eq⟩
  levelTotal side level _ := by rw [rep.nodes.total, toNat_sum]
  occupied side level _ present := rep.occupancy.occupied side level present
  bestBid level := by
    rw [rep.best_within]
    simp only [Side.beats, decide_eq_false_iff_not, not_lt]
    rfl
  bestAsk level := by
    rw [rep.best_within]
    simp only [Side.beats, decide_eq_false_iff_not, not_lt]
    rfl
  bestNone side := by
    rw [rep.best_eq_none]
    constructor
    · exact fun none level _ => none level
    · intro none level
      by_contra present
      have present : s.isOccupied side level = true := by simpa using present
      simp [none level (rep.isOccupied_lt present)] at present

end

theorem run_represents (s : LimitOrderBook c) (calls : List (Call c)) :
    ∃ final log, Runs.run step s.reset calls = some (final, log) ∧
      ∃ free queue, Represents final free queue := by
  refine Runs.run_total (P := fun _ s => ∃ free queue, Represents s free queue)
    (C := fun _ => True) ⟨_, _, reset_represents s⟩ (fun _ _ _ => trivial) ?_ trivial
  rintro - s call - ⟨free, queue, rep⟩
  exact step_represents rep call

-- The constructed book is such a reset book: `new` is `reset` of the initial members.
theorem reached_repInv (s : LimitOrderBook c) (calls : List (Call c)) :
    ∃ final log, Runs.run step s.reset calls = some (final, log) ∧
      ∃ free queue, RepInv final free queue := by
  obtain ⟨final, log, ran, free, queue, rep⟩ := run_represents s calls
  exact ⟨final, log, ran, free, queue, rep.repInv⟩

end CppPractice.LimitOrderBook
