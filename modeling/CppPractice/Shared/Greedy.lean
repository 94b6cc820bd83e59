import CppPractice.Shared.Tally
import Mathlib.Algebra.Order.Ring.Defs
import Mathlib.Data.Nat.Cast.Order.Ring
import Mathlib.Tactic.Linarith
import Mathlib.Tactic.Ring

set_option autoImplicit false

namespace Greedy

open Tally (tally tally_nil tally_cons tally_append)

variable {A : Type} (size : A → Nat)

def fill : Nat → List A → List (A × Nat)
  | _, [] => []
  | want, a :: rest =>
    if want = 0 then [] else (a, min want (size a)) :: fill (want - size a) rest

def leave (shrink : A → Nat → A) : Nat → List A → List A
  | _, [] => []
  | want, a :: rest =>
    if want < size a then shrink a want :: rest else leave shrink (want - size a) rest

variable {size} {want : Nat} {l : List A}

@[simp]
theorem fill_zero (l : List A) : fill size 0 l = [] := by
  cases l <;> simp [fill]

theorem fill_cons {a : A} (wanted : want ≠ 0) (rest : List A) :
    fill size want (a :: rest) = (a, min want (size a)) :: fill size (want - size a) rest := by
  rw [fill, if_neg wanted]

theorem fill_taken (want : Nat) (l : List A) :
    tally Prod.snd (fill size want l) = min want (tally size l) := by
  induction l generalizing want with
  | nil => simp [fill]
  | cons a rest ih =>
    by_cases wanted : want = 0
    · simp [wanted]
    · rw [fill_cons wanted, tally_cons, tally_cons, ih]
      omega

section

variable {P : Type} [Semiring P]

def cost (price : A → P) (fills : List (A × Nat)) : P :=
  tally (fun filled => price filled.1 * filled.2) fills

theorem cost_cons (price : A → P) (want : Nat) (a : A) (rest : List A) :
    cost price (fill size want (a :: rest)) =
      price a * (min want (size a) : Nat) + cost price (fill size (want - size a) rest) := by
  by_cases wanted : want = 0
  · simp [wanted, cost]
  · rw [fill_cons wanted, cost, tally_cons]
    rfl

variable {shrink : A → Nat → A}

structure Shrinking (size : A → Nat) (shrink : A → Nat → A) : Prop where
  size : ∀ a n, size (shrink a n) = size a - n
  none : ∀ a, shrink a 0 = a
  again : ∀ a m n, shrink (shrink a m) n = shrink a (m + n)

theorem leave_zero (shrinking : Shrinking size shrink) (positive : ∀ a ∈ l, 0 < size a) :
    leave size shrink 0 l = l := by
  cases l with
  | nil => rfl
  | cons a rest => rw [leave, if_pos (positive a List.mem_cons_self), shrinking.none]

theorem leave_leave (shrinking : Shrinking size shrink) (first second : Nat) (l : List A) :
    leave size shrink second (leave size shrink first l) =
      leave size shrink (first + second) l := by
  induction l generalizing first with
  | nil => rfl
  | cons a rest ih =>
    by_cases part : first < size a
    · rw [leave, if_pos part, leave, leave, shrinking.size, shrinking.again]
      by_cases still : first + second < size a
      · rw [if_pos still, if_pos (by omega)]
      · rw [if_neg still, if_neg (by omega)]
        congr 1
        omega
    · rw [leave, if_neg part, ih, leave, if_neg (by omega)]
      congr 1
      omega

theorem cost_fill_add (shrinking : Shrinking size shrink) {price : A → P}
    (same : ∀ a n, price (shrink a n) = price a) (first second : Nat) (l : List A) :
    cost price (fill size (first + second) l) = cost price (fill size first l) +
      cost price (fill size second (leave size shrink first l)) := by
  induction l generalizing first with
  | nil => simp [leave, fill, cost]
  | cons a rest ih =>
    rw [cost_cons, cost_cons]
    by_cases part : first < size a
    · -- The second part goes on where the first one stopped within an entry.
      have here : min (first + second) (size a) =
          min first (size a) + min second (size a - first) := by omega
      have later : first + second - size a = second - (size a - first) := by omega
      have none : cost price (fill size 0 rest) = 0 := by rw [fill_zero, cost, tally_nil]
      rw [leave, if_pos part, cost_cons, same, shrinking.size, here, later, Nat.cast_add, mul_add,
        Nat.sub_eq_zero_of_le part.le, none, add_zero, add_assoc]
    · have here : min (first + second) (size a) = min first (size a) := by omega
      have later : first + second - size a = first - size a + second := by omega
      rw [leave, if_neg part, here, later, ih, add_assoc]

end

section

variable {P : Type} [CommRing P] [LinearOrder P] [IsStrictOrderedRing P] {price : A → P}
variable {take : A → Nat}

theorem cost_le_add (sorted : l.Pairwise fun a b => price a ≤ price b)
    (within : ∀ a ∈ l, take a ≤ size a) {lowest : P} (above : ∀ a ∈ l, lowest ≤ price a)
    {more : Nat} (taken : tally take l = min want (tally size l) + more) :
    cost price (fill size want l) + lowest * more ≤ tally (fun a => price a * take a) l := by
  induction l generalizing want more lowest with
  | nil =>
    obtain rfl : more = 0 := by simpa using taken.symm
    simp [fill, cost]
  | cons a rest ih =>
    rw [List.pairwise_cons] at sorted
    have lower := above a List.mem_cons_self
    have allowed := within a List.mem_cons_self
    have within' : ∀ b ∈ rest, take b ≤ size b :=
      fun b member => within b (List.mem_cons_of_mem a member)
    rw [tally_cons, tally_cons] at taken
    rw [tally_cons]
    by_cases less : take a ≤ min want (size a)
    · -- What the choice leaves here it takes behind, at the price here or a higher one.
      have behind : cost price (fill size (want - size a) rest) +
          price a * (min want (size a) - take a + more : Nat) ≤
            tally (fun a => price a * take a) rest :=
        ih sorted.2 within' sorted.1 (by omega)
      have spare : lowest * more ≤ price a * more :=
        mul_le_mul_of_nonneg_right lower more.cast_nonneg
      rw [Nat.cast_add, Nat.cast_sub less] at behind
      rw [cost_cons]
      linarith [mul_add (price a) ((min want (size a) : Nat) - (take a : P)) more,
        mul_sub (price a) (min want (size a) : Nat) (take a : P)]
    · -- More than was wanted can only be taken of the last entry that the fill touches.
      have last : want < size a := by omega
      have first : min want (size a) = want := by omega
      have behind : cost price (fill size (want - size a) rest) +
          lowest * (more - (take a - want) : Nat) ≤ tally (fun a => price a * take a) rest :=
        ih sorted.2 within' (fun b member => above b (List.mem_cons_of_mem a member)) (by omega)
      have spare : lowest * (take a - want : Nat) ≤ price a * (take a - want : Nat) :=
        mul_le_mul_of_nonneg_right lower (Nat.cast_nonneg _)
      have split : more = take a - want + (more - (take a - want)) := by omega
      rw [cost_cons, first, split, Nat.cast_add, mul_add]
      rw [Nat.cast_sub (by omega : want ≤ take a)] at spare ⊢
      linarith [mul_sub (price a) (take a : P) (want : P)]

theorem fill_cheapest (sorted : l.Pairwise fun a b => price a ≤ price b)
    (within : ∀ a ∈ l, take a ≤ size a)
    (taken : tally take l = tally Prod.snd (fill size want l)) :
    cost price (fill size want l) ≤ tally (fun a => price a * take a) l := by
  cases l with
  | nil => simp [fill, cost]
  | cons a rest =>
    have lowest : ∀ b ∈ a :: rest, price a ≤ price b := by
      intro b member
      rcases List.mem_cons.mp member with rfl | behind
      · exact le_rfl
      · exact (List.pairwise_cons.mp sorted).1 b behind
    have paid : cost price (fill size want (a :: rest)) + price a * (0 : Nat) ≤
        tally (fun a => price a * take a) (a :: rest) :=
      cost_le_add sorted within lowest (by rw [taken, fill_taken, add_zero])
    rwa [Nat.cast_zero, mul_zero, add_zero] at paid

theorem fill_most (within : ∀ a ∈ l, take a ≤ size a) (wanted : tally take l ≤ want) :
    tally take l ≤ tally Prod.snd (fill size want l) := by
  rw [fill_taken]
  exact le_min wanted (List.sum_le_sum within)

end

end Greedy
