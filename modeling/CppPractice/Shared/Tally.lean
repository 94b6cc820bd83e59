import Mathlib.Algebra.BigOperators.Intervals
import Mathlib.Algebra.BigOperators.Group.Finset.Piecewise
import Mathlib.Algebra.Order.BigOperators.Group.List

set_option autoImplicit false

namespace Tally

variable {A M : Type} [AddCommMonoid M]

def tally (f : A → M) (l : List A) : M := (l.map f).sum

@[simp]
theorem tally_nil (f : A → M) : tally f [] = 0 := rfl

@[simp]
theorem tally_cons (f : A → M) (a : A) (l : List A) : tally f (a :: l) = f a + tally f l := by
  simp [tally]

@[simp]
theorem tally_append (f : A → M) (left right : List A) :
    tally f (left ++ right) = tally f left + tally f right := by
  simp [tally]

theorem tally_zero {f : A → M} {l : List A} (zero : ∀ a ∈ l, f a = 0) : tally f l = 0 := by
  induction l with
  | nil => rfl
  | cons a rest ih => simp [zero a (by simp), ih fun b member => zero b (by simp [member])]

theorem tally_set (f : A → M) {l : List A} {i : Nat} {old : A} (found : l[i]? = some old)
    (new : A) : tally f (l.set i new) + f old = tally f l + f new := by
  induction l generalizing i with
  | nil => simp at found
  | cons a rest ih =>
    cases i with
    | zero =>
      obtain rfl : a = old := by simpa using found
      simp only [List.set_cons_zero, tally_cons]
      ac_rfl
    | succ i =>
      have later := ih (by simpa using found)
      simp only [List.set_cons_succ, tally_cons, add_assoc, later]

theorem tally_shift {f : A → M} {l l' : List A} {delta : Nat → M}
    (shifted : ∀ i, (l'[i]?).map f = (l[i]?).map fun a => f a + delta i) :
    tally f l' = tally f l + ∑ i ∈ Finset.range l.length, delta i := by
  induction l generalizing l' delta with
  | nil =>
    cases l' with
    | nil => simp
    | cons a' rest' => exact absurd (shifted 0) (by simp)
  | cons a rest ih =>
    cases l' with
    | nil => exact absurd (shifted 0) (by simp)
    | cons a' rest' =>
      have here : f a' = f a + delta 0 := by simpa using shifted 0
      have later := @ih rest' (fun i => delta (i + 1)) fun i => by simpa using shifted (i + 1)
      rw [tally_cons, tally_cons, List.length_cons, Finset.sum_range_succ', later, here]
      ac_rfl

-- A total with losses and gains that natural numbers cannot subtract.
theorem tally_balance {f : A → Nat} {l l' : List A} (loss gain : Nat → Nat)
    (length : l'.length = l.length)
    (each : ∀ i a a', l[i]? = some a → l'[i]? = some a' → f a' + loss i = f a + gain i) :
    tally f l' + ∑ i ∈ Finset.range l.length, loss i =
      tally f l + ∑ i ∈ Finset.range l.length, gain i := by
  induction l generalizing l' loss gain with
  | nil => simp [List.length_eq_zero_iff.mp length]
  | cons a rest ih =>
    cases l' with
    | nil => simp at length
    | cons a' rest' =>
      have here := each 0 a a' rfl rfl
      have later := ih (fun i => loss (i + 1)) (fun i => gain (i + 1))
        (by simpa using length) fun i b b' old new => each (i + 1) b b' (by simpa using old)
          (by simpa using new)
      simp only [tally_cons, List.length_cons, Finset.sum_range_succ']
      omega

theorem tally_eq_sum (f : A → M) (l : List A) :
    tally f l = ∑ i ∈ Finset.range l.length, (l[i]?).elim 0 f := by
  induction l with
  | nil => rfl
  | cons a rest ih =>
    rw [tally_cons, List.length_cons, Finset.sum_range_succ', ih, add_comm]
    rfl

theorem tally_listed {f : A → M} {l : List A} {ids : List Nat} {g : Nat → M} (nodup : ids.Nodup)
    (listed : ∀ i ∈ ids, ∃ a, l[i]? = some a ∧ f a = g i)
    (others : ∀ i a, i ∉ ids → l[i]? = some a → f a = 0) : tally f l = (ids.map g).sum := by
  have inside : ids.toFinset ⊆ Finset.range l.length := by
    intro i member
    obtain ⟨a, found, -⟩ := listed i (List.mem_toFinset.mp member)
    exact Finset.mem_range.mpr (List.getElem?_eq_some_iff.mp found).1
  rw [tally_eq_sum, ← List.sum_toFinset g nodup, ← Finset.sum_subset inside]
  · refine Finset.sum_congr rfl fun i member => ?_
    obtain ⟨a, found, same⟩ := listed i (List.mem_toFinset.mp member)
    rw [found, Option.elim_some, same]
  · intro i _ absent
    cases found : l[i]? with
    | none => rfl
    | some a => exact others i a (fun member => absent (List.mem_toFinset.mpr member)) found

theorem le_tally {f : A → Nat} {l : List A} {a : A} (member : a ∈ l) : f a ≤ tally f l :=
  List.single_le_sum (by simp) _ (List.mem_map.mpr ⟨a, member, rfl⟩)

theorem two_le_tally {f : A → Nat} {l : List A} {i j : Nat} {a b : A} (apart : i ≠ j)
    (first : l[i]? = some a) (second : l[j]? = some b) : f a + f b ≤ tally f l := by
  induction l generalizing i j with
  | nil => simp at first
  | cons c rest ih =>
    rw [tally_cons]
    cases i with
    | zero =>
      obtain rfl : c = a := by simpa using first
      obtain ⟨j, rfl⟩ := Nat.exists_eq_succ_of_ne_zero (Ne.symm apart)
      exact Nat.add_le_add_left (le_tally (List.mem_of_getElem? (by simpa using second))) _
    | succ i =>
      cases j with
      | zero =>
        obtain rfl : c = b := by simpa using second
        rw [Nat.add_comm]
        exact Nat.add_le_add_left (le_tally (List.mem_of_getElem? (by simpa using first))) _
      | succ j =>
        have inner := ih (fun same => apart (congrArg _ same)) (by simpa using first)
          (by simpa using second)
        omega

theorem sum_update {I B M : Type} [Fintype I] [DecidableEq I] [AddCommMonoid M] (f : B → M)
    (table : I → B) (i : I) (b : B) :
    ∑ j, f (Function.update table i b j) + f (table i) = ∑ j, f (table j) + f b := by
  have others : ∑ j ∈ Finset.univ.erase i, f (Function.update table i b j) =
      ∑ j ∈ Finset.univ.erase i, f (table j) :=
    Finset.sum_congr rfl fun j member => by
      rw [Function.update_of_ne (Finset.ne_of_mem_erase member)]
  rw [← Finset.add_sum_erase _ _ (Finset.mem_univ i), others, Function.update_self,
    ← Finset.add_sum_erase (a := i) _ (fun j => f (table j)) (Finset.mem_univ i)]
  rw [add_comm (f b), add_comm (f (table i)), add_right_comm]

theorem sum_eq_one {I : Type} [Fintype I] [DecidableEq I] {f : I → Nat} (sum : ∑ i, f i = 1) :
    ∃ i, f i = 1 ∧ ∀ j, j ≠ i → f j = 0 := by
  obtain ⟨i, -, some⟩ := Finset.exists_ne_zero_of_sum_ne_zero (by rw [sum]; exact one_ne_zero)
  rw [← Finset.add_sum_erase _ _ (Finset.mem_univ i)] at sum
  refine ⟨i, by omega, fun j apart => ?_⟩
  have rest : ∑ j ∈ Finset.univ.erase i, f j = 0 := by omega
  exact Finset.sum_eq_zero_iff.mp rest j (Finset.mem_erase.mpr ⟨apart, Finset.mem_univ j⟩)

end Tally
