import CppPractice.Shared.Lists
import Mathlib.Logic.Function.Basic

set_option autoImplicit false

namespace Slots

open Lists (snoc_eq_some)

theorem mod_window {n a b : Nat} (le : a ≤ b) (near : b < a + n) (same : a % n = b % n) : a = b := by
  have multiple := Nat.sub_mod_eq_zero_of_mod_eq same.symm
  rw [Nat.mod_eq_of_lt (by omega)] at multiple
  omega

variable {A : Type}

structure Holds (cap : Nat) (slots : Nat → A) (head size : Nat) (log : List A) : Prop where
  head : head = log.length % cap
  size : size = min log.length cap
  kept : ∀ i a, log[i]? = some a → log.length ≤ i + cap → slots (i % cap) = a

variable {cap head size : Nat} {slots : Nat → A} {log : List A}

theorem Holds.empty (cap : Nat) (slots : Nat → A) : Holds cap slots 0 0 [] where
  head := (Nat.zero_mod cap).symm
  size := (Nat.zero_min cap).symm
  kept i a found := by simp at found

theorem Holds.write (holds : Holds cap slots head size log) (a : A) :
    Holds cap (Function.update slots head a) ((head + 1) % cap) (min (size + 1) cap)
      (log ++ [a]) where
  head := by rw [holds.head, Nat.mod_add_mod, List.length_append, List.length_singleton]
  size := by
    rw [holds.size, List.length_append, List.length_singleton]
    omega
  kept i b found near := by
    rw [List.length_append, List.length_singleton] at near
    rcases snoc_eq_some found with old | ⟨rfl, rfl⟩
    · have inside := (List.getElem?_eq_some_iff.mp old).1
      have apart : i % cap ≠ head := by
        intro same
        have := mod_window (Nat.le_of_lt inside) (by omega) (same.trans holds.head)
        omega
      rw [Function.update_of_ne apart]
      exact holds.kept i b old (by omega)
    · rw [holds.head, Function.update_self]

theorem Holds.newest (holds : Holds cap slots head size log) {n : Nat} (le : n ≤ size) :
    (List.range n).map (fun i => slots ((head + cap - 1 - i) % cap)) = log.reverse.take n := by
  have few := holds.size
  refine List.ext_getElem (by simp; omega) fun i inside _ => ?_
  rw [List.length_map, List.length_range] at inside
  rw [List.getElem_map, List.getElem_range, List.getElem_take, List.getElem_reverse, holds.head]
  have back : log.length - 1 - i + cap =
      log.length % cap + cap - 1 - i + cap * (log.length / cap) := by
    have := Nat.mod_add_div log.length cap
    omega
  rw [← Nat.add_mul_mod_self_left (log.length % cap + cap - 1 - i), ← back, Nat.add_mod_right]
  exact holds.kept _ _ (List.getElem?_eq_getElem _) (by omega)

end Slots
