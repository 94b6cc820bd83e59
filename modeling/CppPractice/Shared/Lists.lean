import Mathlib.Data.List.Nodup
import Mathlib.Data.List.Perm.Subperm

set_option autoImplicit false

namespace Lists

variable {A : Type}

theorem snoc_eq_some {l : List A} {a b : A} {i : Nat} (found : (l ++ [a])[i]? = some b) :
    l[i]? = some b ∨ (i = l.length ∧ b = a) := by
  rw [List.getElem?_append] at found
  split at found
  · exact Or.inl found
  · rename_i beyond
    obtain ⟨index, value⟩ := List.getElem?_eq_some_iff.mp found
    rw [List.length_singleton] at index
    rw [List.getElem_singleton] at value
    exact Or.inr ⟨by omega, value.symm⟩

theorem snoc_keeps {l : List A} {a b : A} {i : Nat} (found : l[i]? = some b) :
    (l ++ [a])[i]? = some b := by
  rw [List.getElem?_append_left (List.getElem?_eq_some_iff.mp found).1, found]

theorem prefix_snoc {front whole : List A} {a : A} (isPrefix : front <+: whole)
    (next : whole[front.length]? = some a) : front ++ [a] <+: whole := by
  rw [List.prefix_iff_getElem?] at isPrefix ⊢
  intro i inside
  rw [List.length_append, List.length_singleton] at inside
  by_cases old : i < front.length
  · rw [isPrefix i old, List.getElem_append_left old]
  · obtain rfl : i = front.length := by omega
    rw [next, List.getElem_concat_length rfl]

theorem filter_survivors [DecidableEq A] {front back : List A} (part : front.Sublist back)
    (nodup : back.Nodup) : back.filter (fun a => decide (a ∈ front)) = front := by
  have whole : front.filter (fun a => decide (a ∈ front)) = front :=
    List.filter_eq_self.mpr fun a member => decide_eq_true member
  have inside := part.filter fun a => decide (a ∈ front)
  rw [whole] at inside
  have among : back.filter (fun a => decide (a ∈ front)) ⊆ front := fun a member =>
    of_decide_eq_true (List.mem_filter.mp member).2
  exact (inside.eq_of_length_le ((nodup.filter _).subperm among).length_le).symm

theorem eq_of_ordered {R : A → A → Prop} (strict : ∀ a b, R a b → ¬R b a) {l l' : List A}
    (ordered : l.Pairwise R) (ordered' : l'.Pairwise R) (same : ∀ a, a ∈ l ↔ a ∈ l') : l = l' := by
  have apart : ∀ {a b}, R a b → a ≠ b := by
    rintro a _ related rfl
    exact strict a a related related
  have perm : l.Perm l' :=
    (List.perm_ext_iff_of_nodup (ordered.imp apart) (ordered'.imp apart)).mpr same
  exact perm.eq_of_pairwise (fun a b _ _ before after => absurd after (strict a b before))
    ordered ordered'

theorem filter_mergeSort (key : A → Int) (l : List A) (k : Int) :
    (l.mergeSort fun a b => decide (key a ≤ key b)).filter (fun a => decide (key a = k)) =
      l.filter fun a => decide (key a = k) := by
  have alike : (l.filter fun a => decide (key a = k)).Pairwise
      fun a b => decide (key a ≤ key b) = true := by
    refine List.pairwise_of_forall_mem_list fun a left b right => ?_
    rw [of_decide_eq_true (List.mem_filter.mp left).2,
      of_decide_eq_true (List.mem_filter.mp right).2]
    exact decide_eq_true (Int.le_refl k)
  have kept := (List.sublist_mergeSort (fun a b c => by simpa using Int.le_trans)
    (fun a b => by simpa using Int.le_total (key a) (key b)) alike List.filter_sublist).filter
      fun a => decide (key a = k)
  rw [List.filter_filter] at kept
  simp only [Bool.and_self] at kept
  exact (kept.eq_of_length ((List.mergeSort_perm l _).filter _).length_eq.symm).symm

theorem eq_of_sorted (key : A → Int) {l l' : List A}
    (sorted : l.Pairwise fun a b => key a ≤ key b) (sorted' : l'.Pairwise fun a b => key a ≤ key b)
    (same : ∀ k, l.filter (fun a => decide (key a = k)) = l'.filter fun a => decide (key a = k)) :
    l = l' := by
  induction l generalizing l' with
  | nil =>
    refine (List.eq_nil_iff_forall_not_mem.mpr fun a member => ?_).symm
    have alike := same (key a)
    rw [List.filter_nil] at alike
    simpa using List.filter_eq_nil_iff.mp alike.symm a member
  | cons a rest ih =>
    have member (b : A) : b ∈ a :: rest ↔ b ∈ l' := by
      simpa using congrArg (b ∈ ·) (same (key b))
    cases l' with
    | nil => exact absurd ((member a).mp List.mem_cons_self) List.not_mem_nil
    | cons b rest' =>
      -- Neither head has a greater key than the other.
      have up : key a ≤ key b := by
        rcases List.mem_cons.mp ((member b).mpr List.mem_cons_self) with here | later
        · exact Int.le_of_eq (congrArg key here.symm)
        · exact (List.pairwise_cons.mp sorted).1 b later
      have down : key b ≤ key a := by
        rcases List.mem_cons.mp ((member a).mp List.mem_cons_self) with here | later
        · exact Int.le_of_eq (congrArg key here.symm)
        · exact (List.pairwise_cons.mp sorted').1 a later
      have first := same (key a)
      rw [List.filter_cons_of_pos (by simp),
        List.filter_cons_of_pos (by simpa using Int.le_antisymm down up)] at first
      obtain rfl := (List.cons.inj first).1
      rw [ih sorted.of_cons sorted'.of_cons fun k => ?_]
      have alike := same k
      rw [List.filter_cons, List.filter_cons] at alike
      split at alike
      · exact (List.cons.inj alike).2
      · exact alike

theorem flatMap_eq {B : Type} {l : List B} {f : B → List A} {b : B} (nodup : l.Nodup)
    (member : b ∈ l) (others : ∀ c ∈ l, c ≠ b → f c = []) : l.flatMap f = f b := by
  obtain ⟨front, back, rfl⟩ := List.append_of_mem member
  rw [List.nodup_middle, List.nodup_cons, List.mem_append, not_or] at nodup
  obtain ⟨⟨before, after⟩, -⟩ := nodup
  have empty {part : List B} (inside : part ⊆ front ++ b :: back) (absent : b ∉ part) :
      part.flatMap f = [] :=
    List.flatMap_eq_nil_iff.mpr fun c here => others c (inside here) (by rintro rfl; exact absent here)
  rw [List.flatMap_append, List.flatMap_cons, empty (List.subset_append_left _ _) before,
    empty (fun c here => by simp [here]) after, List.nil_append, List.append_nil]

end Lists
