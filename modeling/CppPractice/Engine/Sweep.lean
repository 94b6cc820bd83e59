import CppPractice.Engine.Reference

set_option autoImplicit false

namespace CppPractice.Reference

variable {c : Config}

theorem reduce_ids (id : Int) (trade : Nat) (book : List Order) :
    ((reduce id trade book).map Order.id).Sublist (book.map Order.id) := by
  induction book with
  | nil => exact List.Sublist.refl _
  | cons o rest ih =>
    simp only [reduce, List.filterMap_cons] at ih ⊢
    split
    · exact ih.cons _
    · rename_i kept some
      rw [List.map_cons, List.map_cons, (reduceOne_some some).1]
      exact ih.cons_cons _

theorem sweep_ids (side : Side) (limit takerId : Int) (book : List Order) (remaining : Nat) :
    ((sweep side limit takerId book remaining).book.map Order.id).Sublist
      (book.map Order.id) := by
  fun_induction sweep side limit takerId book remaining with
  | case1 | case2 | case3 => exact List.Sublist.refl _
  | case4 book remaining positive m found within trade rest ih =>
    exact ih.trans (reduce_ids m.id trade book)

theorem process_ids (book : List Order) (side : Side) (price : Int) (qty : Nat) (id : Int)
    (nodup : (book.map Order.id).Nodup) :
    ((process c book side price qty id).1.map Order.id).Nodup := by
  have swept := nodup.sublist (sweep_ids side price id book qty)
  unfold process
  split
  · exact nodup
  · dsimp only
    split
    · exact swept
    · split
      · exact swept
      · rename_i free
        rw [List.map_append]
        refine List.nodup_append'.mpr ⟨swept, List.nodup_singleton id, ?_⟩
        rw [List.map_singleton, List.disjoint_singleton]
        intro member
        obtain ⟨o, inside, same⟩ := List.mem_map.mp member
        exact free (.inl (List.any_eq_true.mpr ⟨o, inside, decide_eq_true same⟩))

theorem cancel_ids (book : List Order) (id : Int) (nodup : (book.map Order.id).Nodup) :
    ((cancel book id).1.map Order.id).Nodup :=
  nodup.sublist (List.filter_sublist.map _)

end CppPractice.Reference
