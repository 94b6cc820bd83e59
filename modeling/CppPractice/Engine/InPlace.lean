import CppPractice.Engine.Submission
import CppPractice.Engine.Visibility
import CppPractice.Shared.Lists

set_option autoImplicit false

namespace CppPractice.LimitOrderBook

open Lists (filter_survivors)
open Reference (Order reduce reduceOne)

variable {c : Config}

def idsAt (s : LimitOrderBook c) (side : Side) (level : Nat) : List Int :=
  (s.ordersAt side level).map Order.id

section

variable {s : LimitOrderBook c} {free : List Nat} {queue : Side → Nat → List Nat}

theorem ordersAt_resting (rep : Represents s free queue) {side : Side} {level : Nat} {o : Order}
    (member : o ∈ s.ordersAt side level) : s.resting o.id.toNat ≠ none := by
  rw [rep.nodes.ordersAt] at member
  obtain ⟨i, inside, rfl⟩ := List.mem_map.mp member
  rw [orderOf_id, rep.nodes.resting_queued inside]
  simp

theorem Represents.mem_resting (rep : Represents s free queue) {side : Side} {level : Nat}
    {o : Order} (member : o ∈ s.ordersAt side level) :
    (o.id.toNat : Int) = o.id ∧
      ∃ qty, s.resting o.id.toNat = some ⟨o.side, o.price, qty⟩ ∧ qty.toNat = o.qty := by
  rw [rep.nodes.ordersAt] at member
  obtain ⟨i, inside, rfl⟩ := List.mem_map.mp member
  have placed := rep.nodes.placed _ _ _ inside
  refine ⟨Int.toNat_of_nonneg (validId_iff.mp placed.id_valid).1, s.orderQty i, ?_, rfl⟩
  rw [orderOf_id, rep.nodes.resting_queued inside, orderOf, placed.sideOf, placed.price_eq]

theorem idsAt_nodup (rep : Represents s free queue) (side : Side) (level : Nat) :
    (s.idsAt side level).Nodup := by
  rw [idsAt, rep.nodes.ordersAt, List.map_map]
  refine (rep.nodes.nodup side level).map_on fun i left j right same => ?_
  exact (rep.nodes.orderId_eq_iff left right).mp same

theorem absent_idsAt (rep : Represents s free queue) {id : Int} (absent : s.resting id.toNat = none)
    (side : Side) (level : Nat) : id ∉ s.idsAt side level := by
  rintro member
  obtain ⟨o, inside, rfl⟩ := List.mem_map.mp member
  exact ordersAt_resting rep inside absent

end

structure Narrowed (s s' : LimitOrderBook c) (named : List Int) : Prop where
  orders : ∀ side level, ∀ o ∈ s.ordersAt side level, o.id ∉ named → o ∈ s'.ordersAt side level
  ids : ∀ side level, (s'.idsAt side level).Sublist (s.idsAt side level)

theorem Narrowed.refl (s : LimitOrderBook c) : Narrowed s s [] :=
  ⟨fun _ _ _ member _ => member, fun _ _ => List.Sublist.refl _⟩

theorem Narrowed.trans {s s' s'' : LimitOrderBook c} {named named' : List Int}
    (first : Narrowed s s' named) (second : Narrowed s' s'' named') :
    Narrowed s s'' (named ++ named') where
  orders side level o member other := by
    rw [List.mem_append, not_or] at other
    exact second.orders side level o (first.orders side level o member other.1) other.2
  ids side level := (second.ids side level).trans (first.ids side level)

theorem mem_reduce_other {id : Int} {trade : Nat} {book : List Order} {o : Order}
    (member : o ∈ book) (other : o.id ≠ id) : o ∈ reduce id trade book :=
  List.mem_filterMap.mpr ⟨o, member, by rw [reduceOne, if_neg other]⟩

theorem reduce_ids (id : Int) (trade : Nat) (book : List Order) :
    ((reduce id trade book).map Order.id).Sublist (book.map Order.id) := by
  rw [reduce, List.map_filterMap, ← List.filterMap_eq_map]
  induction book with
  | nil => exact List.Sublist.refl _
  | cons o rest ih =>
    rw [List.filterMap_cons, List.filterMap_cons]
    cases kept : reduceOne id trade o with
    | none => exact ih.cons _
    | some o' =>
      have same := (Reference.reduceOne_some kept).1
      simp only [Option.map_some, Function.comp_apply, same]
      exact ih.cons_cons _

theorem Traded.narrowed {side : Side} {orderId : Int} {m m' : Matching c} {best i : Nat}
    {qty : c.Qty} (traded : Traded side orderId m best i qty m') :
    Narrowed m.book m'.book [m.book.orderId i] where
  orders other at' o member apart := by
    rw [traded.orders]
    exact mem_reduce_other member fun same => apart (by simp [same])
  ids other at' := by
    rw [idsAt, traded.orders]
    exact reduce_ids _ _ _

/-- Orders that are not named stay, and those in both books stand in the same order in both. -/
structure InPlace (s s' : LimitOrderBook c) (named : List Int) : Prop where
  orders : ∀ side level, ∀ o ∈ s.ordersAt side level, o.id ∉ named → o ∈ s'.ordersAt side level
  places : ∀ side level,
    (s'.idsAt side level).filter (fun id => decide (id ∈ s.idsAt side level)) =
      (s.idsAt side level).filter fun id => decide (id ∈ s'.idsAt side level)

theorem Narrowed.inPlace {s s' : LimitOrderBook c} {free : List Nat}
    {queue : Side → Nat → List Nat} {named : List Int} (narrowed : Narrowed s s' named)
    (rep : Represents s free queue) : InPlace s s' named where
  orders := narrowed.orders
  places side level := by
    have part := narrowed.ids side level
    rw [filter_survivors part (idsAt_nodup rep side level)]
    exact List.filter_eq_self.mpr fun id member => decide_eq_true (part.subset member)

theorem InPlace.newcomers {s m s' : LimitOrderBook c} {named : List Int}
    (inPlace : InPlace s m named)
    (same : ∀ side level,
      (s'.ordersAt side level).filter (fun o => decide (o.id ∈ s.idsAt side level)) =
        (m.ordersAt side level).filter fun o => decide (o.id ∈ s.idsAt side level)) :
    InPlace s s' named where
  orders side level o member other := by
    have kept := inPlace.orders side level o member other
    have old : o.id ∈ s.idsAt side level := List.mem_map.mpr ⟨o, member, rfl⟩
    have inside : o ∈ (m.ordersAt side level).filter fun o => decide (o.id ∈ s.idsAt side level) :=
      List.mem_filter.mpr ⟨kept, decide_eq_true old⟩
    rw [← same] at inside
    exact (List.mem_filter.mp inside).1
  places side level := by
    have ids : (s'.idsAt side level).filter (fun id => decide (id ∈ s.idsAt side level)) =
        (m.idsAt side level).filter fun id => decide (id ∈ s.idsAt side level) := by
      have mapped := congrArg (List.map Order.id) (same side level)
      simpa only [idsAt, List.filter_map, Function.comp_def] using mapped
    rw [ids, inPlace.places]
    refine List.filter_congr fun id member => ?_
    have here := congrArg (id ∈ ·) ids
    simp only [List.mem_filter, member, decide_true, and_true, eq_iff_iff] at here
    rw [decide_eq_decide, here]

section

variable {s : LimitOrderBook c} {free : List Nat} {queue : Side → Nat → List Nat}

theorem processOrder_inPlace (rep : Represents s free queue) {side : Side} {price orderId : Int}
    {qty : c.Qty} {outcome : Outcome c} (accepts : Accepts c price qty orderId)
    (absent : s.resting orderId.toNat = none)
    (processed : s.processOrder side price qty orderId = some outcome) :
    InPlace s outcome.book (outcome.executions.map Execution.makerOrderId) := by
  obtain ⟨m, free', queue', finished, rep', narrowed, -⟩ :=
    processOrder_trades rep side accepts
      (I := fun m => Narrowed s m.book (m.executions.map Execution.makerOrderId))
      (Narrowed.refl s) (by
        intro m free queue best i traded m' free' queue' trading trade _ narrowed
        rw [trade.executions, List.map_append]
        exact narrowed.trans trade.narrowed)
  obtain rfl := Option.some.inj (finished.symm.trans processed)
  have inPlace := narrowed.inPlace rep
  by_cases done : m.remaining = 0
  · rw [finish_done done]
    exact inPlace
  · cases alloc : m.book.allocOrder orderId with
    | none =>
      rw [finish_refused done alloc]
      exact inPlace
    | some allocated =>
      rw [finish_rested done alloc]
      refine inPlace.newcomers fun other level => ?_
      rw [rested_ordersAt rep' side accepts.2.1 done alloc, List.filter_append]
      split
      · rw [List.filter_singleton, decide_eq_false (absent_idsAt rep absent other level)]
        exact List.append_nil _
      · exact List.append_nil _

theorem cancel_inPlace (rep : Represents s free queue) (orderId : Int) :
    InPlace s (s.cancel orderId).1 [orderId] := by
  refine Narrowed.inPlace ?_ rep
  rcases cancel_orders rep orderId with ⟨same, -⟩ | ⟨side, level, i, _, _, -, -, -, -, -, orders⟩
  · rw [same]
    exact ⟨fun _ _ _ member _ => member, fun _ _ => List.Sublist.refl _⟩
  · constructor
    · intro other at' o member apart
      rw [orders]
      exact List.mem_filter.mpr ⟨member, by simpa using apart⟩
    · intro other at'
      rw [idsAt, orders]
      exact List.filter_sublist.map _

theorem InPlace.cancel {m : LimitOrderBook c} {free' : List Nat} {queue' : Side → Nat → List Nat}
    {named : List Int} (inPlace : InPlace s m named) (rep : Represents s free queue)
    (rep' : Represents m free' queue') {orderId : Int} (absent : s.resting orderId.toNat = none) :
    InPlace s (m.cancel orderId).1 named := by
  rcases cancel_orders rep' orderId with ⟨same, -⟩ | ⟨side, level, i, _, _, -, -, -, -, -, orders⟩
  · rw [same]
    exact inPlace
  · refine inPlace.newcomers fun other at' => ?_
    rw [orders, List.filter_filter]
    refine List.filter_congr fun o _ => ?_
    by_cases old : o.id ∈ s.idsAt other at'
    · have apart : o.id ≠ orderId := by
        rintro rfl
        exact absent_idsAt rep absent other at' old
      simp [old, apart]
    · simp [old]

end

end CppPractice.LimitOrderBook
