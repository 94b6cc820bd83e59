import CppPractice.Engine.Alike
import CppPractice.Engine.Priority

set_option autoImplicit false

namespace CppPractice.LimitOrderBook

open Reference (Order)

variable {c : Config}

section

variable {s : LimitOrderBook c} {free : List Nat} {queue : Side → Nat → List Nat}

theorem cancel_answer (rep : Represents s free queue) (orderId : Int) :
    (s.cancel orderId).2 = (c.validId orderId && (s.resting orderId.toNat).isSome) := by
  rcases cancel_cases rep orderId with ⟨same, invalid | absent⟩ | ⟨valid, side, level, done⟩
  · rw [same, invalid, Bool.false_and]
  · rw [same, absent, Option.isSome_none, Bool.and_false]
  · obtain ⟨qty, rested⟩ := done.rested
    rw [done.ok, valid, rested]
    rfl

theorem cancel_filter (rep : Represents s free queue) (orderId : Int) (side : Side) (level : Nat) :
    (s.cancel orderId).1.ordersAt side level =
      (s.ordersAt side level).filter fun o => decide (o.id ≠ orderId) := by
  rcases cancel_cases rep orderId with ⟨same, unknown⟩ | ⟨-, other, at', done⟩
  · rw [same]
    refine (List.filter_eq_self.mpr fun o member => decide_eq_true ?_).symm
    rintro rfl
    rcases unknown with invalid | absent
    · rw [rep.nodes.ordersAt] at member
      obtain ⟨i, inside, rfl⟩ := List.mem_map.mp member
      exact absurd ((rep.nodes.placed _ _ _ inside).id_valid.symm.trans invalid) (by decide)
    · exact absent_idsAt rep absent side level (List.mem_map.mpr ⟨o, member, rfl⟩)
  · exact done.orders side level

theorem cancel_other (rep : Represents s free queue) {orderId other : Int}
    (apart : other ≠ orderId) : ((s.cancel orderId).1.cancel other).2 = (s.cancel other).2 := by
  rcases cancel_cases rep orderId with ⟨same, -⟩ | ⟨valid, side, level, done⟩
  · rw [same]
  · obtain ⟨_, _, left⟩ := done.represents
    rw [cancel_answer left, cancel_answer rep]
    cases valid' : c.validId other with
    | false => rfl
    | true =>
      have elsewhere : other.toNat ≠ orderId.toNat := by
        have := (validId_iff.mp valid).1
        have := (validId_iff.mp valid').1
        omega
      rcases cancel_resting rep orderId with ⟨same, -⟩ | ⟨-, -, -, resting⟩
      · rw [same]
      · rw [resting, Function.update_of_ne elsewhere]

theorem Tidy.cancel (tidy : Tidy s) (orderId : Int) : Tidy (s.cancel orderId).1 := by
  obtain ⟨free, queue, rep⟩ := tidy.represents
  have shrinks : Shrinks s (s.cancel orderId).1 := by
    intro side level
    rw [restingQty, restingQty, cancel_filter rep]
    have part : ((s.ordersAt side level).filter fun o => decide (o.id ≠ orderId)).Sublist
        (s.ordersAt side level) := List.filter_sublist
    refine ⟨(part.map Order.qty).sum_le_sum fun _ _ => Nat.zero_le _, fun o member => ?_⟩
    exact ⟨o, part.mem member, rfl⟩
  exact tidy.shown.cancel (shrinks.small tidy.small)

theorem Tidy.alike {t : LimitOrderBook c} (tidy : Tidy s) (tidy' : Tidy t)
    (same : ∀ side level, t.ordersAt side level = s.ordersAt side level) : Alike s t where
  left := tidy.represents
  right := tidy'.represents
  orders := same
  occupied side level := by
    rw [Bool.eq_iff_iff, tidy.shown.isOccupied_iff, tidy'.shown.isOccupied_iff, same]

def cancelAll (ids : List Int) : List (Call c) := ids.map .cancel

theorem cancelAll_run (tidy : Tidy s) {ids : List Int} (nodup : ids.Nodup) :
    ∃ t, Runs.run step s (cancelAll ids) =
        some (t, ids.map fun id => (.cancel id, ⟨(s.cancel id).2, []⟩)) ∧ Tidy t ∧
      ∀ side level, t.ordersAt side level =
        (s.ordersAt side level).filter fun o => decide (o.id ∉ ids) := by
  induction ids generalizing s with
  | nil => exact ⟨s, rfl, tidy, by simp⟩
  | cons id rest ih =>
    obtain ⟨fresh, nodup⟩ := List.nodup_cons.mp nodup
    obtain ⟨free, queue, rep⟩ := tidy.represents
    obtain ⟨t, ran, tidy', orders⟩ := ih (tidy.cancel id) nodup
    have answers : (rest.map fun other => ((.cancel other, ⟨((s.cancel id).1.cancel other).2, []⟩) :
        Call c × Reply c.Qty)) = rest.map fun other => (.cancel other, ⟨(s.cancel other).2, []⟩) := by
      refine List.map_congr_left fun other member => ?_
      have apart : other ≠ id := by
        rintro rfl
        exact fresh member
      rw [cancel_other rep apart]
    refine ⟨t, ?_, tidy', fun side level => ?_⟩
    · rw [answers] at ran
      rw [cancelAll, List.map_cons, Runs.run, step, Option.bind_some]
      dsimp only
      rw [show rest.map Call.cancel = cancelAll rest from rfl, ran]
      rfl
    · rw [orders, cancel_filter rep, List.filter_filter]
      refine List.filter_congr fun o _ => ?_
      rw [Bool.eq_iff_iff]
      simp only [Bool.and_eq_true, decide_eq_true_eq, List.mem_cons, not_or]
      exact and_comm

end

theorem cancels_commute {start s : LimitOrderBook c} {calls : List (Call c)}
    {log : List (Call c × Reply c.Qty)} (noWrap : NoWrap start.reset calls)
    (ran : Runs.run step start.reset calls = some (s, log)) {ids ids' : List Int}
    (nodup : ids.Nodup) (perm : ids'.Perm ids) :
    ∃ t t' early early', Runs.run step s (cancelAll ids) = some (t, early) ∧
      Runs.run step s (cancelAll ids') = some (t', early') ∧ early'.Perm early ∧
      SameAnswers t t' := by
  obtain ⟨s₀, _, run₀, tidy⟩ := run_tidy noWrap
  obtain ⟨rfl, -⟩ := Prod.mk.inj (Option.some.inj (run₀.symm.trans ran))
  obtain ⟨t, cancelled, tidy₁, orders⟩ := cancelAll_run tidy nodup
  obtain ⟨t', cancelled', tidy₂, orders'⟩ := cancelAll_run tidy (perm.nodup_iff.mpr nodup)
  have alike : Alike t t' := tidy₁.alike tidy₂ fun side level => by
    rw [orders, orders']
    simp only [perm.mem_iff]
  exact ⟨t, t', _, _, cancelled, cancelled', perm.map _, alike.sameAnswers⟩

theorem cancels_commute_askingCalls :
    ∃ s log t t' early early', Runs.run step (LimitOrderBook.new fourByFour).reset askingCalls =
        some (s, log) ∧ Runs.run step s (cancelAll [0, 2, 7]) = some (t, early) ∧
      Runs.run step s (cancelAll [7, 2, 0]) = some (t', early') ∧ early'.Perm early ∧
      SameAnswers t t' := by
  obtain ⟨s, log, -, -, ran, -⟩ := askingCalls_taken
  obtain ⟨t, t', early, early', rest⟩ := cancels_commute (by decide +kernel) ran
    (by decide : [(0 : Int), 2, 7].Nodup) (by decide : [(7 : Int), 2, 0].Perm [0, 2, 7])
  exact ⟨s, log, t, t', early, early', ran, rest⟩

end CppPractice.LimitOrderBook
