import CppPractice.Engine.RunRefinement

set_option autoImplicit false

namespace CppPractice

variable {c : Config}

namespace Reference

open LimitOrderBook (Call)

def entered (side : Side) (price : Int) (before : Nat) : Call c → Nat
  | .processOrder side' price' qty _ =>
    if side' = side ∧ price' = price then before + qty.toNat else before
  | .cancel _ => before
  | .reset => 0

def volume (side : Side) (price : Int) (calls : List (Call c)) : Nat :=
  calls.foldl (entered side price) 0

theorem volume_snoc (side : Side) (price : Int) (calls : List (Call c)) (call : Call c) :
    volume side price (calls ++ [call]) = entered side price (volume side price calls) call := by
  rw [volume, List.foldl_append]
  rfl

def units : Call c → Nat
  | .processOrder _ _ qty _ => qty.toNat
  | _ => 0

theorem volume_le_units (side : Side) (price : Int) (calls : List (Call c)) :
    volume side price calls ≤ (calls.map units).sum := by
  induction calls using List.reverseRecOn with
  | nil => exact le_rfl
  | append_singleton calls call ih =>
    rw [volume_snoc, List.map_append, List.sum_append, List.map_singleton, List.sum_singleton]
    cases call with
    | processOrder side' price' qty id =>
      simp only [entered, units]
      split_ifs <;> omega
    | cancel id => exact ih.trans (Nat.le_add_right _ _)
    | reset => exact Nat.zero_le _

theorem entered_mono {side : Side} {price : Int} {less more : Nat} (le : less ≤ more)
    (call : Call c) : entered side price less call ≤ entered side price more call := by
  cases call with
  | processOrder side' price' qty id =>
    simp only [entered]
    split_ifs <;> omega
  | cancel id => exact le
  | reset => exact le_rfl

theorem total_reduce_le (id : Int) (trade : Nat) (book : List Order) (side : Side) (price : Int) :
    total (reduce id trade book) side price ≤ total book side price := by
  rw [total, ordersAt_reduce]
  exact sum_reduce_le id trade _

theorem sweep_lowers (taker : Side) (limit takerId : Int) (book : List Order) (remaining : Nat)
    (side : Side) (price : Int) :
    total (sweep taker limit takerId book remaining).book side price ≤ total book side price ∧
      (sweep taker limit takerId book remaining).remaining ≤ remaining := by
  induction book, remaining using sweep.induct taker limit takerId with
  | case1 book =>
    rw [sweep, dif_pos rfl]
    exact ⟨le_rfl, Nat.zero_le _⟩
  | case2 book remaining left none =>
    rw [sweep, dif_neg left]
    split
    · exact ⟨le_rfl, le_rfl⟩
    · rename_i found
      rw [none] at found
      cases found
  | case3 book remaining left m found beyond =>
    rw [sweep, dif_neg left]
    split
    · exact ⟨le_rfl, le_rfl⟩
    · rename_i m' found'
      obtain rfl := Option.some.inj (found.symm.trans found')
      rw [if_pos beyond]
      exact ⟨le_rfl, le_rfl⟩
  | case4 book remaining left m found within trade ih =>
    rw [sweep, dif_neg left]
    split
    · exact ⟨le_rfl, le_rfl⟩
    · rename_i m' found'
      obtain rfl := Option.some.inj (found.symm.trans found')
      rw [if_neg within]
      exact ⟨ih.1.trans (total_reduce_le m.id trade book side price),
        ih.2.trans (Nat.sub_le _ _)⟩

theorem total_append (book more : List Order) (side : Side) (price : Int) :
    total (book ++ more) side price = total book side price + total more side price := by
  simp [total, ordersAt]

theorem process_entered (book : List Order) (taker : Side) (limit : Int) (qty : c.Qty) (id : Int)
    (side : Side) (price : Int) :
    total (process c book taker limit qty.toNat id).1 side price ≤
      entered side price (total book side price) (.processOrder (c := c) taker limit qty id) := by
  have kept : total book side price ≤
      entered side price (total book side price) (.processOrder (c := c) taker limit qty id) := by
    simp only [entered]
    split_ifs <;> omega
  obtain ⟨lower, less⟩ := sweep_lowers taker limit id book qty.toNat side price
  unfold process
  split
  · exact kept
  · dsimp only
    split
    · exact lower.trans kept
    · split
      · exact lower.trans kept
      · rw [total_append]
        by_cases here : taker = side ∧ limit = price
        · have rests : total [⟨id, taker, limit,
              (sweep taker limit id book qty.toNat).remaining⟩] side price =
              (sweep taker limit id book qty.toNat).remaining := by
            simp [total, ordersAt, Order.isAt, here]
          simp only [entered, if_pos here, rests]
          omega
        · have elsewhere : total [⟨id, taker, limit,
              (sweep taker limit id book qty.toNat).remaining⟩] side price = 0 := by
            simp [total, ordersAt, Order.isAt, here]
          simp only [entered, if_neg here, elsewhere]
          omega

theorem step_entered (book : List Order) (call : Call c) (side : Side) (price : Int) :
    total (step book call).1 side price ≤ entered side price (total book side price) call := by
  cases call with
  | processOrder taker limit qty id => exact process_entered book taker limit qty id side price
  | cancel id =>
    refine List.Sublist.sum_le_sum ?_ fun _ _ => Nat.zero_le _
    exact ((List.filter_sublist).filter _).map Order.qty
  | reset => exact le_rfl

theorem total_le_volume (calls : List (Call c)) (side : Side) (price : Int) :
    total (run calls).1 side price ≤ volume side price calls := by
  induction calls using List.reverseRecOn with
  | nil => exact le_rfl
  | append_singleton calls call ih =>
    rw [run_snoc, volume_snoc]
    exact (step_entered _ call side price).trans (entered_mono ih call)

end Reference

namespace LimitOrderBook

-- At no time has one price been given as much as a level total cannot hold.
def Fits (calls : List (Call c)) : Prop :=
  ∀ front, front <+: calls → ∀ side price, Reference.volume side price front < 2 ^ c.qtyBits

theorem Fits.noWrap {calls : List (Call c)} (fits : Fits calls) (start : LimitOrderBook c) :
    NoWrap start.reset calls :=
  (noWrap_iff start calls).mpr fun front isPrefix side price =>
    (Reference.total_le_volume front side price).trans_lt (fits front isPrefix side price)

theorem fits_of_units {calls : List (Call c)}
    (few : (calls.map Reference.units).sum < 2 ^ c.qtyBits) : Fits calls := by
  intro front isPrefix side price
  have less : (front.map Reference.units).sum ≤ (calls.map Reference.units).sum :=
    (isPrefix.sublist.map Reference.units).sum_le_sum fun _ _ => Nat.zero_le _
  have := Reference.volume_le_units side price front
  omega

/--
A run that enters less than `2 ^ w` at each price answers every call as the reference book does,
with exact totals and no crossed prices, whatever its orders trade with.
-/
theorem fitting_run_exact (start : LimitOrderBook c) (calls : List (Call c)) (fits : Fits calls) :
    ∃ s log, Runs.run step start.reset calls = some (s, log) ∧
      log.map (fun entry => entry.2.toNat) = (Reference.run calls).2 ∧
      Refines s (Reference.run calls).1 ∧ TotalsExact s ∧ Uncrossed s := by
  obtain ⟨s, log, ran, -⟩ := run_represents start calls
  obtain ⟨tidy, refines, replies⟩ := run_follows (fits.noWrap start) ran
  exact ⟨s, log, ran, replies, refines, tidy.totalsExact, tidy.uncrossed⟩

theorem fitting_run_exact_crossingCalls :
    ∃ s log, Runs.run step (LimitOrderBook.new fourByFour).reset crossingCalls = some (s, log) ∧
      log.map (fun entry => entry.2.toNat) = (Reference.run crossingCalls).2 ∧
      Refines s (Reference.run crossingCalls).1 ∧ TotalsExact s ∧ Uncrossed s :=
  fitting_run_exact (LimitOrderBook.new fourByFour) crossingCalls (fits_of_units (by decide))

end LimitOrderBook

end CppPractice
