import CppPractice.Engine.Refinement

set_option autoImplicit false

namespace CppPractice

variable {c : Config}

def Reference.total (book : List Reference.Order) (side : Side) (price : Int) : Nat :=
  ((Reference.ordersAt book side price).map Reference.Order.qty).sum

namespace LimitOrderBook

open Reference (Order bestMaker)

section

variable {s : LimitOrderBook c} {book : List Order}

theorem Refines.best_price (refines : Refines s book) (tidy : Tidy s) (side : Side) :
    s.bestPrice side = (bestMaker side book).map Order.price := by
  obtain ⟨free, queue, rep⟩ := tidy.represents
  rw [bestPrice]
  cases cached : s.best side with
  | none =>
    have dark := (rep.best_eq_none side).mp cached
    rw [Reference.bestMaker_none]
    · rfl
    · rintro o member rfl
      have lit := tidy.visible _ _ (List.ne_nil_of_mem (refines.queued member))
      rw [dark] at lit
      exact absurd lit (by decide)
  | some best =>
    obtain ⟨occupied, top⟩ := (rep.best_eq_some side best).mp cached
    have present : s.ordersAt side best ≠ [] := by
      rw [rep.nodes.ordersAt]
      simpa using rep.occupancy.occupied side best occupied
    obtain ⟨first, rest, orders⟩ := List.exists_cons_of_ne_nil present
    have maker : bestMaker side book = some first := by
      refine Reference.bestMaker_first (c.levelToPrice best) ?_ ?_
      · rw [← refines.orders, orders]
        rfl
      · rintro o member rfl
        have lit := tidy.visible _ _ (List.ne_nil_of_mem (refines.queued member))
        rw [← (level_of_price (refines.inRange o member)).2, better_levelToPrice]
        exact top _ lit
    have price := (mem_ordersAt rep (orders ▸ List.mem_cons_self)).2.1
    rw [maker, Option.map_some, Option.map_some, price]

theorem Refines.level_quantity (refines : Refines s book) (tidy : Tidy s) (side : Side)
    (price : Int) : (s.levelQuantity side price).toNat = Reference.total book side price := by
  obtain ⟨free, queue, rep⟩ := tidy.represents
  rw [levelQuantity]
  cases inRange : c.inRange price with
  | false =>
    have none : Reference.ordersAt book side price = [] := by
      refine List.filter_eq_nil_iff.mpr fun o member here => ?_
      have samePrice : o.price = price := (decide_eq_true_iff.mp here).2
      rw [← samePrice, refines.inRange o member] at inRange
      exact absurd inRange (by decide)
    rw [Reference.total, none]
    rfl
  | true =>
    rw [if_neg (by decide), rep.levelQty_toNat, Nat.mod_eq_of_lt (tidy.small _ _),
      refines.restingQty, (level_of_price inRange).2]
    rfl

end

theorem NoWrap.of_prefix {start : LimitOrderBook c} {front calls : List (Call c)}
    (noWrap : NoWrap start calls) (isPrefix : front <+: calls) : NoWrap start front :=
  fun early s log earlier => noWrap early s log (earlier.trans isPrefix)

theorem run_follows {start s : LimitOrderBook c} {calls : List (Call c)}
    {log : List (Call c × Reply c.Qty)} (noWrap : NoWrap start.reset calls)
    (ran : Runs.run step start.reset calls = some (s, log)) :
    Tidy s ∧ Refines s (Reference.run calls).1 ∧
      log.map (fun entry => entry.2.toNat) = (Reference.run calls).2 := by
  have always := Runs.run_guarded
    (P := fun log s => Tidy s ∧ Refines s (Reference.run (log.map Prod.fst)).1 ∧
      log.map (fun entry => entry.2.toNat) = (Reference.run (log.map Prod.fst)).2)
    (C := fun _ s => ∀ side, ∀ level < c.kLevels, s.restingQty side level < 2 ^ c.qtyBits)
    ⟨reset_tidy start, ⟨reset_ordersAt start, by simp [Reference.run]⟩, rfl⟩ ?_ noWrap ran
  · rwa [Runs.run_inputs ran] at always
  · rintro front s log call s' reply - ⟨tidy, refines, replies⟩ stepped bounded
    obtain ⟨free, queue, rep⟩ := tidy.represents
    obtain ⟨free', queue', rep'⟩ := rep.step stepped
    obtain ⟨refines', same⟩ := refines.step tidy stepped
    rw [List.map_append, List.map_append, List.map_singleton, List.map_singleton,
      Reference.run_snoc]
    exact ⟨tidy.step stepped (rep'.small bounded), refines', by rw [replies, same]⟩

theorem run_refines (start : LimitOrderBook c) (calls : List (Call c))
    (noWrap : NoWrap start.reset calls) :
    ∃ s log, Runs.run step start.reset calls = some (s, log) ∧
      log.map (fun entry => entry.2.toNat) = (Reference.run calls).2 ∧
      Refines s (Reference.run calls).1 ∧
      ∀ side, s.bestPrice side = (bestMaker side (Reference.run calls).1).map Order.price ∧
        ∀ price, (s.levelQuantity side price).toNat =
          Reference.total (Reference.run calls).1 side price := by
  obtain ⟨s, log, ran, -⟩ := run_represents start calls
  obtain ⟨tidy, refines, replies⟩ := run_follows noWrap ran
  exact ⟨s, log, ran, replies, refines, fun side =>
    ⟨refines.best_price tidy side, refines.level_quantity tidy side⟩⟩

theorem run_refines_crossingCalls :
    ∃ s log, Runs.run step (LimitOrderBook.new fourByFour).reset crossingCalls = some (s, log) ∧
      log.map (fun entry => entry.2.toNat) = (Reference.run crossingCalls).2 ∧
      Refines s (Reference.run crossingCalls).1 ∧
      ∀ side, s.bestPrice side =
          (bestMaker side (Reference.run crossingCalls).1).map Order.price ∧
        ∀ price, (s.levelQuantity side price).toNat =
          Reference.total (Reference.run crossingCalls).1 side price :=
  run_refines _ _ (by decide +kernel)

theorem noWrap_iff (start : LimitOrderBook c) (calls : List (Call c)) :
    NoWrap start.reset calls ↔ ∀ front, front <+: calls → ∀ side price,
      Reference.total (Reference.run front).1 side price < 2 ^ c.qtyBits := by
  constructor
  · intro noWrap front isPrefix side price
    obtain ⟨s, log, ran, -⟩ := run_represents start front
    obtain ⟨tidy, refines, -⟩ := run_follows (noWrap.of_prefix isPrefix) ran
    rw [← refines.level_quantity tidy]
    exact BitVec.isLt _
  · intro fits
    induction calls using List.reverseRecOn with
    | nil =>
      intro front s log isPrefix ran side level _
      obtain rfl := List.prefix_nil.mp isPrefix
      obtain ⟨rfl, -⟩ : start.reset = s ∧ _ := by simpa [Runs.run] using ran
      exact (reset_tidy start).small side level
    | append_singleton calls call ih =>
      have noWrap := ih fun front isPrefix =>
        fits front (isPrefix.trans (List.prefix_append calls [call]))
      intro front s log isPrefix ran side level inLevels
      rcases List.prefix_concat_iff.mp isPrefix with rfl | earlier
      · obtain ⟨before, log', reply, early, stepped, -⟩ := Runs.run_snoc_iff.mp ran
        obtain ⟨tidy, refines, -⟩ := run_follows noWrap early
        have now := fits (calls ++ [call]) (List.prefix_refl _) side (c.levelToPrice level)
        rw [Reference.run_snoc] at now
        rw [(refines.step tidy stepped).1.restingQty]
        exact now
      · exact noWrap front s log earlier ran side level inLevels

-- Totals are sums of natural numbers, and no queued order is hidden.
def TotalsExact (s : LimitOrderBook c) : Prop :=
  ∀ side, ∀ level < c.kLevels,
    ((s.book side).levelQty level).toNat = s.restingQty side level ∧
    (s.ordersAt side level ≠ [] → s.isOccupied side level = true)

theorem Tidy.totalsExact {s : LimitOrderBook c} (tidy : Tidy s) : TotalsExact s := by
  obtain ⟨free, queue, rep⟩ := tidy.represents
  intro side level _
  exact ⟨by rw [rep.levelQty_toNat, Nat.mod_eq_of_lt (tidy.small _ _)], tidy.visible side level⟩

theorem totals_exact_iff (start : LimitOrderBook c) (calls : List (Call c)) :
    (∀ front s log, front <+: calls → Runs.run step start.reset front = some (s, log) →
        TotalsExact s) ↔
      ∀ front, front <+: calls → ∀ side price,
        Reference.total (Reference.run front).1 side price < 2 ^ c.qtyBits := by
  rw [← noWrap_iff start calls]
  constructor
  · intro exactTotals front s log isPrefix ran side level inLevels
    rw [← (exactTotals front s log isPrefix ran side level inLevels).1]
    exact BitVec.isLt _
  · intro noWrap front s log isPrefix ran
    exact (run_follows (noWrap.of_prefix isPrefix) ran).1.totalsExact

-- Three asks at one price, `2 ^ 32 + 1` in total, of which the first is cancelled.
def wrappingCalls : List (Call fourByFour) :=
  [.processOrder .Sell 100 1 0, .processOrder .Sell 100 (2 ^ 31) 1,
    .processOrder .Sell 100 (2 ^ 31) 2, .cancel 0]

theorem totals_wrap :
    ¬∀ front s log, front <+: wrappingCalls →
      Runs.run step (LimitOrderBook.new fourByFour).reset front = some (s, log) →
      TotalsExact s := by
  intro exactTotals
  obtain ⟨s, log, ran, -⟩ := run_represents (LimitOrderBook.new fourByFour) wrappingCalls
  have ends : ((s.book .Sell).levelQty 0, (s.ordersAt .Sell 0).map Order.qty,
      s.isOccupied .Sell 0) = (0, [2 ^ 31, 2 ^ 31], false) := by
    have value : (Runs.run step (LimitOrderBook.new fourByFour).reset wrappingCalls).map
        (fun result => ((result.1.book .Sell).levelQty 0,
          (result.1.ordersAt .Sell 0).map Order.qty, result.1.isOccupied .Sell 0)) =
          some (0, [2 ^ 31, 2 ^ 31], false) := by
      decide +kernel
    simpa [ran] using value
  obtain ⟨-, orders, dark⟩ := by simpa only [Prod.mk.injEq] using ends
  have lit := (exactTotals _ s log (List.prefix_refl _) ran .Sell 0 (by decide)).2
  rw [dark] at lit
  exact absurd (lit fun none => by simp [none] at orders) (by decide)

end LimitOrderBook

end CppPractice
