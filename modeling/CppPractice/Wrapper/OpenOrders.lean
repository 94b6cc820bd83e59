import CppPractice.Engine.InPlace
import CppPractice.Engine.Totals
import CppPractice.Wrapper.Steps

set_option autoImplicit false

namespace CppPractice.OrderBook

open LimitOrderBook (Small Tidy inRange_levelToPrice level_of_price mem_ordersAt
  priceToLevel_levelToPrice toNat_ne_zero)
open Reference (Order)
open Tally (tally le_tally tally_listed)

def LiveOrder.openFor (P : Side → Price → Bool) (o : LiveOrder) : Nat :=
  if o.active && P o.side o.limitPrice then o.remaining.toNat else 0

def Impl.openUnits (s : Impl) (P : Side → Price → Bool) : Nat := tally (·.openFor P) s.orders

def Impl.openQty (s : Impl) (side : Side) (price : Price) : Nat :=
  s.openUnits fun side' price' => decide (side' = side ∧ price' = price)

def Impl.totalRemaining (s : Impl) : Nat := tally (·.remaining.toNat) s.orders

/-- After every operation of a run the total resting quantity of each level is below `2 ^ 32`. -/
def NoWrap (start : Impl) (ops : List Op) : Prop :=
  ∀ front s log, front <+: ops → Runs.run step start front = some (s, log) →
    ∀ side, ∀ level < Engine.kLevels, s.engine.restingQty side level < 2 ^ 32

section

variable {s s' : Impl} {side : Side} {price : Price}

theorem Synced.openUnits (synced : Synced s) {P : Side → Price → Bool} {orders : List Order}
    (nodup : (orders.map Order.id).Nodup)
    (listed : ∀ o, o ∈ orders ↔ P o.side o.price = true ∧
      ∃ side level, o ∈ s.engine.ordersAt side level) :
    s.openUnits P = (orders.map Order.qty).sum := by
  obtain ⟨free, queue, rep⟩ := synced.represents
  have rests (o : Order) (member : o ∈ orders) : (o.id.toNat : Int) = o.id ∧
      ∃ qty, s.engine.resting o.id.toNat = some ⟨o.side, o.price, qty⟩ ∧ qty.toNat = o.qty := by
    obtain ⟨-, side, level, inside⟩ := (listed o).mp member
    exact rep.mem_resting inside
  have apart : (orders.map fun o => o.id.toNat).Nodup := by
    refine List.Nodup.map_on (fun o left o' right same => ?_) (List.Nodup.of_map _ nodup)
    refine List.inj_on_of_nodup_map nodup left right ?_
    rw [← (rests o left).1, ← (rests o' right).1, same]
  rw [Impl.openUnits, tally_listed (g := fun id => (s.engine.resting id).elim 0 (·.qty.toNat))
    apart ?_ ?_, List.map_map]
  · refine congrArg List.sum (List.map_congr_left fun o member => ?_)
    obtain ⟨-, qty, here, same⟩ := rests o member
    rw [Function.comp_apply, here, Option.elim_some, same]
  · intro id member
    obtain ⟨o, inside, rfl⟩ := List.mem_map.mp member
    obtain ⟨-, qty, here, same⟩ := rests o inside
    obtain ⟨o', found, active, same'⟩ := table_eq_some.mp ((synced.table _).trans here)
    obtain ⟨sideEq, priceEq, left⟩ := Resting.mk.inj same'
    refine ⟨o', found, ?_⟩
    rw [LiveOrder.openFor, active, sideEq, priceEq, ((listed o).mp inside).1, Bool.and_true,
      if_pos rfl, here, left, Option.elim_some]
  · intro id o absent found
    refine if_neg fun asked => absent ?_
    obtain ⟨active, P_o⟩ := Bool.and_eq_true_iff.mp asked
    have inside := rep.resting_iff.mp (synced.resting found active)
    exact List.mem_map.mpr ⟨_, (listed _).mpr ⟨P_o, _, _, inside⟩, Int.toNat_natCast id⟩

theorem Synced.openQty (synced : Synced s) (side : Side) (inRange : Engine.inRange price = true) :
    s.openQty side price = s.engine.restingQty side (Engine.priceToLevel price) := by
  obtain ⟨free, queue, rep⟩ := synced.represents
  obtain ⟨-, samePrice⟩ := level_of_price inRange
  refine synced.openUnits (LimitOrderBook.idsAt_nodup rep side _) fun o => ?_
  rw [decide_eq_true_iff]
  constructor
  · intro member
    obtain ⟨sideEq, priceEq, -⟩ := mem_ordersAt rep member
    exact ⟨⟨sideEq, priceEq.trans samePrice⟩, side, _, member⟩
  · rintro ⟨⟨sideEq, priceEq⟩, other, level, member⟩
    obtain ⟨rfl, at_level, -⟩ := mem_ordersAt rep member
    rw [← sideEq, ← priceEq, at_level, priceToLevel_levelToPrice]
    exact member

theorem Synced.restingQty_le (synced : Synced s) (side : Side) {level : Nat}
    (inLevels : level < Engine.kLevels) : s.engine.restingQty side level ≤ s.totalRemaining := by
  have total := synced.openQty side (inRange_levelToPrice inLevels)
  rw [priceToLevel_levelToPrice] at total
  rw [← total]
  refine List.sum_le_sum fun o _ => ?_
  unfold LiveOrder.openFor
  split
  · exact le_rfl
  · exact Nat.zero_le _

theorem Synced.inRange (synced : Synced s) {o : LiveOrder} (member : o ∈ s.orders)
    (active : o.active = true) : Engine.inRange o.limitPrice = true := by
  obtain ⟨free, queue, rep⟩ := synced.represents
  obtain ⟨id, found⟩ := List.mem_iff_getElem?.mp member
  have here := rep.resting_iff.mp (synced.resting found active)
  obtain ⟨-, price, inLevels, -⟩ := mem_ordersAt rep here
  rw [show o.limitPrice = _ from price]
  exact inRange_levelToPrice inLevels

theorem Synced.openQty_ne_zero (synced : Synced s) (side : Side) (price : Price) :
    s.openQty side price ≠ 0 ↔
      ∃ o ∈ s.orders, o.active = true ∧ o.side = side ∧ o.limitPrice = price := by
  constructor
  · intro some
    by_contra none
    push Not at none
    refine some (Tally.tally_zero fun o member => if_neg ?_)
    rw [Bool.and_eq_true, decide_eq_true_iff]
    rintro ⟨active, sideEq, priceEq⟩
    exact none o member active sideEq priceEq
  · rintro ⟨o, member, active, rfl, rfl⟩
    have left := le_tally (f := LiveOrder.openFor fun side price =>
      decide (side = o.side ∧ price = o.limitPrice)) member
    have positive := toNat_ne_zero ((synced.accounts.accurate o member).active.mp active)
    rw [LiveOrder.openFor, active, decide_eq_true ⟨rfl, rfl⟩, Bool.and_true, if_pos rfl] at left
    exact Nat.ne_of_gt (lt_of_lt_of_le (Nat.pos_of_ne_zero positive) left)

-- An order that is discarded may have wrapped a total, but only until it is cancelled.
theorem submit_tidy {user : Nat} {qty : Qty} {discard : Bool} {reply : Option Nat}
    (synced : Synced s) (tidy : Tidy s.engine)
    (submitted : s.submit side user price qty discard = some (s', reply))
    (small : Small s'.engine) : Tidy s'.engine := by
  rcases submit_cases synced submitted with ⟨-, -, rfl⟩ | ⟨admits, room, ⟨-, -, rfl⟩ |
    ⟨-, sameId, -, outcome, after, remaining, answered, processed, rfl⟩⟩
  · exact tidy
  · exact tidy
  · have shown := tidy.processOrder answered
    obtain ⟨t, -, -, book, -, ⟨-, ends⟩ | ⟨-, -, o, -, ends⟩⟩ :=
      accepted_rule synced admits room sameId processed discard (J := fun _ _ => True)
        (fun _ _ => trivial) (fun _ _ _ _ _ _ _ _ => trivial)
    · rw [ends] at small ⊢
      change Small t.engine at small
      change Tidy t.engine
      rw [book] at small ⊢
      exact shown.tidy small
    · rw [ends] at small ⊢
      change Small (t.engine.cancel _).1 at small
      change Tidy (t.engine.cancel _).1
      rw [book] at small ⊢
      exact shown.cancel small

theorem step_tidy {op : Op} {reply : Reply} (synced : Synced s) (tidy : Tidy s.engine)
    (stepped : step s op = some (s', reply)) (small : Small s'.engine) : Tidy s'.engine := by
  rcases step_cases stepped with ⟨name, -, rfl, -⟩ | ⟨user, quoteDelta, baseDelta, -, rfl, -⟩ |
    ⟨sub, result, -, submitted, -⟩ | ⟨user, id, isBid, -, rfl, -⟩ | ⟨same, -⟩
  · have kept : (s.makeUser name).1.engine = s.engine := by
      unfold Impl.makeUser
      split <;> rfl
    rwa [kept]
  · rcases addBalance_cases s user quoteDelta baseDelta with ⟨-, same⟩ | ⟨u, users, -, done, -⟩
    · rwa [same]
    · rwa [done]
  · exact submit_tidy synced tidy submitted small
  · rcases cancel_cases synced user id isBid with ⟨-, same⟩ | ⟨o, -, done⟩
    · rwa [same]
    · rw [done] at small ⊢
      exact tidy.shown.cancel small
  · rwa [same.engine]

theorem run_tidy_from {start : Impl} {ops : List Op} {log : List (Op × Reply)}
    (synced : Synced start) (tidy : Tidy start.engine) (noWrap : NoWrap start ops)
    (ran : Runs.run step start ops = some (s, log)) : Synced s ∧ Tidy s.engine := by
  refine Runs.run_guarded (P := fun _ s => Synced s ∧ Tidy s.engine)
    (C := fun _ s => ∀ side, ∀ level < Engine.kLevels, s.engine.restingQty side level < 2 ^ 32)
    ⟨synced, tidy⟩ ?_ noWrap ran
  rintro front s log op s' reply - ⟨synced, tidy⟩ stepped bounded
  have synced' := step_synced synced stepped
  obtain ⟨free, queue, rep⟩ := synced'.represents
  exact ⟨synced', step_tidy synced tidy stepped (rep.small bounded)⟩

theorem noWrap_of_total {start : Impl} {ops : List Op} (synced : Synced start)
    (total : ∀ front ∈ ops.inits, ∀ result ∈ Runs.run step start front,
      result.1.totalRemaining < 2 ^ 32) : NoWrap start ops := by
  intro front s log isPrefix ran side level inLevels
  have reached : Synced s := Runs.run_induction (P := fun _ s => Synced s) synced
    (fun _ _ _ _ _ _ _ synced stepped => step_synced synced stepped) ran
  exact lt_of_le_of_lt (reached.restingQty_le side inLevels)
    (total front ((List.mem_inits _ _).mpr isPrefix) (s, log) ran)

end

def funded : Impl :=
  let s := ((Impl.empty.makeUser "mm_alpha").1.makeUser "mm_beta").1
  ((s.addBalance 0 10000000 10000).1.addBalance 1 10000000 10000).1

def seedOrders : List Op :=
  [.addBid 0 14950 50, .addBid 1 14900 75, .addAsk 0 15050 60, .addAsk 1 15100 80]

theorem run_seedOrders : ∃ log, Runs.run step funded seedOrders = some (new, log) := by
  have built : seeded = some new := (Option.some_get seeded_isSome).symm
  unfold seeded at built
  simp only [Option.bind_eq_bind, Option.bind_eq_some_iff, Option.some.injEq] at built
  obtain ⟨⟨s1, r1⟩, first, ⟨s2, r2⟩, second, ⟨s3, r3⟩, third, ⟨s4, r4⟩, fourth, same⟩ := built
  obtain rfl : s4 = new := same
  change funded.addBid 0 14950 50 = some (s1, r1) at first
  change s1.addBid 1 14900 75 = some (s2, r2) at second
  change s2.addAsk 0 15050 60 = some (s3, r3) at third
  change s3.addAsk 1 15100 80 = some (new, r4) at fourth
  refine ⟨seedOrders.zip [.order r1, .order r2, .order r3, .order r4], ?_⟩
  simp only [seedOrders, List.zip_cons_cons, List.zip_nil_left, Runs.run, step, first, second,
    third, fourth, Option.map_some, Option.bind_some, Reply.ofSubmit]

theorem new_tidy : Tidy new.engine := by
  obtain ⟨log, ran⟩ := run_seedOrders
  have synced : Synced funded := addBalance_synced (addBalance_synced
    (makeUser_synced (makeUser_synced empty_synced _) _) _ _ _) _ _ _
  have tidy : Tidy funded.engine := LimitOrderBook.reset_tidy _
  exact (run_tidy_from synced tidy (noWrap_of_total synced (by decide +kernel)) ran).2

theorem run_tidy {ops : List Op} {s : Impl} {log : List (Op × Reply)} (noWrap : NoWrap new ops)
    (ran : Runs.run step new ops = some (s, log)) : Synced s ∧ Tidy s.engine :=
  run_tidy_from new_synced new_tidy noWrap ran

end CppPractice.OrderBook
