import CppPractice.Engine.Submission
import CppPractice.Engine.Volume
import CppPractice.Shared.Tally

set_option autoImplicit false

namespace CppPractice

open Tally (tally)

variable {c : Config}

def heldUnits {w : Nat} (r : Option (Resting (BitVec w))) : Nat := r.elim 0 fun r => r.qty.toNat

def unitsOf (resting : Nat → Option (Resting c.Qty)) : Nat :=
  ∑ id : Fin c.maxOrders, heldUnits (resting id)

theorem unitsOf_update (resting : Nat → Option (Resting c.Qty)) {id : Nat}
    (valid : id < c.maxOrders) (r : Option (Resting c.Qty)) :
    unitsOf (Function.update resting id r) + heldUnits (resting id) =
      unitsOf resting + heldUnits r := by
  have same : (fun j : Fin c.maxOrders => Function.update resting id r j) =
      Function.update (fun j : Fin c.maxOrders => resting j) ⟨id, valid⟩ r := by
    funext j
    simp only [Function.update_apply, Fin.ext_iff]
  have moved := Tally.sum_update heldUnits (fun j : Fin c.maxOrders => resting j) ⟨id, valid⟩ r
  rw [← same] at moved
  exact moved

def executedUnits (execs : List (Execution c.Qty)) : Nat := tally (fun e => e.qty.toNat) execs

theorem take_units {w : Nat} (maker : Resting (BitVec w)) {traded : BitVec w}
    (enough : traded ≤ maker.qty) :
    heldUnits (maker.take traded) + traded.toNat = maker.qty.toNat := by
  unfold Resting.take
  split
  · rename_i whole
    rw [whole]
    exact Nat.zero_add _
  · rw [heldUnits, Option.elim_some, BitVec.toNat_sub_of_le enough]
    exact Nat.sub_add_cancel (BitVec.le_def.mp enough)

theorem Fills.units {side : Side} {price orderId : Int} {before after : Nat → Option (Resting c.Qty)}
    {qty remaining : c.Qty} {execs : List (Execution c.Qty)}
    (fills : Fills c side price orderId before qty execs after remaining) :
    unitsOf after + executedUnits execs = unitsOf before ∧
      remaining.toNat + executedUnits execs = qty.toNat := by
  induction fills with
  | start => exact ⟨rfl, rfl⟩
  | @trade execs resting remaining e maker earlier fill ih =>
    obtain ⟨makers, taker⟩ := ih
    have sum : executedUnits (execs ++ [e]) = executedUnits execs + e.qty.toNat := by
      rw [executedUnits, Tally.tally_append, Tally.tally_cons, Tally.tally_nil, Nat.add_zero]
      rfl
    have moved := unitsOf_update resting (LimitOrderBook.validId_iff.mp fill.valid).2
      (maker.take e.qty)
    rw [fill.rests] at moved
    have held : heldUnits (some maker) = maker.qty.toNat := rfl
    have taken := take_units maker fill.leMaker
    have enough := BitVec.le_def.mp fill.leTaker
    rw [sum, BitVec.toNat_sub_of_le fill.leTaker]
    exact ⟨by omega, by omega⟩

namespace LimitOrderBook

def restingUnits (s : LimitOrderBook c) : Nat := unitsOf s.resting

theorem reset_units (s : LimitOrderBook c) : s.reset.restingUnits = 0 := by
  rw [restingUnits, unitsOf]
  exact Finset.sum_eq_zero fun id _ => by rw [reset_resting]; rfl

def withdrawn (s : LimitOrderBook c) : Call c → List Nat
  | .processOrder _ _ _ _ => []
  | .cancel orderId =>
    if c.validId orderId then [heldUnits (s.resting orderId.toNat)] else []
  | .reset => [s.restingUnits]

def handedBack (entry : Call c × Reply c.Qty) : Nat :=
  if entry.2.ok then 0 else Reference.units entry.1 - executedUnits entry.2.executions

section

variable {s s' : LimitOrderBook c} {free : List Nat} {queue : Side → Nat → List Nat}

theorem processOrder_units (rep : Represents s free queue) (side : Side) {price orderId : Int}
    {qty : c.Qty} {outcome : Outcome c}
    (processed : s.processOrder side price qty orderId = some outcome) :
    outcome.book.restingUnits + 2 * executedUnits outcome.executions +
        handedBack (.processOrder side price qty orderId, ⟨outcome.ok, outcome.executions⟩) =
      s.restingUnits + qty.toNat := by
  by_cases accepts : Accepts c price qty orderId
  · obtain ⟨m, free', queue', finished, rep', fills, -⟩ :=
      processOrder_trades rep side accepts
        (I := fun m => Fills c side price orderId s.resting qty m.executions m.book.resting
          m.remaining)
        .start (by
          rintro m free' queue' best i traded m' free'' queue'' trading trade - fills
          obtain ⟨maker, fill, resting⟩ := trade.fill trading
          rw [trade.executions, trade.remaining, resting]
          exact fills.trade fill)
    obtain rfl := Option.some.inj (processed.symm.trans finished)
    obtain ⟨makers, taker⟩ := fills.units
    by_cases done : m.remaining = 0
    · have none : m.remaining.toNat = 0 := by rw [done]; rfl
      rw [finish_done done]
      simp only [restingUnits, handedBack, if_true]
      omega
    · cases alloc : m.book.allocOrder orderId with
      | none =>
        rw [finish_refused done alloc]
        simp only [restingUnits, handedBack, Reference.units, Bool.false_eq_true, if_false]
        omega
      | some allocated =>
        obtain ⟨book, i⟩ := allocated
        obtain ⟨valid, unused, -⟩ := allocOrder_eq_some.mp alloc
        have moved := unitsOf_update m.book.resting (validId_iff.mp valid).2
          (some ⟨side, price, m.remaining⟩)
        rw [resting_eq_none.mpr unused] at moved
        have held : heldUnits (some (⟨side, price, m.remaining⟩ : Resting c.Qty)) =
          m.remaining.toNat := rfl
        have empty : heldUnits (none : Option (Resting c.Qty)) = 0 := rfl
        rw [finish_rested done alloc]
        simp only [restingUnits, handedBack, if_true, rested_resting rep'.nodes alloc]
        omega
  · rw [processOrder_rejects accepts] at processed
    obtain rfl := Option.some.inj processed
    simp [handedBack, executedUnits, Reference.units]

theorem step_units (rep : Represents s free queue) {call : Call c} {reply : Reply c.Qty}
    (stepped : step s call = some (s', reply)) :
    s'.restingUnits + 2 * executedUnits reply.executions + handedBack (call, reply) +
        (s.withdrawn call).sum = s.restingUnits + Reference.units call := by
  cases call with
  | processOrder side price qty orderId =>
    obtain ⟨outcome, processed, same⟩ := Option.map_eq_some_iff.mp stepped
    obtain ⟨rfl, rfl⟩ := Prod.mk.inj same
    exact processOrder_units rep side processed
  | cancel orderId =>
    obtain ⟨rfl, rfl⟩ := Prod.mk.inj (Option.some.inj stepped)
    have nothing : handedBack (.cancel orderId, (⟨(s.cancel orderId).2, []⟩ : Reply c.Qty)) = 0 := by
      simp [handedBack, Reference.units]
    have empty : executedUnits ([] : List (Execution c.Qty)) = 0 := rfl
    simp only [nothing, empty, Reference.units]
    rw [withdrawn]
    by_cases valid : c.validId orderId = true
    · rw [if_pos valid, List.sum_singleton]
      rcases cancel_resting rep orderId with ⟨same, unknown⟩ | ⟨-, -, -, fewer⟩
      · have none := unknown.resolve_left (by simp [valid])
        rw [same, none]
        rfl
      · have moved := unitsOf_update s.resting (validId_iff.mp valid).2 none
        rw [← fewer] at moved
        exact moved
    · rcases cancel_resting rep orderId with ⟨same, -⟩ | ⟨ok, -⟩
      · rw [same, if_neg valid]
        rfl
      · rw [cancel, if_pos (by simpa using valid)] at ok
        exact absurd ok Bool.false_ne_true
  | reset =>
    obtain ⟨rfl, rfl⟩ := Prod.mk.inj (Option.some.inj stepped)
    rw [reset_units, withdrawn, List.sum_singleton]
    simp [handedBack, executedUnits, Reference.units]

end

theorem units_conserved (start : LimitOrderBook c) (calls : List (Call c)) :
    ∃ s log, Runs.run step start.reset calls = some (s, log) ∧
      (calls.map Reference.units).sum =
        2 * tally (fun entry => executedUnits entry.2.executions) log + tally handedBack log +
          (Runs.trace step withdrawn start.reset calls).sum + s.restingUnits := by
  obtain ⟨s, log, ran, -⟩ := run_represents start calls
  have balanced := Runs.run_traced withdrawn
    (P := fun out log s => (log.map fun entry => Reference.units entry.1).sum =
      2 * tally (fun entry => executedUnits entry.2.executions) log + tally handedBack log +
        out.sum + s.restingUnits) ?_ ?_ ran
  · refine ⟨s, log, ran, ?_⟩
    rw [← balanced, ← Runs.run_inputs ran, List.map_map]
    rfl
  · rw [reset_units]
    rfl
  · intro front s out log call s' reply early balanced stepped
    obtain ⟨middle, log', ran', free, queue, rep⟩ := run_represents start front
    obtain ⟨rfl, rfl⟩ := Prod.mk.inj (Option.some.inj (early.symm.trans ran'))
    have moved := step_units rep stepped
    simp only [List.map_append, List.map_singleton, List.sum_append, List.sum_singleton,
      Tally.tally_append, Tally.tally_cons, Tally.tally_nil]
    omega

end LimitOrderBook

end CppPractice
