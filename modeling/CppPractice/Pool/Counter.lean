import CppPractice.Pool.Once
import Mathlib.Data.Nat.ModEq

set_option autoImplicit false

namespace CppPractice.WorkStealingThreadPool

variable {c : Config}

-- Between the push and the increment.
def awaitsCount : Option SubmitPc → Bool
  | some (.pushed _) => true
  | _ => false

def WorkerPc.holdsTask : WorkerPc → Bool
  | .running _ => true
  | .ran _ => true
  | _ => false

namespace State

variable (s : State c)

def uncountedCalls : Nat := (Finset.univ.filter fun thread => awaitsCount (s.calls thread)).card

def queuedTasks : Nat := ∑ w, (s.deques w).length

def heldTasks : Nat := (Finset.univ.filter fun w => (s.worker w).holdsTask).card

theorem uncountedCalls_eq : s.uncountedCalls = s.early.card := by
  rw [uncountedCalls, early, Multiset.card_sum, Finset.card_filter]
  refine Finset.sum_congr rfl fun thread _ => ?_
  cases s.calls thread with
  | none => rfl
  | some pc => cases pc <;> rfl

theorem queuedTasks_eq : s.queuedTasks = s.queued.card := by
  rw [queuedTasks, queued, Multiset.card_sum]
  rfl

theorem heldTasks_eq : s.heldTasks = s.running.card + s.owed.card := by
  rw [heldTasks, running, owed, Multiset.card_sum, Multiset.card_sum, ← Finset.sum_add_distrib,
    Finset.card_filter]
  refine Finset.sum_congr rfl fun w _ => ?_
  cases s.worker w <;> rfl

end State

section

variable {s : State c}

theorem Ledger.sizes (ledger : Ledger s) :
    s.uncountedCalls + s.counted.length = s.pushed ∧
      s.queuedTasks + s.heldTasks + s.decremented.length = s.pushed := by
  have places := congrArg Multiset.card ledger.places
  have finished := congrArg Multiset.card ledger.finished
  have counted := congrArg Multiset.card ledger.counted
  simp only [Multiset.card_add, Multiset.card_range, Multiset.coe_card] at places finished counted
  rw [s.uncountedCalls_eq, s.queuedTasks_eq, s.heldTasks_eq]
  omega

theorem Ledger.pending_modEq (ledger : Ledger s) :
    s.pending.toNat + s.uncountedCalls ≡ s.queuedTasks + s.heldTasks [MOD 2 ^ 64] := by
  obtain ⟨counted, held⟩ := ledger.sizes
  have pending := congrArg BitVec.toNat ledger.pending
  rw [BitVec.toNat_add, BitVec.toNat_ofNat, BitVec.toNat_ofNat, Nat.add_mod_mod] at pending
  refine Nat.ModEq.add_right_cancel' s.decremented.length ?_
  calc s.pending.toNat + s.uncountedCalls + s.decremented.length
      = s.pending.toNat + s.decremented.length + s.uncountedCalls := Nat.add_right_comm _ _ _
    _ ≡ s.counted.length + s.uncountedCalls [MOD 2 ^ 64] :=
        Nat.ModEq.add_right s.uncountedCalls pending
    _ = s.queuedTasks + s.heldTasks + s.decremented.length := by
        rw [held, ← counted, Nat.add_comm]

theorem nothing_queued_or_held : s.queuedTasks + s.heldTasks = 0 ↔
    (∀ w, s.deques w = []) ∧ ∀ w, (s.worker w).holdsTask = false := by
  rw [Nat.add_eq_zero_iff, State.queuedTasks, State.heldTasks, Finset.sum_eq_zero_iff,
    Finset.card_eq_zero, Finset.filter_eq_empty_iff]
  simp

end

/--
In every reachable state `pending_` and the calls between push and increment add up to
the tasks queued or held, modulo `2 ^ 64`. Without such a call, 0 means that there are none.
-/
theorem pending_exact (actions : List (Action c)) {s : State c} {log : List (Action c × Unit)}
    (ran : Runs.run step (State.init c) actions = some (s, log)) :
    s.pending.toNat + s.uncountedCalls ≡ s.queuedTasks + s.heldTasks [MOD 2 ^ 64] ∧
      (s.queuedTasks + s.heldTasks < 2 ^ 64 → (∀ thread, awaitsCount (s.calls thread) = false) →
        (s.pending = 0 ↔ (∀ w, s.deques w = []) ∧ ∀ w, (s.worker w).holdsTask = false)) := by
  have exact_count := (run_ledger ran).pending_modEq
  refine ⟨exact_count, fun few settled => ?_⟩
  have none : s.uncountedCalls = 0 := by
    rw [State.uncountedCalls, Finset.card_eq_zero, Finset.filter_eq_empty_iff]
    simp [settled]
  rw [none, Nat.add_zero] at exact_count
  have same : s.pending.toNat = s.queuedTasks + s.heldTasks :=
    exact_count.eq_of_lt_of_lt s.pending.isLt few
  rw [← nothing_queued_or_held, ← same]
  exact ⟨fun zero => by rw [zero]; rfl, fun zero => BitVec.eq_of_toNat_eq zero⟩

theorem pending_exact_runOne : ∃ s log,
    Runs.run step (State.init oneWorker) (submitBy (.inr 0) none ++ runOne) = some (s, log) ∧
      s.pending.toNat + s.uncountedCalls ≡ s.queuedTasks + s.heldTasks [MOD 2 ^ 64] ∧
      (s.pending = 0 ↔ (∀ w, s.deques w = []) ∧ ∀ w, (s.worker w).holdsTask = false) :=
  ⟨_, _, rfl, (pending_exact (submitBy (.inr 0) none ++ runOne) rfl).1,
    (pending_exact (submitBy (.inr 0) none ++ runOne) rfl).2 (by decide +kernel)
      (by decide +kernel)⟩

end CppPractice.WorkStealingThreadPool
