import CppPractice.Pool.Model
import Mathlib.Algebra.BigOperators.Group.Finset.Basic
import Mathlib.Data.Multiset.Basic

set_option autoImplicit false

namespace CppPractice.WorkStealingThreadPool

-- Where a worker neither has a task, nor is about to notify, nor waits.
def WorkerPc.Plain : WorkerPc → Prop
  | .running _ => False
  | .ran _ => False
  | .notifying => False
  | .blocking => False
  | .blocked => False
  | _ => True

def WorkerPc.HoldsCv : WorkerPc → Prop
  | .testingStop => True
  | .testingPending => True
  | .blocking => True
  | .leaving => True
  | _ => False

variable {c : Config}

inductive CvMove (s : State c) (w : Fin c.workers) (old pc : WorkerPc) :
    Option (Fin c.workers) → Prop where
  | keep (held : pc.HoldsCv ↔ old.HoldsCv) : CvMove s w old pc s.cvOwner
  | lock (unlocked : s.cvOwner = none) (holds : pc.HoldsCv) : CvMove s w old pc (some w)
  | unlock (held : old.HoldsCv) (drops : ¬pc.HoldsCv) : CvMove s w old pc none

structure Goes (s : State c) (old pc : WorkerPc) : Prop where
  inside : old ≠ .exited
  leaves : pc = .exited → s.stop = true
  offset : ∀ next, pc = .stealing next → next < c.workers ∧
    (next = 1 ∨ ∃ offset, old = .stealing offset ∧ next = offset + 1)

inductive Takes (s : State c) (w : Fin c.workers) :
    WorkerAction → WorkerPc → Fin c.workers → Task → List Task → Prop where
  | front {task : Task} {rest : List Task} (there : s.deques w = task :: rest) :
      Takes s w .popLocal .popping w task rest
  | back {offset : Nat} {task : Task} {rest : List Task}
      (there : s.deques (c.index (w + offset)) = rest ++ [task]) :
      Takes s w (.trySteal true) (.stealing offset) (c.index (w + offset)) task rest

inductive WorkerEffect (s : State c) (w : Fin c.workers) : WorkerAction → State c → Prop where
  -- Only the worker's place in its loop changes, and who holds `cv_m_`.
  | control {action : WorkerAction} {old pc : WorkerPc} {owner : Option (Fin c.workers)}
      (was : s.worker w = old) (before : old.Plain) (after : pc.Plain)
      (cv : CvMove s w old pc owner) (goes : Goes s old pc) :
      WorkerEffect s w action { s.workerAt w pc with cvOwner := owner }
  | take {action : WorkerAction} {old : WorkerPc} {idx : Fin c.workers} {task : Task}
      {rest : List Task} (was : s.worker w = old) (takes : Takes s w action old idx task rest) :
      WorkerEffect s w action
        { s.workerAt w (.running task) with deques := Function.update s.deques idx rest }
  | finish {task : Task} (was : s.worker w = .running task) (idle : s.calls (.inl w) = none) :
      WorkerEffect s w .finish (s.finish w task)
  | decrement {task : Task} (was : s.worker w = .ran task) :
      WorkerEffect s w .decrement (s.decrement w task)
  | notifyIdle (was : s.worker w = .notifying) (unlocked : s.idleOwner = none) :
      WorkerEffect s w .notifyIdle (s.notifyIdle w)
  | sleep (was : s.worker w = .testingPending) (none : s.pending = 0) :
      WorkerEffect s w .testPending (s.workerAt w .blocking)
  | block (was : s.worker w = .blocking) :
      WorkerEffect s w .block { s.workerAt w .blocked with cvOwner := none }
  | wake (was : s.worker w = .blocked) : WorkerEffect s w .wake (s.workerAt w .locking)

theorem WorkerPc.Plain.not_running {pc : WorkerPc} (plain : pc.Plain) : pc.isRunning = false := by
  cases pc with
  | running => exact plain.elim
  | _ => rfl

theorem afterVictim_cases (offset : Nat) :
    (offset < c.workers ∧ c.afterVictim offset = .stealing offset) ∨
      c.afterVictim offset = .locking := by
  unfold Config.afterVictim
  split
  · exact .inl ⟨‹_›, rfl⟩
  · exact .inr rfl

section

variable {s s' : State c} {w : Fin c.workers}

theorem popLocal_cases (s : State c) (w : Fin c.workers) :
    (s.deques w = [] ∧ s.popLocal w = s.workerAt w (c.afterVictim 1)) ∨
      ∃ front rest, s.deques w = front :: rest ∧ s.popLocal w =
        { s.workerAt w (.running front) with deques := Function.update s.deques w rest } := by
  unfold State.popLocal
  cases q : s.deques w with
  | nil => exact .inl ⟨rfl, rfl⟩
  | cons front rest => exact .inr ⟨front, rest, rfl, rfl⟩

theorem trySteal_cases (s : State c) (thief : Fin c.workers) (offset : Nat) (owns_lock : Bool) :
    ((owns_lock = true → s.deques (c.index (thief + offset)) = []) ∧
        s.trySteal thief offset owns_lock = s.workerAt thief (c.afterVictim (offset + 1))) ∨
      ∃ back rest, owns_lock = true ∧ s.deques (c.index (thief + offset)) = rest ++ [back] ∧
        s.trySteal thief offset owns_lock = { s.workerAt thief (.running back) with
          deques := Function.update s.deques (c.index (thief + offset)) rest } := by
  unfold State.trySteal
  dsimp only
  split
  · rename_i back last
    exact .inr ⟨back, _, rfl, (List.dropLast_append_getLast? back last).symm, rfl⟩
  · rename_i none
    refine .inl ⟨fun locked => List.getLast?_eq_none_iff.mp ?_, rfl⟩
    cases last : (s.deques (c.index (thief + offset))).getLast? with
    | none => rfl
    | some back => exact absurd last (none back locked)

theorem searching_effect {action : WorkerAction} {old : WorkerPc} {offset : Nat}
    (was : s.worker w = old) (before : old.Plain) (free : ¬old.HoldsCv) (inside : old ≠ .exited)
    (next : offset = 1 ∨ ∃ last, old = .stealing last ∧ offset = last + 1) :
    WorkerEffect s w action (s.workerAt w (c.afterVictim offset)) := by
  rcases afterVictim_cases (c := c) offset with ⟨small, same⟩ | same <;> rw [same]
  · refine .control was before trivial (.keep (iff_of_false id free)) ⟨inside, by simp, ?_⟩
    rintro _ ⟨⟩
    exact ⟨small, next⟩
  · exact .control was before trivial (.keep (iff_of_false id free)) ⟨inside, by simp, by simp⟩

theorem popLocal_effect (pc : s.worker w = .popping) :
    WorkerEffect s w .popLocal (s.popLocal w) := by
  rcases popLocal_cases s w with ⟨-, same⟩ | ⟨front, rest, there, same⟩ <;> rw [same]
  · exact searching_effect pc trivial id (by simp) (.inl rfl)
  · exact .take pc (.front there)

theorem trySteal_effect {offset : Nat} (pc : s.worker w = .stealing offset) (owns_lock : Bool) :
    WorkerEffect s w (.trySteal owns_lock) (s.trySteal w offset owns_lock) := by
  rcases trySteal_cases s w offset owns_lock with ⟨-, same⟩ | ⟨back, rest, rfl, there, same⟩ <;>
    rw [same]
  · exact searching_effect pc trivial id (by simp) (.inr ⟨offset, rfl, rfl⟩)
  · exact .take pc (.back there)

theorem workerStep_effect {action : WorkerAction} (stepped : workerStep s w action = some s') :
    WorkerEffect s w action s' := by
  unfold workerStep at stepped
  split at stepped
  · rename_i pc
    obtain rfl := Option.some.inj stepped
    split
    · rename_i stop
      exact .control pc trivial trivial (.keep Iff.rfl) ⟨by simp, fun _ => stop, by simp⟩
    · exact .control pc trivial trivial (.keep Iff.rfl) ⟨by simp, by simp, by simp⟩
  · rename_i pc
    obtain rfl := Option.some.inj stepped
    exact popLocal_effect pc
  · rename_i pc
    obtain rfl := Option.some.inj stepped
    exact trySteal_effect pc _
  · rename_i pc
    obtain ⟨idle, same⟩ := Option.ite_none_right_eq_some.mp stepped
    obtain rfl := Option.some.inj same
    exact .finish pc idle
  · rename_i pc
    obtain rfl := Option.some.inj stepped
    exact .decrement pc
  · rename_i pc
    obtain ⟨unlocked, same⟩ := Option.ite_none_right_eq_some.mp stepped
    obtain rfl := Option.some.inj same
    exact .notifyIdle pc unlocked
  · rename_i pc
    obtain ⟨unlocked, same⟩ := Option.ite_none_right_eq_some.mp stepped
    obtain rfl := Option.some.inj same
    exact .control pc trivial trivial (.lock unlocked trivial) ⟨by simp, by simp, by simp⟩
  · rename_i pc
    obtain rfl := Option.some.inj stepped
    split <;> exact .control pc trivial trivial (.keep Iff.rfl) ⟨by simp, by simp, by simp⟩
  · rename_i pc
    obtain rfl := Option.some.inj stepped
    split
    · exact .control pc trivial trivial (.keep Iff.rfl) ⟨by simp, by simp, by simp⟩
    · rename_i none
      exact .sleep pc (BitVec.le_zero_iff.mp (BitVec.not_lt.mp none))
  · rename_i pc
    obtain rfl := Option.some.inj stepped
    exact .block pc
  · rename_i pc
    obtain rfl := Option.some.inj stepped
    exact .wake pc
  · rename_i pc
    obtain rfl := Option.some.inj stepped
    exact .control pc trivial trivial (.unlock trivial id) ⟨by simp, by simp, by simp⟩
  · exact absurd stepped (by simp)

namespace Takes

variable {action : WorkerAction} {old : WorkerPc} {idx : Fin c.workers} {task : Task}
variable {rest : List Task}

theorem plain (takes : Takes s w action old idx task rest) : old.Plain := by
  cases takes <;> trivial

theorem free (takes : Takes s w action old idx task rest) : ¬old.HoldsCv := by
  cases takes <;> exact id

theorem inside (takes : Takes s w action old idx task rest) : old ≠ .exited := by
  cases takes <;> simp

theorem there (takes : Takes s w action old idx task rest) :
    (s.deques idx : Multiset Task) = {task} + (rest : Multiset Task) := by
  cases takes with
  | front there => rw [there, ← Multiset.cons_coe, Multiset.singleton_add]
  | back there =>
    rw [there, ← Multiset.coe_singleton, Multiset.coe_add, Multiset.coe_eq_coe]
    exact List.perm_append_comm

theorem shorter (takes : Takes s w action old idx task rest) (v : Fin c.workers) :
    (Function.update s.deques idx rest v).Sublist (s.deques v) := by
  by_cases here : v = idx
  · rw [here, Function.update_self]
    cases takes with
    | front there => exact there ▸ List.sublist_cons_self task rest
    | back there => exact there ▸ List.sublist_append_left rest [task]
  · rw [Function.update_of_ne here]

end Takes

structure Worked (s s' : State c) (w : Fin c.workers) (pc : WorkerPc) : Prop where
  worker : s'.worker = Function.update s.worker w pc
  calls : s'.calls = s.calls
  stop : s'.stop = s.stop
  pushed : s'.pushed = s.pushed
  shorter : ∀ v, (s'.deques v).Sublist (s.deques v)
  client : s'.client = s.client ∨ s'.client = fun i => (s.client i).woken
  ends : (s.worker w).isRunning = true → s.calls (.inl w) = none
  cv : CvMove s w (s.worker w) pc s'.cvOwner
  goes : Goes s (s.worker w) pc

theorem WorkerEffect.worked {action : WorkerAction} (effect : WorkerEffect s w action s') :
    ∃ pc, Worked s s' w pc := by
  have keep (v : Fin c.workers) : (s.deques v).Sublist (s.deques v) := List.Sublist.refl _
  have still {old : WorkerPc} {P : Prop} (was : s.worker w = old) (still : old.isRunning = false)
      (running : (s.worker w).isRunning = true) : P := by
    rw [was, still] at running
    cases running
  cases effect with
  | control was before after cv goes =>
    exact ⟨_, rfl, rfl, rfl, rfl, keep, .inl rfl, still was before.not_running,
      by rw [was]; exact cv, by rw [was]; exact goes⟩
  | take was takes =>
    exact ⟨_, rfl, rfl, rfl, rfl, takes.shorter, .inl rfl, still was takes.plain.not_running,
      .keep (by rw [was]; exact iff_of_false id takes.free),
      by rw [was]; exact takes.inside, by simp, by simp⟩
  | finish was idle =>
    exact ⟨_, rfl, rfl, rfl, rfl, keep, .inl rfl, fun _ => idle, .keep (by rw [was]; exact Iff.rfl),
      by rw [was]; simp, by simp, by simp⟩
  | decrement was =>
    exact ⟨_, rfl, rfl, rfl, rfl, keep, .inl rfl, still was rfl,
      .keep (by rw [was]; split <;> exact Iff.rfl), by rw [was]; simp, by split <;> simp,
      by split <;> simp⟩
  | notifyIdle was unlocked =>
    exact ⟨_, rfl, rfl, rfl, rfl, keep, .inr rfl, still was rfl, .keep (by rw [was]; exact Iff.rfl),
      by rw [was]; simp, by simp, by simp⟩
  | sleep was none =>
    exact ⟨_, rfl, rfl, rfl, rfl, keep, .inl rfl, still was rfl, .keep (by rw [was]; exact Iff.rfl),
      by rw [was]; simp, by simp, by simp⟩
  | block was =>
    exact ⟨_, rfl, rfl, rfl, rfl, keep, .inl rfl, still was rfl,
      .unlock (by rw [was]; trivial) id, by rw [was]; simp, by simp, by simp⟩
  | wake was =>
    exact ⟨_, rfl, rfl, rfl, rfl, keep, .inl rfl, still was rfl, .keep (by rw [was]; exact Iff.rfl),
      by rw [was]; simp, by simp, by simp⟩

end

inductive CallEffect (s : State c) (thread : Thread c) : SubmitAction c → State c → Prop where
  | start (was : s.calls thread = none) (free : s.mayCall thread = true) :
      CallEffect s thread .start { s.callAt thread (some (.placing s.rr)) with rr := s.rr + 1 }
  | fail {ticket : BitVec 64} (was : s.calls thread = some (.placing ticket)) :
      CallEffect s thread .fail (s.callAt thread none)
  | push {ticket : BitVec 64} (was : s.calls thread = some (.placing ticket))
      (room : s.pushed < s.decremented.length + c.memory) :
      CallEffect s thread .push (s.push thread ticket)
  | count {task : Task} (was : s.calls thread = some (.pushed task)) :
      CallEffect s thread .count (s.count thread task)
  | notify {task : Task} {woken : Option (Fin c.workers)}
      (was : s.calls thread = some (.counted task)) (wakes : s.Wakes woken) :
      CallEffect s thread (.notify woken) (s.notify thread task woken)

theorem submitStep_effect {s s' : State c} {thread : Thread c} {action : SubmitAction c}
    (stepped : submitStep s thread action = some s') : CallEffect s thread action s' := by
  unfold submitStep at stepped
  split at stepped
  · rename_i pc
    obtain ⟨free, same⟩ := Option.ite_none_right_eq_some.mp stepped
    obtain rfl := Option.some.inj same
    exact .start pc free
  · rename_i pc
    obtain ⟨room, same⟩ := Option.ite_none_right_eq_some.mp stepped
    obtain rfl := Option.some.inj same
    exact .push pc room
  · rename_i pc
    obtain rfl := Option.some.inj stepped
    exact .fail pc
  · rename_i pc
    obtain rfl := Option.some.inj stepped
    exact .count pc
  · rename_i pc
    obtain ⟨wakes, same⟩ := Option.ite_none_right_eq_some.mp stepped
    obtain rfl := Option.some.inj same
    exact .notify pc wakes
  · exact absurd stepped (by simp)

inductive ClientEffect (s : State c) (i : Fin c.clients) : ClientAction → State c → Prop where
  | wait (was : s.client i = .idle) :
      ClientEffect s i .wait (s.clientAt i (.waiting .client s.returned .locking))
  | destroy (was : s.client i = .idle) (first : s.destroying = false) :
      ClientEffect s i .destroy
        { s.clientAt i (.waiting .destructor s.returned .locking) with destroying := true }
  | lock {caller : Caller} {submitted : List Task}
      (was : s.client i = .waiting caller submitted .locking) (unlocked : s.idleOwner = none) :
      ClientEffect s i .lock
        { s.clientAt i (.waiting caller submitted .testing) with idleOwner := some i }
  | test {caller : Caller} {submitted : List Task}
      (was : s.client i = .waiting caller submitted .testing) :
      ClientEffect s i .test
        (s.clientAt i (.waiting caller submitted (if s.pending = 0 then .leaving else .blocking)))
  | block {caller : Caller} {submitted : List Task}
      (was : s.client i = .waiting caller submitted .blocking) :
      ClientEffect s i .block
        { s.clientAt i (.waiting caller submitted .blocked) with idleOwner := none }
  | wake {caller : Caller} {submitted : List Task}
      (was : s.client i = .waiting caller submitted .blocked) :
      ClientEffect s i .wake (s.clientAt i (.waiting caller submitted .locking))
  | leave {caller : Caller} {submitted : List Task}
      (was : s.client i = .waiting caller submitted .leaving) :
      ClientEffect s i .leave
        { s.clientAt i (match caller with | .client => .idle | .destructor => .stopping) with
          idleOwner := none }
  | storeStop (was : s.client i = .stopping) :
      ClientEffect s i .storeStop { s.clientAt i .notifying with stop := true }
  | notifyAll (was : s.client i = .notifying) :
      ClientEffect s i .notifyAll
        { s.clientAt i (.joining 0) with worker := fun w => (s.worker w).woken }
  | join {idx : Nat} {pc : ClientPc} (was : s.client i = .joining idx)
      (after : pc = .joining (idx + 1) ∨ pc = .destroyed) :
      ClientEffect s i .join (s.clientAt i pc)

theorem clientStep_effect {s s' : State c} {i : Fin c.clients} {action : ClientAction}
    (stepped : clientStep s i action = some s') : ClientEffect s i action s' := by
  unfold clientStep at stepped
  split at stepped
  · rename_i pc
    obtain ⟨-, same⟩ := Option.ite_none_right_eq_some.mp stepped
    obtain rfl := Option.some.inj same
    exact .wait pc
  · rename_i pc
    obtain ⟨⟨-, first⟩, same⟩ := Option.ite_none_right_eq_some.mp stepped
    obtain rfl := Option.some.inj same
    exact .destroy pc first
  · rename_i pc
    obtain ⟨unlocked, same⟩ := Option.ite_none_right_eq_some.mp stepped
    obtain rfl := Option.some.inj same
    exact .lock pc unlocked
  · rename_i pc
    obtain rfl := Option.some.inj stepped
    exact .test pc
  · rename_i pc
    obtain rfl := Option.some.inj stepped
    exact .block pc
  · rename_i pc
    obtain rfl := Option.some.inj stepped
    exact .wake pc
  · rename_i pc
    obtain rfl := Option.some.inj stepped
    exact .leave pc
  · rename_i pc
    obtain rfl := Option.some.inj stepped
    exact .leave pc
  · rename_i pc
    obtain rfl := Option.some.inj stepped
    exact .storeStop pc
  · rename_i pc
    obtain rfl := Option.some.inj stepped
    exact .notifyAll pc
  · rename_i pc
    split at stepped
    · obtain ⟨-, same⟩ := Option.ite_none_right_eq_some.mp stepped
      obtain rfl := Option.some.inj same
      exact .join pc (Or.inl rfl)
    · obtain rfl := Option.some.inj stepped
      exact .join pc (Or.inr rfl)
  · exact absurd stepped (by simp)

theorem step_effects {P : State c → Action c → State c → Prop} {s s' : State c} {action : Action c}
    {reply : Unit}
    (worker : ∀ w action s', WorkerEffect s w action s' → P s (.worker w action) s')
    (submit : ∀ thread action s', CallEffect s thread action s' → P s (.submit thread action) s')
    (client : ∀ i action s', ClientEffect s i action s' → P s (.client i action) s')
    (stepped : step s action = some (s', reply)) : P s action s' := by
  obtain ⟨t, moved, same⟩ := Option.map_eq_some_iff.mp stepped
  obtain ⟨rfl, -⟩ := Prod.mk.inj same
  cases action with
  | worker w action => exact worker w action t (workerStep_effect moved)
  | submit thread action => exact submit thread action t (submitStep_effect moved)
  | client i action => exact client i action t (clientStep_effect moved)

end CppPractice.WorkStealingThreadPool
