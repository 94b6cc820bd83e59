import CppPractice.Pool.Effects
import CppPractice.Shared.Tally
import Mathlib.Data.Multiset.Range

set_option autoImplicit false

namespace CppPractice.WorkStealingThreadPool

variable {c : Config}

-- The task that a worker runs, and the one that it has run but not counted down.
def WorkerPc.runs : WorkerPc → Multiset Task
  | .running task => {task}
  | _ => 0

def WorkerPc.owes : WorkerPc → Multiset Task
  | .ran task => {task}
  | _ => 0

def WorkerPc.Free (pc : WorkerPc) : Prop := pc.runs = 0 ∧ pc.owes = 0

def uncounted : Option SubmitPc → Multiset Task
  | some (.pushed task) => {task}
  | _ => 0

section

variable (task : Task)

@[simp] theorem running_runs : (WorkerPc.running task).runs = {task} := rfl
@[simp] theorem running_owes : (WorkerPc.running task).owes = 0 := rfl
@[simp] theorem ran_runs : (WorkerPc.ran task).runs = 0 := rfl
@[simp] theorem ran_owes : (WorkerPc.ran task).owes = {task} := rfl

theorem WorkerPc.Plain.free {pc : WorkerPc} (plain : pc.Plain) : pc.Free := by
  cases pc with
  | running task => exact plain.elim
  | ran task => exact plain.elim
  | _ => exact ⟨rfl, rfl⟩

theorem woken_tasks (pc : WorkerPc) : pc.woken.runs = pc.runs ∧ pc.woken.owes = pc.owes := by
  cases pc <;> exact ⟨rfl, rfl⟩

@[simp] theorem placing_uncounted (ticket : BitVec 64) :
    uncounted (some (.placing ticket)) = 0 := rfl
@[simp] theorem pushed_uncounted : uncounted (some (.pushed task)) = {task} := rfl
@[simp] theorem counted_uncounted : uncounted (some (.counted task)) = 0 := rfl

end

namespace State

variable (s : State c)

def queued : Multiset Task := ∑ w, (s.deques w : Multiset Task)

def running : Multiset Task := ∑ w, (s.worker w).runs

def owed : Multiset Task := ∑ w, (s.worker w).owes

def early : Multiset Task := ∑ thread, uncounted (s.calls thread)

end State

structure Ledger (s : State c) : Prop where
  places : s.queued + s.running + (s.finished : Multiset Task) = Multiset.range s.pushed
  finished : s.owed + (s.decremented : Multiset Task) = s.finished
  counted : s.early + (s.counted : Multiset Task) = Multiset.range s.pushed
  pending : s.pending + BitVec.ofNat 64 s.decremented.length = BitVec.ofNat 64 s.counted.length
  room : s.pushed ≤ s.decremented.length + c.memory

theorem init_ledger (c : Config) : Ledger (State.init c) where
  places := by simp [State.init, State.queued, State.running, WorkerPc.runs]
  finished := by simp [State.init, State.owed, WorkerPc.owes]
  counted := by simp [State.init, State.early, uncounted]
  pending := rfl
  room := Nat.zero_le _

structure SameTasks (s s' : State c) : Prop where
  deques : s'.deques = s.deques
  pending : s'.pending = s.pending
  pushed : s'.pushed = s.pushed
  counted : s'.counted = s.counted
  finished : s'.finished = s.finished
  decremented : s'.decremented = s.decremented

section

variable {s s' : State c}

theorem running_update (s s' : State c) {w : Fin c.workers} {pc : WorkerPc}
    (moved : s'.worker = Function.update s.worker w pc) :
    s'.running + (s.worker w).runs = s.running + pc.runs := by
  rw [State.running, moved]
  exact Tally.sum_update WorkerPc.runs s.worker w pc

theorem owed_update (s s' : State c) {w : Fin c.workers} {pc : WorkerPc}
    (moved : s'.worker = Function.update s.worker w pc) :
    s'.owed + (s.worker w).owes = s.owed + pc.owes := by
  rw [State.owed, moved]
  exact Tally.sum_update WorkerPc.owes s.worker w pc

theorem queued_update (s s' : State c) {w : Fin c.workers} {q : List Task}
    (moved : s'.deques = Function.update s.deques w q) :
    s'.queued + (s.deques w : Multiset Task) = s.queued + q := by
  rw [State.queued, moved]
  exact Tally.sum_update (fun q : List Task => (q : Multiset Task)) s.deques w q

theorem early_update (s s' : State c) (thread : Thread c) {pc : Option SubmitPc}
    (moved : s'.calls = Function.update s.calls thread pc) :
    s'.early + uncounted (s.calls thread) = s.early + uncounted pc := by
  rw [State.early, moved]
  exact Tally.sum_update uncounted s.calls thread pc

namespace Ledger

variable (ledger : Ledger s)

include ledger

theorem same (same : SameTasks s s') (running : s'.running = s.running) (owed : s'.owed = s.owed)
    (early : s'.early = s.early) : Ledger s' where
  places := by
    rw [State.queued, same.deques, running, same.finished, same.pushed]
    exact ledger.places
  finished := by
    rw [owed, same.decremented, same.finished]
    exact ledger.finished
  counted := by
    rw [early, same.counted, same.pushed]
    exact ledger.counted
  pending := by
    rw [same.pending, same.decremented, same.counted]
    exact ledger.pending
  room := by
    rw [same.pushed, same.decremented]
    exact ledger.room

theorem worker {w : Fin c.workers} {old pc : WorkerPc} (was : s.worker w = old)
    (before : old.Free) (after : pc.Free) (moved : s'.worker = Function.update s.worker w pc)
    (same : SameTasks s s') (calls : s'.calls = s.calls) : Ledger s' := by
  have running := running_update s s' moved
  have owed := owed_update s s' moved
  rw [was, before.1, after.1, add_zero, add_zero] at running
  rw [was, before.2, after.2, add_zero, add_zero] at owed
  exact ledger.same same running owed (by rw [State.early, State.early, calls])

theorem caller (thread : Thread c) (pc : Option SubmitPc) (same : SameTasks s s')
    (moved : s'.calls = Function.update s.calls thread pc)
    (workers : ∀ w, (s'.worker w).runs = (s.worker w).runs ∧ (s'.worker w).owes = (s.worker w).owes)
    (uncounted_eq : uncounted (s.calls thread) = uncounted pc) : Ledger s' := by
  have early := early_update s s' thread moved
  rw [uncounted_eq, add_left_inj] at early
  exact ledger.same same (Finset.sum_congr rfl fun w _ => (workers w).1)
    (Finset.sum_congr rfl fun w _ => (workers w).2) early

theorem client (same : SameTasks s s') (calls : s'.calls = s.calls)
    (workers : ∀ w, (s'.worker w).runs = (s.worker w).runs ∧ (s'.worker w).owes = (s.worker w).owes) :
    Ledger s' :=
  ledger.same same (Finset.sum_congr rfl fun w _ => (workers w).1)
    (Finset.sum_congr rfl fun w _ => (workers w).2) (by rw [State.early, State.early, calls])

theorem take {w idx : Fin c.workers} {task : Task} {rest : List Task}
    (free : (s.worker w).Free)
    (there : (s.deques idx : Multiset Task) = {task} + (rest : Multiset Task)) :
    Ledger { s.workerAt w (.running task) with deques := Function.update s.deques idx rest } := by
  let s' : State c := { s.workerAt w (.running task) with
    deques := Function.update s.deques idx rest }
  have running : s'.running = s.running + {task} := by
    have moved := running_update s s' (w := w) rfl
    rwa [free.1, add_zero] at moved
  have owed : s'.owed = s.owed := by
    have moved := owed_update s s' (w := w) rfl
    rwa [free.2, running_owes, add_zero, add_zero] at moved
  have queued : s'.queued + {task} = s.queued := by
    have moved := queued_update s s' (w := idx) rfl
    rwa [there, ← add_assoc, add_left_inj] at moved
  constructor
  · rw [running, ← add_assoc, add_right_comm s'.queued, queued]
    exact ledger.places
  · rw [owed]
    exact ledger.finished
  · exact ledger.counted
  · exact ledger.pending
  · exact ledger.room

theorem finish {w : Fin c.workers} {task : Task} (pc : s.worker w = .running task) :
    Ledger (s.finish w task) := by
  have running : (s.finish w task).running + {task} = s.running := by
    have moved := running_update s (s.finish w task) (w := w) rfl
    rwa [pc, running_runs, ran_runs, add_zero] at moved
  have owed : (s.finish w task).owed = s.owed + {task} := by
    have moved := owed_update s (s.finish w task) (w := w) rfl
    rwa [pc, running_owes, ran_owes, add_zero] at moved
  have grown : ((s.finish w task).finished : Multiset Task) = {task} + s.finished := by
    rw [State.finish, ← Multiset.coe_add, add_comm, Multiset.coe_singleton]
  constructor
  · rw [grown, ← add_assoc, add_assoc (s.finish w task).queued, running]
    exact ledger.places
  · rw [grown, owed, add_comm s.owed, add_assoc]
    exact congrArg _ ledger.finished
  · exact ledger.counted
  · exact ledger.pending
  · exact ledger.room

theorem decrement {w : Fin c.workers} {task : Task} (pc : s.worker w = .ran task) :
    Ledger (s.decrement w task) := by
  have after : (if s.pending - 1 = 0 then WorkerPc.notifying else .top).Free := by
    split <;> exact ⟨rfl, rfl⟩
  have running : (s.decrement w task).running = s.running := by
    have moved := running_update s (s.decrement w task) (w := w) rfl
    rwa [pc, ran_runs, after.1, add_zero, add_zero] at moved
  have owed : (s.decrement w task).owed + {task} = s.owed := by
    have moved := owed_update s (s.decrement w task) (w := w) rfl
    rwa [pc, ran_owes, after.2, add_zero] at moved
  have grown : ((s.decrement w task).decremented : Multiset Task) = {task} + s.decremented := by
    rw [State.decrement, ← Multiset.coe_add, add_comm, Multiset.coe_singleton]
  have length : (s.decrement w task).decremented.length = s.decremented.length + 1 :=
    List.length_append
  constructor
  · rw [running]
    exact ledger.places
  · rw [grown, ← add_assoc, owed]
    exact ledger.finished
  · exact ledger.counted
  · rw [length, BitVec.ofNat_add, BitVec.add_comm (BitVec.ofNat 64 _), ← BitVec.add_assoc]
    exact (congrArg (· + _) (BitVec.sub_add_cancel s.pending 1)).trans ledger.pending
  · rw [length]
    exact le_trans ledger.room (by omega)

theorem push {thread : Thread c} {ticket : BitVec 64} (pc : s.calls thread = some (.placing ticket))
    (room : s.pushed < s.decremented.length + c.memory) : Ledger (s.push thread ticket) := by
  have queued : (s.push thread ticket).queued = {s.pushed} + s.queued := by
    have moved := queued_update s (s.push thread ticket) (w := c.index ticket.toNat) rfl
    rw [← Multiset.cons_coe, ← Multiset.singleton_add, ← add_assoc, add_left_inj] at moved
    rw [moved, add_comm]
  have early : (s.push thread ticket).early = {s.pushed} + s.early := by
    have moved := early_update s (s.push thread ticket) thread rfl
    rwa [pc, placing_uncounted, pushed_uncounted, add_zero, add_comm] at moved
  have grown : Multiset.range (s.push thread ticket).pushed =
      {s.pushed} + Multiset.range s.pushed := by
    rw [State.push, Multiset.range_succ, Multiset.singleton_add]
  constructor
  · rw [grown, queued, add_assoc, add_assoc, ← add_assoc s.queued]
    exact congrArg _ ledger.places
  · exact ledger.finished
  · rw [grown, early, add_assoc]
    exact congrArg _ ledger.counted
  · exact ledger.pending
  · exact room

theorem count {thread : Thread c} {task : Task} (pc : s.calls thread = some (.pushed task)) :
    Ledger (s.count thread task) := by
  have early : (s.count thread task).early + {task} = s.early := by
    have moved := early_update s (s.count thread task) thread rfl
    rwa [pc, pushed_uncounted, counted_uncounted, add_zero] at moved
  have grown : ((s.count thread task).counted : Multiset Task) = {task} + s.counted := by
    rw [State.count, ← Multiset.coe_add, add_comm, Multiset.coe_singleton]
  have length : (s.count thread task).counted.length = s.counted.length + 1 := List.length_append
  constructor
  · exact ledger.places
  · exact ledger.finished
  · rw [grown, ← add_assoc, early]
    exact ledger.counted
  · rw [length, BitVec.ofNat_add, ← ledger.pending, BitVec.add_assoc,
      BitVec.add_comm (BitVec.ofNat 64 s.decremented.length), ← BitVec.add_assoc]
    rfl
  · exact ledger.room

theorem notify {thread : Thread c} {task : Task} {woken : Option (Fin c.workers)}
    (pc : s.calls thread = some (.counted task)) (wakes : s.Wakes woken) :
    Ledger (s.notify thread task woken) := by
  refine ledger.caller thread none ⟨rfl, rfl, rfl, rfl, rfl, rfl⟩ rfl ?_ (by rw [pc]; rfl)
  intro w
  cases woken with
  | none => exact ⟨rfl, rfl⟩
  | some v =>
    simp only [State.notify, Option.elim_some, Function.update_apply]
    split
    · rename_i here
      have blocked : s.worker w = .blocked := by
        rw [here]
        exact wakes
      rw [blocked]
      exact ⟨rfl, rfl⟩
    · exact ⟨rfl, rfl⟩

end Ledger

theorem step_ledger {action : Action c} {reply : Unit} (ledger : Ledger s)
    (stepped : step s action = some (s', reply)) : Ledger s' := by
  refine step_effects (P := fun _ _ s' => Ledger s') ?_ ?_ ?_ stepped
  · intro w action s' effect
    cases effect with
    | control was before after _ =>
      exact ledger.worker was before.free after.free rfl ⟨rfl, rfl, rfl, rfl, rfl, rfl⟩ rfl
    | take was takes => exact ledger.take (by rw [was]; exact takes.plain.free) takes.there
    | finish was => exact ledger.finish was
    | decrement was => exact ledger.decrement was
    | notifyIdle was unlocked =>
      exact ledger.worker was ⟨rfl, rfl⟩ ⟨rfl, rfl⟩ rfl ⟨rfl, rfl, rfl, rfl, rfl, rfl⟩ rfl
    | sleep was none =>
      exact ledger.worker was ⟨rfl, rfl⟩ ⟨rfl, rfl⟩ rfl ⟨rfl, rfl, rfl, rfl, rfl, rfl⟩ rfl
    | block was =>
      exact ledger.worker was ⟨rfl, rfl⟩ ⟨rfl, rfl⟩ rfl ⟨rfl, rfl, rfl, rfl, rfl, rfl⟩ rfl
    | wake was =>
      exact ledger.worker was ⟨rfl, rfl⟩ ⟨rfl, rfl⟩ rfl ⟨rfl, rfl, rfl, rfl, rfl, rfl⟩ rfl
  · intro thread action s' effect
    cases effect with
    | start was free =>
      exact ledger.caller thread _ ⟨rfl, rfl, rfl, rfl, rfl, rfl⟩ rfl (fun _ => ⟨rfl, rfl⟩)
        (by rw [was]; rfl)
    | fail was =>
      exact ledger.caller thread _ ⟨rfl, rfl, rfl, rfl, rfl, rfl⟩ rfl (fun _ => ⟨rfl, rfl⟩)
        (by rw [was]; rfl)
    | push was room => exact ledger.push was room
    | count was => exact ledger.count was
    | notify was wakes => exact ledger.notify was wakes
  · intro i action s' effect
    cases effect with
    | notifyAll was =>
      exact ledger.client ⟨rfl, rfl, rfl, rfl, rfl, rfl⟩ rfl fun w => woken_tasks (s.worker w)
    | _ => exact ledger.client ⟨rfl, rfl, rfl, rfl, rfl, rfl⟩ rfl fun _ => ⟨rfl, rfl⟩

end

theorem run_ledger {actions : List (Action c)} {s : State c} {log : List (Action c × Unit)}
    (ran : Runs.run step (State.init c) actions = some (s, log)) : Ledger s :=
  Runs.run_induction (P := fun _ s => Ledger s) (init_ledger c)
    (fun _ _ _ _ _ _ _ ledger stepped => step_ledger ledger stepped) ran

end CppPractice.WorkStealingThreadPool
