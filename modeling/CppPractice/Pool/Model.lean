import CppPractice.Shared.Runs
import Mathlib.Data.Fintype.Sum
import Mathlib.Logic.Function.Basic

set_option autoImplicit false

namespace CppPractice.WorkStealingThreadPool

structure Config where
  -- `workers_.size()`; the constructor never makes it 0.
  workers : Nat
  someWorker : 0 < workers
  -- The threads outside the pool.
  clients : Nat
  -- How many tasks fit in memory at a time, each at an address of its own.
  memory : Nat
  addressable : memory < 2 ^ 64

def Config.index (c : Config) (k : Nat) : Fin c.workers := ⟨k % c.workers, Nat.mod_lt k c.someWorker⟩

-- Tasks are numbered as they are pushed.
abbrev Task := Nat

inductive SubmitPc where
  -- `rr_` has been read, the task is not yet in a deque.
  | placing (ticket : BitVec 64)
  | pushed (task : Task)
  -- `pending_` has been incremented, `cv_` not yet notified.
  | counted (task : Task)
  deriving DecidableEq

inductive WorkerPc where
  | top
  | popping
  | stealing (offset : Nat)
  | running (task : Task)
  -- The task has returned, `pending_` is not yet decremented.
  | ran (task : Task)
  -- The decrement gave 0, `idle_cv_` is not yet notified.
  | notifying
  -- Before `cv_m_` is taken, for the first time or after a notification.
  | locking
  | testingStop
  | testingPending
  -- The predicate was false and `cv_m_` is still held.
  | blocking
  | blocked
  | leaving
  | exited
  deriving DecidableEq

inductive WaitPc where
  | locking
  | testing
  | blocking
  | blocked
  | leaving
  deriving DecidableEq

inductive Caller where
  | client
  | destructor
  deriving DecidableEq

inductive ClientPc where
  | idle
  -- In `wait_idle`; `submitted` are the tasks whose `submit` had returned before the call.
  | waiting (caller : Caller) (submitted : List Task) (pc : WaitPc)
  -- The rest of the destructor.
  | stopping
  | notifying
  | joining (idx : Nat)
  | destroyed
  deriving DecidableEq

abbrev Thread (c : Config) := Fin c.workers ⊕ Fin c.clients

-- An atomic operation is a step, and so is a critical section of a deque's mutex. Around a
-- condition variable each load of the predicate, blocking and leaving are steps of their own,
-- since a notification reaches only the threads that are already blocked.
structure State (c : Config) where
  deques : Fin c.workers → List Task
  stop : Bool
  pending : BitVec 64
  rr : BitVec 64
  cvOwner : Option (Fin c.workers)
  idleOwner : Option (Fin c.clients)
  worker : Fin c.workers → WorkerPc
  client : Fin c.clients → ClientPc
  -- The `submit` call that each thread is in.
  calls : Thread c → Option SubmitPc
  destroying : Bool
  -- How many tasks were pushed, and which of them were counted, returned from, finished
  -- and counted down.
  pushed : Nat
  counted : List Task
  returned : List Task
  finished : List Task
  decremented : List Task

def State.init (c : Config) : State c where
  deques := fun _ => []
  stop := false
  pending := 0
  rr := 0
  cvOwner := none
  idleOwner := none
  worker := fun _ => .top
  client := fun _ => .idle
  calls := fun _ => none
  destroying := false
  pushed := 0
  counted := []
  returned := []
  finished := []
  decremented := []

inductive WorkerAction where
  | loadStop
  | popLocal
  | trySteal (owns_lock : Bool)
  | finish
  | decrement
  | notifyIdle
  | lock
  | testStop
  | testPending
  | block
  | wake
  | leave
  deriving DecidableEq

inductive SubmitAction (c : Config) where
  | start
  | push
  | fail
  | count
  | notify (woken : Option (Fin c.workers))
  deriving DecidableEq

inductive ClientAction where
  | wait
  | destroy
  | lock
  | test
  | block
  | wake
  | leave
  | storeStop
  | notifyAll
  | join
  deriving DecidableEq

inductive Action (c : Config) where
  | worker (w : Fin c.workers) (action : WorkerAction)
  | submit (thread : Thread c) (action : SubmitAction c)
  | client (i : Fin c.clients) (action : ClientAction)
  deriving DecidableEq

def WorkerPc.woken : WorkerPc → WorkerPc
  | .blocked => .locking
  | pc => pc

def WorkerPc.isRunning : WorkerPc → Bool
  | .running _ => true
  | _ => false

def ClientPc.woken : ClientPc → ClientPc
  | .waiting caller submitted .blocked => .waiting caller submitted .locking
  | pc => pc

-- The next victim, or `cv_.wait` when all have been tried.
def Config.afterVictim (c : Config) (offset : Nat) : WorkerPc :=
  if offset < c.workers then .stealing offset else .locking

variable {c : Config}

namespace State

variable (s : State c)

def workerAt (w : Fin c.workers) (pc : WorkerPc) : State c :=
  { s with worker := Function.update s.worker w pc }

def clientAt (i : Fin c.clients) (pc : ClientPc) : State c :=
  { s with client := Function.update s.client i pc }

def callAt (thread : Thread c) (pc : Option SubmitPc) : State c :=
  { s with calls := Function.update s.calls thread pc }

def popLocal (idx : Fin c.workers) : State c :=
  match s.deques idx with
  | [] => s.workerAt idx (c.afterVictim 1)
  | front :: rest =>
    { s.workerAt idx (.running front) with deques := Function.update s.deques idx rest }

def trySteal (thief : Fin c.workers) (offset : Nat) (owns_lock : Bool) : State c :=
  let victim := c.index (thief + offset)
  match owns_lock, (s.deques victim).getLast? with
  | true, some back =>
    { s.workerAt thief (.running back) with
      deques := Function.update s.deques victim (s.deques victim).dropLast }
  | _, _ => s.workerAt thief (c.afterVictim (offset + 1))

-- `std::packaged_task` runs the callable and lets no exception out.
def finish (w : Fin c.workers) (task : Task) : State c :=
  { s.workerAt w (.ran task) with finished := s.finished ++ [task] }

def decrement (w : Fin c.workers) (task : Task) : State c :=
  let remaining := s.pending - 1
  { s.workerAt w (if remaining = 0 then .notifying else .top) with
    pending := remaining
    decremented := s.decremented ++ [task] }

def notifyIdle (w : Fin c.workers) : State c :=
  { s.workerAt w .top with client := fun i => (s.client i).woken }

def push (thread : Thread c) (ticket : BitVec 64) : State c :=
  let idx := c.index ticket.toNat
  { s.callAt thread (some (.pushed s.pushed)) with
    deques := Function.update s.deques idx (s.pushed :: s.deques idx)
    pushed := s.pushed + 1 }

def count (thread : Thread c) (task : Task) : State c :=
  { s.callAt thread (some (.counted task)) with
    pending := s.pending + 1
    counted := s.counted ++ [task] }

-- `notify_one` wakes a blocked worker if there is one; then `submit` returns.
def Wakes (woken : Option (Fin c.workers)) : Prop :=
  match woken with
  | some w => s.worker w = .blocked
  | none => ∀ w, s.worker w ≠ .blocked

instance : (woken : Option (Fin c.workers)) → Decidable (s.Wakes woken)
  | some w => inferInstanceAs (Decidable (s.worker w = .blocked))
  | none => inferInstanceAs (Decidable (∀ w, s.worker w ≠ .blocked))

def notify (thread : Thread c) (task : Task) (woken : Option (Fin c.workers)) : State c :=
  { s.callAt thread none with
    worker := woken.elim s.worker fun w => Function.update s.worker w .locking
    returned := s.returned ++ [task] }

def mayCall (thread : Thread c) : Bool :=
  match thread with
  | .inl w => (s.worker w).isRunning
  | .inr i => decide (s.client i = .idle)

end State

def workerStep (s : State c) (w : Fin c.workers) (action : WorkerAction) : Option (State c) :=
  match action, s.worker w with
  | .loadStop, .top => some (s.workerAt w (if s.stop then .exited else .popping))
  | .popLocal, .popping => some (s.popLocal w)
  | .trySteal owns_lock, .stealing offset => some (s.trySteal w offset owns_lock)
  | .finish, .running task => if s.calls (.inl w) = none then some (s.finish w task) else none
  | .decrement, .ran task => some (s.decrement w task)
  | .notifyIdle, .notifying => if s.idleOwner = none then some (s.notifyIdle w) else none
  | .lock, .locking =>
    if s.cvOwner = none then some { s.workerAt w .testingStop with cvOwner := some w } else none
  | .testStop, .testingStop => some (s.workerAt w (if s.stop then .leaving else .testingPending))
  | .testPending, .testingPending =>
    some (s.workerAt w (if s.pending > 0 then .leaving else .blocking))
  | .block, .blocking => some { s.workerAt w .blocked with cvOwner := none }
  -- A wakeup without a notification.
  | .wake, .blocked => some (s.workerAt w .locking)
  | .leave, .leaving => some { s.workerAt w .top with cvOwner := none }
  | _, _ => none

def submitStep (s : State c) (thread : Thread c) (action : SubmitAction c) : Option (State c) :=
  match action, s.calls thread with
  | .start, none =>
    if s.mayCall thread then some { s.callAt thread (some (.placing s.rr)) with rr := s.rr + 1 }
    else none
  | .push, some (.placing ticket) =>
    if s.pushed < s.decremented.length + c.memory then some (s.push thread ticket) else none
  -- `push_front` throws `std::bad_alloc`.
  | .fail, some (.placing _) => some (s.callAt thread none)
  | .count, some (.pushed task) => some (s.count thread task)
  | .notify woken, some (.counted task) =>
    if s.Wakes woken then some (s.notify thread task woken) else none
  | _, _ => none

def clientStep (s : State c) (i : Fin c.clients) (action : ClientAction) : Option (State c) :=
  match action, s.client i with
  | .wait, .idle =>
    if s.calls (.inr i) = none then some (s.clientAt i (.waiting .client s.returned .locking))
    else none
  | .destroy, .idle =>
    if s.calls (.inr i) = none ∧ s.destroying = false then
      some { s.clientAt i (.waiting .destructor s.returned .locking) with destroying := true }
    else none
  | .lock, .waiting caller submitted .locking =>
    if s.idleOwner = none then
      some { s.clientAt i (.waiting caller submitted .testing) with idleOwner := some i }
    else none
  | .test, .waiting caller submitted .testing =>
    some (s.clientAt i (.waiting caller submitted (if s.pending = 0 then .leaving else .blocking)))
  | .block, .waiting caller submitted .blocking =>
    some { s.clientAt i (.waiting caller submitted .blocked) with idleOwner := none }
  | .wake, .waiting caller submitted .blocked =>
    some (s.clientAt i (.waiting caller submitted .locking))
  | .leave, .waiting .client _ .leaving => some { s.clientAt i .idle with idleOwner := none }
  | .leave, .waiting .destructor _ .leaving => some { s.clientAt i .stopping with idleOwner := none }
  | .storeStop, .stopping => some { s.clientAt i .notifying with stop := true }
  | .notifyAll, .notifying =>
    some { s.clientAt i (.joining 0) with worker := fun w => (s.worker w).woken }
  | .join, .joining idx =>
    if inside : idx < c.workers then
      if s.worker ⟨idx, inside⟩ = .exited then some (s.clientAt i (.joining (idx + 1))) else none
    else some (s.clientAt i .destroyed)
  | _, _ => none

def next (s : State c) (action : Action c) : Option (State c) :=
  match action with
  | .worker w action => workerStep s w action
  | .submit thread action => submitStep s thread action
  | .client i action => clientStep s i action

def step (s : State c) (action : Action c) : Option (State c × Unit) :=
  (next s action).map fun s' => (s', ())

end CppPractice.WorkStealingThreadPool
