import CppPractice.Shared.Runs

set_option autoImplicit false

namespace CppPractice.SpscRingBuffer

-- The template argument and its static assertions.
structure Ring where
  capacity : Nat
  atLeastTwo : 2 ≤ capacity
  powerOfTwo : capacity &&& (capacity - 1) = 0

def Ring.kMask (r : Ring) : Nat := r.capacity - 1

inductive Producer (T : Type) where
  | idle
  -- `push` and `full` have loaded `tail_`.
  | pushing (value : T) (t : Nat)
  | asking (t : Nat)
  -- Past the full check, before and after the slot is written.
  | writing (value : T) (t next : Nat)
  | storing (value : T) (t next : Nat)
  deriving DecidableEq

inductive Consumer (T : Type) where
  | idle
  -- `pop` and `empty` have loaded `head_`.
  | popping (h : Nat)
  | asking (h : Nat)
  -- Past the empty check, before and after the slot is read.
  | reading (h : Nat)
  | storing (h : Nat) (out : T)
  deriving DecidableEq

-- `head_` and `tail_` keep all values ever stored, for a thread may read any store of the other's
-- index that is no older than the one it read last.
structure State (T : Type) where
  -- The values stored in `tail_` and `head_`, oldest first.
  tailStores : List Nat
  headStores : List Nat
  -- The slot writes, and how many of them came before each tail store.
  writes : List (Nat × T)
  published : List Nat
  initial : Nat → T
  -- Which store each side read last.
  seenHead : Nat
  seenTail : Nat
  producer : Producer T
  consumer : Consumer T

-- What `buffer_` holds at first is up to `T`.
def State.init {T : Type} (initial : Nat → T) : State T where
  tailStores := [0]
  headStores := [0]
  writes := []
  published := [0]
  initial := initial
  seenHead := 0
  seenTail := 0
  producer := .idle
  consumer := .idle

inductive Action (T : Type) where
  | push (value : T)
  | full
  | loadHead (position : Nat)
  | writeSlot
  | storeTail
  | pop
  | empty
  | loadTail (position : Nat)
  | readSlot (write : Option Nat)
  | storeHead
  deriving DecidableEq

inductive Reply (T : Type) where
  | none
  | pushed (value : T) (ok : Bool)
  | popped (out : Option T)
  | full (answer : Bool)
  | empty (answer : Bool)
  deriving DecidableEq

section

variable {T : Type} (s : State T)

def State.tail : Nat := s.tailStores.getLastD 0

def State.head : Nat := s.headStores.getLastD 0

-- The slot writes that the consumer is sure to see.
def State.visible : Nat := s.published[s.seenTail]?.getD 0

def State.Written (write slot : Nat) : Prop := (s.writes[write]?).any (·.1 = slot) = true

instance (write slot : Nat) : Decidable (s.Written write slot) :=
  inferInstanceAs (Decidable (_ = true))

-- Whether a read of `slot` may return `write`, or the initial contents.
def State.Readable (slot : Nat) (write : Option Nat) : Prop :=
  (∀ w ∈ write, s.Written w slot) ∧
    ∀ later < s.visible, (∀ w ∈ write, w < later) → ¬s.Written later slot

instance (slot : Nat) (write : Option Nat) : Decidable (s.Readable slot write) :=
  inferInstanceAs (Decidable (_ ∧ _))

def State.contents (slot : Nat) (write : Option Nat) : Option T :=
  match write with
  | none => some (s.initial slot)
  | some w => (s.writes[w]?).map (·.2)

variable (r : Ring)

def loadHead (position : Nat) : Option (State T × Reply T) :=
  if position < s.seenHead then none
  else
    (s.headStores[position]?).bind fun h =>
      let s := { s with seenHead := position }
      match s.producer with
      | .pushing value t =>
        let next := (t + 1) &&& r.kMask
        if next = h then some ({ s with producer := .idle }, .pushed value false)
        else some ({ s with producer := .writing value t next }, .none)
      | .asking t =>
        let next := (t + 1) &&& r.kMask
        some ({ s with producer := .idle }, .full (decide (next = h)))
      | _ => none

def loadTail (position : Nat) : Option (State T × Reply T) :=
  if position < s.seenTail then none
  else
    (s.tailStores[position]?).bind fun t =>
      let s := { s with seenTail := position }
      match s.consumer with
      | .popping h =>
        if h = t then some ({ s with consumer := .idle }, .popped none)
        else some ({ s with consumer := .reading h }, .none)
      | .asking h => some ({ s with consumer := .idle }, .empty (decide (h = t)))
      | _ => none

def step (s : State T) (action : Action T) : Option (State T × Reply T) :=
  match action, s.producer, s.consumer with
  | .push value, .idle, _ => some ({ s with producer := .pushing value s.tail }, .none)
  | .full, .idle, _ => some ({ s with producer := .asking s.tail }, .none)
  | .loadHead position, _, _ => loadHead s r position
  | .writeSlot, .writing value t next, _ =>
    some ({ s with writes := s.writes ++ [(t, value)], producer := .storing value t next }, .none)
  | .storeTail, .storing value _ next, _ =>
    some ({ s with
      tailStores := s.tailStores ++ [next]
      published := s.published ++ [s.writes.length]
      producer := .idle }, .pushed value true)
  | .pop, _, .idle => some ({ s with consumer := .popping s.head }, .none)
  | .empty, _, .idle => some ({ s with consumer := .asking s.head }, .none)
  | .loadTail position, _, _ => loadTail s position
  | .readSlot write, _, .reading h =>
    if s.Readable h write then
      (s.contents h write).map fun out => ({ s with consumer := .storing h out }, .none)
    else none
  | .storeHead, _, .storing h out =>
    let next := (h + 1) &&& r.kMask
    some ({ s with headStores := s.headStores ++ [next], consumer := .idle }, .popped (some out))
  | _, _, _ => none

end

section

variable {T : Type}

def pushedOf : Reply T → Option T
  | .pushed value true => some value
  | _ => none

def poppedOf : Reply T → Option T
  | .popped out => out
  | _ => none

def pushedValues (log : List (Action T × Reply T)) : List T := log.filterMap fun e => pushedOf e.2

def poppedValues (log : List (Action T × Reply T)) : List T := log.filterMap fun e => poppedOf e.2

end

end CppPractice.SpscRingBuffer
