import CppPractice.Spsc.Model

set_option autoImplicit false

namespace CppPractice.SpscRingBuffer

variable {T : Type}

-- The steps one by one: where the thread stood, and what it leaves.
inductive Effect (r : Ring) (s : State T) : Action T → State T → Reply T → Prop where
  | push {value : T} (pc : s.producer = .idle) :
      Effect r s (.push value) { s with producer := .pushing value s.tail } .none
  | full (pc : s.producer = .idle) :
      Effect r s .full { s with producer := .asking s.tail } .none
  | noRoom {position h t : Nat} {value : T} (seen : s.seenHead ≤ position)
      (found : s.headStores[position]? = some h) (pc : s.producer = .pushing value t)
      (same : (t + 1) &&& r.kMask = h) :
      Effect r s (.loadHead position) { s with seenHead := position, producer := .idle }
        (.pushed value false)
  | room {position h t : Nat} {value : T} (seen : s.seenHead ≤ position)
      (found : s.headStores[position]? = some h) (pc : s.producer = .pushing value t)
      (apart : (t + 1) &&& r.kMask ≠ h) :
      Effect r s (.loadHead position)
        { s with
          seenHead := position
          producer := .writing value t ((t + 1) &&& r.kMask) } .none
  | tellsFull {position h t : Nat} (seen : s.seenHead ≤ position)
      (found : s.headStores[position]? = some h) (pc : s.producer = .asking t) :
      Effect r s (.loadHead position) { s with seenHead := position, producer := .idle }
        (.full (decide ((t + 1) &&& r.kMask = h)))
  | writeSlot {value : T} {t next : Nat} (pc : s.producer = .writing value t next) :
      Effect r s .writeSlot
        { s with writes := s.writes ++ [(t, value)], producer := .storing value t next } .none
  | storeTail {value : T} {t next : Nat} (pc : s.producer = .storing value t next) :
      Effect r s .storeTail
        { s with
          tailStores := s.tailStores ++ [next]
          published := s.published ++ [s.writes.length]
          producer := .idle } (.pushed value true)
  | pop (pc : s.consumer = .idle) :
      Effect r s .pop { s with consumer := .popping s.head } .none
  | empty (pc : s.consumer = .idle) :
      Effect r s .empty { s with consumer := .asking s.head } .none
  | noValue {position h t : Nat} (seen : s.seenTail ≤ position)
      (found : s.tailStores[position]? = some t) (pc : s.consumer = .popping h) (same : h = t) :
      Effect r s (.loadTail position) { s with seenTail := position, consumer := .idle }
        (.popped none)
  | value {position h t : Nat} (seen : s.seenTail ≤ position)
      (found : s.tailStores[position]? = some t) (pc : s.consumer = .popping h) (apart : h ≠ t) :
      Effect r s (.loadTail position) { s with seenTail := position, consumer := .reading h } .none
  | tellsEmpty {position h t : Nat} (seen : s.seenTail ≤ position)
      (found : s.tailStores[position]? = some t) (pc : s.consumer = .asking h) :
      Effect r s (.loadTail position) { s with seenTail := position, consumer := .idle }
        (.empty (decide (h = t)))
  | readSlot {write : Option Nat} {h : Nat} {out : T} (pc : s.consumer = .reading h)
      (readable : s.Readable h write) (contents : s.contents h write = some out) :
      Effect r s (.readSlot write) { s with consumer := .storing h out } .none
  | storeHead {h : Nat} {out : T} (pc : s.consumer = .storing h out) :
      Effect r s .storeHead
        { s with headStores := s.headStores ++ [(h + 1) &&& r.kMask], consumer := .idle }
        (.popped (some out))

variable {r : Ring} {s s' : State T} {action : Action T} {reply : Reply T}

theorem loadHead_effect {position : Nat} (loaded : loadHead s r position = some (s', reply)) :
    Effect r s (.loadHead position) s' reply := by
  obtain ⟨early, loaded⟩ := Option.ite_none_left_eq_some.mp loaded
  obtain ⟨h, found, loaded⟩ := Option.bind_eq_some_iff.mp loaded
  have seen := Nat.le_of_not_lt early
  cases pc : s.producer with
  | pushing value t =>
    simp only [pc] at loaded
    split at loaded
    · rename_i same
      cases loaded
      exact .noRoom seen found pc same
    · rename_i apart
      cases loaded
      exact .room seen found pc apart
  | asking t =>
    simp only [pc] at loaded
    cases loaded
    exact .tellsFull seen found pc
  | idle | writing | storing =>
    simp only [pc] at loaded
    cases loaded

theorem loadTail_effect {position : Nat} (loaded : loadTail s position = some (s', reply)) :
    Effect r s (.loadTail position) s' reply := by
  obtain ⟨early, loaded⟩ := Option.ite_none_left_eq_some.mp loaded
  obtain ⟨t, found, loaded⟩ := Option.bind_eq_some_iff.mp loaded
  have seen := Nat.le_of_not_lt early
  cases pc : s.consumer with
  | popping h =>
    simp only [pc] at loaded
    split at loaded
    · rename_i same
      cases loaded
      exact .noValue seen found pc same
    · rename_i apart
      cases loaded
      exact .value seen found pc apart
  | asking h =>
    simp only [pc] at loaded
    cases loaded
    exact .tellsEmpty seen found pc
  | idle | reading | storing =>
    simp only [pc] at loaded
    cases loaded

theorem step_effect (stepped : step r s action = some (s', reply)) :
    Effect r s action s' reply := by
  cases action with
  | push value =>
    cases pc : s.producer <;> simp only [step, pc, reduceCtorEq] at stepped
    cases stepped
    exact .push pc
  | full =>
    cases pc : s.producer <;> simp only [step, pc, reduceCtorEq] at stepped
    cases stepped
    exact .full pc
  | loadHead position => exact loadHead_effect stepped
  | writeSlot =>
    cases pc : s.producer <;> simp only [step, pc, reduceCtorEq] at stepped
    cases stepped
    exact .writeSlot pc
  | storeTail =>
    cases pc : s.producer <;> simp only [step, pc, reduceCtorEq] at stepped
    cases stepped
    exact .storeTail pc
  | pop =>
    cases pc : s.consumer <;> simp only [step, pc, reduceCtorEq] at stepped
    cases stepped
    exact .pop pc
  | empty =>
    cases pc : s.consumer <;> simp only [step, pc, reduceCtorEq] at stepped
    cases stepped
    exact .empty pc
  | loadTail position => exact loadTail_effect stepped
  | readSlot write =>
    cases pc : s.consumer <;> simp only [step, pc, reduceCtorEq] at stepped
    obtain ⟨readable, stepped⟩ := Option.ite_none_right_eq_some.mp stepped
    obtain ⟨out, contents, same⟩ := Option.map_eq_some_iff.mp stepped
    cases same
    exact .readSlot pc readable contents
  | storeHead =>
    cases pc : s.consumer <;> simp only [step, pc, reduceCtorEq] at stepped
    cases stepped
    exact .storeHead pc

end CppPractice.SpscRingBuffer
