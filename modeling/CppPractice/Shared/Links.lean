import Mathlib.Data.List.Basic
import Mathlib.Data.List.Nodup
import Mathlib.Logic.Function.Basic

set_option autoImplicit false

namespace Links

abbrev Link := Nat → Option Nat

def Chain (next : Link) : Option Nat → List Nat → Prop
  | head, [] => head = none
  | head, node :: rest => head = some node ∧ Chain next (next node) rest

theorem Chain.congr {next next' : Link} {head : Option Nat} {nodes : List Nat}
    (same : ∀ node ∈ nodes, next' node = next node) (chain : Chain next head nodes) :
    Chain next' head nodes := by
  induction nodes generalizing head with
  | nil => exact chain
  | cons node rest ih =>
    refine ⟨chain.1, ?_⟩
    rw [same node (by simp)]
    exact ih (fun other member => same other (by simp [member])) chain.2

theorem Chain.push {next : Link} {head : Option Nat} {nodes : List Nat} {node : Nat}
    (chain : Chain next head nodes) (fresh : node ∉ nodes) :
    Chain (Function.update next node head) (some node) (node :: nodes) := by
  refine ⟨rfl, ?_⟩
  rw [Function.update_self]
  refine chain.congr fun other member => Function.update_of_ne ?_ _ _
  rintro rfl
  exact fresh member

theorem Chain.head_none {next : Link} {nodes : List Nat} (chain : Chain next none nodes) :
    nodes = [] := by
  cases nodes with
  | nil => rfl
  | cons node rest => exact absurd chain.1 (by simp)

theorem Chain.head_some {next : Link} {node : Nat} {nodes : List Nat}
    (chain : Chain next (some node) nodes) :
    ∃ rest, nodes = node :: rest ∧ Chain next (next node) rest := by
  cases nodes with
  | nil => exact absurd chain (by simp [Chain])
  | cons first rest =>
    obtain ⟨same, tail⟩ := chain
    cases same
    exact ⟨rest, rfl, tail⟩

def walk (next : Link) : Nat → Option Nat → List Nat
  | 0, _ => []
  | _ + 1, none => []
  | fuel + 1, some node => node :: walk next fuel (next node)

theorem Chain.walk_eq {next : Link} {head : Option Nat} {nodes : List Nat} {fuel : Nat}
    (chain : Chain next head nodes) (enough : nodes.length ≤ fuel) :
    walk next fuel head = nodes := by
  induction nodes generalizing head fuel with
  | nil =>
    cases chain
    cases fuel <;> rfl
  | cons node rest ih =>
    obtain ⟨rfl, tail⟩ := chain
    cases fuel with
    | zero => simp at enough
    | succ fuel => rw [walk, ih tail (by simpa using enough)]

def setAt (link : Link) : Option Nat → Option Nat → Link
  | none, _ => link
  | some node, target => Function.update link node target

@[simp]
theorem setAt_none (link : Link) (target : Option Nat) : setAt link none target = link := rfl

theorem setAt_apply (link : Link) (at? target : Option Nat) (node : Nat) :
    setAt link at? target node = if at? = some node then target else link node := by
  cases at? with
  | none => simp
  | some other =>
    by_cases same : node = other
    · simp [setAt, same]
    · simp [setAt, same, Ne.symm same]

/--
`nodes` is a doubly linked queue. Links are described around every node, so that an update only
has to be checked at the nodes whose neighbours change.
-/
structure Queue (next prev : Link) (head tail : Option Nat) (nodes : List Nat) : Prop where
  nodup : nodes.Nodup
  head_eq : head = nodes.head?
  tail_eq : tail = nodes.getLast?
  around : ∀ before node after, nodes = before ++ node :: after →
    next node = after.head? ∧ prev node = before.getLast?

theorem Queue.empty (next prev : Link) : Queue next prev none none [] :=
  ⟨List.nodup_nil, rfl, rfl, by simp⟩

section

variable {next prev : Link} {head tail : Option Nat} {nodes : List Nat}

theorem Queue.congr {next' prev' : Link}
    (sameNext : ∀ node ∈ nodes, next' node = next node)
    (samePrev : ∀ node ∈ nodes, prev' node = prev node)
    (queue : Queue next prev head tail nodes) : Queue next' prev' head tail nodes := by
  refine ⟨queue.nodup, queue.head_eq, queue.tail_eq, ?_⟩
  intro before node after split
  have member : node ∈ nodes := by simp [split]
  rw [sameNext node member, samePrev node member]
  exact queue.around before node after split

theorem Queue.reverse (queue : Queue next prev head tail nodes) :
    Queue prev next tail head nodes.reverse := by
  refine ⟨List.nodup_reverse.mpr queue.nodup, ?_, ?_, ?_⟩
  · rw [List.head?_reverse, queue.tail_eq]
  · rw [List.getLast?_reverse, queue.head_eq]
  · intro before node after split
    have forward : nodes = after.reverse ++ node :: before.reverse := by
      have := congrArg List.reverse split
      simpa using this
    have := queue.around _ _ _ forward
    simpa [List.head?_reverse, List.getLast?_reverse] using this.symm

theorem Queue.chain (queue : Queue next prev head tail nodes) : Chain next head nodes := by
  have suffix (after before : List Nat) (split : nodes = before ++ after) :
      Chain next after.head? after := by
    induction after generalizing before with
    | nil => rfl
    | cons node rest ih =>
      refine ⟨rfl, ?_⟩
      rw [(queue.around before node rest split).1]
      exact ih (before ++ [node]) (by simpa using split)
  rw [queue.head_eq]
  exact suffix nodes [] rfl

theorem Queue.head_none (queue : Queue next prev none tail nodes) : nodes = [] :=
  queue.chain.head_none

theorem Queue.next_mem {node other : Nat} (queue : Queue next prev head tail nodes)
    (member : node ∈ nodes) (follows : next node = some other) : other ∈ nodes := by
  obtain ⟨before, after, rfl⟩ := List.append_of_mem member
  rw [(queue.around before node after rfl).1] at follows
  have := List.mem_of_mem_head? (Option.mem_def.mpr follows)
  simp [this]

theorem Queue.prev_mem {node other : Nat} (queue : Queue next prev head tail nodes)
    (member : node ∈ nodes) (precedes : prev node = some other) : other ∈ nodes := by
  have := queue.reverse.next_mem (List.mem_reverse.mpr member) precedes
  exact List.mem_reverse.mp this

theorem Queue.tail_mem {last : Nat} (queue : Queue next prev head (some last) nodes) : last ∈ nodes :=
  List.mem_of_mem_getLast? (Option.mem_def.mpr queue.tail_eq.symm)

theorem Queue.tail_none_iff (queue : Queue next prev head tail nodes) :
    head = none ↔ tail = none := by
  rw [queue.head_eq, queue.tail_eq, List.head?_eq_none_iff, List.getLast?_eq_none_iff]

theorem Queue.push_first (queue : Queue next prev head none nodes) (node : Nat) :
    Queue (Function.update next node none) (Function.update prev node none)
      (some node) (some node) (nodes ++ [node]) := by
  have empty : nodes = [] := List.getLast?_eq_none_iff.mp queue.tail_eq.symm
  subst empty
  refine ⟨by simp, by simp, by simp, ?_⟩
  intro before other after split
  cases before with
  | nil =>
    obtain ⟨rfl, rfl⟩ : node = other ∧ [] = after := by simpa using split
    simp
  | cons first rest => simp at split

theorem Queue.push_back {last node : Nat} (queue : Queue next prev head (some last) nodes)
    (fresh : node ∉ nodes) :
    Queue (Function.update (Function.update next last (some node)) node none)
      (Function.update prev node (some last)) head (some node) (nodes ++ [node]) := by
  obtain ⟨front, whole⟩ : ∃ front, nodes = front ++ [last] :=
    List.getLast?_eq_some_iff.mp queue.tail_eq.symm
  have lastNe : last ≠ node := by
    rintro rfl
    exact fresh (by simp [whole])
  refine ⟨?_, ?_, by simp, ?_⟩
  · rw [List.nodup_append]
    refine ⟨queue.nodup, by simp, ?_⟩
    rintro a member b single rfl
    exact fresh (by simpa [← List.mem_singleton.mp single] using member)
  · rw [queue.head_eq, whole]
    simp [List.head?_append]
  · intro before other after split
    rcases List.eq_nil_or_concat after with rfl | ⟨initial, final, rfl⟩
    · -- The appended node itself.
      obtain ⟨rfl, rfl⟩ : nodes = before ∧ node = other := by
        simpa using List.append_inj' split rfl
      simp [← queue.tail_eq]
    · have parts : nodes = before ++ other :: initial ∧ node = final := by
        have : nodes ++ [node] = (before ++ other :: initial) ++ [final] := by simpa using split
        simpa using List.append_inj' this rfl
      obtain ⟨inside, rfl⟩ := parts
      have otherNe : other ≠ node := by
        rintro rfl
        exact fresh (by simp [inside])
      have old := queue.around before other initial inside
      refine ⟨?_, by rw [Function.update_of_ne otherNe, old.2]⟩
      rw [Function.update_of_ne otherNe]
      rcases List.eq_nil_or_concat initial with rfl | ⟨more, final, rfl⟩
      · -- Only the old tail gets a new successor.
        obtain ⟨-, rfl⟩ : front = before ∧ last = other := by
          simpa using List.append_inj' (whole.symm.trans inside) rfl
        simp
      · have notLast : other ≠ last := by
          have nodup := queue.nodup
          have tail := queue.tail_eq
          rw [inside] at nodup tail
          grind
        rw [Function.update_of_ne notLast, old.1]
        cases more <;> simp

-- Removing a node redirects one successor: that of the node before it.
theorem Queue.skip_next {before after : List Nat} {node : Nat}
    (queue : Queue next prev head tail (before ++ node :: after))
    {left right : List Nat} {other : Nat} (split : before ++ after = left ++ other :: right) :
    setAt next before.getLast? after.head? other = right.head? := by
  have nodup := queue.nodup
  rw [setAt_apply]
  -- `other` stands either behind the removed node or before it.
  have cases : (∃ middle, after = middle ++ other :: right) ∨
      ∃ rest, before = left ++ other :: rest ∧ right = rest ++ after := by
    rcases List.append_eq_append_iff.mp split with ⟨middle, -, tailEq⟩ | ⟨middle, whole, tailEq⟩
    · exact .inl ⟨middle, tailEq⟩
    · cases middle with
      | nil => exact .inl ⟨[], by simpa using tailEq.symm⟩
      | cons first rest =>
        obtain ⟨rfl, rfl⟩ : other = first ∧ right = rest ++ after := by simpa using tailEq
        exact .inr ⟨rest, whole, rfl⟩
  rcases cases with ⟨middle, rfl⟩ | ⟨rest, rfl, rfl⟩
  · have notLast : before.getLast? ≠ some other := by
      intro last
      obtain ⟨initial, rfl⟩ := List.getLast?_eq_some_iff.mp last
      grind
    rw [if_neg notLast]
    exact (queue.around (before ++ node :: middle) other right (by simp)).1
  · have old := (queue.around left other (rest ++ node :: after) (by simp)).1
    rcases List.eq_nil_or_concat rest with rfl | ⟨more, final, rfl⟩
    · simp
    · have notLast : (left ++ other :: more.concat final).getLast? ≠ some other := by
        rw [← List.concat_cons, List.concat_eq_append, ← List.append_assoc, List.getLast?_concat]
        grind
      rw [if_neg notLast, old]
      cases more <;> simp

theorem Queue.unlink {node : Nat} (queue : Queue next prev head tail nodes)
    (member : node ∈ nodes) :
    Queue (setAt next (prev node) (next node)) (setAt prev (next node) (prev node))
      (if prev node = none then next node else head)
      (if next node = none then prev node else tail) (nodes.erase node) := by
  obtain ⟨before, after, rfl⟩ := List.append_of_mem member
  have nodup := queue.nodup
  have erased : (before ++ node :: after).erase node = before ++ after := by
    rw [List.erase_append_right _ (by grind), List.erase_cons_head]
  obtain ⟨nextNode, prevNode⟩ := queue.around before node after rfl
  rw [erased, nextNode, prevNode]
  refine ⟨by grind, ?_, ?_, ?_⟩
  · rw [queue.head_eq]
    cases before <;> simp [List.getLast?_eq_none_iff]
  · rw [queue.tail_eq]
    cases after with
    | nil => simp
    | cons first rest => simp [List.getLast?_append, List.getLast?_cons]
  · intro left other right split
    -- Backwards it is the same statement about the reversed queue.
    have backward : Queue prev next tail head (after.reverse ++ node :: before.reverse) := by
      simpa using queue.reverse
    have mirrored : after.reverse ++ before.reverse = right.reverse ++ other :: left.reverse := by
      simpa using congrArg List.reverse split
    exact ⟨queue.skip_next split, by simpa using backward.skip_next mirrored⟩

end

end Links
