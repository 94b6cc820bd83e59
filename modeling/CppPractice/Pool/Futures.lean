import CppPractice.Pool.Drain
import CppPractice.Pool.RoundRobin
import Mathlib.Data.UInt

set_option autoImplicit false

namespace CppPractice.WorkStealingThreadPool

variable {c : Config}

structure Gather (c : Config) where
  pool : State c
  -- Which callable each task wraps, in the order of the pushes.
  wrapped : List Nat
  -- What the task's `packaged_task` has left for its future.
  ready : Task → Option UInt64
  futures : List Task
  taken : Nat
  sum : UInt64
  -- `submit` has thrown, and nothing catches it.
  thrown : Bool

namespace Gather

inductive Turn (c : Config) where
  | worker (w : Fin c.workers) (action : WorkerAction)
  | submit (action : SubmitAction c)
  | get
  deriving DecidableEq

def start (c : Config) : Gather c where
  pool := .init c
  wrapped := []
  ready := fun _ => none
  futures := []
  taken := 0
  sum := 0
  thrown := false

section

variable (main : Fin c.clients) (work : Nat → UInt64) (n : Nat) (g : Gather c)

def stored (w : Fin c.workers) (action : WorkerAction) : Task → Option UInt64 :=
  match action, g.pool.worker w with
  | .finish, .running task => Function.update g.ready task (g.wrapped[task]?.map work)
  | _, _ => g.ready

def submitted (action : SubmitAction c) : Gather c :=
  match action, g.pool.calls (.inr main) with
  | .push, _ => { g with wrapped := g.wrapped ++ [g.futures.length] }
  | .fail, _ => { g with thrown := true }
  | .notify _, some (.counted task) => { g with futures := g.futures ++ [task] }
  | _, _ => g

def turn (g : Gather c) : Turn c → Option (Gather c × Unit)
  | .worker w action =>
    (workerStep g.pool w action).map fun s =>
      ({ g with pool := s, ready := g.stored work w action }, ())
  | .submit action =>
    if g.thrown = false ∧ (action = .start → g.futures.length < n) then
      (submitStep g.pool (.inr main) action).map fun s =>
        ({ g.submitted main action with pool := s }, ())
    else none
  | .get =>
    if g.thrown = false ∧ g.futures.length = n then
      (g.futures[g.taken]?.bind g.ready).map fun v =>
        ({ g with sum := g.sum + v, taken := g.taken + 1 }, ())
    else none

structure Finished : Prop where
  futures : g.futures.length = n
  taken : g.taken = n

end

def Submitting (next pushed : Nat) : Option SubmitPc → Prop
  | some (.pushed task) | some (.counted task) => task = next ∧ pushed = next + 1
  | _ => pushed = next

/-- What holds between the turns: task, callable and future have the same number. -/
structure Good (main : Fin c.clients) (work : Nat → UInt64) (n : Nat) (g : Gather c) : Prop where
  reached : ∃ actions log, Runs.run step (State.init c) actions = some (g.pool, log)
  clients : ∀ i, g.pool.client i = .idle
  others : ∀ thread, thread ≠ .inr main → g.pool.calls thread = none
  going : g.pool.stop = false
  unlocked : g.pool.idleOwner = none
  wrapped : g.wrapped = List.range g.pool.pushed
  ready : ∀ task, g.ready task = if task ∈ g.pool.finished then some (work task) else none
  futures : g.futures = List.range g.futures.length
  call : Submitting g.futures.length g.pool.pushed (g.pool.calls (.inr main))
  within : g.futures.length ≤ n ∧ (g.pool.calls (.inr main) ≠ none → g.futures.length < n)
  taken : g.taken ≤ g.futures.length ∧ (0 < g.taken → g.futures.length = n)
  sum : g.sum = ((List.range g.taken).map work).sum

section

variable {main : Fin c.clients} {work : Nat → UInt64} {n : Nat} {g g' : Gather c}

theorem start_good (main : Fin c.clients) (work : Nat → UInt64) (n : Nat) :
    Good main work n (start c) where
  reached := ⟨[], [], rfl⟩
  clients _ := rfl
  others _ _ := rfl
  going := rfl
  unlocked := rfl
  wrapped := rfl
  ready _ := rfl
  futures := rfl
  call := rfl
  within := ⟨Nat.zero_le _, fun calls => absurd rfl calls⟩
  taken := ⟨le_rfl, fun some => absurd some (lt_irrefl _)⟩
  sum := rfl

theorem Good.next_reached (good : Good main work n g) {action : Action c} {s : State c}
    (moved : next g.pool action = some s) :
    ∃ actions log, Runs.run step (State.init c) actions = some (s, log) := by
  obtain ⟨actions, log, ran⟩ := good.reached
  exact ⟨_, _, Runs.run_snoc_iff.mpr
    ⟨g.pool, log, (), ran, congrArg (Option.map (·, ())) moved, rfl⟩⟩

theorem WorkerEffect.finished {s s' : State c} {w : Fin c.workers} {action : WorkerAction}
    (effect : WorkerEffect s w action s') (other : action ≠ .finish) : s'.finished = s.finished := by
  cases effect with
  | finish => exact absurd rfl other
  | _ => rfl

theorem WorkerEffect.idle {s s' : State c} {w : Fin c.workers} {action : WorkerAction}
    (effect : WorkerEffect s w action s') (idle : ∀ i, s.client i = .idle) (i : Fin c.clients) :
    s'.client i = .idle := by
  cases effect with
  | notifyIdle =>
    change (s.client i).woken = .idle
    rw [idle i]
    rfl
  | _ => exact idle i

theorem Good.stored (good : Good main work n g) {w : Fin c.workers} {action : WorkerAction}
    {s : State c} (moved : workerStep g.pool w action = some s) (task : Task) :
    g.stored work w action task = if task ∈ s.finished then some (work task) else none := by
  by_cases ends : action = .finish
  · subst ends
    cases pc : g.pool.worker w <;> simp only [workerStep, pc, reduceCtorEq] at moved
    rename_i ran
    obtain ⟨-, same⟩ := Option.ite_none_right_eq_some.mp moved
    obtain rfl := Option.some.inj same
    obtain ⟨actions, log, reached⟩ := good.reached
    have pushed : ran < g.pool.pushed := by
      have member : ran ∈ g.pool.running :=
        Multiset.mem_sum.mpr ⟨w, Finset.mem_univ w, by rw [pc]; exact Multiset.mem_singleton_self _⟩
      rw [← Multiset.mem_range, ← (run_ledger reached).places]
      exact Multiset.mem_add.mpr (.inl (Multiset.mem_add.mpr (.inr member)))
    simp only [Gather.stored, pc, State.finish, List.mem_append, List.mem_singleton]
    rw [Function.update_apply, good.wrapped, List.getElem?_range pushed, good.ready]
    by_cases same : task = ran
    · simp [same]
    · simp [same]
  · have same : g.stored work w action = g.ready := by
      unfold Gather.stored
      split
      · exact absurd rfl ends
      · rfl
    rw [same, good.ready, WorkerEffect.finished (workerStep_effect moved) ends]

theorem Good.worker (good : Good main work n g) {w : Fin c.workers} {action : WorkerAction}
    {s : State c} (moved : workerStep g.pool w action = some s) :
    Good main work n { g with pool := s, ready := g.stored work w action } := by
  have effect := workerStep_effect moved
  obtain ⟨stop, owner, calls⟩ := effect.frame
  obtain ⟨pc, worked⟩ := effect.worked
  have onward : next g.pool (.worker w action) = some s := moved
  refine ⟨good.next_reached onward, WorkerEffect.idle effect good.clients, ?_,
    stop.trans good.going, owner.trans good.unlocked, ?_, good.stored moved, good.futures, ?_, ?_,
    good.taken, good.sum⟩
  · rw [calls]
    exact good.others
  · rw [worked.pushed]
    exact good.wrapped
  · rw [worked.pushed, calls]
    exact good.call
  · rw [calls]
    exact good.within

structure Calls (main : Fin c.clients) (n : Nat) (g h : Gather c) (pc : Option SubmitPc) : Prop where
  frame : h.pool.stop = g.pool.stop ∧ h.pool.idleOwner = g.pool.idleOwner ∧
    h.pool.client = g.pool.client ∧ h.pool.finished = g.pool.finished ∧ h.ready = g.ready ∧
    h.taken = g.taken ∧ h.sum = g.sum
  calls : h.pool.calls = Function.update g.pool.calls (.inr main) pc
  wrapped : h.wrapped = List.range h.pool.pushed
  futures : h.futures = List.range h.futures.length
  call : Submitting h.futures.length h.pool.pushed pc
  within : h.futures.length ≤ n ∧ (pc ≠ none → h.futures.length < n)

theorem Good.calls (good : Good main work n g) {h : Gather c} (pc : Option SubmitPc)
    (calls : Calls main n g h pc) (fresh : g.taken = 0)
    (reached : ∃ actions log, Runs.run step (State.init c) actions = some (h.pool, log)) :
    Good main work n h := by
  obtain ⟨stop, owner, client, finished, ready, taken, sum⟩ := calls.frame
  refine ⟨reached, ?_, fun thread other => ?_, stop.trans good.going, owner.trans good.unlocked,
    calls.wrapped, ?_, calls.futures, ?_, ?_, ?_, ?_⟩
  · rw [client]
    exact good.clients
  · rw [calls.calls, Function.update_of_ne other]
    exact good.others thread other
  · rw [ready, finished]
    exact good.ready
  · rw [calls.calls, Function.update_self]
    exact calls.call
  · rw [calls.calls, Function.update_self]
    exact calls.within
  · rw [taken, fresh]
    exact ⟨Nat.zero_le _, fun some => absurd some (lt_irrefl 0)⟩
  · rw [sum, taken]
    exact good.sum

theorem Good.submit (good : Good main work n g) {action : SubmitAction c} {s : State c}
    (allowed : action = .start → g.futures.length < n)
    (moved : submitStep g.pool (.inr main) action = some s) :
    Good main work n { g.submitted main action with pool := s } := by
  have onward : next g.pool (.submit (.inr main) action) = some s := moved
  have reached := good.next_reached onward
  have call := good.call
  have within := good.within
  have fresh (less : g.futures.length < n) : g.taken = 0 := by
    by_contra some
    exact absurd (good.taken.2 (Nat.pos_of_ne_zero some)) less.ne
  cases submitStep_effect moved with
  | start was free =>
    have less := allowed rfl
    rw [was] at call
    refine good.calls (some (.placing g.pool.rr)) ⟨⟨rfl, rfl, rfl, rfl, rfl, rfl, rfl⟩, rfl,
      good.wrapped, good.futures, call, within.1, fun _ => less⟩ (fresh less) reached
  | @fail ticket was =>
    rw [was] at call within
    have less := within.2 (by simp)
    refine good.calls none ⟨⟨rfl, rfl, rfl, rfl, rfl, rfl, rfl⟩, rfl, good.wrapped,
      good.futures, call, within.1, fun some => absurd rfl some⟩ (fresh less) reached
  | @push ticket was room =>
    rw [was] at call within
    have less := within.2 (by simp)
    change g.pool.pushed = g.futures.length at call
    have wrapped : g.wrapped ++ [g.futures.length] = List.range (g.pool.pushed + 1) := by
      rw [List.range_succ, good.wrapped, call]
    refine good.calls (some (.pushed g.pool.pushed)) ⟨⟨rfl, rfl, rfl, rfl, rfl, rfl, rfl⟩, rfl,
      wrapped, good.futures, ⟨call, congrArg (· + 1) call⟩, within.1, fun _ => less⟩ (fresh less)
      reached
  | @count task was =>
    rw [was] at call within
    have less := within.2 (by simp)
    refine good.calls (some (.counted task)) ⟨⟨rfl, rfl, rfl, rfl, rfl, rfl, rfl⟩, rfl,
      good.wrapped, good.futures, call, within.1, fun _ => less⟩ (fresh less) reached
  | @notify task woken was wakes =>
    rw [was] at call within
    have less := within.2 (by simp)
    obtain ⟨rfl, pushed⟩ := call
    have kept : g.submitted main (.notify woken) =
        { g with futures := g.futures ++ [g.futures.length] } := by
      simp only [submitted, was]
    rw [kept]
    have futures : g.futures ++ [g.futures.length] =
        List.range (g.futures ++ [g.futures.length]).length := by
      rw [List.length_append, List.length_singleton, List.range_succ, ← good.futures]
    refine good.calls none ⟨⟨rfl, rfl, rfl, rfl, rfl, rfl, rfl⟩, rfl, good.wrapped, futures,
      ?_, ?_⟩ (fresh less) reached
    · change g.pool.pushed = (g.futures ++ [g.futures.length]).length
      rw [pushed, List.length_append, List.length_singleton]
    · rw [List.length_append, List.length_singleton]
      exact ⟨less, fun some => absurd rfl some⟩

theorem Good.next {t : Turn c} (good : Good main work n g)
    (taken : turn main work n g t = some (g', ())) : Good main work n g' := by
  cases t with
  | worker w action =>
    obtain ⟨s, moved, same⟩ := Option.map_eq_some_iff.mp taken
    obtain ⟨rfl, -⟩ := Prod.mk.inj same
    exact good.worker moved
  | submit action =>
    rw [turn, Option.ite_none_right_eq_some] at taken
    obtain ⟨⟨-, allowed⟩, taken⟩ := taken
    obtain ⟨s, moved, same⟩ := Option.map_eq_some_iff.mp taken
    obtain ⟨rfl, -⟩ := Prod.mk.inj same
    exact good.submit allowed moved
  | get =>
    rw [turn, Option.ite_none_right_eq_some] at taken
    obtain ⟨⟨-, all⟩, taken⟩ := taken
    obtain ⟨v, result, same⟩ := Option.map_eq_some_iff.mp taken
    obtain ⟨rfl, -⟩ := Prod.mk.inj same
    obtain ⟨task, future, ready⟩ := Option.bind_eq_some_iff.mp result
    rw [good.futures] at future
    obtain ⟨less, rfl⟩ := List.getElem?_eq_some_iff.mp future
    rw [List.length_range] at less
    rw [List.getElem_range, good.ready] at ready
    obtain ⟨-, same⟩ := Option.ite_none_right_eq_some.mp ready
    obtain rfl := Option.some.inj same
    refine { good with taken := ⟨less, fun _ => all⟩, sum := ?_ }
    rw [List.range_succ, List.map_append, List.map_singleton, List.sum_append, List.sum_singleton,
      ← good.sum]

theorem run_good {turns : List (Turn c)} {log : List (Turn c × Unit)}
    (ran : Runs.run (turn main work n) (start c) turns = some (g, log)) : Good main work n g :=
  Runs.run_induction (P := fun _ g => Good main work n g) (start_good main work n)
    (fun _ _ _ _ _ _ _ good taken => good.next taken) ran

-- Turns that leave nothing to luck.
def Turn.steady : Turn c → Bool
  | .worker _ action => action ≠ .wake
  | .submit action => action ≠ .fail
  | .get => true

def Leads (main : Fin c.clients) (work : Nat → UInt64) (n : Nat) (g g' : Gather c) : Prop :=
  ∃ more log, (∀ t ∈ more, t.steady = true) ∧
    Runs.run (turn main work n) g more = some (g', log)

theorem Leads.refl (g : Gather c) : Leads main work n g g := ⟨[], [], by simp, rfl⟩

theorem Leads.step {t : Turn c} (steady : t.steady = true)
    (taken : turn main work n g t = some (g', ())) : Leads main work n g g' := by
  refine ⟨[t], [(t, ())], by simpa using steady, ?_⟩
  rw [Runs.run, taken]
  rfl

theorem Leads.trans {h : Gather c} (first : Leads main work n g g') (second : Leads main work n g' h) :
    Leads main work n g h := by
  obtain ⟨front, early, calm, ran⟩ := first
  obtain ⟨rest, late, calm', ran'⟩ := second
  refine ⟨front ++ rest, early ++ late, fun t member => ?_, ?_⟩
  · exact (List.mem_append.mp member).elim (calm t) (calm' t)
  · rw [Runs.run_append, ran, Option.bind_some, ran']
    rfl

theorem Leads.good (leads : Leads main work n g g') (good : Good main work n g) :
    Good main work n g' := by
  obtain ⟨more, log, -, ran⟩ := leads
  exact Runs.run_induction (P := fun _ g => Good main work n g) good
    (fun _ _ _ _ _ _ _ good taken => good.next taken) ran

theorem leads_works {s : State c} (works : Relation.ReflTransGen Works g.pool s) :
    ∃ g', Leads main work n g g' ∧ g'.pool = s ∧ g'.futures = g.futures ∧ g'.taken = g.taken ∧
      g'.thrown = g.thrown := by
  induction works with
  | refl => exact ⟨g, .refl g, rfl, rfl, rfl, rfl⟩
  | @tail middle s _ last ih =>
    obtain ⟨w, action, real, moved⟩ := last
    obtain ⟨h, leads, rfl, futures, taken, thrown⟩ := ih
    have turned : turn main work n h (.worker w action) =
        some ({ h with pool := s, ready := h.stored work w action }, ()) := by
      rw [turn, moved, Option.map_some]
    have steady : (Turn.worker w action).steady = true := by simpa [Turn.steady] using real
    exact ⟨_, leads.trans (.step steady turned), rfl, futures, taken, thrown⟩

theorem works_calls {s s' : State c} (works : Relation.ReflTransGen Works s s') :
    s'.calls = s.calls := by
  induction works with
  | refl => rfl
  | tail _ last ih =>
    obtain ⟨w, action, -, moved⟩ := last
    exact (workerStep_effect moved).frame.2.2.trans ih

theorem Good.drains (good : Good main work n g) (two : 2 ≤ c.workers)
    (calm : ¬Publishing (g.pool.calls (.inr main))) :
    ∃ g', Leads main work n g g' ∧ g'.futures = g.futures ∧ g'.thrown = g.thrown ∧
      g'.pool.calls = g.pool.calls ∧ g'.pool.pushed = g.pool.pushed ∧
      g'.pool.pushed ≤ g'.pool.decremented.length := by
  obtain ⟨actions, log, ran⟩ := good.reached
  have here : Open g.pool := by
    refine ⟨run_ledger ran, run_sleepers (.inl two) ran, run_joined ran, good.going, good.unlocked,
      fun thread => ?_, fun w => good.others (.inl w) (by simp)⟩
    by_cases own : thread = .inr main
    · rwa [own]
    · rw [good.others thread own]
      exact id
  obtain ⟨s, works, pushed, all⟩ := here.drains
  obtain ⟨g', leads, rfl, futures, -, thrown⟩ := leads_works works
  exact ⟨g', leads, futures, thrown, works_calls works, pushed, all⟩

theorem submit_leads {action : SubmitAction c} {s : State c} (alive : g.thrown = false)
    (allowed : action = .start → g.futures.length < n) (sound : action ≠ .fail)
    (moved : submitStep g.pool (.inr main) action = some s) :
    Leads main work n g { g.submitted main action with pool := s } := by
  have turned : turn main work n g (.submit action) =
      some ({ g.submitted main action with pool := s }, ()) := by
    rw [turn, if_pos ⟨alive, allowed⟩, moved, Option.map_some]
  exact .step (by simpa [Turn.steady] using sound) turned

def Submits (main : Fin c.clients) (work : Nat → UInt64) (n : Nat) (g : Gather c) : Prop :=
  ∃ g', Leads main work n g g' ∧ g'.thrown = false ∧
    g'.futures.length = g.futures.length + 1 ∧ g'.pool.calls (.inr main) = none

theorem submits_counted (alive : g.thrown = false) {task : Task}
    (calls : g.pool.calls (.inr main) = some (.counted task)) : Submits main work n g := by
  obtain ⟨woken, wakes⟩ : ∃ woken, g.pool.Wakes woken := by
    by_cases blocked : ∃ w, g.pool.worker w = .blocked
    · exact ⟨some blocked.choose, blocked.choose_spec⟩
    · exact ⟨none, not_exists.mp blocked⟩
  have moved : submitStep g.pool (.inr main) (.notify woken) =
      some (g.pool.notify (.inr main) task woken) := by
    simp only [submitStep, calls, if_pos wakes]
  refine ⟨_, submit_leads alive (by simp) (by simp) moved, ?_, ?_, Function.update_self _ _ _⟩
  · simpa only [submitted, calls] using alive
  · simp [submitted, calls]

theorem Leads.submits {h : Gather c} (leads : Leads main work n g h)
    (same : h.futures.length = g.futures.length) (submits : Submits main work n h) :
    Submits main work n g := by
  obtain ⟨g', more, alive, longer, done⟩ := submits
  exact ⟨g', leads.trans more, alive, longer.trans (congrArg (· + 1) same), done⟩

theorem submits_pushed (alive : g.thrown = false) {task : Task}
    (calls : g.pool.calls (.inr main) = some (.pushed task)) : Submits main work n g := by
  have moved : submitStep g.pool (.inr main) .count = some (g.pool.count (.inr main) task) := by
    simp only [submitStep, calls]
  exact (submit_leads alive (by simp) (by simp) moved).submits rfl
    (submits_counted alive (Function.update_self _ _ _))

-- If there is no memory for another task, there is when the workers are through.
theorem Good.submits_placing (good : Good main work n g) (two : 2 ≤ c.workers)
    (memory : 0 < c.memory) (alive : g.thrown = false) {ticket : BitVec 64}
    (calls : g.pool.calls (.inr main) = some (.placing ticket)) : Submits main work n g := by
  have calm : ¬Publishing (g.pool.calls (.inr main)) := by
    rw [calls]
    exact id
  obtain ⟨h, leads, futures, thrown, same, -, all⟩ := good.drains two calm
  have room : h.pool.pushed < h.pool.decremented.length + c.memory := by omega
  have moved : submitStep h.pool (.inr main) .push = some (h.pool.push (.inr main) ticket) := by
    simp only [submitStep, same, calls, if_pos room]
  refine leads.submits (congrArg List.length futures) ?_
  exact (submit_leads (thrown.trans alive) (by simp) (by simp) moved).submits rfl
    (submits_pushed (thrown.trans alive) (Function.update_self _ _ _))

theorem Good.submits (good : Good main work n g) (two : 2 ≤ c.workers) (memory : 0 < c.memory)
    (alive : g.thrown = false) (less : g.futures.length < n) : Submits main work n g := by
  cases calls : g.pool.calls (.inr main) with
  | none =>
    have free : g.pool.mayCall (.inr main) = true := by
      simp [State.mayCall, good.clients main]
    have moved : submitStep g.pool (.inr main) .start = some
        { g.pool.callAt (.inr main) (some (.placing g.pool.rr)) with rr := g.pool.rr + 1 } := by
      simp only [submitStep, calls, if_pos free]
    have leads : Leads main work n g _ :=
      submit_leads alive (fun _ => less) (by simp) moved
    exact leads.submits rfl
      ((leads.good good).submits_placing two memory alive (Function.update_self _ _ _))
  | some pc =>
    cases pc with
    | placing ticket => exact good.submits_placing two memory alive calls
    | pushed task => exact submits_pushed alive calls
    | counted task => exact submits_counted alive calls

theorem Good.submits_all (good : Good main work n g) (two : 2 ≤ c.workers) (memory : 0 < c.memory)
    (alive : g.thrown = false) :
    ∃ g', Leads main work n g g' ∧ g'.thrown = false ∧ g'.futures.length = n := by
  induction left : n - g.futures.length generalizing g with
  | zero => exact ⟨g, .refl g, alive, Nat.le_antisymm good.within.1 (by omega)⟩
  | succ rest ih =>
    obtain ⟨h, leads, alive', longer, -⟩ := good.submits two memory alive (by omega)
    obtain ⟨g', more, done⟩ := ih (leads.good good) alive' (by omega)
    exact ⟨g', leads.trans more, done⟩

theorem Good.takes_all (good : Good main work n g) (alive : g.thrown = false)
    (all : g.futures.length = n) (done : ∀ task < n, task ∈ g.pool.finished) :
    ∃ g', Leads main work n g g' ∧ g'.Finished n := by
  induction left : n - g.taken generalizing g with
  | zero => exact ⟨g, .refl g, all, Nat.le_antisymm (all ▸ good.taken.1) (by omega)⟩
  | succ rest ih =>
    have future : g.futures[g.taken]? = some g.taken := by
      rw [good.futures, all]
      exact List.getElem?_range (by omega)
    have turned : turn main work n g .get =
        some ({ g with sum := g.sum + work g.taken, taken := g.taken + 1 }, ()) := by
      rw [turn, if_pos ⟨alive, all⟩, future, Option.bind_some, good.ready,
        if_pos (done g.taken (by omega)), Option.map_some]
    have leads : Leads main work n g _ := .step (by rfl) turned
    obtain ⟨g', more, finished⟩ := ih (leads.good good) alive all done (by simp only; omega)
    exact ⟨g', leads.trans more, finished⟩

theorem Good.finishes (good : Good main work n g) (two : 2 ≤ c.workers) (memory : 0 < c.memory)
    (alive : g.thrown = false) : ∃ g', Leads main work n g g' ∧ g'.Finished n := by
  obtain ⟨h, leads, alive', all⟩ := good.submits_all two memory alive
  have good' := leads.good good
  have calls : h.pool.calls (.inr main) = none := by
    by_contra some
    exact absurd (good'.within.2 some) (by omega)
  have call := good'.call
  rw [calls] at call
  obtain ⟨k, more, futures, thrown, -, pushed, drained⟩ := good'.drains two (by rw [calls]; exact id)
  have good'' := more.good good'
  obtain ⟨actions, log, ran⟩ := good''.reached
  have finished := ((run_ledger ran).all_finished drained).2
  obtain ⟨g', last, done⟩ := good''.takes_all (thrown.trans alive')
    ((congrArg List.length futures).trans all) fun task less =>
      finished task (by rw [pushed, show h.pool.pushed = _ from call, all]; exact less)
  exact ⟨g', (leads.trans more).trans last, done⟩

end

end Gather

/--
However the workers are scheduled, every future delivers what the callable that it was submitted
with returns, and a thread that is through has their sum. With two workers and memory for a task it
can always get there, unless a `submit` has thrown: no lost notification leaves it waiting.
-/
theorem futures_deliver (main : Fin c.clients) (work : Nat → UInt64) (n : Nat)
    {turns : List (Gather.Turn c)} {g : Gather c} {log : List (Gather.Turn c × Unit)}
    (ran : Runs.run (Gather.turn main work n) (Gather.start c) turns = some (g, log)) :
    (∀ i task v, g.futures[i]? = some task → g.ready task = some v → v = work i) ∧
      (g.Finished n → g.sum = ((List.range n).map work).sum) ∧
      (2 ≤ c.workers → 0 < c.memory → g.thrown = false →
        ∃ more g' late, Runs.run (Gather.turn main work n) g more = some (g', late) ∧
          (∀ t ∈ more, t.steady = true) ∧ g'.Finished n) := by
  have good := Gather.run_good ran
  refine ⟨fun i task v future ready => ?_, fun finished => ?_, fun two memory alive => ?_⟩
  · rw [good.futures] at future
    obtain ⟨less, rfl⟩ := List.getElem?_eq_some_iff.mp future
    rw [List.getElem_range, good.ready] at ready
    obtain ⟨-, same⟩ := Option.ite_none_right_eq_some.mp ready
    exact (Option.some.inj same).symm
  · rw [good.sum, finished.taken]
  · obtain ⟨g', ⟨more, late, steady, ran'⟩, finished⟩ := good.finishes two memory alive
    exact ⟨more, g', late, ran', steady, finished⟩

-- One worker has begun to look for work, and the first `submit` has yet to count its task.
def beginGather : List (Gather.Turn twoWorkers) :=
  [.submit .start, .worker ⟨0, by decide⟩ .loadStop, .submit .push]

theorem futures_deliver_beginGather : ∃ g log,
    Runs.run (Gather.turn 0 (fun i => .ofNat (i + 1)) 2) (Gather.start twoWorkers) beginGather =
        some (g, log) ∧
      (∀ (i : Nat) (task : Task) (v : UInt64), g.futures[i]? = some task → g.ready task = some v →
        v = .ofNat (i + 1)) ∧
      (g.Finished 2 → g.sum = ((List.range 2).map fun i => UInt64.ofNat (i + 1)).sum) ∧
      ∃ more g' late, Runs.run (Gather.turn 0 (fun i => .ofNat (i + 1)) 2) g more =
          some (g', late) ∧ (∀ t ∈ more, t.steady = true) ∧ g'.Finished 2 := by
  obtain ⟨g, log, ran, alive⟩ : ∃ g log,
      Runs.run (Gather.turn 0 (fun i => .ofNat (i + 1)) 2) (Gather.start twoWorkers) beginGather =
        some (g, log) ∧ g.thrown = false := ⟨_, _, rfl, rfl⟩
  obtain ⟨delivers, sums, gathers⟩ := futures_deliver 0 (fun i => .ofNat (i + 1)) 2 ran
  exact ⟨g, log, ran, delivers, sums, gathers (by decide) (by decide) alive⟩

end CppPractice.WorkStealingThreadPool
