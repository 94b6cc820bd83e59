import CppPractice.Pool.Once
import Mathlib.Data.Int.CardIntervalMod

set_option autoImplicit false

namespace CppPractice.WorkStealingThreadPool

open Tally (tally)

variable {c : Config}

def ticketOf : Option SubmitPc → Multiset (BitVec 64)
  | some (.placing ticket) => {ticket}
  | _ => 0

@[simp] theorem ticketOf_none : ticketOf none = 0 := rfl

@[simp] theorem ticketOf_placing (ticket : BitVec 64) :
    ticketOf (some (.placing ticket)) = {ticket} := rfl

@[simp] theorem ticketOf_pushed (task : Task) : ticketOf (some (.pushed task)) = 0 := rfl

@[simp] theorem ticketOf_counted (task : Task) : ticketOf (some (.counted task)) = 0 := rfl

def Action.draws : Action c → Bool
  | .submit _ .start => true
  | _ => false

def Action.fails : Action c → Bool
  | .submit _ .fail => true
  | _ => false

namespace State

variable (s : State c)

def drawn : Multiset (BitVec 64) := ∑ thread, ticketOf (s.calls thread)

def grows (action : Action c) : List (Fin c.workers → Nat) :=
  (step s action).toList.map fun next w => (next.1.deques w).length - (s.deques w).length

end State

-- How many tasks the deque of a worker was given.
def given (start : State c) (actions : List (Action c)) (w : Fin c.workers) : Nat :=
  tally (· w) (Runs.trace step State.grows start actions)

def Config.share (c : Config) (calls : Nat) (w : Fin c.workers) : Nat :=
  calls / c.workers + if w < calls % c.workers then 1 else 0

/-- All tickets ever drawn: held by a call, used for a push, or lost with a call that failed. -/
structure Dealt (s : State c) (draws : Nat) (placed lost : Multiset (BitVec 64)) : Prop where
  rr : s.rr = BitVec.ofNat 64 draws
  tickets : s.drawn + placed + lost = (Multiset.range draws).map (BitVec.ofNat 64)

theorem init_dealt (c : Config) : Dealt (State.init c) 0 0 0 where
  rr := rfl
  tickets := by simp [State.drawn, State.init, ticketOf]

section

variable {s s' : State c} {draws : Nat} {placed lost : Multiset (BitVec 64)}

theorem drawn_update {thread : Thread c} {pc : Option SubmitPc}
    (moved : s'.calls = Function.update s.calls thread pc) :
    s'.drawn + ticketOf (s.calls thread) = s.drawn + ticketOf pc := by
  rw [State.drawn, moved]
  exact Tally.sum_update ticketOf s.calls thread pc

theorem Dealt.keep (dealt : Dealt s draws placed lost) {thread : Thread c} {pc : Option SubmitPc}
    (before : ticketOf (s.calls thread) = 0) (after : ticketOf pc = 0)
    (moved : s'.calls = Function.update s.calls thread pc) (rr : s'.rr = s.rr) :
    Dealt s' draws placed lost := by
  have same := drawn_update moved
  rw [before, after, add_zero, add_zero] at same
  exact ⟨rr.trans dealt.rr, by rw [same, dealt.tickets]⟩

theorem Dealt.same (dealt : Dealt s draws placed lost) (calls : s'.calls = s.calls)
    (rr : s'.rr = s.rr) : Dealt s' draws placed lost :=
  ⟨rr.trans dealt.rr, by rw [State.drawn, calls]; exact dealt.tickets⟩

structure Deals (s s' : State c) (action : Action c) (draws : Nat)
    (placed lost used gone : Multiset (BitVec 64)) : Prop where
  dealt : Dealt s' (draws + if action.draws then 1 else 0) (placed + used) (lost + gone)
  kept : action.fails = false → gone = 0
  -- The deques get longer by the tasks pushed with these tickets, each at its place.
  grown : ∀ w, (s'.deques w).length - (s.deques w).length =
    used.countP fun ticket => c.index ticket.toNat = w

theorem Dealt.quiet {action : Action c} (dealt : Dealt s' draws placed lost)
    (draws' : action.draws = false) (shorter : ∀ w, (s'.deques w).length ≤ (s.deques w).length) :
    Deals s s' action draws placed lost 0 0 where
  dealt := by simpa [draws'] using dealt
  kept _ := rfl
  grown w := by
    rw [Multiset.countP_zero]
    exact Nat.sub_eq_zero_of_le (shorter w)

theorem push_length (s : State c) (thread : Thread c) (ticket : BitVec 64) (w : Fin c.workers) :
    ((s.push thread ticket).deques w).length = (s.deques w).length +
      if c.index ticket.toNat = w then 1 else 0 := by
  by_cases here : w = c.index ticket.toNat
  · rw [here, if_pos rfl]
    exact congrArg List.length (Function.update_self _ _ s.deques)
  · rw [if_neg (Ne.symm here)]
    exact congrArg List.length (Function.update_of_ne here _ s.deques)

theorem Dealt.caller (dealt : Dealt s draws placed lost) {thread : Thread c}
    {action : SubmitAction c} (effect : CallEffect s thread action s') :
    ∃ used gone, Deals s s' (.submit thread action) draws placed lost used gone := by
  cases effect with
  | start was free =>
    have same : State.drawn { s.callAt thread (some (.placing s.rr)) with rr := s.rr + 1 } +
        ticketOf (s.calls thread) = s.drawn + ticketOf (some (.placing s.rr)) := drawn_update rfl
    rw [was, ticketOf_none, ticketOf_placing, add_zero] at same
    have drawn : s.rr + 1 = BitVec.ofNat 64 (draws + 1) := by
      rw [dealt.rr, BitVec.ofNat_add]
      rfl
    refine ⟨0, 0, ⟨drawn, ?_⟩, fun _ => rfl, fun w => Nat.sub_self _⟩
    simp only [Action.draws, if_true, add_zero]
    rw [Multiset.range_succ, Multiset.map_cons, ← dealt.tickets, same, ← dealt.rr,
      ← Multiset.singleton_add]
    abel
  | @fail ticket was =>
    have same : (s.callAt thread none).drawn + ticketOf (s.calls thread) =
        s.drawn + ticketOf none := drawn_update rfl
    rw [was, ticketOf_none, ticketOf_placing, add_zero] at same
    refine ⟨0, {ticket}, ⟨dealt.rr, ?_⟩, fun fails => absurd fails (by simp [Action.fails]),
      fun w => Nat.sub_self _⟩
    simp only [Action.draws, Bool.false_eq_true, if_false, add_zero]
    rw [← dealt.tickets, ← same]
    abel
  | @push ticket was room =>
    have same : (s.push thread ticket).drawn + ticketOf (s.calls thread) =
        s.drawn + ticketOf (some (.pushed s.pushed)) := drawn_update rfl
    rw [was, ticketOf_pushed, ticketOf_placing, add_zero] at same
    refine ⟨{ticket}, 0, ⟨dealt.rr, ?_⟩, fun _ => rfl, fun w => ?_⟩
    · simp only [Action.draws, Bool.false_eq_true, if_false, add_zero]
      rw [← dealt.tickets, ← same]
      abel
    · rw [push_length, Nat.add_sub_cancel_left, ← Multiset.coe_singleton, Multiset.coe_countP,
        List.countP_singleton]
      simp only [decide_eq_true_eq]
  | @count task was =>
    have kept : Dealt (s.count thread task) draws placed lost :=
      dealt.keep (by rw [was, ticketOf_pushed]) (ticketOf_counted task) rfl rfl
    exact ⟨0, 0, kept.quiet rfl fun w => le_rfl⟩
  | @notify task woken was wakes =>
    have kept : Dealt (s.notify thread task woken) draws placed lost :=
      dealt.keep (by rw [was, ticketOf_counted]) ticketOf_none rfl rfl
    exact ⟨0, 0, kept.quiet rfl fun w => le_rfl⟩

theorem step_dealt {action : Action c} {reply : Unit} (dealt : Dealt s draws placed lost)
    (stepped : step s action = some (s', reply)) :
    ∃ used gone, Deals s s' action draws placed lost used gone := by
  refine step_effects (P := fun s action s' => Dealt s draws placed lost →
    ∃ used gone, Deals s s' action draws placed lost used gone) ?_ ?_ ?_ stepped dealt
  · intro w action s' effect dealt
    have kept : Dealt s' draws placed lost := by cases effect <;> exact dealt.same rfl rfl
    obtain ⟨pc, worked⟩ := effect.worked
    exact ⟨0, 0, kept.quiet rfl fun v => (worked.shorter v).length_le⟩
  · exact fun thread action s' effect dealt => dealt.caller effect
  · intro i action s' effect dealt
    have kept : Dealt s' draws placed lost := by cases effect <;> exact dealt.same rfl rfl
    exact ⟨0, 0, kept.quiet rfl fun w => by cases effect <;> exact le_rfl⟩

end

theorem run_dealt {actions : List (Action c)} {s : State c} {log : List (Action c × Unit)}
    (ran : Runs.run step (State.init c) actions = some (s, log)) :
    ∃ placed lost, Dealt s (actions.countP Action.draws) placed lost ∧
      (∀ w, given (State.init c) actions w =
        placed.countP fun ticket => c.index ticket.toNat = w) ∧
      ((∀ action ∈ actions, action.fails = false) → lost = 0) := by
  have dealt := Runs.run_traced State.grows
    (P := fun grown log s => ∃ placed lost,
      Dealt s ((log.map Prod.fst).countP Action.draws) placed lost ∧
      (∀ w, tally (· w) grown = placed.countP fun ticket => c.index ticket.toNat = w) ∧
      ((∀ action ∈ log.map Prod.fst, action.fails = false) → lost = 0))
    ⟨0, 0, init_dealt c, fun w => by rw [Tally.tally_nil, Multiset.countP_zero], fun _ => rfl⟩ ?_ ran
  · rwa [Runs.run_inputs ran] at dealt
  · rintro front s grown log action s' reply - ⟨placed, lost, dealt, pushed, kept⟩ stepped
    obtain ⟨used, gone, next⟩ := step_dealt dealt stepped
    have grows : s.grows action = [fun w => (s'.deques w).length - (s.deques w).length] := by
      rw [State.grows, stepped]
      rfl
    refine ⟨placed + used, lost + gone, ?_, fun w => ?_, fun sound => ?_⟩
    · rw [List.map_append, List.countP_append, List.map_singleton, List.countP_singleton]
      exact next.dealt
    · rw [grows, Tally.tally_append, Tally.tally_cons, Tally.tally_nil, add_zero, pushed,
        Multiset.countP_add, ← next.grown]
    · rw [List.map_append, List.map_singleton] at sound
      rw [kept fun a member => sound a (List.mem_append_left _ member),
        next.kept (sound action (by simp)), add_zero]

-- The counter wraps around. That does not show when the number of workers divides 2 ^ 64.
def Config.Regular (c : Config) (calls : Nat) : Prop := c.workers ∣ 2 ^ 64 ∨ calls ≤ 2 ^ 64

theorem index_ticket {calls j : Nat} (regular : c.Regular calls) (member : j < calls) :
    c.index (BitVec.ofNat 64 j).toNat = c.index j := by
  rw [BitVec.toNat_ofNat, Config.index, Config.index, Fin.mk.injEq]
  rcases regular with divides | few
  · exact Nat.mod_mod_of_dvd j divides
  · rw [Nat.mod_eq_of_lt (show j < 2 ^ 64 by omega)]

theorem count_tickets {calls : Nat} (regular : c.Regular calls) (w : Fin c.workers) :
    ((Multiset.range calls).map (BitVec.ofNat 64)).countP (fun ticket => c.index ticket.toNat = w) =
      c.share calls w := by
  have same : ∀ j ∈ Multiset.range calls,
      (c.index (BitVec.ofNat 64 j).toNat = w ↔ j ≡ w [MOD c.workers]) := by
    intro j member
    rw [index_ticket regular (Multiset.mem_range.mp member), Config.index, Fin.ext_iff, Nat.ModEq,
      Nat.mod_eq_of_lt w.isLt]
  calc ((Multiset.range calls).map (BitVec.ofNat 64)).countP (fun ticket => c.index ticket.toNat = w)
      = (Multiset.range calls).countP (fun j => j ≡ w [MOD c.workers]) := by
        rw [Multiset.countP_map, ← Multiset.countP_eq_card_filter]
        exact Multiset.countP_congr rfl fun j member => propext (same j member)
    _ = Nat.count (fun j => j ≡ w [MOD c.workers]) calls := by
        rw [Nat.count_eq_card_filter_range, Multiset.countP_eq_card_filter]
        rfl
    _ = c.share calls w := by
        rw [Nat.count_modEq_card calls c.someWorker, Nat.mod_eq_of_lt w.isLt, Config.share]

theorem share_le (calls : Nat) (v w : Fin c.workers) : c.share calls v ≤ c.share calls w + 1 := by
  unfold Config.share
  split_ifs <;> omega

/-- At any time no deque has been given more tasks than its share of the calls so far. Once every
call has pushed its task, and none has failed, each deque has been given exactly its share, which
differs by at most one from another's. -/
theorem spread_evenly {actions : List (Action c)} {s : State c} {log : List (Action c × Unit)}
    (ran : Runs.run step (State.init c) actions = some (s, log))
    (regular : c.Regular (actions.countP Action.draws)) (w : Fin c.workers) :
    given (State.init c) actions w ≤ c.share (actions.countP Action.draws) w ∧
    ((∀ action ∈ actions, action.fails = false) →
      (∀ thread, ticketOf (s.calls thread) = 0) →
      given (State.init c) actions w = c.share (actions.countP Action.draws) w ∧
      ∀ v, given (State.init c) actions v ≤ given (State.init c) actions w + 1) := by
  obtain ⟨placed, lost, dealt, pushed, kept⟩ := run_dealt ran
  have total : ∀ v, (s.drawn.countP fun ticket => c.index ticket.toNat = v) +
      given (State.init c) actions v + (lost.countP fun ticket => c.index ticket.toNat = v) =
        c.share (actions.countP Action.draws) v := by
    intro v
    rw [← count_tickets regular v, ← dealt.tickets, Multiset.countP_add, Multiset.countP_add,
      pushed]
  refine ⟨by have := total w; omega, fun sound settled => ?_⟩
  have none : s.drawn = 0 := Finset.sum_eq_zero fun thread _ => settled thread
  have exactly : ∀ v, given (State.init c) actions v =
      c.share (actions.countP Action.draws) v := by
    intro v
    have := total v
    rwa [none, kept sound, Multiset.countP_zero, zero_add, add_zero] at this
  refine ⟨exactly w, fun v => ?_⟩
  rw [exactly v, exactly w]
  exact share_le _ v w

def submitThree : List (Action twoWorkers) :=
  submitBy (.inr 0) none ++ submitBy (.inr 0) none ++ submitBy (.inr 0) none

theorem spread_evenly_submitThree : ∃ s log,
    Runs.run step (State.init twoWorkers) submitThree = some (s, log) ∧
      ∀ w, given (State.init twoWorkers) submitThree w ≤ twoWorkers.share 3 w ∧
        given (State.init twoWorkers) submitThree w = twoWorkers.share 3 w ∧
        ∀ v, given (State.init twoWorkers) submitThree v ≤
          given (State.init twoWorkers) submitThree w + 1 := by
  obtain ⟨s, log, ran, quiet⟩ : ∃ s log,
      Runs.run step (State.init twoWorkers) submitThree = some (s, log) ∧
        ∀ thread, ticketOf (s.calls thread) = 0 := ⟨_, _, rfl, by decide⟩
  refine ⟨s, log, ran, fun w => ?_⟩
  obtain ⟨atMost, exactly⟩ := spread_evenly ran (.inl (by decide)) w
  exact ⟨atMost, exactly (by decide) quiet⟩

end CppPractice.WorkStealingThreadPool
