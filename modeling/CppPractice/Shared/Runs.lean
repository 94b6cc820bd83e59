import Mathlib.Data.List.Basic
import Mathlib.Data.List.Infix

set_option autoImplicit false

namespace Runs

variable {S A R : Type}

def run (step : S → A → Option (S × R)) : S → List A → Option (S × List (A × R))
  | s, [] => some (s, [])
  | s, a :: rest =>
    (step s a).bind fun next =>
      (run step next.1 rest).map fun final => (final.1, (a, next.2) :: final.2)

variable {step : S → A → Option (S × R)} {start : S}

theorem run_append (start : S) (front rest : List A) :
    run step start (front ++ rest) =
      (run step start front).bind fun middle =>
        (run step middle.1 rest).map fun final => (final.1, middle.2 ++ final.2) := by
  induction front generalizing start with
  | nil => simp [run]
  | cons a front ih =>
    simp only [List.cons_append, run, ih]
    cases step start a with
    | none => rfl
    | some next =>
      simp only [Option.bind_some]
      cases run step next.1 front <;> simp [Function.comp_def]

theorem run_snoc_iff {front : List A} {a : A} {final : S} {log : List (A × R)} :
    run step start (front ++ [a]) = some (final, log) ↔
      ∃ s before reply, run step start front = some (s, before) ∧
        step s a = some (final, reply) ∧ log = before ++ [(a, reply)] := by
  rw [run_append]
  cases run step start front with
  | none => simp
  | some middle =>
    obtain ⟨s, before⟩ := middle
    cases stepped : step s a with
    | none => simp [run, stepped]
    | some next =>
      obtain ⟨t, reply⟩ := next
      simp [run, stepped, eq_comm]

def trace {O : Type} (step : S → A → Option (S × R)) (out : S → A → List O) : S → List A → List O
  | _, [] => []
  | s, a :: rest => out s a ++ (step s a).elim [] fun next => trace step out next.1 rest

theorem trace_snoc {O : Type} (out : S → A → List O) {front : List A} {s : S} {log : List (A × R)}
    (ran : run step start front = some (s, log)) (a : A) :
    trace step out start (front ++ [a]) = trace step out start front ++ out s a := by
  induction front generalizing start log with
  | nil =>
    obtain ⟨rfl, -⟩ := Prod.mk.inj (Option.some.inj ran)
    cases stepped : step start a <;> simp [trace, stepped]
  | cons b front ih =>
    rw [run, Option.bind_eq_some_iff] at ran
    obtain ⟨next, stepped, rest⟩ := ran
    obtain ⟨final, early, same⟩ := Option.map_eq_some_iff.mp rest
    obtain ⟨rfl, -⟩ := Prod.mk.inj same
    rw [List.cons_append, trace, trace, stepped, Option.elim_some, Option.elim_some, ih early,
      List.append_assoc]

theorem run_inputs {inputs : List A} {s : S} {log : List (A × R)}
    (ran : run step start inputs = some (s, log)) : log.map Prod.fst = inputs := by
  induction inputs using List.reverseRecOn generalizing s log with
  | nil =>
    simp only [run, Option.some.injEq, Prod.mk.injEq] at ran
    obtain ⟨rfl, rfl⟩ := ran
    rfl
  | append_singleton front a ih =>
    obtain ⟨middle, before, reply, early, -, rfl⟩ := run_snoc_iff.mp ran
    simp [ih early]

theorem run_split {inputs : List A} {s : S} {front back : List (A × R)}
    (ran : run step start inputs = some (s, front ++ back)) :
    ∃ middle, run step start (front.map Prod.fst) = some (middle, front) ∧
      run step middle (back.map Prod.fst) = some (s, back) := by
  rw [← run_inputs ran, List.map_append, run_append] at ran
  obtain ⟨⟨middle, early⟩, first, rest⟩ := Option.bind_eq_some_iff.mp ran
  obtain ⟨⟨final, late⟩, second, same⟩ := Option.map_eq_some_iff.mp rest
  obtain ⟨rfl, logs⟩ := Prod.mk.inj same
  have lengths : early.length = front.length := by
    simpa using congrArg List.length (run_inputs first)
  obtain ⟨rfl, rfl⟩ := List.append_inj logs lengths
  exact ⟨middle, first, second⟩

theorem run_entry {inputs : List A} {s : S} {front back : List (A × R)} {a : A} {reply : R}
    (ran : run step start inputs = some (s, front ++ (a, reply) :: back)) :
    ∃ before after, run step start (front.map Prod.fst) = some (before, front) ∧
      step before a = some (after, reply) ∧
      run step after (back.map Prod.fst) = some (s, back) := by
  obtain ⟨before, early, late⟩ := run_split ran
  obtain ⟨⟨after, answer⟩, stepped, rest⟩ := Option.bind_eq_some_iff.mp late
  obtain ⟨⟨final, later⟩, more, same⟩ := Option.map_eq_some_iff.mp rest
  obtain ⟨rfl, entries⟩ := Prod.mk.inj same
  obtain ⟨entry, rfl⟩ := List.cons.inj entries
  obtain ⟨-, rfl⟩ := Prod.mk.inj entry
  exact ⟨before, after, early, stepped, more⟩

theorem run_guarded {P C : List (A × R) → S → Prop} (init : P [] start)
    (next : ∀ front s log a s' reply, run step start front = some (s, log) → P log s →
      step s a = some (s', reply) → C (log ++ [(a, reply)]) s' → P (log ++ [(a, reply)]) s')
    {inputs : List A} {s : S} {log : List (A × R)}
    (guarded : ∀ front s log, front <+: inputs → run step start front = some (s, log) → C log s)
    (ran : run step start inputs = some (s, log)) : P log s := by
  induction inputs using List.reverseRecOn generalizing s log with
  | nil =>
    simp only [run, Option.some.injEq, Prod.mk.injEq] at ran
    obtain ⟨rfl, rfl⟩ := ran
    exact init
  | append_singleton front a ih =>
    have guard := guarded _ _ _ (List.prefix_refl _) ran
    obtain ⟨middle, before, reply, early, stepped, rfl⟩ := run_snoc_iff.mp ran
    have earlier : P before middle :=
      ih (fun front' s log isPrefix => guarded front' s log
        (isPrefix.trans (List.prefix_append front [a]))) early
    exact next front middle before a s reply early earlier stepped guard

theorem run_induction {P : List (A × R) → S → Prop} (init : P [] start)
    (next : ∀ front s log a s' reply, run step start front = some (s, log) → P log s →
      step s a = some (s', reply) → P (log ++ [(a, reply)]) s')
    {inputs : List A} {s : S} {log : List (A × R)}
    (ran : run step start inputs = some (s, log)) : P log s :=
  run_guarded (C := fun _ _ => True) init
    (fun front s log a s' reply early holds stepped _ =>
      next front s log a s' reply early holds stepped)
    (fun _ _ _ _ _ => trivial) ran

theorem run_total {P : List A → S → Prop} {C : List A → Prop} (init : P [] start)
    (shorter : ∀ front a, C (front ++ [a]) → C front)
    (next : ∀ front s a, C (front ++ [a]) → P front s →
      ∃ s' reply, step s a = some (s', reply) ∧ P (front ++ [a]) s')
    {inputs : List A} (allowed : C inputs) :
    ∃ s log, run step start inputs = some (s, log) ∧ P inputs s := by
  induction inputs using List.reverseRecOn with
  | nil => exact ⟨start, [], rfl, init⟩
  | append_singleton front a ih =>
    obtain ⟨s, log, ran, holds⟩ := ih (shorter front a allowed)
    obtain ⟨s', reply, stepped, holds'⟩ := next front s a allowed holds
    exact ⟨s', log ++ [(a, reply)], run_snoc_iff.mpr ⟨s, log, reply, ran, stepped, rfl⟩, holds'⟩

theorem run_traced {O : Type} (out : S → A → List O) {P : List O → List (A × R) → S → Prop}
    (init : P [] [] start)
    (next : ∀ front s outs log a s' reply, run step start front = some (s, log) →
      P outs log s → step s a = some (s', reply) →
      P (outs ++ out s a) (log ++ [(a, reply)]) s')
    {inputs : List A} {s : S} {log : List (A × R)}
    (ran : run step start inputs = some (s, log)) : P (trace step out start inputs) log s := by
  induction inputs using List.reverseRecOn generalizing s log with
  | nil =>
    obtain ⟨rfl, rfl⟩ := Prod.mk.inj (Option.some.inj ran)
    exact init
  | append_singleton front a ih =>
    obtain ⟨middle, before, reply, early, stepped, rfl⟩ := run_snoc_iff.mp ran
    rw [trace_snoc out early]
    exact next front middle _ before a s reply early (ih early) stepped

theorem run_lockstep {T : Type} {g : T → A → Option (T × R)} {J C : S → T → Prop}
    (each : ∀ s t a s' reply, J s t → step s a = some (s', reply) →
      ∃ t', g t a = some (t', reply) ∧ (C s' t' → J s' t'))
    {inputs : List A} {s : S} {t : T} {log : List (A × R)} (related : J start t)
    (guarded : ∀ front s t' log, front <+: inputs → run step start front = some (s, log) →
      run g t front = some (t', log) → C s t')
    (ran : run step start inputs = some (s, log)) :
    ∃ t', run g t inputs = some (t', log) ∧ J s t' := by
  induction inputs using List.reverseRecOn generalizing s log with
  | nil =>
    obtain ⟨rfl, rfl⟩ := Prod.mk.inj (Option.some.inj ran)
    exact ⟨t, rfl, related⟩
  | append_singleton front a ih =>
    obtain ⟨middle, before, reply, early, stepped, rfl⟩ := run_snoc_iff.mp ran
    obtain ⟨t', follows, related'⟩ := ih (fun front' s t' log isPrefix => guarded front' s t' log
      (isPrefix.trans (List.prefix_append front [a]))) early
    obtain ⟨t'', stepped', next⟩ := each middle t' a s reply related' stepped
    have follows' := run_snoc_iff.mpr ⟨t', before, reply, follows, stepped', rfl⟩
    exact ⟨t'', follows', next (guarded _ s t'' _ (List.prefix_refl _) ran follows')⟩

-- The second machine is fed the inputs translated, and answers in translation.
theorem run_mapped {T B W : Type} {g : T → B → Option (T × W)} {f : A → B} {h : R → W}
    {J : S → T → Prop}
    (each : ∀ s t a s' reply, J s t → step s a = some (s', reply) →
      ∃ t', g t (f a) = some (t', h reply) ∧ J s' t')
    {inputs : List A} {s : S} {t : T} {log : List (A × R)} (related : J start t)
    (ran : run step start inputs = some (s, log)) :
    ∃ t', run g t (inputs.map f) = some (t', log.map (Prod.map f h)) ∧ J s t' := by
  induction inputs using List.reverseRecOn generalizing s log with
  | nil =>
    obtain ⟨rfl, rfl⟩ := Prod.mk.inj (Option.some.inj ran)
    exact ⟨t, rfl, related⟩
  | append_singleton front a ih =>
    obtain ⟨middle, before, reply, early, stepped, rfl⟩ := run_snoc_iff.mp ran
    obtain ⟨t', follows, related'⟩ := ih early
    obtain ⟨t'', stepped', next⟩ := each middle t' a s reply related' stepped
    refine ⟨t'', ?_, next⟩
    rw [List.map_append, List.map_append, List.map_singleton]
    exact run_snoc_iff.mpr ⟨t', _, _, follows, stepped', rfl⟩

theorem run_conditioned {P : List (A × R) → S → Prop} {Q : S → A → Prop} (init : P [] start)
    (next : ∀ front s log a s' reply, run step start front = some (s, log) → P log s → Q s a →
      step s a = some (s', reply) → P (log ++ [(a, reply)]) s')
    {inputs : List A} {s : S} {log : List (A × R)}
    (each : ∀ front a s log result, front ++ [a] <+: inputs →
      run step start front = some (s, log) → step s a = some result → Q s a)
    (ran : run step start inputs = some (s, log)) : P log s := by
  induction inputs using List.reverseRecOn generalizing s log with
  | nil =>
    simp only [run, Option.some.injEq, Prod.mk.injEq] at ran
    obtain ⟨rfl, rfl⟩ := ran
    exact init
  | append_singleton front a ih =>
    obtain ⟨middle, before, reply, early, stepped, rfl⟩ := run_snoc_iff.mp ran
    have earlier := ih (fun front' a' s log result isPrefix => each front' a' s log result
      (isPrefix.trans (List.prefix_append front [a]))) early
    exact next front middle before a s reply early earlier
      (each front a middle before _ (List.prefix_refl _) early stepped) stepped

theorem always_iff {P : List (A × R) → S → Prop} {Q : S → A → Prop} (init : P [] start)
    (exact_step : ∀ front s log a s' reply, run step start front = some (s, log) → P log s →
      step s a = some (s', reply) → (P (log ++ [(a, reply)]) s' ↔ Q s a)) {inputs : List A} :
    (∀ front s log, front <+: inputs → run step start front = some (s, log) → P log s) ↔
      ∀ front a s log result, front ++ [a] <+: inputs → run step start front = some (s, log) →
        step s a = some result → Q s a := by
  constructor
  · intro always front a s log result isPrefix early stepped
    obtain ⟨s', reply⟩ := result
    have now := always front s log ((List.prefix_append front [a]).trans isPrefix) early
    have late := run_snoc_iff.mpr ⟨s, log, reply, early, stepped, rfl⟩
    exact (exact_step front s log a s' reply early now stepped).mp (always _ _ _ isPrefix late)
  · intro each front s log isPrefix ran
    exact run_conditioned init
      (fun front s log a s' reply early now holds stepped =>
        (exact_step front s log a s' reply early now stepped).mpr holds)
      (fun front' a s log result earlier => each front' a s log result (earlier.trans isPrefix)) ran

def Each (step : S → A → Option (S × R)) (Q : S → A → Prop) : S → List A → Prop
  | _, [] => True
  | s, a :: rest => Q s a ∧ (step s a).elim True fun next => Each step Q next.1 rest

instance decidableEach {Q : S → A → Prop} [∀ s a, Decidable (Q s a)] :
    (inputs : List A) → (s : S) → Decidable (Each step Q s inputs)
  | [], _ => isTrue trivial
  | a :: rest, s =>
    match stepped : step s a with
    | none => decidable_of_iff (Q s a) (by simp [Each, stepped])
    | some next =>
      have : Decidable (Each step Q next.1 rest) := decidableEach rest next.1
      decidable_of_iff (Q s a ∧ Each step Q next.1 rest) (by simp [Each, stepped])

theorem each_snoc_iff {Q : S → A → Prop} {front : List A} {a : A} {s : S} {log : List (A × R)}
    (ran : run step start front = some (s, log)) :
    Each step Q start (front ++ [a]) ↔ Each step Q start front ∧ Q s a := by
  induction front generalizing start log with
  | nil =>
    obtain ⟨rfl, -⟩ := Prod.mk.inj (Option.some.inj ran)
    cases stepped : step start a <;> simp [Each, stepped]
  | cons b front ih =>
    rw [run, Option.bind_eq_some_iff] at ran
    obtain ⟨next, stepped, rest⟩ := ran
    obtain ⟨final, early, same⟩ := Option.map_eq_some_iff.mp rest
    obtain ⟨rfl, -⟩ := Prod.mk.inj same
    rw [List.cons_append, Each, Each, stepped, Option.elim_some, Option.elim_some, ih early,
      and_assoc]

theorem run_each {P : S → Prop} {Q : S → A → Prop} (init : P start)
    (next : ∀ front s log a s' reply, run step start front = some (s, log) → P s → Q s a →
      step s a = some (s', reply) → P s')
    {inputs : List A} {s : S} {log : List (A × R)} (each : Each step Q start inputs)
    (ran : run step start inputs = some (s, log)) : P s := by
  induction inputs using List.reverseRecOn generalizing s log with
  | nil =>
    obtain ⟨rfl, -⟩ := Prod.mk.inj (Option.some.inj ran)
    exact init
  | append_singleton front a ih =>
    obtain ⟨middle, before, reply, early, stepped, -⟩ := run_snoc_iff.mp ran
    obtain ⟨earlier, now⟩ := (each_snoc_iff early).mp each
    exact next front middle before a s reply early (ih earlier early) now stepped

end Runs
