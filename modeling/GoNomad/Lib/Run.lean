import Mathlib.Algebra.GroupWithZero.Nat
import Mathlib.Data.List.Forall2
import Mathlib.Order.Basic

/-!
# Guarded runs of a labelled transition function

A system is a partial function from a state and an event to the next state and
an observation.  A run starts from one state and appends every event it takes,
with what was observed, to a trace.  The guard sees the trace, the state and
the event, so a restriction on schedules is a guard and needs no ghost state.

`Run.invariant` is the one induction of this file: an invariant of trace and
state that every guarded step preserves holds along every guarded run.
-/

namespace Transition

variable {σ ε ο : Type*} (step : σ → ε → Option (σ × ο))

/-- Runs from `init` in which every step satisfies the guard `ok`. -/
inductive Run (ok : List (ε × ο) → σ → ε → Prop) (init : σ) :
    List (ε × ο) → σ → Prop
  | nil : Run ok init [] init
  | snoc {trace : List (ε × ο)} {s s' : σ} {e : ε} {o : ο}
      (run : Run ok init trace s) (guard : ok trace s e)
      (taken : step s e = some (s', o)) :
      Run ok init (trace ++ [(e, o)]) s'

/-- The guard that excludes nothing. -/
def unguarded (_ : List (ε × ο)) (_ : σ) (_ : ε) : Prop := True

instance (trace : List (ε × ο)) (s : σ) (e : ε) : Decidable (unguarded trace s e) :=
  inferInstanceAs (Decidable True)

variable {step}
variable {ok ok' : List (ε × ο) → σ → ε → Prop} {init s : σ} {trace : List (ε × ο)}

/-- **Run induction.**  What holds initially and is preserved by every guarded
step holds at the end of every guarded run. -/
theorem Run.invariant (I : List (ε × ο) → σ → Prop) (hinit : I [] init)
    (hstep : ∀ trace s e s' o, I trace s → ok trace s e → step s e = some (s', o) →
      I (trace ++ [(e, o)]) s')
    (hrun : Run step ok init trace s) : I trace s := by
  induction hrun with
  | nil => exact hinit
  | snoc _ guard taken ih => exact hstep _ _ _ _ _ ih guard taken

/-- **What an event establishes** and every step preserves holds in every run
that contains the event. -/
theorem Run.established (P : σ → Prop) {e₀ : ε} {o₀ : ο}
    (hestablish : ∀ s s' o, step s e₀ = some (s', o) → P s')
    (hpreserve : ∀ s e s' o, P s → step s e = some (s', o) → P s')
    (hrun : Run step ok init trace s) (hmem : (e₀, o₀) ∈ trace) : P s := by
  induction hrun with
  | nil => cases hmem
  | @snoc trace s s' e o _ _ taken ih =>
      rcases List.mem_append.mp hmem with hmem | hmem
      · exact hpreserve s e s' o (ih hmem) taken
      · cases List.mem_singleton.mp hmem
        exact hestablish s s' _ taken

/-- A run under a guard is a run under any weaker guard. -/
theorem Run.mono (hok : ∀ trace s e, ok trace s e → ok' trace s e)
    (hrun : Run step ok init trace s) : Run step ok' init trace s := by
  induction hrun with
  | nil => exact .nil
  | snoc _ guard taken ih => exact .snoc ih (hok _ _ _ guard) taken

/-- **What a run uses up.**  Where every guarded step leaves as much less of a measure
as its event is worth, so does every run. -/
theorem Run.measured (I : σ → Nat → Prop) (worth : ε → Nat) {n : Nat} (hinit : I init n)
    (hstep : ∀ trace s e s' o n, I s n → ok trace s e → step s e = some (s', o) →
      ∃ n', I s' n' ∧ n' + worth e = n)
    (hrun : Run step ok init trace s) :
    ∃ n', I s n' ∧ n' + (trace.map fun entry => worth entry.1).sum = n := by
  induction hrun with
  | nil => exact ⟨n, hinit, rfl⟩
  | @snoc trace s s' e o _ guard taken ih =>
      obtain ⟨m, hm, hsum⟩ := ih
      obtain ⟨n', hn', hworth⟩ := hstep trace s e s' o m hm guard taken
      refine ⟨n', hn', ?_⟩
      rw [List.map_append, List.sum_append, List.map_singleton, List.sum_singleton]
      dsimp only
      omega

/-- **A run through an entry**: the state in which the entry was taken. -/
theorem Run.split {before after : List (ε × ο)} {entry : ε × ο}
    (hrun : Run step ok init (before ++ entry :: after) s) :
    ∃ t t', Run step ok init before t ∧ ok before t entry.1 ∧ step t entry.1 = some (t', entry.2) := by
  generalize htrace : before ++ entry :: after = trace at hrun
  induction hrun generalizing after with
  | nil => simp at htrace
  | @snoc trace s s' e o run guard taken ih =>
      rcases List.eq_nil_or_concat after with rfl | ⟨after', last, rfl⟩
      · obtain ⟨rfl, hlast⟩ := List.append_inj' htrace rfl
        obtain rfl := List.singleton_inj.mp hlast
        exact ⟨s, s', run, guard, taken⟩
      · rw [List.concat_eq_append, ← List.cons_append, ← List.append_assoc] at htrace
        exact ih (List.append_inj' htrace rfl).1

/-! ### Runs without a guard -/

/-- Runs compose. -/
theorem Run.trans {t : σ} {trace' : List (ε × ο)} (h : Run step unguarded init trace s)
    (h' : Run step unguarded s trace' t) : Run step unguarded init (trace ++ trace') t := by
  induction h' with
  | nil => simpa using h
  | snoc _ _ taken ih =>
      rw [← List.append_assoc]
      exact ih.snoc trivial taken

/-- A run may be read from its front. -/
theorem Run.cons {t : σ} {e : ε} {o : ο} (taken : step init e = some (t, o))
    (h : Run step unguarded t trace s) : Run step unguarded init ((e, o) :: trace) s :=
  (Run.nil.snoc trivial taken).trans h

/-- A run that took nothing is where it started. -/
theorem Run.eq_init (h : Run step ok init [] s) : s = init := by
  generalize htrace : ([] : List (ε × ο)) = trace at h
  cases h with
  | nil => rfl
  | snoc _ _ _ => simp at htrace

/-- The first step of a run, and the run from there. -/
theorem Run.uncons {entry : ε × ο} (h : Run step unguarded init (entry :: trace) s) :
    ∃ t, step init entry.1 = some (t, entry.2) ∧ Run step unguarded t trace s := by
  generalize htrace : entry :: trace = whole at h
  induction h generalizing trace with
  | nil => cases htrace
  | @snoc before s s' e o run _ taken ih =>
      cases before with
      | nil =>
          cases htrace
          rw [run.eq_init] at taken
          exact ⟨s', taken, .nil⟩
      | cons first before =>
          obtain ⟨rfl, rfl⟩ := List.cons.inj htrace
          obtain ⟨t, hfirst, hrest⟩ := ih rfl
          exact ⟨t, hfirst, hrest.snoc trivial taken⟩

/-- A run of two parts has a state between them. -/
theorem Run.parts {trace' : List (ε × ο)} (h : Run step unguarded init (trace ++ trace') s) :
    ∃ t, Run step unguarded init trace t ∧ Run step unguarded t trace' s := by
  induction trace generalizing init with
  | nil => exact ⟨init, .nil, h⟩
  | cons entry trace ih =>
      obtain ⟨t, hfirst, hrest⟩ := h.uncons
      obtain ⟨m, hfront, hback⟩ := ih hrest
      exact ⟨m, hfront.cons hfirst, hback⟩

/-- A part of a system that runs by itself is a run of the system, when the
system steps as the part does. -/
theorem Run.embed {σ' ε' : Type*} {step' : σ' → ε' → Option (σ' × ο)} (f : σ → σ') (g : ε → ε')
    (hstep : ∀ s e t o, step s e = some (t, o) → step' (f s) (g e) = some (f t, o))
    (h : Run step unguarded init trace s) :
    Run step' unguarded (f init) (trace.map fun entry => (g entry.1, entry.2)) (f s) := by
  induction h with
  | nil => exact .nil
  | snoc _ _ taken ih =>
      rw [List.map_append]
      exact ih.snoc trivial (hstep _ _ _ _ taken)

/-! ### Simulation -/

/-- **Simulation.**  When every guarded step of one system is matched by one
step of another, or by none where its entry shows nothing there, every run of
the first shows a run of the second. -/
theorem Run.simulates {σ' ε' ο' : Type*} {step' : σ' → ε' → Option (σ' × ο')}
    {ok' : List (ε' × ο') → σ' → ε' → Prop} {init' : σ'}
    (shows : ε × ο → Option (ε' × ο')) (R : σ → σ' → Prop) (hinit : R init init')
    (hstep : ∀ trace s e t o s', R s s' → ok trace s e → step s e = some (t, o) →
      match shows (e, o) with
      | none => R t s'
      | some (e', o') => ok' (trace.filterMap shows) s' e' ∧
          ∃ t', step' s' e' = some (t', o') ∧ R t t')
    (hrun : Run step ok init trace s) :
    ∃ s', Run step' ok' init' (trace.filterMap shows) s' ∧ R s s' := by
  induction hrun with
  | nil => exact ⟨init', .nil, hinit⟩
  | @snoc trace s t e o _ guard taken ih =>
      obtain ⟨s', hrun', hrel⟩ := ih
      have hmatch := hstep trace s e t o s' hrel guard taken
      rw [List.filterMap_append]
      cases hshows : shows (e, o) with
      | none =>
          rw [hshows] at hmatch
          rw [List.filterMap_cons_none hshows, List.filterMap_nil, List.append_nil]
          exact ⟨s', hrun', hmatch⟩
      | some entry =>
          obtain ⟨e', o'⟩ := entry
          rw [hshows] at hmatch
          obtain ⟨hok', t', htaken, hrel'⟩ := hmatch
          rw [List.filterMap_cons_some hshows, List.filterMap_nil]
          exact ⟨t', hrun'.snoc hok' htaken, hrel'⟩

/-- **Two systems in lockstep.**  When every step of one is a step of another between
the same states, for an event that stands for its own, then so is every run. -/
theorem Run.lockstep {ε' ο' : Type*} {step' : σ → ε' → Option (σ × ο')} (P : ε' → ε → Prop)
    (Q : ε × ο → ε' × ο' → Prop)
    (hstep : ∀ s e t o e', P e' e → step s e = some (t, o) →
      ∃ o', step' s e' = some (t, o') ∧ Q (e, o) (e', o'))
    {es : List ε'} (hevents : List.Forall₂ P es (trace.map Prod.fst))
    (hrun : Run step unguarded init trace s) :
    ∃ trace', Run step' unguarded init trace' s ∧ trace'.map Prod.fst = es ∧
      List.Forall₂ Q trace trace' := by
  induction trace generalizing init es with
  | nil =>
      cases hevents
      obtain rfl := hrun.eq_init
      exact ⟨[], .nil, rfl, .nil⟩
  | cons entry trace ih =>
      obtain ⟨t, hfirst, hrest⟩ := hrun.uncons
      cases hevents with
      | cons hevent hevents =>
          obtain ⟨o', hfirst', hentry⟩ := hstep _ _ _ _ _ hevent hfirst
          obtain ⟨trace', hrun', hes, hall⟩ := ih hevents hrest
          exact ⟨_, hrun'.cons hfirst', by rw [List.map_cons, hes], .cons hentry hall⟩

/-! ### Executing events -/

variable (step ok) in
/-- Execute a list of events under a guard, collecting the trace. -/
def exec [∀ trace s e, Decidable (ok trace s e)] :
    List ε → List (ε × ο) → σ → Option (List (ε × ο) × σ)
  | [], trace, s => some (trace, s)
  | e :: es, trace, s =>
      if ok trace s e then
        match step s e with
        | none => none
        | some (s', o) => exec es (trace ++ [(e, o)]) s'
      else
        none

variable [∀ trace s e, Decidable (ok trace s e)]

/-- An execution extends a run. -/
theorem Run.exec {es : List ε} :
    ∀ {trace trace' : List (ε × ο)} {s s' : σ},
      Run step ok init trace s → Transition.exec step ok es trace s = some (trace', s') →
      Run step ok init trace' s' := by
  induction es with
  | nil =>
      intro trace trace' s s' hrun h
      simp only [Transition.exec, Option.some.injEq, Prod.mk.injEq] at h
      obtain ⟨rfl, rfl⟩ := h
      exact hrun
  | cons e es ih =>
      intro trace trace' s s' hrun h
      unfold Transition.exec at h
      split_ifs at h with hguard
      split at h
      · cases h
      · next next o hstep => exact ih (hrun.snoc hguard hstep) h

/-- What an execution from the start reaches is the end of a run. -/
theorem run_of_exec (es : List ε) (h : exec step ok es [] init = some (trace, s)) :
    Run step ok init trace s :=
  Run.exec .nil h

/-- The events of an execution are those executed. -/
theorem events_of_exec {es : List ε} :
    ∀ {trace trace' : List (ε × ο)} {s s' : σ}, exec step ok es trace s = some (trace', s') →
      trace'.map Prod.fst = trace.map Prod.fst ++ es := by
  induction es with
  | nil =>
      intro trace trace' s s' h
      simp only [Transition.exec, Option.some.injEq, Prod.mk.injEq] at h
      obtain ⟨rfl, rfl⟩ := h
      exact (List.append_nil _).symm
  | cons e es ih =>
      intro trace trace' s s' h
      unfold Transition.exec at h
      split_ifs at h
      split at h
      · cases h
      · rw [ih h, List.map_append, List.append_assoc]
        rfl

end Transition
