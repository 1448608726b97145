import GoNomad.Lib.Fallible

/-!
# Programs over a store

A program reads and changes a state and may fail; where it fails the changes
made so far stay, unless it runs in a transaction.  What is asked of programs is
closed under sequencing, so that a program is checked statement by statement.

* `Atomic` — a program that changes nothing when it fails;
* `Keeps` — a program that keeps a property of the state;
* `Atomic.transaction`, `Keeps.transaction` — what a transaction adds.
-/

/-- A program over a state: where it fails, the state it reached is kept. -/
abbrev Program (σ ε : Type) := ExceptT ε (StateM σ)

namespace Program

variable {σ ε ε' α β : Type}

/-- The result of a program and the state it leaves. -/
def exec (p : Program σ ε α) (s : σ) : Except ε α × σ := p.run.run s

/-- A program whose changes are taken back when it fails. -/
def transaction (p : Program σ ε α) : Program σ ε α :=
  fun s =>
    match p.exec s with
    | (.ok a, s') => (.ok a, s')
    | (.error e, _) => (.error e, s)

/-- A program at whose end, good or bad, something is dropped. -/
def dropping (destroy : σ → σ) (p : Program σ ε α) : Program σ ε α :=
  fun s => ((p.exec s).1, destroy (p.exec s).2)

/-- A program with its error in other terms. -/
def withError (f : ε → ε') (p : Program σ ε α) : Program σ ε' α :=
  fun s => ((p.exec s).1.mapError f, (p.exec s).2)

@[simp] theorem exec_pure (a : α) (s : σ) : (pure a : Program σ ε α).exec s = (.ok a, s) := rfl

@[simp] theorem exec_throw (e : ε) (s : σ) : (throw e : Program σ ε α).exec s = (.error e, s) := rfl

@[simp] theorem exec_get (s : σ) : (get : Program σ ε σ).exec s = (.ok s, s) := rfl

@[simp] theorem exec_set (s s' : σ) : (set s' : Program σ ε PUnit).exec s = (.ok (), s') := rfl

@[simp] theorem exec_modify (f : σ → σ) (s : σ) :
    (modify f : Program σ ε PUnit).exec s = (.ok (), f s) := rfl

/-- A check reads nothing and changes nothing. -/
@[simp] theorem exec_check (check : Except ε α) (s : σ) :
    (liftM check : Program σ ε α).exec s = (check, s) := by
  cases check with
  | ok a => rfl
  | error e => rfl

/-- A program that goes on with the result of another. -/
theorem exec_bind (p : Program σ ε α) (f : α → Program σ ε β) (s : σ) :
    (p >>= f).exec s =
      match p.exec s with
      | (.ok a, s') => (f a).exec s'
      | (.error e, s') => (.error e, s') := by
  rcases h : p.exec s with ⟨r, s'⟩
  have hp : p s = (r, s') := h
  show ExceptT.bindCont f (p s).1 (p s).2 = _
  rw [hp]
  cases r with
  | ok a => rfl
  | error e => rfl

theorem exec_bind_ok {p : Program σ ε α} {f : α → Program σ ε β} {a : α} {s s' : σ}
    (h : p.exec s = (.ok a, s')) : (p >>= f).exec s = (f a).exec s' := by
  rw [exec_bind, h]

theorem exec_bind_error {p : Program σ ε α} {f : α → Program σ ε β} {e : ε} {s s' : σ}
    (h : p.exec s = (.error e, s')) : (p >>= f).exec s = (.error e, s') := by
  rw [exec_bind, h]

/-- **A sequence that goes through** went through in both halves. -/
theorem exec_bind_eq_ok {p : Program σ ε α} {f : α → Program σ ε β} {b : β} {s t : σ} :
    (p >>= f).exec s = (.ok b, t) ↔
      ∃ a s', p.exec s = (.ok a, s') ∧ (f a).exec s' = (.ok b, t) := by
  constructor
  · intro h
    rcases hp : p.exec s with ⟨r, s'⟩
    cases r with
    | ok a => exact ⟨a, s', rfl, by rw [← exec_bind_ok hp]; exact h⟩
    | error e =>
        rw [exec_bind_error hp] at h
        cases h
  · rintro ⟨a, s', hp, hf⟩
    rw [exec_bind_ok hp, hf]

theorem exec_transaction (p : Program σ ε α) (s : σ) :
    p.transaction.exec s =
      match p.exec s with
      | (.ok a, s') => (.ok a, s')
      | (.error e, _) => (.error e, s) := rfl

theorem exec_transaction_ok {p : Program σ ε α} {a : α} {s s' : σ} :
    p.transaction.exec s = (.ok a, s') ↔ p.exec s = (.ok a, s') := by
  rw [exec_transaction]
  rcases p.exec s with ⟨r, t⟩
  cases r with
  | ok a => rfl
  | error e =>
      constructor
      · intro h
        cases h
      · intro h
        cases h

/-- **A transaction that fails** leaves everything as it was. -/
theorem exec_transaction_error {p : Program σ ε α} {e : ε} {s s' : σ} :
    p.transaction.exec s = (.error e, s') ↔ s' = s ∧ ∃ t, p.exec s = (.error e, t) := by
  rw [exec_transaction]
  rcases p.exec s with ⟨r, t⟩
  cases r with
  | ok a =>
      constructor
      · intro h
        cases h
      · rintro ⟨-, t', h⟩
        cases h
  | error e' =>
      constructor
      · intro h
        cases h
        exact ⟨rfl, t, rfl⟩
      · rintro ⟨rfl, t', h⟩
        cases h
        rfl

theorem exec_dropping {destroy : σ → σ} {p : Program σ ε α} {s : σ} :
    (p.dropping destroy).exec s = ((p.exec s).1, destroy (p.exec s).2) := rfl

theorem exec_withError {f : ε → ε'} {p : Program σ ε α} {s : σ} :
    (p.withError f).exec s = ((p.exec s).1.mapError f, (p.exec s).2) := rfl

/-! ### Programs that change nothing when they fail -/

/-- A program that only reads. -/
def Reads (p : Program σ ε α) : Prop := ∀ s, (p.exec s).2 = s

/-- A program that changes nothing when it fails. -/
def Atomic (p : Program σ ε α) : Prop := ∀ s e s', p.exec s = (.error e, s') → s' = s

theorem reads_pure (a : α) : Reads (pure a : Program σ ε α) := fun _ => rfl

theorem reads_throw (e : ε) : Reads (throw e : Program σ ε α) := fun _ => rfl

theorem reads_get : Reads (get : Program σ ε σ) := fun _ => rfl

theorem reads_check (check : Except ε α) : Reads (liftM check : Program σ ε α) := by
  intro s
  rw [exec_check]

theorem Reads.bind {p : Program σ ε α} {f : α → Program σ ε β} (hp : Reads p)
    (hf : ∀ a, Reads (f a)) : Reads (p >>= f) := by
  intro s
  have hs := hp s
  rw [exec_bind]
  rcases h : p.exec s with ⟨r, s'⟩
  rw [h] at hs
  dsimp only at hs
  subst hs
  cases r with
  | ok a => exact hf a _
  | error e => rfl

theorem Reads.atomic {p : Program σ ε α} (h : Reads p) : Atomic p := by
  intro s e s' hs
  have hread := h s
  rw [hs] at hread
  exact hread

theorem atomic_set (s : σ) : Atomic (set s : Program σ ε PUnit) := by
  intro s' e t h
  cases h

theorem Atomic.transaction (p : Program σ ε α) : Atomic p.transaction := by
  intro s e s' h
  exact (exec_transaction_error.mp h).1

/-- Checks come before the changes. -/
theorem Atomic.after {p : Program σ ε α} {f : α → Program σ ε β} (hp : Reads p)
    (hf : ∀ a, Atomic (f a)) : Atomic (p >>= f) := by
  intro s e s' h
  have hs := hp s
  rw [exec_bind] at h
  rcases hexec : p.exec s with ⟨r, t⟩
  rw [hexec] at h hs
  dsimp only at hs
  subst hs
  cases r with
  | ok a => exact hf a _ e s' h
  | error e' =>
      cases h
      rfl

/-- What follows the changes does not fail. -/
theorem Atomic.before {p : Program σ ε α} (hp : Atomic p) (g : α → β) :
    Atomic (p >>= fun a => pure (g a)) := by
  intro s e s' h
  rw [exec_bind] at h
  rcases hexec : p.exec s with ⟨r, t⟩
  rw [hexec] at h
  cases r with
  | ok a => cases h
  | error e' =>
      cases h
      exact hp s _ _ hexec

/-! ### Programs that keep a property -/

/-- A program that keeps a property of the state, also where it fails. -/
def Keeps (I : σ → Prop) (p : Program σ ε α) : Prop := ∀ s, I s → I (p.exec s).2

variable {I : σ → Prop}

theorem Reads.keeps {p : Program σ ε α} (h : Reads p) : Keeps I p := by
  intro s hs
  rw [h s]
  exact hs

theorem Keeps.bind {p : Program σ ε α} {f : α → Program σ ε β} (hp : Keeps I p)
    (hf : ∀ a, Keeps I (f a)) : Keeps I (p >>= f) := by
  intro s hs
  have hkept := hp s hs
  rw [exec_bind]
  rcases h : p.exec s with ⟨r, s'⟩
  rw [h] at hkept
  cases r with
  | ok a => exact hf a s' hkept
  | error e => exact hkept

theorem Keeps.transaction {p : Program σ ε α} (hp : Keeps I p) : Keeps I p.transaction := by
  intro s hs
  have hkept := hp s hs
  rcases h : p.transaction.exec s with ⟨r, s'⟩
  cases r with
  | ok a =>
      rw [exec_transaction_ok.mp h] at hkept
      exact hkept
  | error e =>
      obtain ⟨rfl, -⟩ := exec_transaction_error.mp h
      exact hs

end Program
