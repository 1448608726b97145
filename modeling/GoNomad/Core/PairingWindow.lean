import GoNomad.Core.Ticket
import GoNomad.Lib.Run

/-!
# The attempts of a pairing window

* `window_bounds` — what a window lets through, over any sequence of calls.
-/

namespace Core

open Transition

/-- How long a pairing window stays open, in milliseconds. -/
def PAIRING_WINDOW_MS : Nat := 120000

/-- Attempts against one ticket before it is invalidated. -/
def MAX_PAIRING_ATTEMPTS : Nat := 3

/-- One open pairing window; the clock is passed in. -/
structure PairingWindow where
  openedAtMs : UInt64
  attempts : Nat
  consumed : Bool
  deriving DecidableEq

namespace PairingWindow

def «open» (nowMs : UInt64) : PairingWindow := ⟨nowMs, 0, false⟩

/-- Records an attempt; every refusal is the same error. -/
def tryAttempt (window : PairingWindow) (nowMs : UInt64) :
    Except PairingError Unit × PairingWindow :=
  if window.consumed ∨ MAX_PAIRING_ATTEMPTS ≤ window.attempts ∨
      PAIRING_WINDOW_MS < nowMs.toNat - window.openedAtMs.toNat then
    (.error .expired, window)
  else (.ok (), { window with attempts := window.attempts + 1 })

/-- The ticket has been used. -/
def consume (window : PairingWindow) : PairingWindow := { window with consumed := true }

inductive Call
  | tryAttempt (nowMs : UInt64)
  | consume
  deriving DecidableEq

/-- One call, and whether it let an attempt through. -/
def step (window : PairingWindow) : Call → Option (PairingWindow × Bool)
  | .tryAttempt nowMs =>
      match window.tryAttempt nowMs with
      | (.ok _, window') => some (window', true)
      | (.error _, window') => some (window', false)
  | .consume => some (window.consume, false)

/-- What a call does. -/
theorem step_cases {window window' : PairingWindow} {call : Call} {allowed : Bool}
    (h : window.step call = some (window', allowed)) :
    (∃ nowMs, call = .tryAttempt nowMs ∧ allowed = true ∧ window.consumed = false ∧
      window.attempts < MAX_PAIRING_ATTEMPTS ∧
      nowMs.toNat - window.openedAtMs.toNat ≤ PAIRING_WINDOW_MS ∧
      window' = { window with attempts := window.attempts + 1 }) ∨
    allowed = false ∧ (window' = window ∨ call = .consume ∧ window' = window.consume) := by
  cases call with
  | tryAttempt nowMs =>
      dsimp only [step, tryAttempt] at h
      split_ifs at h with hrefused
      · cases h
        exact .inr ⟨rfl, .inl rfl⟩
      · cases h
        simp only [not_or, Bool.not_eq_true, not_le, not_lt] at hrefused
        obtain ⟨hfresh, hattempts, htime⟩ := hrefused
        exact .inl ⟨nowMs, rfl, rfl, hfresh, hattempts, htime, rfl⟩
  | consume =>
      cases h
      exact .inr ⟨rfl, .inr ⟨rfl, rfl⟩⟩

/-- What the window remembers of the calls so far. -/
structure Accounts (openedAtMs : UInt64) (trace : List (Call × Bool)) (window : PairingWindow) :
    Prop where
  openedAtMs : window.openedAtMs = openedAtMs
  attempts : window.attempts = trace.countP Prod.snd
  bounded : window.attempts ≤ MAX_PAIRING_ATTEMPTS
  consumed : (Call.consume, false) ∈ trace → window.consumed = true

theorem accounts_of_run {openedAtMs : UInt64} {trace : List (Call × Bool)} {window : PairingWindow}
    (hrun : Run step unguarded («open» openedAtMs) trace window) :
    Accounts openedAtMs trace window := by
  refine hrun.invariant (Accounts openedAtMs) ⟨rfl, rfl, Nat.zero_le _, fun h => nomatch h⟩ ?_
  intro trace window call window' allowed h _ hstep
  rcases step_cases hstep with ⟨nowMs, rfl, rfl, hfresh, hattempts, htime, rfl⟩ | ⟨rfl, hsame⟩
  · refine ⟨h.openedAtMs, ?_, hattempts, fun hmem => ?_⟩
    · simp [h.attempts]
    · rcases List.mem_append.mp hmem with hmem | hmem
      · exact h.consumed hmem
      · cases List.mem_singleton.mp hmem
  · rcases hsame with rfl | ⟨rfl, rfl⟩
    · refine ⟨h.openedAtMs, by simp [h.attempts], h.bounded, fun hmem => ?_⟩
      rcases List.mem_append.mp hmem with hmem | hmem
      · exact h.consumed hmem
      · obtain rfl := (Prod.mk.inj (List.mem_singleton.mp hmem)).1
        dsimp only [step] at hstep
        obtain ⟨hwindow, -⟩ := Prod.mk.inj (Option.some.inj hstep)
        rw [← hwindow]
        rfl
    · exact ⟨h.openedAtMs, by simp [consume, h.attempts], h.bounded, fun _ => rfl⟩

/-- What a window lets through: few attempts, none late and none once consumed. -/
def Bounded (openedAtMs : UInt64) (trace : List (Call × Bool)) : Prop :=
  trace.countP Prod.snd ≤ MAX_PAIRING_ATTEMPTS ∧
    (∀ nowMs, (Call.tryAttempt nowMs, true) ∈ trace →
      nowMs.toNat - openedAtMs.toNat ≤ PAIRING_WINDOW_MS) ∧
    ∀ before after call, trace = before ++ (call, true) :: after → (Call.consume, false) ∉ before

/-- **A window lets few attempts through**, none after its time and none after it
was consumed, whatever is called and whatever the clock reads. -/
theorem window_bounds {openedAtMs : UInt64} {trace : List (Call × Bool)} {window : PairingWindow}
    (hrun : Run step unguarded («open» openedAtMs) trace window) : Bounded openedAtMs trace := by
  have hentry : ∀ before after call, trace = before ++ (call, true) :: after →
      (∀ nowMs, call = .tryAttempt nowMs →
        nowMs.toNat - openedAtMs.toNat ≤ PAIRING_WINDOW_MS) ∧
      (Call.consume, false) ∉ before := by
    intro before after call htrace
    subst htrace
    obtain ⟨t, t', hbefore, -, htaken⟩ := hrun.split
    have haccounts := accounts_of_run hbefore
    rcases step_cases htaken with ⟨nowMs, hcall, -, hfresh, -, htime, -⟩ | ⟨hrefused, -⟩
    · refine ⟨fun nowMs' hcall' => ?_, fun hmem => ?_⟩
      · obtain rfl : nowMs = nowMs' := Call.tryAttempt.inj (hcall.symm.trans hcall')
        rw [haccounts.openedAtMs] at htime
        exact htime
      · rw [haccounts.consumed hmem] at hfresh
        cases hfresh
    · cases hrefused
  refine ⟨?_, fun nowMs hmem => ?_, fun before after call h => (hentry before after call h).2⟩
  · have haccounts := accounts_of_run hrun
    rw [← haccounts.attempts]
    exact haccounts.bounded
  · obtain ⟨before, after, htrace⟩ := List.append_of_mem hmem
    exact (hentry before after _ htrace).1 nowMs rfl

end PairingWindow

end Core
