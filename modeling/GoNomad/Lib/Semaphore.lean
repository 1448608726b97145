import Mathlib.Tactic.Ring
import Mathlib.Tactic.SplitIfs

/-!
# A counting semaphore with one caller

Permits are acquired in bulk by a single caller.  A caller that finds too few
takes what there is and parks; permits added later go to the parked caller
first, and only what it does not need becomes available.  Once closed, every
acquisition fails, a parked one included.

`held` counts the permits that are available or set aside for the parked
caller; the lemmas say how each operation moves it.
-/

/-- A parked acquisition: how many permits it asked for and has been given. -/
structure Waiter where
  needed : Nat
  assigned : Nat
  deriving DecidableEq, Repr

structure Semaphore where
  permits : Nat
  closed : Bool
  waiter : Option Waiter
  deriving DecidableEq, Repr

namespace Semaphore

/-- What polling an acquisition says. -/
inductive Poll
  | acquired
  | pending
  | closed
  deriving DecidableEq, Repr

def new (permits : Nat) : Semaphore := ⟨permits, false, none⟩

/-- First poll of an acquisition of `n` permits. -/
def acquireMany (s : Semaphore) (n : Nat) : Semaphore × Poll :=
  if s.closed then
    (s, .closed)
  else if n ≤ s.permits then
    ({ s with permits := s.permits - n }, .acquired)
  else
    ({ s with permits := 0, waiter := some ⟨n, s.permits⟩ }, .pending)

/-- Dropping a parked acquisition hands its permits back. -/
def cancel (s : Semaphore) : Semaphore :=
  match s.waiter with
  | none => s
  | some w => { s with permits := s.permits + w.assigned, waiter := none }

/-- A later poll of the parked acquisition. -/
def poll (s : Semaphore) : Semaphore × Poll :=
  if s.closed then
    (s.cancel, .closed)
  else
    match s.waiter with
    | none => (s, .pending)
    | some w =>
        if w.needed ≤ w.assigned then ({ s with waiter := none }, .acquired) else (s, .pending)

def addPermits (s : Semaphore) (n : Nat) : Semaphore :=
  match s.waiter with
  | none => { s with permits := s.permits + n }
  | some w =>
      let given := min n (w.needed - w.assigned)
      { s with
        permits := s.permits + (n - given)
        waiter := some { w with assigned := w.assigned + given } }

def close (s : Semaphore) : Semaphore := { s with closed := true }

/-- Permits available or set aside for the parked caller. -/
def held (s : Semaphore) : Nat :=
  s.permits + match s.waiter with
    | none => 0
    | some w => w.assigned

/-- The parked caller never has more than it asked for. -/
def Fair (s : Semaphore) : Prop := ∀ w, s.waiter = some w → w.assigned ≤ w.needed

@[simp] theorem held_new (n : Nat) : (new n).held = n := rfl

@[simp] theorem fair_new (n : Nat) : (new n).Fair := by
  intro w hw
  cases hw

@[simp] theorem held_close (s : Semaphore) : s.close.held = s.held := rfl

theorem permits_le_held (s : Semaphore) : s.permits ≤ s.held := Nat.le_add_right _ _

/-- An acquisition that succeeds at once takes its permits. -/
theorem acquireMany_acquired {s s' : Semaphore} {n : Nat}
    (h : s.acquireMany n = (s', .acquired)) :
    s.closed = false ∧ n ≤ s.permits ∧ s' = { s with permits := s.permits - n } := by
  unfold acquireMany at h
  split_ifs at h with hclosed hle
  · simp only [Prod.mk.injEq, reduceCtorEq, and_false] at h
  · simp only [Prod.mk.injEq, and_true] at h
    exact ⟨by simpa using hclosed, hle, h.symm⟩
  · simp only [Prod.mk.injEq, reduceCtorEq, and_false] at h

theorem acquireMany_pending {s s' : Semaphore} {n : Nat}
    (h : s.acquireMany n = (s', .pending)) :
    s.closed = false ∧ s.permits < n ∧
      s' = { s with permits := 0, waiter := some ⟨n, s.permits⟩ } := by
  unfold acquireMany at h
  split_ifs at h with hclosed hle
  · simp only [Prod.mk.injEq, reduceCtorEq, and_false] at h
  · simp only [Prod.mk.injEq, reduceCtorEq, and_false] at h
  · simp only [Prod.mk.injEq, and_true] at h
    exact ⟨by simpa using hclosed, by omega, h.symm⟩

theorem acquireMany_closed {s s' : Semaphore} {n : Nat}
    (h : s.acquireMany n = (s', .closed)) : s.closed = true ∧ s' = s := by
  unfold acquireMany at h
  split_ifs at h with hclosed hle
  · simp only [Prod.mk.injEq, and_true] at h
    exact ⟨hclosed, h.symm⟩
  · simp only [Prod.mk.injEq, reduceCtorEq, and_false] at h
  · simp only [Prod.mk.injEq, reduceCtorEq, and_false] at h

/-- A parked acquisition that succeeds takes what was set aside for it. -/
theorem poll_acquired {s s' : Semaphore} (h : s.poll = (s', .acquired)) :
    s.closed = false ∧ s' = { s with waiter := none } ∧
      ∃ w, s.waiter = some w ∧ w.needed ≤ w.assigned := by
  unfold poll at h
  split_ifs at h with hclosed
  · simp only [Prod.mk.injEq, reduceCtorEq, and_false] at h
  · cases hw : s.waiter with
    | none => simp only [hw, Prod.mk.injEq, reduceCtorEq, and_false] at h
    | some w =>
        simp only [hw] at h
        split_ifs at h with hfull
        · simp only [Prod.mk.injEq, and_true] at h
          exact ⟨by simpa using hclosed, h.symm, w, rfl, hfull⟩
        · simp only [Prod.mk.injEq, reduceCtorEq, and_false] at h

theorem poll_closed {s s' : Semaphore} (h : s.poll = (s', .closed)) :
    s.closed = true ∧ s' = s.cancel := by
  unfold poll at h
  split_ifs at h with hclosed
  · simp only [Prod.mk.injEq, and_true] at h
    exact ⟨hclosed, h.symm⟩
  · cases hw : s.waiter with
    | none => simp only [hw, Prod.mk.injEq, reduceCtorEq, and_false] at h
    | some w =>
        simp only [hw] at h
        split_ifs at h
        · simp only [Prod.mk.injEq, reduceCtorEq, and_false] at h
        · simp only [Prod.mk.injEq, reduceCtorEq, and_false] at h

/-- Cancelling loses nothing. -/
@[simp] theorem held_cancel (s : Semaphore) : s.cancel.held = s.held := by
  cases hw : s.waiter with
  | none => simp only [cancel, hw]
  | some w => simp only [cancel, held, hw, Nat.add_zero]

@[simp] theorem cancel_waiter (s : Semaphore) : s.cancel.waiter = none := by
  cases hw : s.waiter with
  | none => simp only [cancel, hw]
  | some w => simp only [cancel, hw]

@[simp] theorem cancel_closed (s : Semaphore) : s.cancel.closed = s.closed := by
  cases hw : s.waiter with
  | none => simp only [cancel, hw]
  | some w => simp only [cancel, hw]

/-- Adding permits adds them somewhere. -/
@[simp] theorem held_addPermits (s : Semaphore) (n : Nat) :
    (s.addPermits n).held = s.held + n := by
  cases hw : s.waiter with
  | none => simp only [addPermits, held, hw]; omega
  | some w => simp only [addPermits, held, hw]; omega

@[simp] theorem addPermits_closed (s : Semaphore) (n : Nat) :
    (s.addPermits n).closed = s.closed := by
  cases hw : s.waiter with
  | none => simp only [addPermits, hw]
  | some w => simp only [addPermits, hw]

theorem Fair.addPermits {s : Semaphore} (h : s.Fair) (n : Nat) : (s.addPermits n).Fair := by
  intro w' hw'
  cases hw : s.waiter with
  | none => simp only [Semaphore.addPermits, hw, reduceCtorEq] at hw'
  | some w =>
      have hle := h w hw
      simp only [Semaphore.addPermits, hw, Option.some.injEq] at hw'
      rw [← hw']
      dsimp only
      omega

/-! ### What is available -/

theorem permits_acquireMany_le (s : Semaphore) (n : Nat) :
    (s.acquireMany n).1.permits ≤ s.permits := by
  unfold acquireMany
  split_ifs
  · exact Nat.le_refl _
  · exact Nat.sub_le _ _
  · exact Nat.zero_le _

@[simp] theorem closed_acquireMany (s : Semaphore) (n : Nat) :
    (s.acquireMany n).1.closed = s.closed := by
  unfold acquireMany
  split_ifs <;> rfl

theorem permits_poll (s : Semaphore) (hopen : s.closed = false) :
    s.poll.1.permits = s.permits := by
  unfold poll
  rw [hopen, if_neg Bool.false_ne_true]
  cases s.waiter with
  | none => rfl
  | some w =>
      dsimp only
      split_ifs <;> rfl

@[simp] theorem closed_poll (s : Semaphore) : s.poll.1.closed = s.closed := by
  unfold poll
  split_ifs
  · exact s.cancel_closed
  · cases s.waiter with
    | none => rfl
    | some w =>
        dsimp only
        split_ifs <;> rfl

theorem permits_addPermits_le (s : Semaphore) (n : Nat) :
    (s.addPermits n).permits ≤ s.permits + n := by
  unfold addPermits
  cases s.waiter with
  | none => exact Nat.le_refl _
  | some w => exact Nat.add_le_add_left (Nat.sub_le _ _) _

/-- Cancelling makes everything available. -/
theorem permits_cancel (s : Semaphore) : s.cancel.permits = s.held := by
  unfold cancel held
  cases s.waiter <;> rfl

end Semaphore
