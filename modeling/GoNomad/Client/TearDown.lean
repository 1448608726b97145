import GoNomad.Client.Tasks

/-!
# Who takes a connection down

A task that finds a connection closed, or whose request failed on it, takes the
connection out of the slot later, and looks only then what is in the slot.

* `Ordered.step`, `run_ordered` — what a task took from the slot is no newer than
  what is in the slot, and what it blames is faulty;
* `taken_rightly` — in runs in which no tear-down meets a newer connection, a
  connection goes for a disconnect, for a newer one, or for a fault of its own;
* `stale_tear_down` — a request that fails on an old connection takes the new
  one down.
-/

namespace Client

open Proto

/-- The connection that is torn down for a fault. -/
def Cause.blames : Cause → Option Nat
  | .failed live => some live
  | _ => none

/-- The connection that a task takes for gone. -/
def Task.blames : Task → Option Nat
  | .tearing cause _ | .drained cause _ => cause.blames
  | _ => none

/-- The connection that a task got from the slot. -/
def Task.refers : Task → Option Nat
  | .checking _ live | .requesting _ live _ => some live
  | .tearing cause _ | .drained cause _ => cause.blames
  | _ => none

namespace Inner

variable {s t : Inner} {e : Event} {out : Option Returned} {p q i j : Nat}
  {trace : List (Event × Option Returned)} {stored : Option PairedDaemon}

@[grind =] theorem without_refers (caller : Caller) : caller.without.refers = none := by
  cases caller <;> rfl

@[grind =] theorem without_blames (caller : Caller) : caller.without.blames = none := by
  cases caller <;> rfl

@[grind =] theorem next_refers (next : Next) : next.task.refers = none := by
  cases next <;> rfl

@[grind =] theorem next_blames (next : Next) : next.task.blames = none := by
  cases next <;> rfl

/-- A connection that is closed, or failed a request. -/
def Faulty (s : Inner) (live : Nat) : Prop :=
  (s.sessions live).closed = true ∨
    ∃ r outcome, ((s.sessions live).call r).stage = .returned outcome ∧ outcome.isLost = true

/-- A task refers to what it referred to, or to what is in the slot. -/
theorem refers_step (h : s.step e = some (t, out)) (ht : (t.task q).refers = some i) :
    (s.task q).refers = some i ∨ s.live = some i := by
  unfold step at h
  split at h <;> grind [Task.refers, Cause.blames]

/-- A task blames what it blamed, or what it referred to and found faulty. -/
theorem blames_step (h : s.step e = some (t, out)) (ht : (t.task q).blames = some i) :
    (s.task q).blames = some i ∨ (s.task q).refers = some i ∧ Faulty s i := by
  unfold step at h
  split at h <;> grind [Task.refers, Task.blames, Cause.blames, Faulty]

/-- The slot stays as it is, is emptied, or is filled with a new connection. -/
theorem live_step (h : s.step e = some (t, out)) :
    s.established ≤ t.established ∧ (t.live = s.live ∨
      (t.live = none ∧ ∃ p cause next, e = .takeLive p ∧ s.task p = .drained cause next) ∨
      t.live = some s.established ∧ s.established < t.established ∧ ∃ p now, e = .dialed p now) := by
  unfold step at h
  split at h <;> grind [goto, begin, abort, issue, setSession, cancelPairing, establish]

@[grind =] theorem goto_aborted (s : Inner) (p q : Nat) (new : Task) :
    (s.goto p new).aborted q = s.aborted q := rfl

@[grind =] theorem abort_aborted (s : Inner) (pollers : List Nat) (q : Nat) :
    (s.abort pollers).aborted q = (s.aborted q || pollers.contains q) := rfl

@[grind =] theorem setSession_aborted (s : Inner) (live : Nat) (session : Session) (q : Nat) :
    (s.setSession live session).aborted q = s.aborted q := rfl

@[grind =] theorem cancelPairing_aborted (s : Inner) (q : Nat) :
    s.cancelPairing.aborted q = s.aborted q := rfl

@[grind =] theorem establish_aborted (s : Inner) (q : Nat) :
    s.establish.aborted q = s.aborted q := rfl

@[grind =] theorem issue_aborted (s : Inner) (live q : Nat) :
    (s.issue live).aborted q = s.aborted q := by
  unfold issue
  split
  · rfl
  · rfl

/-- A poller is aborted with its terminal, for another one, or with all of them. -/
theorem aborted_step (h : s.step e = some (t, out)) (hs : s.aborted q = false)
    (ht : t.aborted q = true) :
    (∃ p pty, (e = .closeTerminal p pty ∨ ∃ poller, e = .attachPoller p poller) ∧
      s.terminals.lookup pty = some q) ∨
    ∃ p cause next, e = .drain p ∧ s.task p = .tearing cause next := by
  unfold step at h
  split at h <;> grind

/-- **What holds in every state**: what a task took from the slot is no newer than
what is in the slot, and what it blames is faulty. -/
structure Ordered (s : Inner) : Prop where
  live_lt : ∀ j, s.live = some j → j < s.established
  refers_lt : ∀ p i, (s.task p).refers = some i → i < s.established
  refers_le : ∀ p i j, (s.task p).refers = some i → s.live = some j → i ≤ j
  faulty : ∀ p i, (s.task p).blames = some i → s.Faulty i

theorem blames_refers {task : Task} (h : task.blames = some i) : task.refers = some i := by
  cases task with
  | tearing cause next => exact h
  | drained cause next => exact h
  | _ => cases h

/-- A connection that is faulty stays faulty. -/
theorem Faulty.step (hsound : ∃ trace', Session.Sound trace' (s.sessions i))
    (hi : i < s.established) (h : s.Faulty i) (hstep : s.step e = some (t, out)) : t.Faulty i := by
  rcases sessions_step hstep i with hsame | ⟨hnew, -⟩ | ⟨event, out', -, hsession⟩
  · unfold Faulty
    rw [hsame]
    exact h
  · omega
  · obtain ⟨trace', hsound⟩ := hsound
    rcases h with hclosed | ⟨r, outcome, hr, hlost⟩
    · exact .inl (Session.closed_step hsession hclosed)
    · exact .inr ⟨r, outcome, hsound.returned_step hsession hr, hlost⟩

/-- **Every step** keeps the order. -/
theorem Ordered.step (hsound : ∀ i, ∃ trace', Session.Sound trace' (s.sessions i))
    (h : s.Ordered) (hstep : s.step e = some (t, out)) : t.Ordered := by
  obtain ⟨hmono, hlive⟩ := live_step hstep
  have hrefers : ∀ p i, (t.task p).refers = some i → i < s.established := by
    intro p i hi
    rcases refers_step hstep hi with hi | hi
    · exact h.refers_lt p i hi
    · exact h.live_lt i hi
  constructor
  · intro j hj
    rcases hlive with hsame | ⟨hnone, -⟩ | ⟨hnew, hlt, -⟩
    · have := h.live_lt j (hsame.symm.trans hj)
      omega
    · rw [hnone] at hj
      cases hj
    · rw [hnew] at hj
      cases hj
      exact hlt
  · intro p i hi
    have := hrefers p i hi
    omega
  · intro p i j hi hj
    rcases hlive with hsame | ⟨hnone, -⟩ | ⟨hnew, -⟩
    · have hj' := hsame.symm.trans hj
      rcases refers_step hstep hi with hi | hi
      · exact h.refers_le p i j hi hj'
      · cases hi.symm.trans hj'
        exact Nat.le_refl i
    · rw [hnone] at hj
      cases hj
    · rw [hnew] at hj
      cases hj
      exact Nat.le_of_lt (hrefers p i hi)
  · intro p i hi
    have hlt : i < s.established := hrefers p i (blames_refers hi)
    rcases blames_step hstep hi with hi | ⟨-, hfaulty⟩
    · exact (h.faulty p i hi).step (hsound i) hlt hstep
    · exact hfaulty.step (hsound i) hlt hstep

/-- **Every run** keeps the order. -/
theorem run_ordered {ok : List (Event × Option Returned) → Inner → Event → Prop}
    (hrun : Transition.Run step ok (create stored) trace s) : s.Ordered := by
  induction hrun with
  | nil => exact ⟨fun _ h => (nomatch h), fun _ _ h => (nomatch h), fun _ _ _ h => (nomatch h),
      fun _ _ h => (nomatch h)⟩
  | snoc run _ taken ih => exact ih.step (sound_session run) taken

/-! ### Connections go rightly -/

/-- What may take a connection down: a disconnect, the end of the pairing, or a
fault of that connection. -/
def Right (s : Inner) (live : Nat) : Cause → Prop
  | .failed i => i = live ∧ s.Faulty live
  | .disconnect | .unpair => True

/-- A connection leaves the slot, and pollers are aborted with it, rightly: for a
newer connection, or for what may take it down. -/
structure Rightly (s : Inner) (e : Event) (t : Inner) : Prop where
  live : ∀ j, s.live = some j → t.live ≠ some j →
    (∃ p now, e = .dialed p now ∧ t.live = some s.established) ∨
      ∃ p cause next, e = .takeLive p ∧ s.task p = .drained cause next ∧ s.Right j cause
  pollers : ∀ q, s.aborted q = false → t.aborted q = true →
    (∃ p pty, (e = .closeTerminal p pty ∨ ∃ poller, e = .attachPoller p poller) ∧
      s.terminals.lookup pty = some q) ∨
    ∃ p cause next, e = .drain p ∧ s.task p = .tearing cause next ∧
      ∀ j, s.live = some j → s.Right j cause

/-- No task that blames a connection goes on to tear down a newer one. -/
def Timely (_ : List (Event × Option Returned)) (s : Inner) : Event → Prop
  | .drain p | .takeLive p => ∀ i ∈ (s.task p).blames, ∀ j ∈ s.live, j ≤ i
  | _ => True

instance (trace : List (Event × Option Returned)) (s : Inner) (e : Event) :
    Decidable (Timely trace s e) := by
  unfold Timely
  split <;> infer_instance

/-- A task that is timely has the right to tear down what it does. -/
theorem Ordered.right (h : s.Ordered) {cause : Cause} (htask : (s.task p).blames = cause.blames)
    (htimely : ∀ i ∈ (s.task p).blames, ∀ j ∈ s.live, j ≤ i) (hj : s.live = some j) :
    s.Right j cause := by
  cases cause with
  | failed i =>
      have hle := h.refers_le p i j (blames_refers htask) hj
      have hge := htimely i htask j hj
      obtain rfl : i = j := by omega
      exact ⟨rfl, h.faulty p i htask⟩
  | disconnect => trivial
  | unpair => trivial

/-- **Connections go rightly** in runs in which no task that blames a connection
tears down a newer one. -/
theorem taken_rightly (hrun : Transition.Run step Timely (create stored) trace s)
    (htimely : Timely trace s e) (hstep : s.step e = some (t, out)) : Rightly s e t := by
  have hordered := run_ordered hrun
  constructor
  · intro j hj hleft
    rcases (live_step hstep).2 with hsame | ⟨-, p, cause, next, rfl, htask⟩ | ⟨hnew, -, p, now, rfl⟩
    · exact absurd (hsame.trans hj) hleft
    · refine .inr ⟨p, cause, next, rfl, htask, hordered.right ?_ htimely hj⟩
      rw [htask]
      rfl
    · exact .inl ⟨p, now, rfl, hnew⟩
  · intro q hs ht
    rcases aborted_step hstep hs ht with hown | ⟨p, cause, next, rfl, htask⟩
    · exact .inl hown
    · refine .inr ⟨p, cause, next, rfl, htask, fun j hj => hordered.right ?_ htimely hj⟩
      rw [htask]
      rfl

/-- A connection that fails a request, and that the request takes down. -/
theorem taken_rightly_failed :
    ∃ trace s t, Transition.Run step Timely (create (some paired)) trace s ∧
      s.live = some 0 ∧ s.step (.takeLive 1) = some (t, none) ∧ t.live = none ∧
      Rightly s (.takeLive 1) t := by
  have hrun : Transition.Run step Timely (create (some paired)) _ _ :=
    Transition.run_of_exec
      [.startConnect 0, .look 0, .dialed 0 5, .touchSave 0, .touchCache 0,
        .startCall 1 .call, .look 1, .check 1, .session 0 (.register 0), .session 0 .close,
        .session 0 (.sendFails 0), .session 0 (.takeBack 0), .finish 1 0 false, .drain 1] rfl
  exact ⟨_, _, _, hrun, rfl, rfl, rfl, taken_rightly hrun (by decide) rfl⟩

/-- A request fails on the first connection; before it tears that down, a connect
found it closed and put a second one in its place, and the tear-down takes the
second one. -/
theorem stale_tear_down :
    ¬∀ stored trace s e t out, Transition.Run step Transition.unguarded (create stored) trace s →
      s.step e = some (t, out) → Rightly s e t := by
  intro h
  have hrun : Transition.Run step Transition.unguarded (create (some paired)) _ _ :=
    Transition.run_of_exec
      [.startConnect 0, .look 0, .dialed 0 5, .touchSave 0, .touchCache 0,
        .startCall 1 .call, .look 1, .check 1, .session 0 (.register 0), .session 0 .close,
        .session 0 (.sendFails 0), .session 0 (.takeBack 0),
        .startConnect 0, .look 0, .check 0, .drain 0, .takeLive 0, .dialed 0 9, .touchSave 0,
        .touchCache 0, .finish 1 0 false, .drain 1] rfl
  have hrightly := (h _ _ _ (.takeLive 1) _ _ hrun rfl).live 1 rfl (by rintro ⟨⟩)
  rcases hrightly with ⟨p, now, he, -⟩ | ⟨p, cause, next, he, htask, hright⟩
  · cases he
  · cases he
    cases htask
    cases hright.1

end Inner

end Client
