import GoNomad.Client.Correlation
import GoNomad.Client.Inner

/-!
# What a step of the client does

A step moves one task, or two where a poller starts, and takes each connection
at most one step further.

* `begin_some` — what a task that starts finds and changes;
* `sessions_step`, `sessions_run` — every connection of a client goes through a
  run of its own;
* `sound_session` — so what holds of one connection holds of all of them.
-/

namespace Client

open Proto

namespace Session

variable {trace : Trace} {s t : Session} {event : Event} {out : Option (Nat × Outcome)}
  {r : Nat} {outcome : Outcome}

/-- A request that returned stays where it is. -/
theorem Sound.returned_step (h : Sound trace s) (hstep : s.step event = some (t, out))
    (hr : (s.call r).stage = .returned outcome) : (t.call r).stage = .returned outcome := by
  have hbefore := h.outcomes_eq r
  have hafter := (h.step hstep).outcomes_eq r
  rw [outcomes_append, hbefore, hr] at hafter
  cases hstage : (t.call r).stage with
  | returned outcome' =>
      rw [hstage] at hafter
      have hhead := congrArg List.head? hafter
      cases hhead
      rfl
  | _ =>
      rw [hstage] at hafter
      cases hafter

@[grind =] theorem closed_dropSlot (s : Session) (id : UInt64) :
    (s.dropSlot id).closed = s.closed := by
  unfold dropSlot
  split
  · rfl
  · rfl

/-- A connection that is closed stays closed. -/
theorem closed_step (hstep : s.step event = some (t, out)) (hclosed : s.closed = true) :
    t.closed = true := by
  unfold step at hstep
  split at hstep <;> grind [setStage, setChannel, register, deliver]

end Session

namespace Inner

variable {s t : Inner} {e : Event} {out : Option Returned} {p q i : Nat} {new : Task}
  {trace : List (Event × Option Returned)} {stored : Option PairedDaemon}

@[grind =] theorem goto_task (s : Inner) (p q : Nat) (new : Task) :
    (s.goto p new).task q = if q = p then new else s.task q := Function.update_apply ..

@[grind =] theorem abort_task (s : Inner) (pollers : List Nat) (q : Nat) :
    (s.abort pollers).task q = s.task q := rfl

@[grind =] theorem setSession_task (s : Inner) (live : Nat) (session : Session) (q : Nat) :
    (s.setSession live session).task q = s.task q := rfl

@[grind =] theorem cancelPairing_task (s : Inner) (q : Nat) :
    s.cancelPairing.task q = s.task q := rfl

@[grind =] theorem establish_task (s : Inner) (q : Nat) : s.establish.task q = s.task q := rfl

@[grind =] theorem issue_task (s : Inner) (live q : Nat) : (s.issue live).task q = s.task q := by
  unfold issue
  split
  · rfl
  · rfl

/-- **A task that starts** was not running, and no other task moves. -/
@[grind →] theorem begin_some (h : s.begin p new = some (t, out)) :
    s.task p = .idle ∧
      { s.goto p new with aborted := Function.update s.aborted p false } = t ∧ out = none ∧
      (∀ q, t.task q = if q = p then new else s.task q) ∧ (∀ i, t.sessions i = s.sessions i) ∧
      ∀ q, t.aborted q = if q = p then false else s.aborted q := by
  unfold begin at h
  split_ifs at h with hidle
  cases h
  exact ⟨hidle, rfl, rfl, fun q => goto_task s p q new, fun _ => rfl,
    fun q => Function.update_apply ..⟩

/-! ### The run of one connection -/

/-- The step of a connection that a step of the client takes. -/
def Takes (s : Inner) (e : Event) (i : Nat) (event : Session.Event) : Prop :=
  (e = .session i event ∧ ∀ r, event ≠ .drop r) ∨ event = .number ∨
    ∃ p caller r, e = .vanish p ∧ s.task p = .requesting caller i r ∧ event = .drop r

@[grind =] theorem setSession_sessions (s : Inner) (live i : Nat) (session : Session) :
    (s.setSession live session).sessions i = if i = live then session else s.sessions i :=
  Function.update_apply ..

@[grind =] theorem establish_sessions (s : Inner) (i : Nat) :
    s.establish.sessions i = if i = s.established then .start else s.sessions i :=
  Function.update_apply ..

@[grind =] theorem cancelPairing_sessions (s : Inner) (i : Nat) :
    s.cancelPairing.sessions i = s.sessions i := rfl

@[grind =] theorem goto_sessions (s : Inner) (p i : Nat) (new : Task) :
    (s.goto p new).sessions i = s.sessions i := rfl

@[grind =] theorem abort_sessions (s : Inner) (pollers : List Nat) (i : Nat) :
    (s.abort pollers).sessions i = s.sessions i := rfl

/-- A request that is issued takes one number on its connection. -/
theorem issue_sessions (s : Inner) (live i : Nat) :
    (s.issue live).sessions i = s.sessions i ∨
      ∃ out, (s.sessions i).step .number = some ((s.issue live).sessions i, out) := by
  by_cases hi : i = live
  · refine .inr ⟨none, ?_⟩
    subst hi
    have hself : (s.issue i).sessions i = _ := Function.update_self ..
    rw [hself]
    rfl
  · exact .inl (Function.update_of_ne hi ..)

/-- **Each connection** stays as it is, is new, or takes a step of its own. -/
theorem sessions_step (h : s.step e = some (t, out)) (i : Nat) :
    t.sessions i = s.sessions i ∨ i = s.established ∧ t.sessions i = .start ∨
      ∃ event out, Takes s e i event ∧ (s.sessions i).step event = some (t.sessions i, out) := by
  have hissue := fun live => issue_sessions s live i
  unfold step at h
  split at h <;> grind [Takes]

/-- **A run of the client** takes each connection through a run of its own, under
a guard that the guard of the client implies. -/
theorem sessions_run {ok : List (Event × Option Returned) → Inner → Event → Prop}
    {ok' : Session.Trace → Session → Session.Event → Prop}
    (hok : ∀ trace s e i event trace', ok trace s e → Takes s e i event →
      ok' trace' (s.sessions i) event)
    (hrun : Transition.Run step ok (create stored) trace s) (i : Nat) :
    ∃ trace', Transition.Run Session.step ok' .start trace' (s.sessions i) := by
  induction hrun with
  | nil => exact ⟨[], .nil⟩
  | @snoc trace s t e out _ guard taken ih =>
      obtain ⟨trace', hrun'⟩ := ih
      rcases sessions_step taken i with hsame | ⟨-, hnew⟩ | ⟨event, out', htakes, hstep⟩
      · rw [hsame]
        exact ⟨trace', hrun'⟩
      · rw [hnew]
        exact ⟨[], .nil⟩
      · exact ⟨_, hrun'.snoc (hok trace s e i event trace' guard htakes) hstep⟩

/-- What holds of one connection holds of all connections of a client. -/
theorem sound_session {ok : List (Event × Option Returned) → Inner → Event → Prop}
    (hrun : Transition.Run step ok (create stored) trace s) (i : Nat) :
    ∃ trace', Session.Sound trace' (s.sessions i) := by
  have hok : ∀ trace s e i event (trace' : Session.Trace), ok trace s e → Takes s e i event →
      Transition.unguarded trace' (s.sessions i) event := fun _ _ _ _ _ _ _ _ => trivial
  obtain ⟨trace', hrun'⟩ := sessions_run hok hrun i
  exact ⟨trace', Session.run_sound hrun'⟩

/-- The record of a daemon that a phone was paired with. -/
def paired : PairedDaemon where
  noiseKey := ⟨List.replicate 32 7, rfl⟩
  nodeId := none
  deviceId := "07"
  registeredDeviceId := "phone"
  name := "desk"
  addrHints := []
  pairedAtMs := 1
  lastSeenMs := none

end Inner

end Client
