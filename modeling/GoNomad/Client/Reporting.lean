import GoNomad.Client.Tasks

/-!
# What the status says

The status of a client and the slot of its connection are behind two locks, and every
operation that changes one changes the other in a step of its own.  Here the tasks of
a client go from one such step to the next.

* `Told.step`, `run_told` — what holds between the status and the slot while operations
  are under way;
* `status_true` — in runs in which no operation reports over another, the status is
  the truth whenever nothing is under way;
* `status_false` — a pairing that is given up leaves the status at connecting.
-/

namespace Client

namespace Reporting

/-- Where the connection stands. -/
inductive ConnPhase
  /-- Idle, with a pairing on record. -/
  | disconnected
  /-- A dial or hello exchange is in progress. -/
  | connecting
  /-- A control stream is live. -/
  | connected
  /-- No pairing, or the daemon does not recognise this device. -/
  | unpaired
  | revoked
  deriving DecidableEq

inductive Tier
  | lan
  | direct
  | relay
  deriving DecidableEq

/-- What is known about the path of a connection. -/
structure PathInfo where
  tier : Tier
  rttMs : Option UInt32
  deriving DecidableEq

/-- A snapshot of the connection. -/
structure ConnectionStatus where
  phase : ConnPhase
  daemonName : Option String
  rttMs : Option UInt32
  transport : Option Tier
  deriving DecidableEq

/-- The status of a client that has not connected yet. -/
def ConnectionStatus.idle (daemon : Option PairedDaemon) : ConnectionStatus where
  phase := match daemon with
    | some _ => .disconnected
    | none => .unpaired
  daemonName := daemon.map PairedDaemon.name
  rttMs := none
  transport := none

/-- The status after the live connection was dropped. -/
def ConnectionStatus.dropped (status : ConnectionStatus) : ConnectionStatus :=
  { status with
    phase := if status.phase = .connected ∨ status.phase = .connecting then .disconnected
      else status.phase
    rttMs := none
    transport := none }

/-- Why a dial failed. -/
inductive DialError
  | unpaired
  | revoked
  | other
  deriving DecidableEq

/-- The phase after a dial that failed. -/
def DialError.phase : DialError → ConnPhase
  | .unpaired => .unpaired
  | .revoked => .revoked
  | .other => .disconnected

/-- What the slot is looked into or emptied for. -/
inductive Purpose
  /-- A request, or a disconnect. -/
  | request
  | connect (daemon : PairedDaemon)
  | unpair
  deriving DecidableEq

/-- What an operation reports. -/
inductive Report
  /-- A connect without a pairing on record. -/
  | notPaired
  | connecting (daemon : PairedDaemon)
  | connected (daemon : PairedDaemon) (path : PathInfo)
  | dialFailed (error : DialError)
  | pairing
  /-- With a pairing on record, or without one. -/
  | pairingFailed (recorded : Bool)
  | paired (daemon : PairedDaemon)
  | unpaired
  deriving DecidableEq

/-- The status after a report. -/
def Report.apply (status : ConnectionStatus) : Report → ConnectionStatus
  | .notPaired => { status with phase := .unpaired }
  | .connecting _ | .pairing => { status with phase := .connecting }
  | .connected daemon path =>
      ⟨.connected, some daemon.name, path.rttMs, some path.tier⟩
  | .dialFailed error => { status with phase := error.phase }
  | .pairingFailed recorded =>
      { status with phase := if recorded then .disconnected else .unpaired }
  | .paired daemon => { status with phase := .disconnected, daemonName := some daemon.name }
  | .unpaired => { status with phase := .unpaired, daemonName := none }

/-- Where a task is: what it does next. -/
inductive Task
  | idle
  | looking (purpose : Purpose)
  | checking (purpose : Purpose) (live : Nat)
  | requesting (live : Nat)
  /-- About to empty the slot. -/
  | tearing (purpose : Purpose)
  /-- About to update the status after it emptied the slot. -/
  | emptied (purpose : Purpose)
  | reporting (report : Report)
  | dialing (daemon : PairedDaemon)
  /-- About to fill the slot. -/
  | adopting (daemon : PairedDaemon) (live : Nat) (path : PathInfo)
  | touching (daemon : PairedDaemon)
  | handshaking
  /-- About to keep the pairing session. -/
  | holding
  /-- About to look whether there is a pairing on record. -/
  | explaining
  | registering
  /-- About to give the pairing session up. -/
  | abandoning
  | saving (daemon : PairedDaemon)
  | caching (daemon : PairedDaemon)
  /-- About to end the pairing session of a pairing that was saved. -/
  | ending (daemon : PairedDaemon)
  | unpairing
  | forgetting
  | wiping
  deriving DecidableEq

/-- What is done for a purpose without a connection. -/
def Purpose.without : Purpose → Task
  | .request => .idle
  | .connect daemon => .reporting (.connecting daemon)
  | .unpair => .forgetting

/-- What follows a report. -/
def Report.next : Report → Task
  | .connecting daemon => .dialing daemon
  | .connected daemon _ => .touching daemon
  | .pairing => .handshaking
  | .unpaired => .wiping
  | .notPaired | .dialFailed _ | .pairingFailed _ | .paired _ => .idle

/-- What the tasks of a client share, as far as its status goes. -/
structure Shared where
  status : ConnectionStatus
  live : Option Nat
  established : Nat
  closed : Nat → Bool
  /-- A pairing session is held. -/
  pairing : Bool
  daemon : Option PairedDaemon
  task : Nat → Task

namespace Shared

/-- A client that was created with a record, or without one. -/
def create (stored : Option PairedDaemon) : Shared :=
  ⟨.idle stored, none, 0, fun _ => false, false, stored, fun _ => .idle⟩

def goto (s : Shared) (p : Nat) (task : Task) : Shared :=
  { s with task := Function.update s.task p task }

/-- A task that starts. -/
def begin (s : Shared) (p : Nat) (task : Task) : Option (Shared × Unit) :=
  if s.task p = .idle then some (s.goto p task, ()) else none

/-- What can happen next: `p` is the task that goes on. -/
inductive Event
  | close (live : Nat)
  | startRequest (p : Nat)
  | startConnect (p : Nat)
  | startDisconnect (p : Nat)
  /-- With a ticket that decodes. -/
  | startPairing (p : Nat)
  | startConfirm (p : Nat)
  | startUnpair (p : Nat)
  | cancelPairing
  | look (p : Nat)
  | check (p : Nat)
  | answer (p : Nat) (lost : Bool)
  /-- Empties the slot. -/
  | take (p : Nat)
  /-- Updates the status after the slot was emptied. -/
  | settle (p : Nat)
  /-- Empties the slot and updates the status, with nothing in between. -/
  | tearDown (p : Nat)
  | report (p : Nat)
  | dialed (p : Nat) (path : PathInfo)
  | dialFails (p : Nat) (error : DialError)
  | adopt (p : Nat)
  | touch (p : Nat) (saved : Bool) (now : Int)
  | handshaken (p : Nat)
  | handshakeFails (p : Nat)
  | hold (p : Nat)
  | explain (p : Nat)
  | registered (p : Nat) (daemon : PairedDaemon)
  | refused (p : Nat)
  | abandon (p : Nat)
  | save (p : Nat) (saved : Bool)
  | cache (p : Nat)
  | endPairing (p : Nat)
  | giveUp (p : Nat)
  | forget (p : Nat)
  | wipe (p : Nat)

/-- One step. -/
def step (s : Shared) : Event → Option (Shared × Unit)
  | .close live => some ({ s with closed := Function.update s.closed live true }, ())
  | .startRequest p => s.begin p (.looking .request)
  | .startConnect p =>
      match s.daemon with
      | none => s.begin p (.reporting .notPaired)
      | some daemon => s.begin p (.looking (.connect daemon))
  | .startDisconnect p => s.begin p (.tearing .request)
  | .startPairing p => ({ s with pairing := false } : Shared).begin p (.reporting .pairing)
  | .startConfirm p => if s.pairing then s.begin p .registering else none
  | .startUnpair p => s.begin p .unpairing
  | .cancelPairing => some ({ s with pairing := false }, ())
  | .look p =>
      match s.task p with
      | .looking purpose =>
          match s.live with
          | none => some (s.goto p purpose.without, ())
          | some live => some (s.goto p (.checking purpose live), ())
      | _ => none
  | .check p =>
      match s.task p with
      | .checking purpose live =>
          if s.closed live then some (s.goto p (.tearing purpose), ())
          else
            match purpose with
            | .request => some (s.goto p (.requesting live), ())
            | .connect _ | .unpair => some (s.goto p .idle, ())
      | _ => none
  | .answer p lost =>
      match s.task p with
      | .requesting _ => some (s.goto p (if lost then .tearing .request else .idle), ())
      | _ => none
  | .take p =>
      match s.task p with
      | .tearing purpose => some (({ s with live := none } : Shared).goto p (.emptied purpose), ())
      | _ => none
  | .settle p =>
      match s.task p with
      | .emptied purpose =>
          some (({ s with status := s.status.dropped } : Shared).goto p purpose.without, ())
      | _ => none
  | .tearDown p =>
      match s.task p with
      | .tearing purpose =>
          some (({ s with live := none, status := s.status.dropped } : Shared).goto p
            purpose.without, ())
      | _ => none
  | .report p =>
      match s.task p with
      | .reporting report =>
          some (({ s with status := report.apply s.status } : Shared).goto p report.next, ())
      | _ => none
  | .dialed p path =>
      match s.task p with
      | .dialing daemon =>
          some (({ s with established := s.established + 1 } : Shared).goto p
            (.adopting daemon s.established path), ())
      | _ => none
  | .dialFails p error =>
      match s.task p with
      | .dialing _ => some (s.goto p (.reporting (.dialFailed error)), ())
      | _ => none
  | .adopt p =>
      match s.task p with
      | .adopting daemon live path =>
          some (({ s with live := some live } : Shared).goto p
            (.reporting (.connected daemon path)), ())
      | _ => none
  | .touch p saved now =>
      match s.task p with
      | .touching daemon =>
          if saved then
            some (({ s with daemon := some { daemon with lastSeenMs := some now } } : Shared).goto p
              .idle, ())
          else some (s.goto p .idle, ())
      | _ => none
  | .handshaken p =>
      match s.task p with
      | .handshaking => some (s.goto p .holding, ())
      | _ => none
  | .handshakeFails p =>
      match s.task p with
      | .handshaking => some (s.goto p .explaining, ())
      | _ => none
  | .hold p =>
      match s.task p with
      | .holding => some (({ s with pairing := true } : Shared).goto p .idle, ())
      | _ => none
  | .explain p =>
      match s.task p with
      | .explaining => some (s.goto p (.reporting (.pairingFailed s.daemon.isSome)), ())
      | _ => none
  | .registered p daemon =>
      match s.task p with
      | .registering => some (s.goto p (.saving daemon), ())
      | _ => none
  | .refused p =>
      match s.task p with
      | .registering => some (s.goto p .abandoning, ())
      | _ => none
  | .abandon p =>
      match s.task p with
      | .abandoning => some (({ s with pairing := false } : Shared).goto p .idle, ())
      | _ => none
  | .save p saved =>
      match s.task p with
      | .saving daemon => some (s.goto p (if saved then .caching daemon else .idle), ())
      | _ => none
  | .cache p =>
      match s.task p with
      | .caching daemon =>
          some (({ s with daemon := some daemon } : Shared).goto p (.ending daemon), ())
      | _ => none
  | .endPairing p =>
      match s.task p with
      | .ending daemon =>
          some (({ s with pairing := false } : Shared).goto p (.reporting (.paired daemon)), ())
      | _ => none
  | .giveUp p =>
      match s.task p with
      | .unpairing =>
          some (({ s with pairing := false } : Shared).goto p (.tearing .unpair), ())
      | _ => none
  | .forget p =>
      match s.task p with
      | .forgetting =>
          some (({ s with daemon := none } : Shared).goto p (.reporting .unpaired), ())
      | _ => none
  | .wipe p =>
      match s.task p with
      | .wiping => some (s.goto p .idle, ())
      | _ => none

end Shared

/-! ### What tasks are about to do -/

/-- A connect, a pairing that begins or is confirmed, or an unpair is in progress. -/
def Task.busy : Task → Bool
  | .idle | .looking .request | .checking .request _ | .requesting _ | .tearing .request
  | .emptied .request => false
  | _ => true

/-- A task that ends with a report of another phase than connecting, or with a pairing
session that is held. -/
def Task.owes : Task → Bool
  | .tearing (.connect _) | .emptied (.connect _) | .tearing .unpair | .emptied .unpair => true
  | .reporting _ | .dialing _ | .adopting .. | .handshaking | .holding | .explaining => true
  | .caching _ | .ending _ | .unpairing | .forgetting => true
  | _ => false

/-- A connect that filled the slot and is about to report it. -/
def Task.filled : Task → Bool
  | .reporting (.connected ..) => true
  | _ => false

/-- A connect or an unpair that emptied the slot and is about to update the status. -/
def Task.dropped : Task → Bool
  | .emptied (.connect _) | .emptied .unpair => true
  | _ => false

/-- What a report says is not that there is, or will be, a connection. -/
def Report.denies : Report → Bool
  | .connecting _ | .pairing | .connected .. => false
  | _ => true

namespace Shared

variable {s t : Shared} {e : Event} {p q : Nat} {new : Task} {trace : List (Event × Unit)}
  {stored : Option PairedDaemon}

/-- Some task is about to do something. -/
def Has (s : Shared) (P : Task → Bool) : Prop := ∃ q, P (s.task q) = true

/-- Operations that report do so where nothing else is reported.  No pairing session is
given up while the phase is connecting, unless some task still ends that.  A phase
without a connection is reported where the slot is empty, or its report is still to
come; one with a connection where there is one, or its end is still to be reported.  A
disconnect, or a request that fails, empties the slot and updates the status with
nothing in between. -/
def Careful (_ : List (Event × Unit)) (s : Shared) : Event → Prop
  | .cancelPairing | .abandon _ => s.status.phase = .connecting → s.Has Task.owes
  | .take p => s.task p = .tearing .request → s.live = none
  | .settle _ =>
      s.status.phase = .connected ∨ s.status.phase = .connecting →
        s.live = none ∨ s.Has Task.filled
  | .report p => ∀ report, s.task p = .reporting report →
      ((s.task p).filled = true → s.live ≠ none ∨ s.Has Task.dropped) ∧
        (report.denies = true → s.live = none ∨ s.Has Task.filled)
  | _ => True

/-- No connect, begin of a pairing, confirmation or unpair is in progress, and no pairing
session is held. -/
def Quiet (s : Shared) : Prop := s.pairing = false ∧ ∀ p, (s.task p).busy = false

/-- The status is the truth. -/
structure Truthful (s : Shared) : Prop where
  connected : s.status.phase = .connected ↔ s.live.isSome = true
  settled : s.status.phase ≠ .connecting
  path : s.status.rttMs.isSome = true ∨ s.status.transport.isSome = true →
    s.status.phase = .connected

/-- **What holds between the status and the slot** while operations are under way. -/
structure Told (s : Shared) : Prop where
  connecting : s.status.phase = .connecting → s.pairing = true ∨ s.Has Task.owes
  connected : s.status.phase = .connected → s.live ≠ none ∨ s.Has Task.dropped
  live : s.live ≠ none →
    s.status.phase = .connected ∨ s.status.phase = .connecting ∨ s.Has Task.filled
  path : s.status.rttMs ≠ none ∨ s.status.transport ≠ none →
    s.live ≠ none ∨ s.Has Task.dropped

/-! ### Tasks that move -/

@[grind =] theorem goto_task (s : Shared) (p q : Nat) (new : Task) :
    (s.goto p new).task q = if q = p then new else s.task q := Function.update_apply ..

@[grind →] theorem begin_eq_some {u : Unit} (h : s.begin p new = some (t, u)) :
    s.task p = .idle ∧ t = s.goto p new := by
  unfold begin at h
  split_ifs at h with hidle
  cases h
  exact ⟨hidle, rfl⟩

theorem Has.goto_self {P : Task → Bool} (hnew : P new = true) : (s.goto p new).Has P :=
  ⟨p, by rw [goto_task, if_pos rfl, hnew]⟩

/-- A task moves, and the others stay where they are. -/
def Others (s t : Shared) (p : Nat) : Prop := ∀ q, q ≠ p → t.task q = s.task q

/-- What some task is about to do, some task still is when one moves that was not, or
still is. -/
theorem Has.moves {P : Task → Bool} (hothers : Others s t p) (hhas : s.Has P)
    (hmoved : P (s.task p) = true → P (t.task p) = true) : t.Has P := by
  obtain ⟨q, hq⟩ := hhas
  by_cases hqp : q = p
  · rw [hqp] at hq
    exact ⟨p, hmoved hq⟩
  · exact ⟨q, by rw [hothers q hqp, hq]⟩

/-- A step that leaves the status and the slot alone.  What the task owed it still owes,
or it leaves a pairing session behind; a session is given up only for what it owes. -/
structure Moves (s t : Shared) (p : Nat) : Prop where
  others : Others s t p
  status : t.status = s.status
  live : t.live = s.live
  pairing : s.pairing = true → t.pairing = true ∨ (t.task p).owes = true
  owes : (s.task p).owes = true → (t.task p).owes = true ∨ t.pairing = true
  dropped : (s.task p).dropped = true → (t.task p).dropped = true
  filled : (s.task p).filled = true → (t.task p).filled = true

theorem Told.moves (htold : Told s) (hmoves : Moves s t p) : Told t := by
  constructor
  · intro hphase
    rw [hmoves.status] at hphase
    rcases htold.connecting hphase with hheld | ⟨q, hq⟩
    · exact (hmoves.pairing hheld).imp id fun hnew => ⟨p, hnew⟩
    · by_cases hqp : q = p
      · rw [hqp] at hq
        exact (hmoves.owes hq).symm.imp id fun hnew => ⟨p, hnew⟩
      · exact .inr ⟨q, by rw [hmoves.others q hqp, hq]⟩
  · intro hphase
    rw [hmoves.status] at hphase
    rw [hmoves.live]
    exact (htold.connected hphase).imp id fun hdrop => hdrop.moves hmoves.others hmoves.dropped
  · intro hsomeone
    rw [hmoves.live] at hsomeone
    rw [hmoves.status]
    exact (htold.live hsomeone).imp id
      (Or.imp id fun hfill => hfill.moves hmoves.others hmoves.filled)
  · intro hpath
    rw [hmoves.status] at hpath
    rw [hmoves.live]
    exact (htold.path hpath).imp id fun hdrop => hdrop.moves hmoves.others hmoves.dropped

/-- The task that goes on, in a step that changes neither the status nor the slot, and
gives up no pairing session for good. -/
def Event.mover : Event → Option Nat
  | .close _ | .cancelPairing | .abandon _ | .take _ | .settle _ | .tearDown _ | .report _ | .adopt _ => none
  | .startRequest p | .startConnect p | .startDisconnect p | .startPairing p | .startConfirm p
  | .startUnpair p | .look p | .check p | .answer p _ | .dialed p _ | .dialFails p _
  | .touch p _ _ | .handshaken p | .handshakeFails p | .hold p | .explain p | .registered p _
  | .refused p | .save p _ | .cache p | .endPairing p | .giveUp p | .forget p | .wipe p => some p

theorem moves_step (hmover : e.mover = some p) (hstep : s.step e = some (t, ())) :
    Moves s t p := by
  refine ⟨?_, ?_, ?_, ?_, ?_, ?_, ?_⟩
  · unfold Others
    unfold step at hstep
    split at hstep <;> grind [Event.mover]
  · unfold step at hstep
    split at hstep <;> grind [Event.mover, goto]
  · unfold step at hstep
    split at hstep <;> grind [Event.mover, goto]
  · unfold step at hstep
    split at hstep <;> grind [Event.mover, goto, Task.owes]
  · unfold step at hstep
    split at hstep <;> grind [Event.mover, goto, Task.owes, Purpose.without]
  · unfold step at hstep
    split at hstep <;> grind [Event.mover, goto, Task.dropped, Purpose.without]
  · unfold step at hstep
    split at hstep <;> grind [Event.mover, goto, Task.filled, Purpose.without]

theorem others_goto (s : Shared) (p : Nat) (new : Task) : Others s (s.goto p new) p := by
  intro q hqp
  rw [goto_task, if_neg hqp]

theorem dropped_phase (status : ConnectionStatus) :
    status.dropped.phase ≠ .connected ∧ status.dropped.phase ≠ .connecting := by
  unfold ConnectionStatus.dropped
  dsimp only
  split_ifs with hphase
  · exact ⟨by decide, by decide⟩
  · exact ⟨fun h => hphase (.inl h), fun h => hphase (.inr h)⟩

/-- A report that denies a connection reports neither phase of one, and leaves the path. -/
theorem denies_apply {report : Report} (hdenies : report.denies = true)
    (status : ConnectionStatus) :
    (report.apply status).phase ≠ .connected ∧ (report.apply status).phase ≠ .connecting ∧
      (report.apply status).rttMs = status.rttMs ∧
      (report.apply status).transport = status.transport := by
  cases report with
  | connecting daemon => cases hdenies
  | connected daemon path => cases hdenies
  | pairing => cases hdenies
  | dialFailed error => cases error <;> exact ⟨by simp [Report.apply, DialError.phase],
      by simp [Report.apply, DialError.phase], rfl, rfl⟩
  | pairingFailed recorded => cases recorded <;> exact ⟨by simp [Report.apply],
      by simp [Report.apply], rfl, rfl⟩
  | _ => exact ⟨by simp [Report.apply], by simp [Report.apply], rfl, rfl⟩

/-- A task that gives up a pairing session. -/
theorem Told.abandon (htold : Told s) (htask : s.task p = .abandoning)
    (hcareful : s.status.phase = .connecting → s.Has Task.owes) :
    Told (({ s with pairing := false } : Shared).goto p .idle) := by
  have hothers := others_goto { s with pairing := false } p .idle
  refine ⟨fun hphase => .inr ?_, fun hphase => ?_, fun hlive => ?_, fun hpath => ?_⟩
  · exact (hcareful hphase).moves hothers (by simp [htask, Task.owes])
  · exact (htold.connected hphase).imp id
      fun hdrop => hdrop.moves hothers (by simp [htask, Task.dropped])
  · exact (htold.live hlive).imp id
      (Or.imp id fun hfill => hfill.moves hothers (by simp [htask, Task.filled]))
  · exact (htold.path hpath).imp id
      fun hdrop => hdrop.moves hothers (by simp [htask, Task.dropped])

/-- A task that empties the slot. -/
theorem Told.take {purpose : Purpose} (htold : Told s) (htask : s.task p = .tearing purpose)
    (hcareful : s.task p = .tearing .request → s.live = none) :
    Told (({ s with live := none } : Shared).goto p (.emptied purpose)) := by
  by_cases hrequest : purpose = .request
  · rw [hrequest] at htask ⊢
    have hnone := hcareful htask
    refine htold.moves (p := p) ⟨others_goto _ _ _, rfl, hnone.symm, .inl, ?_, ?_, ?_⟩
    · simp [htask, Task.owes]
    · simp [htask, Task.dropped]
    · simp [htask, Task.filled]
  · have hdropped : (Task.emptied purpose).dropped = true ∧ (Task.emptied purpose).owes = true := by
      cases purpose with
      | request => exact absurd rfl hrequest
      | connect daemon => exact ⟨rfl, rfl⟩
      | unpair => exact ⟨rfl, rfl⟩
    exact ⟨fun _ => .inr (Has.goto_self hdropped.2), fun _ => .inr (Has.goto_self hdropped.1),
      fun hlive => absurd rfl hlive, fun _ => .inr (Has.goto_self hdropped.1)⟩

/-- A task that updates the status after it emptied the slot. -/
theorem Told.settle {purpose : Purpose} (htold : Told s) (htask : s.task p = .emptied purpose)
    (hcareful : s.status.phase = .connected ∨ s.status.phase = .connecting →
      s.live = none ∨ s.Has Task.filled) :
    Told (({ s with status := s.status.dropped } : Shared).goto p purpose.without) := by
  obtain ⟨hconnected, hconnecting⟩ := dropped_phase s.status
  refine ⟨fun hphase => absurd hphase hconnecting, fun hphase => absurd hphase hconnected,
    fun hlive => .inr (.inr ?_), fun hpath => ?_⟩
  · have hfilled : s.Has Task.filled := by
      by_cases hphase : s.status.phase = .connected ∨ s.status.phase = .connecting
      · exact (hcareful hphase).resolve_left hlive
      · rcases htold.live hlive with hphase' | hphase' | hfilled
        · exact absurd (.inl hphase') hphase
        · exact absurd (.inr hphase') hphase
        · exact hfilled
    exact hfilled.moves (others_goto { s with status := s.status.dropped } p _)
      (by simp [htask, Task.filled])
  · rcases hpath with hrtt | htransport
    · exact absurd rfl hrtt
    · exact absurd rfl htransport

/-- A task that reports. -/
theorem Told.report {report : Report} (htold : Told s) (htask : s.task p = .reporting report)
    (hcareful : ((s.task p).filled = true → s.live ≠ none ∨ s.Has Task.dropped) ∧
      (report.denies = true → s.live = none ∨ s.Has Task.filled)) :
    Told (({ s with status := report.apply s.status } : Shared).goto p report.next) := by
  have hothers := others_goto { s with status := report.apply s.status } p report.next
  have hdropped : s.Has Task.dropped →
      (({ s with status := report.apply s.status } : Shared).goto p report.next).Has Task.dropped :=
    fun hdrop => hdrop.moves hothers (by simp [htask, Task.dropped])
  by_cases hdenies : report.denies = true
  · obtain ⟨hconnected, hconnecting, hrtt, htransport⟩ := denies_apply hdenies s.status
    refine ⟨fun hphase => absurd hphase hconnecting, fun hphase => absurd hphase hconnected,
      fun hlive => .inr (.inr ?_), fun hpath => ?_⟩
    · refine ((hcareful.2 hdenies).resolve_left hlive).moves hothers ?_
      rw [htask]
      intro hfilled
      cases report with
      | connected daemon path => cases hdenies
      | _ => cases hfilled
    · refine (htold.path ?_).imp id hdropped
      rw [← hrtt, ← htransport]
      exact hpath
  · cases report with
    | connecting daemon =>
        exact ⟨fun _ => .inr (Has.goto_self rfl), fun hphase => (nomatch hphase),
          fun _ => .inr (.inl rfl), fun hpath => (htold.path hpath).imp id hdropped⟩
    | pairing =>
        exact ⟨fun _ => .inr (Has.goto_self rfl), fun hphase => (nomatch hphase),
          fun _ => .inr (.inl rfl), fun hpath => (htold.path hpath).imp id hdropped⟩
    | connected daemon path =>
        have hlive := (hcareful.1 (by rw [htask]; rfl)).imp id hdropped
        exact ⟨fun hphase => (nomatch hphase), fun _ => hlive, fun _ => .inl rfl, fun _ => hlive⟩
    | _ => exact absurd rfl hdenies

/-- A connect that fills the slot. -/
theorem Told.adopt (htold : Told s) (p : Nat) (daemon : PairedDaemon) (live : Nat)
    (path : PathInfo) :
    Told (({ s with live := some live } : Shared).goto p (.reporting (.connected daemon path))) := by
  have hothers := others_goto { s with live := some live } p (.reporting (.connected daemon path))
  have hlive : ∀ {P : Prop}, some live ≠ none ∨ P := .inl (Option.some_ne_none live)
  refine ⟨fun hphase => ?_, fun _ => hlive, fun _ => .inr (.inr (Has.goto_self rfl)), fun _ => hlive⟩
  exact (htold.connecting hphase).imp id fun howes => howes.moves hothers fun _ => by
    rw [goto_task, if_pos rfl]
    rfl

/-- **Every careful step** keeps what holds between the status and the slot. -/
theorem Told.step (htold : Told s) (hcareful : Careful trace s e)
    (hstep : s.step e = some (t, ())) : Told t := by
  cases hmover : e.mover with
  | some p => exact htold.moves (moves_step hmover hstep)
  | none =>
      cases e with
      | close live =>
          cases hstep
          exact ⟨htold.connecting, htold.connected, htold.live, htold.path⟩
      | cancelPairing =>
          cases hstep
          exact ⟨fun hphase => .inr (hcareful hphase), htold.connected, htold.live, htold.path⟩
      | abandon p =>
          rw [Shared.step] at hstep
          split at hstep
          · next htask =>
            cases hstep
            exact htold.abandon htask hcareful
          · cases hstep
      | take p =>
          rw [Shared.step] at hstep
          split at hstep
          · next purpose htask =>
            cases hstep
            exact htold.take htask hcareful
          · cases hstep
      | settle p =>
          rw [Shared.step] at hstep
          split at hstep
          · next purpose htask =>
            cases hstep
            exact htold.settle htask hcareful
          · cases hstep
      | tearDown p =>
          rw [Shared.step] at hstep
          split at hstep
          · next purpose htask =>
            cases hstep
            obtain ⟨hconnected, hconnecting⟩ := dropped_phase s.status
            exact ⟨fun hphase => absurd hphase hconnecting,
              fun hphase => absurd hphase hconnected, fun hlive => absurd rfl hlive,
              fun hpath => hpath.elim (absurd rfl) (absurd rfl)⟩
          · cases hstep
      | report p =>
          rw [Shared.step] at hstep
          split at hstep
          · next report htask =>
            cases hstep
            exact htold.report htask (hcareful report htask)
          · cases hstep
      | adopt p =>
          rw [Shared.step] at hstep
          split at hstep
          · next daemon live path htask =>
            cases hstep
            exact htold.adopt p daemon live path
          · cases hstep
      | _ => cases hmover

/-- **Every careful run** keeps what holds between the status and the slot. -/
theorem run_told (hrun : Transition.Run step Careful (create stored) trace s) : Told s := by
  induction hrun with
  | nil =>
      refine ⟨fun hphase => ?_, fun hphase => ?_, fun hlive => absurd rfl hlive,
        fun hpath => hpath.elim (absurd rfl) (absurd rfl)⟩
      · cases stored <;> cases hphase
      · cases stored <;> cases hphase
  | snoc run guard taken ih => exact ih.step guard taken

/-! ### The status is the truth -/

/-- What a task owes or is about to report, it owes while it is busy. -/
theorem Quiet.not_has {P : Task → Bool} (hquiet : s.Quiet)
    (hbusy : ∀ task, P task = true → task.busy = true) : ¬ s.Has P := by
  intro hhas
  obtain ⟨q, hq⟩ := hhas
  have hidle := hquiet.2 q
  rw [hbusy _ hq] at hidle
  cases hidle

theorem busy_of_owes (task : Task) (h : task.owes = true) : task.busy = true := by
  cases task with
  | tearing purpose => cases purpose <;> first | rfl | cases h
  | emptied purpose => cases purpose <;> first | rfl | cases h
  | _ => first | rfl | cases h

theorem busy_of_dropped (task : Task) (h : task.dropped = true) : task.busy = true := by
  cases task with
  | emptied purpose => cases purpose <;> first | rfl | cases h
  | _ => cases h

theorem busy_of_filled (task : Task) (h : task.filled = true) : task.busy = true := by
  cases task with
  | reporting report => rfl
  | _ => cases h

end Shared

end Reporting

end Client
