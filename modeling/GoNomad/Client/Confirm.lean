import GoNomad.Client.Record

/-!
# A pairing that is confirmed

A task that confirms a pairing registers, asks for a name, and saves a record.

* `pairing_step`, `registering_step`, `naming_step`, `saving_step` — where a task
  that confirms comes from;
* `Heard.step`, `Heard.ok` — a result that a request returned was heard;
* `record_registering` — while a task registers, it does not touch the record.
-/

namespace Client

open Proto

/-- The task has a pairing that is confirmed. -/
def Task.pairs : Task → Bool
  | .registering _ _ | .naming _ _ _ | .saving _ => true
  | _ => false

@[grind =] theorem without_pairs (caller : Caller) : caller.without.pairs = false := by
  cases caller <;> rfl

@[grind =] theorem next_pairs (next : Next) : next.task.pairs = false := by
  cases next <;> rfl

/-- The record that a caller goes by. -/
def Caller.holds : Caller → Option PairedDaemon
  | .connect daemon => some daemon
  | _ => none

def Next.holds : Next → Option PairedDaemon
  | .dial daemon => some daemon
  | _ => none

/-- The record that a task goes by. -/
def Task.holds : Task → Option PairedDaemon
  | .looking caller | .checking caller _ | .requesting caller _ _ => caller.holds
  | .tearing _ next | .drained _ next => next.holds
  | .dialing daemon | .touching daemon | .touched daemon => some daemon
  | .saving daemon | .caching daemon | .confirmed daemon => some daemon
  | _ => none

@[grind =] theorem without_holds (caller : Caller) : caller.without.holds = caller.holds := by
  cases caller <;> rfl

@[grind =] theorem next_holds (caller : Caller) : caller.next.holds = caller.holds := by
  cases caller <;> rfl

@[grind =] theorem task_holds (next : Next) : next.task.holds = next.holds := by
  cases next <;> rfl

namespace Inner

variable {s t : Inner} {e : Event} {out : Option Returned} {p : Nat}

/-- A pairing in flight is of the last handshake. -/
theorem pairing_step {pairing : Pairing} (h : s.step e = some (t, out))
    (ht : t.pairing = some pairing) : s.pairing = some pairing ∨
      ∃ q peer nodeId addrHints, e = .scanned q peer nodeId addrHints := by
  unfold step at h
  split at h <;> grind [goto, begin, abort, issue, setSession, cancelPairing, establish]

/-- A task that registers was confirmed for the pairing in flight. -/
theorem registering_step {pairing : Pairing} {r : Nat} (h : s.step e = some (t, out))
    (ht : t.task p = .registering pairing r) : s.task p = .registering pairing r ∨
      s.pairing = some pairing := by
  have hpairs : (t.task p).pairs = true := by rw [ht]; rfl
  unfold step at h
  split at h <;> grind [Task.pairs]

/-- A task that asks for a name has registered. -/
theorem naming_step {pairing : Pairing} {device : String} {r : Nat}
    (h : s.step e = some (t, out)) (ht : t.task p = .naming pairing device r) :
    s.task p = .naming pairing device r ∨ e = .registered p device ∧
      ∃ r' result, s.task p = .registering pairing r' ∧
        ((s.sessions pairing.live).call r').stage = .returned (.ok result) := by
  have hpairs : (t.task p).pairs = true := by rw [ht]; rfl
  unfold step at h
  split at h <;> grind [Task.pairs]

/-- A task that is about to save a record has asked for the name. -/
theorem saving_step {daemon : PairedDaemon} (h : s.step e = some (t, out))
    (ht : t.task p = .saving daemon) : s.task p = .saving daemon ∨
      ∃ pairing device r, s.task p = .naming pairing device r ∧ daemon.noiseKey = pairing.peer := by
  have hpairs : (t.task p).pairs = true := by rw [ht]; rfl
  unfold step at h
  split at h <;> grind [Task.pairs, record]

/-- Connections are only added. -/
theorem established_step (h : s.step e = some (t, out)) : s.established ≤ t.established := by
  unfold step at h
  split at h <;> grind [goto, begin, abort, issue, setSession, cancelPairing, establish]

/-- A confirmation starts with its registration. -/
theorem registering_of_startConfirm (h : s.step (.startConfirm p) = some (t, out)) :
    ∃ pairing r, t.task p = .registering pairing r := by
  dsimp only [step] at h
  split at h
  · cases h
  · next pairing _ =>
      obtain ⟨-, rfl, -⟩ := begin_some h
      exact ⟨pairing, _, Function.update_self ..⟩

/-! ### Where a record comes from -/

/-- A record in memory, on disk, or with a task. -/
def Holds (s : Inner) (daemon : PairedDaemon) : Prop :=
  s.stored = some daemon ∨ s.daemon = some daemon ∨ ∃ p, (s.task p).holds = some daemon

/-- A record on disk or in memory was with a task, or was there. -/
theorem holds_of_record {daemon : PairedDaemon} (h : s.step e = some (t, out))
    (ht : t.stored = some daemon ∨ t.daemon = some daemon) : s.Holds daemon := by
  unfold step at h
  unfold Holds
  split at h <;> grind [Task.holds, goto, begin, abort, issue, setSession, cancelPairing, establish]

/-- A record with a task was there, but for its time, or names a new daemon. -/
theorem holds_step {daemon : PairedDaemon} (h : s.step e = some (t, out))
    (ht : (t.task p).holds = some daemon) :
    (∃ daemon', daemon'.untimed = daemon.untimed ∧ s.Holds daemon') ∨
      ∃ pairing device r, s.task p = .naming pairing device r ∧ daemon.noiseKey = pairing.peer := by
  unfold step at h
  unfold Holds
  split at h <;> grind [Task.holds, Caller.holds, Next.holds, record, PairedDaemon.untimed]

/-! ### The record while a task registers -/

/-- The task that a step moves, where it writes the record. -/
def Event.writer : Event → Option Nat
  | .touchSave p | .touchCache p | .save p | .cache p | .confirm p | .forget p | .wipe p
  | .wipeKey p => some p
  | _ => none

/-- The task that learns that it registered, or that it did not. -/
def Event.registers : Event → Option Nat
  | .registered p _ => some p
  | _ => none

theorem writes_of_writer (he : e.writer = none) : e.writes = false := by
  unfold Event.writer at he
  unfold Event.writes
  split at he <;> grind

/-- **A task that registers** does not touch the record, and goes on with its own
step only. -/
theorem record_registering {pairing : Pairing} {r : Nat} (h : s.step e = some (t, out))
    (hp : s.task p = .registering pairing r) (he : ∀ q, e.writer = some q → q = p) :
    t.stored = s.stored ∧ t.daemon = s.daemon ∧
      (t.task p = .registering pairing r ∨ e.registers = some p) := by
  have hstays : t.task p = .registering pairing r ∨ e.registers = some p := by
    unfold step at h
    split at h <;> grind [Event.registers]
  cases hwriter : e.writer with
  | none =>
      obtain ⟨hstored, hdaemon, -⟩ := @frame_step s t e out none h (writes_of_writer hwriter)
      exact ⟨hstored, hdaemon, hstays⟩
  | some q =>
      -- The task would have to be past its registration.
      obtain rfl := he q hwriter
      unfold step at h
      unfold Event.writer at hwriter
      split at hwriter <;> grind

end Inner

/-! ### What a connection has heard -/

/-- All the responses that a connection has heard are good. -/
def Heard (Good : Response → Prop) (session : Session) : Prop :=
  ∃ trace, Session.Sound trace session ∧
    ∀ response out, (.receive (some (.response response)), out) ∈ trace → Good response

variable {Good Good' : Response → Prop} {session : Session}

theorem heard_start : Heard Good .start :=
  ⟨[], Session.sound_start, fun _ _ h => absurd h List.not_mem_nil⟩

theorem Heard.mono (h : Heard Good session) (hgood : ∀ response, Good response → Good' response) :
    Heard Good' session := by
  obtain ⟨trace, hsound, hheard⟩ := h
  exact ⟨trace, hsound, fun response out hmem => hgood response (hheard response out hmem)⟩

/-- **A session goes on** hearing what is good. -/
theorem Heard.step {phone phone' : Inner} {event : Inner.Event} {out : Option Returned}
    {n : Nat} (h : Heard Good (phone.sessions n)) (hn : n < phone.established)
    (hstep : phone.step event = some (phone', out))
    (hgood : ∀ response, event = .session n (.receive (some (.response response))) →
      Good response) :
    Heard Good (phone'.sessions n) := by
  obtain ⟨trace, hsound, hheard⟩ := h
  rcases Inner.sessions_step hstep n with hsame | ⟨heq, -⟩ | ⟨taken, out', htakes, htaken⟩
  · rw [hsame]
    exact ⟨trace, hsound, hheard⟩
  · omega
  · refine ⟨_, hsound.step htaken, fun response out'' hmem => ?_⟩
    rcases List.mem_append.mp hmem with hmem | hmem
    · exact hheard response out'' hmem
    · obtain ⟨rfl, -⟩ := Prod.mk.inj (List.mem_singleton.mp hmem)
      rcases htakes with ⟨rfl, -⟩ | hnumber | ⟨p, caller, r, -, -, hdrop⟩
      · exact hgood response rfl
      · cases hnumber
      · cases hdrop

/-- **A request that returned a result** was answered by something good. -/
theorem Heard.ok {r : Nat} {result : List UInt8} (h : Heard Good session)
    (hr : (session.call r).stage = .returned (.ok result)) :
    ∃ response, Good response ∧ response.body = .ok result := by
  obtain ⟨trace, hsound, hheard⟩ := h
  obtain ⟨before, between, after, response, rfl, -, hreply⟩ := hsound.justified r (.ok result) hr
  refine ⟨response, hheard response none (by simp), ?_⟩
  unfold replyOf at hreply
  split at hreply <;> cases hreply
  assumption

end Client
