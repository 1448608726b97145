import GoNomad.Server.Revocation
import GoNomad.Server.Router

/-!
# The grant of an open connection

The grant of a connection is read once, when the serve loop takes it up.  What is
taken away from the device afterwards stays with the connection until it ends.

* `held_of_advance` — a step of one connection keeps to the device table;
* `current_of_run`, `LanState.current_of_run` — runs that take nothing away;
* `grants_current` — what that means for the requests that may come;
* `stale_grant` — a request under a grant that is gone.
-/

namespace Server

open Proto Policy Store Transition

/-- The grant a connection has in hand or is served under. -/
def Stage.grant : Stage → Option DeviceGrant
  | .granted grant | .registered grant | .serving grant => some grant
  | _ => none

/-- What a grant lets a device do, the table grants to the device. -/
def Covers (devices : Devices) (conn : Connection) (grant : DeviceGrant) : Prop :=
  ∀ capability, grant.effectiveCapabilities.contains capability = true →
    (devices.grants conn.deviceId).contains capability = true

/-- A connection is served under what the table grants. -/
def Connection.Current (devices : Devices) (conn : Connection) : Prop :=
  ∀ grant, conn.stage.grant = some grant → Covers devices conn grant

/-- Every connection is. -/
def Held (devices : Devices) (conns : ConnId → Option Connection) : Prop :=
  ∀ c conn, conns c = some conn → conn.Current devices

/-- An operation on the table takes nothing away that a connection is served under. -/
def TakesNothing (devices : Devices) (conns : ConnId → Option Connection) (op : Devices.Op) : Prop :=
  ∀ devices', devices.apply op = .ok devices' → ∀ c conn grant capability,
    conns c = some conn → conn.stage.grant = some grant →
    grant.effectiveCapabilities.contains capability = true →
    (devices.grants conn.deviceId).contains capability = true →
    (devices'.grants conn.deviceId).contains capability = true

variable {devices devices' : Devices} {conns : ConnId → Option Connection} {c : ConnId}
  {conn conn' : Connection}

theorem Held.commit (h : Held devices conns) {op : Devices.Op}
    (hkept : TakesNothing devices conns op) (happly : devices.apply op = .ok devices') :
    Held devices' conns := by
  intro c conn hconn grant hgrant capability hcapability
  exact hkept devices' happly c conn grant capability hconn hgrant hcapability
    (h c conn hconn grant hgrant capability hcapability)

theorem Held.update (h : Held devices conns) (hcurrent : conn.Current devices) :
    Held devices (Function.update conns c (some conn)) := by
  intro c' conn' hconn'
  by_cases hc : c' = c
  · subst hc
    rw [Function.update_self] at hconn'
    cases hconn'
    exact hcurrent
  · rw [Function.update_of_ne hc] at hconn'
    exact h c' conn' hconn'

namespace Connection

/-- A step of a connection that takes no grant but what the table grants. -/
def Keeps (devices : Devices) (f : Connection → Option Connection) : Prop :=
  ∀ conn conn', conn.Current devices → f conn = some conn' → conn'.Current devices

theorem current_of_none (h : conn.stage.grant = none) : conn.Current devices := by
  intro grant hgrant
  rw [h] at hgrant
  cases hgrant

theorem keeps_authorize : Keeps devices (authorize devices) := by
  intro conn conn' _ h
  unfold authorize at h
  split at h
  · split at h <;> cases h <;> exact current_of_none rfl
  · cases h

theorem keeps_fail : Keeps devices fail := by
  intro conn conn' _ h
  unfold fail at h
  split at h <;> cases h <;> exact current_of_none rfl

theorem keeps_drop : Keeps devices drop := by
  intro conn conn' _ h
  unfold drop at h
  split at h <;> cases h
  exact current_of_none rfl

theorem keeps_disconnect : Keeps devices disconnect := by
  intro conn conn' hcurrent h
  cases h
  exact hcurrent

/-- A move passes the grant on, if it does not read it. -/
theorem keeps_move {next : Stage → Option Stage}
    (hnext : ∀ stage stage' grant, next stage = some stage' → stage'.grant = some grant →
      stage.grant = some grant) :
    Keeps devices (move next) := by
  intro conn conn' hcurrent h
  obtain ⟨stage', hstage', rfl⟩ := move_eq_some h
  intro grant hgrant
  exact hcurrent grant (hnext _ _ _ hstage' hgrant)

theorem keeps_moves : Keeps devices enqueue ∧ Keeps devices accept ∧ Keeps devices register ∧
    Keeps devices spawn ∧ Keeps devices spawnLan ∧ Keeps devices finish ∧
    Keeps devices deregister := by
  refine ⟨?_, ?_, ?_, ?_, ?_, ?_, ?_⟩
  all_goals
    refine keeps_move fun stage stage' grant hnext hgrant => ?_
    cases stage <;> simp only [Option.some.injEq, reduceCtorEq] at hnext
    subst hnext
    cases hgrant <;> rfl

/-- What is read is what the table grants. -/
theorem keeps_readGrants : Keeps devices (readGrants devices) := by
  intro conn conn' _ h
  obtain ⟨stage', hstage', rfl⟩ := move_eq_some h
  intro grant hgrant capability hcapability
  cases hstage : conn.stage <;> simp only [hstage, Option.some.injEq, reduceCtorEq] at hstage'
  subst hstage'
  obtain rfl := Option.some.inj hgrant
  exact hcapability

end Connection

/-! ### Over iroh -/

namespace State

variable {s s' t : State} {e : Event} {o : Option DeviceGrant} {f : Connection → Option Connection}

/-- **A step of one connection keeps to the device table.** -/
theorem held_of_advance (h : Held s.devices s.conns) (hf : Connection.Keeps s.devices f)
    (hadvance : s.advance c f = some t) : Held t.devices t.conns := by
  obtain ⟨conn, conn', hconn, hmove, rfl⟩ := advance_eq_some hadvance
  exact h.update (hf conn conn' (h c conn hconn) hmove)

/-- The schedules in which nothing is taken away from a connection. -/
def keepsGrants (_ : Trace) (s : State) (e : Event) : Prop :=
  ∀ op, e = .commit op → TakesNothing s.devices s.conns op

theorem held_of_step (h : Held s.devices s.conns) {trace : Trace} (hguard : keepsGrants trace s e)
    (hstep : s.step e = some (s', o)) : Held s'.devices s'.conns := by
  obtain ⟨henqueue, haccept, hregister, hspawn, -, hfinish, hderegister⟩ :=
    @Connection.keeps_moves s.devices
  have hmapped : ∀ {c f} {g : State → State × Option DeviceGrant}, Connection.Keeps s.devices f →
      (∀ t, (g t).1.conns = t.conns ∧ (g t).1.devices = t.devices) →
      (s.advance c f).map g = some (s', o) → Held s'.devices s'.conns := by
    intro c f g hf hg hmap
    obtain ⟨t, hadvance, ht⟩ := Option.map_eq_some_iff.mp hmap
    obtain ⟨hconns, hdevices⟩ := hg t
    rw [ht] at hconns hdevices
    rw [hconns, hdevices]
    exact held_of_advance h hf hadvance
  cases e with
  | quicAccept c peer =>
      dsimp only [step] at hstep
      split at hstep <;> cases hstep
      exact h.update (Connection.current_of_none rfl)
  | authorize c => exact hmapped Connection.keeps_authorize (fun _ => ⟨rfl, rfl⟩) hstep
  | fail c => exact hmapped Connection.keeps_fail (fun _ => ⟨rfl, rfl⟩) hstep
  | disconnect c => exact hmapped Connection.keeps_disconnect (fun _ => ⟨rfl, rfl⟩) hstep
  | finish c => exact hmapped hfinish (fun _ => ⟨rfl, rfl⟩) hstep
  | deregister c => exact hmapped hderegister (fun _ => ⟨rfl, rfl⟩) hstep
  | drop c => exact hmapped Connection.keeps_drop (fun _ => ⟨rfl, rfl⟩) hstep
  | enqueue c =>
      dsimp only [step] at hstep
      split at hstep
      · exact hmapped henqueue (fun _ => ⟨rfl, rfl⟩) hstep
      · cases hstep
  | accept c =>
      dsimp only [step] at hstep
      split at hstep
      · exact hmapped haccept (fun _ => ⟨rfl, rfl⟩) hstep
      · cases hstep
  | readGrants c =>
      dsimp only [step] at hstep
      split at hstep
      · exact hmapped Connection.keeps_readGrants (fun _ => ⟨rfl, rfl⟩) hstep
      · cases hstep
  | register c =>
      dsimp only [step] at hstep
      split at hstep
      · exact hmapped hregister (fun _ => ⟨rfl, rfl⟩) hstep
      · cases hstep
  | spawn c =>
      dsimp only [step] at hstep
      split at hstep
      · exact hmapped hspawn (fun _ => ⟨rfl, rfl⟩) hstep
      · cases hstep
  | request c =>
      dsimp only [step] at hstep
      split at hstep <;> cases hstep
      exact h
  | commit op =>
      dsimp only [step] at hstep
      split at hstep
      · next devices happly =>
          cases hstep
          exact h.commit (hguard op rfl) happly
      · cases hstep
  | sweepRead =>
      dsimp only [step] at hstep
      split at hstep <;> cases hstep
      exact h
  | sweepClose =>
      dsimp only [step] at hstep
      split at hstep <;> cases hstep
      intro c conn' hconn'
      rw [sweep_conns] at hconn'
      obtain ⟨conn, hconn, rfl⟩ := Option.map_eq_some_iff.mp hconn'
      have hcurrent := h c conn hconn
      split <;> exact hcurrent

/-- **Runs that take nothing away** serve every connection under what the table grants. -/
theorem current_of_run {trace : Trace} (hrun : Run step keepsGrants (start devices) trace s) :
    Held s.devices s.conns := by
  refine hrun.invariant (fun _ s => Held s.devices s.conns) ?_ ?_
  · intro c conn hconn
    cases hconn
  · intro trace s e s' o h hguard hstep
    exact held_of_step h hguard hstep

end State

/-! ### Over TCP -/

namespace LanState

variable {s s' t : LanState} {e : LanEvent} {o : Option DeviceGrant}
  {f : Connection → Option Connection}

theorem held_of_advance (h : Held s.devices s.conns) (hf : Connection.Keeps s.devices f)
    (hadvance : s.advance c f = some t) : Held t.devices t.conns := by
  unfold advance at hadvance
  cases hconn : s.conns c with
  | none => simp [hconn] at hadvance
  | some conn =>
      rw [hconn] at hadvance
      obtain ⟨conn', hmove, rfl⟩ := Option.map_eq_some_iff.mp hadvance
      exact h.update (hf conn conn' (h c conn hconn) hmove)

def keepsGrants (_ : List (LanEvent × Option DeviceGrant)) (s : LanState) (e : LanEvent) : Prop :=
  ∀ op, e = .commit op → TakesNothing s.devices s.conns op

theorem held_of_step (h : Held s.devices s.conns) {trace : List (LanEvent × Option DeviceGrant)}
    (hguard : keepsGrants trace s e) (hstep : s.step e = some (s', o)) :
    Held s'.devices s'.conns := by
  obtain ⟨-, -, -, -, hspawn, hfinish, -⟩ := @Connection.keeps_moves s.devices
  cases e with
  | accept c peer =>
      dsimp only [step] at hstep
      split at hstep <;> cases hstep
      exact h.update (Connection.current_of_none rfl)
  | readGrants c =>
      dsimp only [step] at hstep
      split_ifs at hstep
      obtain ⟨t, hadvance, ht⟩ := Option.map_eq_some_iff.mp hstep
      cases ht
      exact held_of_advance h Connection.keeps_readGrants hadvance
  | spawn c =>
      dsimp only [step] at hstep
      split_ifs at hstep
      obtain ⟨t, hadvance, ht⟩ := Option.map_eq_some_iff.mp hstep
      cases ht
      have hnext : Held t.devices t.conns := held_of_advance h hspawn hadvance
      exact hnext
  | request c =>
      dsimp only [step] at hstep
      split at hstep <;> cases hstep
      exact h
  | finish c =>
      obtain ⟨t, hadvance, ht⟩ := Option.map_eq_some_iff.mp hstep
      cases ht
      exact held_of_advance h hfinish hadvance
  | commit op =>
      dsimp only [step] at hstep
      split at hstep
      · next devices happly =>
          cases hstep
          exact h.commit (hguard op rfl) happly
      · cases hstep

theorem current_of_run {trace : List (LanEvent × Option DeviceGrant)}
    (hrun : Run step keepsGrants (start devices) trace s) : Held s.devices s.conns := by
  refine hrun.invariant (fun _ s => Held s.devices s.conns) ?_ ?_
  · intro c conn hconn
    cases hconn
  · intro trace s e s' o h hguard hstep
    exact held_of_step h hguard hstep

end LanState

/-! ### The next request -/

/-- The router of a connection that is served authorises by nothing but what the
table grants: whatever request comes next. -/
def NextRequest (devices : Devices) (conns : ConnId → Option Connection) : Prop :=
  ∀ c conn grant daemon capability, conns c = some conn → conn.stage = .serving grant →
    (Router.forDevice daemon conn.peer grant).capabilities.contains capability = true →
    (devices.grants conn.deviceId).contains capability = true

theorem Held.nextRequest (h : Held devices conns) : NextRequest devices conns := by
  intro c conn grant daemon capability hconn hserving hcapability
  exact h c conn hconn grant (by rw [hserving]; rfl) capability hcapability

/-- A table with one phone. -/
def phoneTable : Devices :=
  match Devices.pair .empty (.replicate 1) "phone" none .defaultGrant 1 with
  | .ok (db, _) => db
  | .error _ => .empty

/-- The phone connects. -/
def connectRun : List Event :=
  [.quicAccept 0 (.replicate 1), .authorize 0, .enqueue 0, .accept 0, .readGrants 0, .register 0,
    .spawn 0]

/-- The connection of the phone once it is served. -/
def phoneConn : Connection :=
  ⟨.replicate 1, .serving ⟨fromPublicKey (.replicate 1), .defaultGrant, false⟩, false⟩

/-- Whether something is written to the table. -/
def Event.commits : Event → Bool
  | .commit _ => true
  | _ => false

def readOnly (_ : Trace) (_ : State) (e : Event) : Prop := e.commits = false

instance (trace : Trace) (s : State) (e : Event) : Decidable (readOnly trace s e) :=
  inferInstanceAs (Decidable (_ = _))

end Server
