import GoNomad.Policy.Engine
import GoNomad.Store.Devices

/-!
# The serve loop

Who does what while paired devices are served: the acceptor runs the handshakes,
each in a task of its own, and queues what is authenticated; the loop takes one
connection after the other, reads its grant, registers it and starts the task
that serves it; that task takes it off the registry again; the sweep closes what
is registered and no longer active; and the device table is written by other
processes.  Each of them takes its steps whenever it can.

The lock of the registry is never poisoned: nothing panics while it is held.
-/

namespace Server

open Proto Policy Store

/-- Which connection: what a pointer to it is compared by. -/
abbrev ConnId := Nat

/-- Completed connections buffered before the acceptor waits. -/
def acceptQueue : Nat := 16

/-- How far a connection has come. -/
inductive Stage
  /-- Accepted by QUIC; the peer is not authorised yet. -/
  | handshaking
  /-- Not authorised, failed or timed out, and dropped. -/
  | refused
  | authorised
  | queued
  | accepted
  | granted (grant : DeviceGrant)
  | registered (grant : DeviceGrant)
  | serving (grant : DeviceGrant)
  /-- `serve_connection` has returned. -/
  | ended
  | deregistered
  /-- The last handle is gone. -/
  | dropped
  deriving DecidableEq

structure Connection where
  peer : PublicKey
  stage : Stage
  closed : Bool
  deriving DecidableEq

def Connection.deviceId (conn : Connection) : DeviceId := fromPublicKey conn.peer

/-- The sweep between its passes, and within one after it has read the list. -/
inductive Sweeper
  | sleeping
  | listed (active : List DeviceId)
  deriving DecidableEq

structure State where
  devices : Devices
  conns : ConnId → Option Connection
  /-- Completed connections nobody has taken yet. -/
  queue : List ConnId
  /-- The connection the serve loop has in hand. -/
  hand : Option ConnId
  live : List (DeviceId × ConnId)
  sweeper : Sweeper

namespace State

/-- A daemon that has just started over a device table. -/
def start (devices : Devices) : State := ⟨devices, fun _ => none, [], none, [], .sleeping⟩

def put (s : State) (c : ConnId) (conn : Connection) : State :=
  { s with conns := Function.update s.conns c (some conn) }

/-- A step of one connection, if it can take it. -/
def advance (s : State) (c : ConnId) (f : Connection → Option Connection) : Option State :=
  match s.conns c with
  | none => none
  | some conn => (f conn).map (s.put c)

end State

/-- Answers from the database on every handshake. -/
def liveAllowlist (devices : Devices) (peer : PublicKey) : Bool :=
  0 < ((devices.listActive.map Device.publicKey).filter fun key => key = peer).length

namespace Connection

/-- The policy is asked while the handshake runs. -/
def authorize (devices : Devices) (conn : Connection) : Option Connection :=
  match conn.stage with
  | .handshaking =>
      some (if liveAllowlist devices conn.peer then { conn with stage := .authorised }
        else { conn with stage := .refused, closed := true })
  | _ => none

/-- The handshake fails or times out. -/
def fail (conn : Connection) : Option Connection :=
  match conn.stage with
  | .handshaking | .authorised => some { conn with stage := .refused, closed := true }
  | _ => none

/-- A connection that goes on to its next stage. -/
def move (next : Stage → Option Stage) (conn : Connection) : Option Connection :=
  (next conn.stage).map fun stage => { conn with stage }

def enqueue : Connection → Option Connection :=
  move fun
    | .authorised => some .queued
    | _ => none

def accept : Connection → Option Connection :=
  move fun
    | .queued => some .accepted
    | _ => none

/-- The grant is read afresh. -/
def readGrants (devices : Devices) (conn : Connection) : Option Connection :=
  conn.move fun
    | .accepted => some (.granted ⟨conn.deviceId, devices.grants conn.deviceId, false⟩)
    | _ => none

def register : Connection → Option Connection :=
  move fun
    | .granted grant => some (.registered grant)
    | _ => none

def spawn : Connection → Option Connection :=
  move fun
    | .registered grant => some (.serving grant)
    | _ => none

/-- `serve_connection` returns: the stream has ended or failed, or a message was
malformed. -/
def finish : Connection → Option Connection :=
  move fun
    | .serving _ => some .ended
    | _ => none

def deregister : Connection → Option Connection :=
  move fun
    | .ended => some .deregistered
    | _ => none

/-- The task is over; dropping the last handle closes the connection. -/
def drop (conn : Connection) : Option Connection :=
  match conn.stage with
  | .deregistered => some { conn with stage := .dropped, closed := true }
  | _ => none

/-- The connection goes away: the peer closed it, or the path was lost. -/
def disconnect (conn : Connection) : Option Connection := some { conn with closed := true }

end Connection

/-- What happens next. -/
inductive Event
  | quicAccept (c : ConnId) (peer : PublicKey)
  | authorize (c : ConnId)
  | fail (c : ConnId)
  | enqueue (c : ConnId)
  | accept (c : ConnId)
  | readGrants (c : ConnId)
  | register (c : ConnId)
  | spawn (c : ConnId)
  | request (c : ConnId)
  | disconnect (c : ConnId)
  | finish (c : ConnId)
  | deregister (c : ConnId)
  | drop (c : ConnId)
  /-- An operation on the device table commits. -/
  | commit (op : Devices.Op)
  /-- The sweep reads the list of active devices. -/
  | sweepRead
  /-- The sweep goes through the registry. -/
  | sweepClose

namespace State

/-- Whether a connection has ended. -/
def isClosed (s : State) (c : ConnId) : Bool := (s.conns c).any Connection.closed

/-- What the sweep closes: what is registered, open and not active. -/
def revoked (s : State) (active : List DeviceId) (c : ConnId) : Bool :=
  s.live.any fun entry => entry.2 = c && !s.isClosed entry.2 && !active.contains entry.1

/-- The registry after a pass of the sweep, and the connections it closed. -/
def sweep (s : State) (active : List DeviceId) : State :=
  { s with
    live := s.live.filter fun entry => !s.isClosed entry.2 && active.contains entry.1
    conns := fun c => (s.conns c).map fun conn =>
      if s.revoked active c then { conn with closed := true } else conn
    sweeper := .sleeping }

/-- One step, and the grant under which a request was handled. -/
def step (s : State) : Event → Option (State × Option DeviceGrant)
  | .quicAccept c peer =>
      if s.conns c = none then some (s.put c ⟨peer, .handshaking, false⟩, none) else none
  | .authorize c => (s.advance c (Connection.authorize s.devices)).map fun s' => (s', none)
  | .fail c => (s.advance c Connection.fail).map fun s' => (s', none)
  | .enqueue c =>
      if s.queue.length < acceptQueue then
        (s.advance c Connection.enqueue).map fun s' => ({ s' with queue := s.queue ++ [c] }, none)
      else none
  | .accept c =>
      if s.hand = none ∧ s.queue.head? = some c then
        (s.advance c Connection.accept).map fun s' =>
          ({ s' with queue := s.queue.tail, hand := some c }, none)
      else none
  | .readGrants c =>
      if s.hand = some c then
        (s.advance c (Connection.readGrants s.devices)).map fun s' => (s', none)
      else none
  -- Registered before the task is started.
  | .register c =>
      if s.hand = some c then
        (s.advance c Connection.register).map fun s' =>
          ({ s' with
              live := s.live ++ (s.conns c).toList.map fun conn => (conn.deviceId, c) }, none)
      else none
  | .spawn c =>
      if s.hand = some c then
        (s.advance c Connection.spawn).map fun s' => ({ s' with hand := none }, none)
      else none
  | .request c =>
      match s.conns c with
      | some ⟨_, .serving grant, _⟩ => some (s, some grant)
      | _ => none
  | .disconnect c => (s.advance c Connection.disconnect).map fun s' => (s', none)
  | .finish c => (s.advance c Connection.finish).map fun s' => (s', none)
  -- By the pointer, not by the device.
  | .deregister c =>
      (s.advance c Connection.deregister).map fun s' =>
        ({ s' with live := s.live.filter fun entry => entry.2 ≠ c }, none)
  | .drop c => (s.advance c Connection.drop).map fun s' => (s', none)
  | .commit op =>
      match s.devices.apply op with
      | .ok devices => some ({ s with devices }, none)
      | .error _ => none
  | .sweepRead =>
      if s.sweeper = .sleeping then
        some ({ s with sweeper := .listed (s.devices.listActive.map Device.id) }, none)
      else none
  | .sweepClose =>
      match s.sweeper with
      | .listed active => some (s.sweep active, none)
      | .sleeping => none

end State

/-! ### Over TCP

The list of keys is read once, when the daemon starts; the grant of a connection
is read when it is accepted, and nothing goes through open connections. -/

structure LanState where
  devices : Devices
  allowed : List PublicKey
  conns : ConnId → Option Connection
  /-- The connection the loop has in hand. -/
  hand : Option ConnId

inductive LanEvent
  /-- The handshake of a key on the list is completed. -/
  | accept (c : ConnId) (peer : PublicKey)
  | readGrants (c : ConnId)
  | spawn (c : ConnId)
  | request (c : ConnId)
  | finish (c : ConnId)
  | commit (op : Devices.Op)

/-- The task that serves a connection is started. -/
def Connection.spawnLan : Connection → Option Connection :=
  move fun
    | .granted grant => some (.serving grant)
    | _ => none

namespace LanState

def start (devices : Devices) : LanState :=
  ⟨devices, devices.listActive.map Device.publicKey, fun _ => none, none⟩

def put (s : LanState) (c : ConnId) (conn : Connection) : LanState :=
  { s with conns := Function.update s.conns c (some conn) }

def advance (s : LanState) (c : ConnId) (f : Connection → Option Connection) : Option LanState :=
  match s.conns c with
  | none => none
  | some conn => (f conn).map (s.put c)

/-- One step, and the grant under which a request was handled. -/
def step (s : LanState) : LanEvent → Option (LanState × Option DeviceGrant)
  | .accept c peer =>
      if s.hand = none ∧ s.conns c = none ∧ peer ∈ s.allowed then
        some ({ s.put c ⟨peer, .accepted, false⟩ with hand := some c }, none)
      else none
  | .readGrants c =>
      if s.hand = some c then
        (s.advance c (Connection.readGrants s.devices)).map fun s' => (s', none)
      else none
  | .spawn c =>
      if s.hand = some c then
        (s.advance c Connection.spawnLan).map fun s' => ({ s' with hand := none }, none)
      else none
  | .request c =>
      match s.conns c with
      | some ⟨_, .serving grant, _⟩ => some (s, some grant)
      | _ => none
  | .finish c => (s.advance c Connection.finish).map fun s' => (s', none)
  | .commit op =>
      match s.devices.apply op with
      | .ok devices => some ({ s with devices }, none)
      | .error _ => none

end LanState

end Server
