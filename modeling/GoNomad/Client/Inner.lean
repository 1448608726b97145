import GoNomad.Client.Session

/-!
# The client

What the tasks of one client share: the slot of the live connection, the pollers
of its terminals, the pairing in flight, and the record of the paired daemon, in
memory and on disk.  A task goes from lock to lock and from await to await, so
each of its steps is one event, and the events of all tasks interleave.
-/

namespace Client

open Proto

/-- The daemon this phone is paired with. -/
structure PairedDaemon where
  noiseKey : PublicKey
  nodeId : Option PublicKey
  deviceId : String
  registeredDeviceId : String
  name : String
  addrHints : List String
  pairedAtMs : Int
  lastSeenMs : Option Int
  deriving DecidableEq

/-- A pairing that has handshaken but not yet registered. -/
structure Pairing where
  live : Nat
  peer : PublicKey
  nodeId : PublicKey
  addrHints : List String
  deriving DecidableEq

/-- Who asks for the live connection. -/
inductive Caller
  | call
  | spawn
  | attach (pty : UInt64)
  | poll (pty : UInt64)
  | connect (daemon : PairedDaemon)
  deriving DecidableEq

/-- Why a task tears the live connection down. -/
inductive Cause
  /-- A connection was found closed or failed a request. -/
  | failed (live : Nat)
  | disconnect
  | unpair
  deriving DecidableEq

/-- What a task does after it tore the live connection down. -/
inductive Next
  | finish
  | dial (daemon : PairedDaemon)
  | forget
  deriving DecidableEq

/-- Where a task is. -/
inductive Task
  | idle
  /-- About to look into the slot. -/
  | looking (caller : Caller)
  /-- About to ask whether the connection is closed. -/
  | checking (caller : Caller) (live : Nat)
  | requesting (caller : Caller) (live : Nat) (request : Nat)
  /-- About to stop the pollers. -/
  | tearing (cause : Cause) (next : Next)
  /-- About to empty the slot. -/
  | drained (cause : Cause) (next : Next)
  | dialing (daemon : PairedDaemon)
  /-- About to save the record with the time of this connection. -/
  | touching (daemon : PairedDaemon)
  /-- About to cache the record that it saved. -/
  | touched (daemon : PairedDaemon)
  /-- A poller between two screens. -/
  | polling (pty : UInt64)
  /-- About to start a poller. -/
  | attaching (pty : UInt64)
  /-- Runs the pairing handshake. -/
  | scanning
  | registering (pairing : Pairing) (request : Nat)
  /-- Asks for the name of the daemon that registered it. -/
  | naming (pairing : Pairing) (device : String) (request : Nat)
  /-- About to save the record of a new pairing. -/
  | saving (daemon : PairedDaemon)
  /-- About to cache the record of a new pairing. -/
  | caching (daemon : PairedDaemon)
  /-- About to return from a pairing. -/
  | confirmed (daemon : PairedDaemon)
  /-- About to clear the cached record. -/
  | forgetting
  /-- About to remove the saved record. -/
  | wiping
  /-- About to remove the key. -/
  | wipingKey
  deriving DecidableEq

/-- What a caller does without a connection. -/
def Caller.without : Caller → Task
  | .connect daemon => .dialing daemon
  | _ => .idle

/-- What a caller does after it tore a closed connection down. -/
def Caller.next : Caller → Next
  | .connect daemon => .dial daemon
  | _ => .finish

def Next.task : Next → Task
  | .finish => .idle
  | .dial daemon => .dialing daemon
  | .forget => .forgetting

/-- The outcomes after which the connection is taken for gone. -/
def Outcome.isLost : Outcome → Bool
  | .connectionLost | .transport => true
  | _ => false

/-- Shared client state, and where every task is. -/
structure Inner where
  sessions : Nat → Session
  established : Nat
  live : Option Nat
  terminals : AList fun _ : UInt64 => Nat
  aborted : Nat → Bool
  pairing : Option Pairing
  /-- The record in memory. -/
  daemon : Option PairedDaemon
  /-- The record on disk. -/
  stored : Option PairedDaemon
  task : Nat → Task

/-- What a task returns that matters here. -/
inductive Returned
  | connected
  | confirmed (daemon : PairedDaemon)
  | unpaired
  deriving DecidableEq

namespace Inner

/-- A client that was created with a record, or without one. -/
def create (stored : Option PairedDaemon) : Inner :=
  ⟨fun _ => .start, 0, none, ∅, fun _ => false, none, stored, stored, fun _ => .idle⟩

def goto (s : Inner) (p : Nat) (task : Task) : Inner :=
  { s with task := Function.update s.task p task }

/-- A task that starts. -/
def begin (s : Inner) (p : Nat) (task : Task) : Option (Inner × Option Returned) :=
  if s.task p = .idle then
    some ({ s.goto p task with aborted := Function.update s.aborted p false }, none)
  else none

/-- Aborts pollers: they go no further than their next await. -/
def abort (s : Inner) (pollers : List Nat) : Inner :=
  { s with aborted := fun p => s.aborted p || pollers.contains p }

/-- A connection goes on. -/
def setSession (s : Inner) (live : Nat) (session : Session) : Inner :=
  { s with sessions := Function.update s.sessions live session }

/-- Issues a request on a connection. -/
def issue (s : Inner) (live : Nat) : Inner :=
  match (s.sessions live).step .number with
  | none => s
  | some (session, _) => s.setSession live session

/-- Abandons a pairing. -/
def cancelPairing (s : Inner) : Inner := { s with pairing := none }

/-- A new connection. -/
def establish (s : Inner) : Inner :=
  { s with
    sessions := Function.update s.sessions s.established .start
    established := s.established + 1 }

/-- What is stored about a new pairing. -/
def record (pairing : Pairing) (device name : String) (now : Int) : PairedDaemon where
  noiseKey := pairing.peer
  nodeId := some pairing.nodeId
  deviceId := pairing.peer.toHex
  registeredDeviceId := device
  name
  addrHints := pairing.addrHints
  pairedAtMs := now
  lastSeenMs := some now

/-- What can happen next: `p` is the task that goes on. -/
inductive Event
  /-- A step on one connection that neither issues nor drops a request. -/
  | session (live : Nat) (event : Session.Event)
  | startCall (p : Nat) (caller : Caller)
  | startConnect (p : Nat)
  | startDisconnect (p : Nat)
  | startPairing (p : Nat)
  | startConfirm (p : Nat)
  | startUnpair (p : Nat)
  | closeTerminal (p : Nat) (pty : UInt64)
  | cancelPairing
  | look (p : Nat)
  | check (p : Nat)
  /-- A request has its outcome; what a poller or a new terminal learns from it. -/
  | finish (p : Nat) (pty : UInt64) (exited : Bool)
  | drain (p : Nat)
  | takeLive (p : Nat)
  | dialed (p : Nat) (now : Int)
  | dialFails (p : Nat)
  | touchSave (p : Nat)
  | touchCache (p : Nat)
  | tick (p : Nat)
  | attachPoller (p poller : Nat)
  | scanned (p : Nat) (peer nodeId : PublicKey) (addrHints : List String)
  | scanFails (p : Nat)
  | registered (p : Nat) (device : String)
  | named (p : Nat) (hostName : String) (now : Int)
  | save (p : Nat)
  | cache (p : Nat)
  | confirm (p : Nat)
  | forget (p : Nat)
  | wipe (p : Nat)
  | wipeKey (p : Nat)
  /-- An aborted poller is dropped where it waits. -/
  | vanish (p : Nat)

/-- The name a new daemon goes by: where it was reached, if it did not say. -/
def nameOf (outcome : Outcome) (hostName : String) (addrHints : List String) : String :=
  match outcome with
  | .ok _ => hostName
  | _ => addrHints.head?.getD "Your machine"

/-- One step, and what a task returns. -/
def step (s : Inner) : Event → Option (Inner × Option Returned)
  | .session live event =>
      match event, (s.sessions live).step event with
      | .number, _ | .drop _, _ | _, none => none
      | _, some (session, _) => some (s.setSession live session, none)
  | .startCall p caller =>
      match caller with
      | .call | .spawn | .attach _ => s.begin p (.looking caller)
      | _ => none
  | .startConnect p =>
      match s.daemon with
      | none => none
      | some daemon => s.begin p (.looking (.connect daemon))
  | .startDisconnect p => s.begin p (.tearing .disconnect .finish)
  | .startPairing p => s.cancelPairing.begin p .scanning
  | .startConfirm p =>
      match s.pairing with
      | none => none
      | some pairing =>
          (s.issue pairing.live).begin p
            (.registering pairing (s.sessions pairing.live).count)
  | .startUnpair p => s.cancelPairing.begin p (.tearing .unpair .forget)
  | .closeTerminal p pty =>
      (({ s with terminals := s.terminals.erase pty } : Inner).abort
        (s.terminals.lookup pty).toList).begin p (.looking .call)
  | .cancelPairing => some (s.cancelPairing, none)
  | .look p =>
      match s.task p with
      | .looking caller =>
          match s.live with
          | none => some (s.goto p (caller.without), none)
          | some live => some (s.goto p (.checking caller live), none)
      | _ => none
  | .check p =>
      match s.task p with
      | .checking caller live =>
          if (s.sessions live).closed then
            some (s.goto p (.tearing (.failed live) caller.next), none)
          else
            match caller with
            | .connect _ => some (s.goto p .idle, some .connected)
            | _ =>
                some ((s.issue live).goto p (.requesting caller live (s.sessions live).count), none)
      | _ => none
  | .finish p pty exited =>
      match s.task p with
      | .requesting caller live request =>
          match ((s.sessions live).call request).stage with
          | .returned outcome =>
              if outcome.isLost then
                some (s.goto p (.tearing (.failed live) .finish), none)
              else
                match caller, outcome with
                | .spawn, .ok _ => some (s.goto p (.attaching pty), none)
                | .attach pty, .ok _ => some (s.goto p (.attaching pty), none)
                | .poll pty, .ok _ =>
                    if exited then
                      some (({ s with terminals := s.terminals.erase pty } : Inner).goto p .idle, none)
                    else some (s.goto p (.polling pty), none)
                | _, _ => some (s.goto p .idle, none)
          | _ => none
      | _ => none
  | .drain p =>
      match s.task p with
      | .tearing cause next =>
          some (({ s with terminals := ∅ } : Inner).abort (s.terminals.entries.map Sigma.snd)
            |>.goto p (.drained cause next), none)
      | _ => none
  | .takeLive p =>
      match s.task p with
      | .drained _ next => some (({ s with live := none } : Inner).goto p next.task, none)
      | _ => none
  | .dialed p now =>
      match s.task p with
      | .dialing daemon =>
          some (({ s.establish with live := some s.established } : Inner).goto p
            (.touching { daemon with lastSeenMs := some now }), none)
      | _ => none
  | .dialFails p =>
      match s.task p with
      | .dialing _ => some (s.goto p .idle, none)
      | _ => none
  | .touchSave p =>
      match s.task p with
      | .touching daemon =>
          some (({ s with stored := some daemon } : Inner).goto p (.touched daemon), none)
      | _ => none
  | .touchCache p =>
      match s.task p with
      | .touched daemon =>
          some (({ s with daemon := some daemon } : Inner).goto p .idle, some .connected)
      | _ => none
  | .tick p =>
      match s.task p with
      | .polling pty => some (s.goto p (.looking (.poll pty)), none)
      | _ => none
  | .attachPoller p poller =>
      match s.task p with
      | .attaching pty =>
          ((({ s with terminals := s.terminals.insert pty poller } : Inner).abort
            (s.terminals.lookup pty).toList).goto p .idle).begin poller (.polling pty)
      | _ => none
  | .scanned p peer nodeId addrHints =>
      match s.task p with
      | .scanning =>
          some (({ s.establish with
            pairing := some ⟨s.established, peer, nodeId, addrHints⟩ } : Inner).goto p .idle, none)
      | _ => none
  | .scanFails p =>
      match s.task p with
      | .scanning => some (s.goto p .idle, none)
      | _ => none
  | .registered p device =>
      match s.task p with
      | .registering pairing request =>
          match ((s.sessions pairing.live).call request).stage with
          | .returned (.ok _) =>
              some ((s.issue pairing.live).goto p
                (.naming pairing device (s.sessions pairing.live).count), none)
          | .returned _ => some (s.cancelPairing.goto p .idle, none)
          | _ => none
      | _ => none
  | .named p hostName now =>
      match s.task p with
      | .naming pairing device request =>
          match ((s.sessions pairing.live).call request).stage with
          | .returned outcome =>
              some (s.goto p (.saving (record pairing device
                (nameOf outcome hostName pairing.addrHints) now)), none)
          | _ => none
      | _ => none
  | .save p =>
      match s.task p with
      | .saving daemon =>
          some (({ s with stored := some daemon } : Inner).goto p (.caching daemon), none)
      | _ => none
  | .cache p =>
      match s.task p with
      | .caching daemon =>
          some (({ s with daemon := some daemon } : Inner).goto p (.confirmed daemon), none)
      | _ => none
  | .confirm p =>
      match s.task p with
      | .confirmed daemon =>
          some (s.cancelPairing.goto p .idle, some (.confirmed daemon))
      | _ => none
  | .forget p =>
      match s.task p with
      | .forgetting => some (({ s with daemon := none } : Inner).goto p .wiping, none)
      | _ => none
  | .wipe p =>
      match s.task p with
      | .wiping => some (({ s with stored := none } : Inner).goto p .wipingKey, none)
      | _ => none
  | .wipeKey p =>
      match s.task p with
      | .wipingKey => some (s.goto p .idle, some .unpaired)
      | _ => none
  | .vanish p =>
      if s.aborted p then
        match s.task p with
        | .polling _ => some (s.goto p .idle, none)
        | .requesting _ live request =>
            match (s.sessions live).step (.drop request) with
            | none => none
            | some (session, _) => some ((s.setSession live session).goto p .idle, none)
        | _ => none
      else none

end Inner

end Client
