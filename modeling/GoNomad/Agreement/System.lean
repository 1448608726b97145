import GoNomad.Client.Confirm
import GoNomad.Core.Sas
import GoNomad.Server.PairingReply

/-!
# A phone and a pairing daemon

A client that pairs, against the loop that serves pairing connections.  Any other
peers connect to the loop too.  A connection of the phone has a session on the
phone and a connection of the loop; each side derives digits of its own from the
handshake, and what is on the way in a direction arrives in order, or is lost
with the connection.  The hello exchange is over when the handshake is.
-/

namespace Agreement

open Proto Store Server
open Core (Sas)
open Client (Inner PairedDaemon)

/-- Both programs, and what is between them. -/
structure Both (σ : Type) where
  phone : Inner
  loop : PairingLoop σ
  /-- The session on the phone of the connection that the loop has, if it is the
  phone's. -/
  serving : Option Nat
  /-- The digits that the phone derived, for its pairing sessions. -/
  shown : Nat → Option Sas
  /-- The digits that the daemon derived, for the connections of these. -/
  expected : Nat → Option Sas
  toDaemon : Nat → List Request
  toPhone : Nat → List Response
  /-- The session on which a task registered. -/
  origin : Nat → Option Nat

/-- What a step shows: the row that the daemon committed, with its grant; and the
request that was answered, with the response that was sent. -/
structure Noted where
  committed : Option (Device × CapabilitySet)
  answered : Option (Request × Response)

def Noted.nothing : Noted := ⟨none, none⟩

/-- What happens next. -/
inductive Event
  /-- A step of the phone's that is none of the next five. -/
  | phone (event : Inner.Event)
  /-- A pairing handshake is completed. -/
  | handshake (p : Nat) (nodeId : PublicKey) (addrHints : List String) (sas : Sas)
  /-- The request of a task that pairs goes out; its send may fail all the same. -/
  | send (p : Nat) (deviceName : String) (fails : Bool)
  /-- The next response arrives on the phone. -/
  | arrive (n : Nat)
  /-- The record of a new pairing cannot be written. -/
  | saveFails (p : Nat)
  /-- The record cannot be written with the time of a connection. -/
  | touchFails (p : Nat)
  /-- A step of the loop that is none of the next three. -/
  | loop (event : PairingEvent)
  /-- The loop accepts a connection of another peer, or one that is of no use to the
  phone. -/
  | accept (peer : PublicKey) (sas : Sas) (keysMatch : Bool)
  /-- The loop accepts the connection of a session. -/
  | acceptPhone (n : Nat) (sas : Sas)
  /-- The next request of the phone arrives. -/
  | serve (wallMs : Int) (storeFails sendFails : Bool)

/-- What the request of a task says, its session and its number there.  Only a
pairing that is confirmed asks to be registered, with the digits of its own
handshake. -/
def requestOf (shown : Nat → Option Sas) (deviceName : String) :
    Client.Task → Option (Nat × Nat × String × List UInt8)
  | .registering pairing r =>
      (shown pairing.live).map fun sas =>
        (pairing.live, r, Method.sysRegister,
          MethodCbor.registerParams ⟨deviceName, none, sas.digits⟩)
  | .naming pairing _ r => some (pairing.live, r, Method.sysInfo, MethodCbor.struct [])
  | _ => none

/-- The session on which a task registered, after a step of the phone. -/
def registeredOn (phone : Inner) (origin : Nat → Option Nat) (event : Inner.Event) (p : Nat) :
    Option Nat :=
  match event, phone.task p with
  | .registered q _, .registering pairing _ => if q = p then some pairing.live else origin p
  | _, _ => origin p

/-- The response of a request, if it was sent. -/
def answerOf (request : Request) (seen : Seen) : Option (Request × Response) :=
  match seen.sent with
  | some (.response response) => some (request, response)
  | _ => none

namespace Both

variable {σ : Type} (services : Services σ) (codec : Codec) (config : Daemon)
  (phoneKey daemonKey : PublicKey)

/-- A client that was created, and a window that is opened. -/
def start (stored : Option PairedDaemon) (now window : Nat) (devices : Devices) (world : World σ) :
    Both σ :=
  ⟨.create stored, .start now window devices world, none, fun _ => none, fun _ => none,
    fun _ => [], fun _ => [], fun _ => none⟩

/-- A step of the phone alone. -/
def stepPhone (s : Both σ) (event : Inner.Event) : Option (Both σ × Noted) :=
  match s.phone.step event with
  | none => none
  | some (phone, _) =>
      some ({ s with phone, origin := registeredOn s.phone s.origin event }, .nothing)

/-- A step of the loop alone. -/
def stepLoop (s : Both σ) (event : PairingEvent) : Option (Both σ × Seen) :=
  match s.loop.step services codec config event with
  | none => none
  | some (loop, seen) => some ({ s with loop }, seen)

/-- One step. -/
def step (s : Both σ) : Event → Option (Both σ × Noted)
  | .phone event =>
      match event with
      | .scanned .. => none
      | .session n (.sent _) => if s.shown n = none then s.stepPhone event else none
      | .session n (.receive (some (.response _))) =>
          if s.shown n = none then s.stepPhone event else none
      | _ => s.stepPhone event
  | .handshake p nodeId addrHints sas =>
      match s.phone.step (.scanned p daemonKey nodeId addrHints) with
      | none => none
      | some (phone, _) =>
          some ({ s with
            phone
            shown := Function.update s.shown s.phone.established (some sas) }, .nothing)
  | .send p deviceName fails =>
      match requestOf s.shown deviceName (s.phone.task p) with
      | none => none
      | some (n, r, method, params) =>
          match s.phone.step (.session n (if fails then .sendFails r else .sent r)) with
          | none => none
          | some (phone, _) =>
              let request : Request := ⟨((s.phone.sessions n).call r).id, method, params⟩
              some ({ s with
                phone
                toDaemon := Function.update s.toDaemon n (s.toDaemon n ++ [request]) }, .nothing)
  | .arrive n =>
      match s.toPhone n with
      | [] => none
      | response :: rest =>
          match s.phone.step (.session n (.receive (some (.response response)))) with
          | none => none
          | some (phone, _) =>
              some ({ s with phone, toPhone := Function.update s.toPhone n rest }, .nothing)
  | .saveFails p =>
      match s.phone.task p with
      | .saving _ => some ({ s with phone := s.phone.goto p .idle }, .nothing)
      | _ => none
  | .touchFails p =>
      match s.phone.task p with
      | .touching _ => some ({ s with phone := s.phone.goto p .idle }, .nothing)
      | _ => none
  | .loop event =>
      match event with
      | .accepted .. => none
      | .received (some (.request request)) .. =>
          if s.serving = none then
            (s.stepLoop services codec config event).map fun (t, seen) =>
              (t, ⟨committedIn t.loop.devices seen, answerOf request seen⟩)
          else none
      | _ => (s.stepLoop services codec config event).map fun (t, _) => (t, .nothing)
  | .accept peer sas keysMatch =>
      (s.stepLoop services codec config (.accepted peer sas.digits keysMatch)).map fun (t, _) =>
        ({ t with serving := none }, .nothing)
  -- A handshake that the phone completed has the daemon's key and the secret.
  | .acceptPhone n sas =>
      if s.expected n = none then
        (s.stepLoop services codec config (.accepted phoneKey sas.digits true)).map fun (t, _) =>
          ({ t with
            serving := some n
            expected := Function.update s.expected n (some sas) }, .nothing)
      else none
  | .serve wallMs storeFails sendFails =>
      match s.serving with
      | none => none
      | some n =>
          match s.toDaemon n with
          | [] => none
          | request :: rest =>
              (s.stepLoop services codec config
                (.received (some (.request request)) wallMs storeFails sendFails)).map
                  fun (t, seen) =>
                ({ t with
                  toDaemon := Function.update s.toDaemon n rest
                  toPhone := Function.update s.toPhone n
                    (s.toPhone n ++ (answerOf request seen).toList.map Prod.snd) },
                  ⟨committedIn t.loop.devices seen, answerOf request seen⟩)

end Both

end Agreement
