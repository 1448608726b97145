import GoNomad.Server.Router

/-!
# The pairing loop

The loop that serves one connection's control stream, and the loop that accepts
one pairing connection after the other until a device registers or the window
expires.  The deadline is looked at between connections.
-/

namespace Server

open Proto Policy Store

/-- A device that completed pairing. -/
structure PairedDevice where
  name : String
  key : PublicKey
  deriving DecidableEq

/-! ### Serving one connection -/

/-- What the loop that serves a connection keeps. -/
structure Session where
  router : Router
  registered : Option PairedDevice

/-- What a message led to: a device recorded, and a reply to send, unless the
device could not be recorded. -/
structure Turn (σ δ : Type) where
  session : Session
  world : World σ
  store : δ
  recorded : Option PairedDevice
  outcome : Except StoreError (Option ControlMessage)

section Serve

variable {σ δ : Type} (services : Services σ) (codec : Codec)
  (onRegister : PublicKey → String → Option String → δ → Except StoreError δ)

/-- One message on the control stream, up to the reply. -/
def serveMessage (session : Session) (w : World σ) (store : δ) : ControlMessage → Turn σ δ
  | .request request =>
      match session.router.handle services codec request w with
      | ((response, .none), router, w') =>
          ⟨{ session with router }, w', store, none, .ok (some (.response response))⟩
      | ((response, .registered key name model), router, w') =>
          -- Recorded before the reply: a phone is never told that it is paired when it is not.
          match onRegister key name model store with
          | .error error => ⟨{ session with router }, w', store, none, .error error⟩
          | .ok store' =>
              ⟨⟨router, some ⟨name, key⟩⟩, w', store', some ⟨name, key⟩,
                .ok (some (.response response))⟩
  | .ping nonce => ⟨session, w, store, none, .ok (some (.pong nonce))⟩
  -- A daemon never receives these; they are ignored.
  | _ => ⟨session, w, store, none, .ok none⟩

end Serve

/-- Records a device with the default grant; the database may fail. -/
def persist (wallMs : Int) (storeFails : Bool) (key : PublicKey) (name : String)
    (model : Option String) (devices : Devices) : Except StoreError Devices :=
  if storeFails then .error .database
  else (devices.pair key name model .defaultGrant wallMs).map Prod.fst

/-! ### Accepting connections -/

inductive LoopPhase
  | accepting
  /-- A connection is served.  A peer with another pairing secret completes the
  handshake, but the keys do not match. -/
  | serving (session : Session) (keysMatch : Bool)
  /-- With the device, or because the window has expired. -/
  | returned (device : Option PairedDevice)

/-- The state of one pairing window; times are those of the monotonic clock. -/
structure PairingLoop (σ : Type) where
  now : Nat
  deadline : Nat
  devices : Devices
  world : World σ
  phase : LoopPhase

/-- What happens next. -/
inductive PairingEvent
  | tick (elapsed : Nat)
  /-- Waiting for a connection times out. -/
  | timeout
  | handshakeFailed
  | accepted (peer : PublicKey) (sas : String) (keysMatch : Bool)
  /-- A frame arrives; `none` is one that holds no control message. -/
  | received (message : Option ControlMessage) (wallMs : Int) (storeFails sendFails : Bool)
  /-- The peer ends the stream. -/
  | closed
  /-- The stream fails. -/
  | broken
  /-- Another process writes to the device table. -/
  | commit (op : Devices.Op)

/-- What a step shows: the device recorded and when, the reply that was sent, and
whether an attempt to pair has failed. -/
structure Seen where
  persisted : Option (PairedDevice × Nat)
  sent : Option ControlMessage
  failed : Bool

def Seen.nothing : Seen := ⟨none, none, false⟩

/-- A registration that a pairing connection is asked for, with the digits it
expects. -/
def Router.asked (codec : Codec) (r : Router) :
    ControlMessage → Option (SysRegisterParams × String)
  | .request request =>
      if request.method = Method.sysRegister then
        match r.state with
        | .pairing expectedSas => (codec.register request.params).map fun params =>
            (params, expectedSas)
        | .established => none
      else none
  | _ => none

/-- The message asks for a registration with the right digits. -/
def Router.confirmedBy (codec : Codec) (r : Router) (message : ControlMessage) : Bool :=
  (r.asked codec message).any fun asked => asciiDigits asked.1.sas = asked.2

/-- The message asks for a registration with other digits. -/
def Router.mismatchedBy (codec : Codec) (r : Router) (message : ControlMessage) : Bool :=
  (r.asked codec message).any fun asked => asciiDigits asked.1.sas ≠ asked.2

namespace PairingLoop

variable {σ : Type} (services : Services σ) (codec : Codec) (daemon : Daemon)

/-- The top of the loop. -/
def again (s : PairingLoop σ) : PairingLoop σ :=
  { s with phase := if s.deadline ≤ s.now then .returned none else .accepting }

/-- A window of some length is opened. -/
def start (now window : Nat) (devices : Devices) (world : World σ) : PairingLoop σ :=
  again ⟨now, now + window, devices, world, .accepting⟩

/-- A control message on the connection that is served. -/
def receive (s : PairingLoop σ) (session : Session) (message : ControlMessage) (wallMs : Int)
    (storeFails sendFails : Bool) : PairingLoop σ × Seen :=
  let turn :=
    serveMessage services codec (persist wallMs storeFails) session s.world s.devices message
  let s' : PairingLoop σ :=
    { s with devices := turn.store, world := turn.world, phase := .serving turn.session true }
  let persisted := turn.recorded.map fun device => (device, s.now)
  let failed := session.router.mismatchedBy codec message
  match turn.outcome with
  | .error _ => (s'.again, ⟨persisted, none, failed⟩)
  | .ok none => (s', ⟨persisted, none, failed⟩)
  | .ok (some reply) =>
      if sendFails then (s'.again, ⟨persisted, none, failed⟩)
      else (s', ⟨persisted, some reply, failed⟩)

def step (s : PairingLoop σ) : PairingEvent → Option (PairingLoop σ × Seen)
  | .tick elapsed => some ({ s with now := s.now + elapsed }, .nothing)
  | .timeout =>
      match s.phase with
      | .accepting =>
          if s.deadline ≤ s.now then some ({ s with phase := .returned none }, .nothing) else none
      | _ => none
  | .handshakeFailed =>
      match s.phase with
      | .accepting => some (s.again, .nothing)
      | _ => none
  | .accepted peer sas keysMatch =>
      match s.phase with
      | .accepting =>
          some ({ s with phase := .serving ⟨.forPairing daemon peer sas, none⟩ keysMatch },
            ⟨none, none, !keysMatch⟩)
      | _ => none
  -- A frame of a peer with other keys cannot be decrypted.
  | .received message wallMs storeFails sendFails =>
      match s.phase with
      | .serving session true =>
          match message with
          | none => some (s.again, .nothing)
          | some message =>
              some (s.receive services codec session message wallMs storeFails sendFails)
      | _ => none
  | .closed =>
      match s.phase with
      | .serving session _ =>
          match session.registered with
          | some device => some ({ s with phase := .returned (some device) }, .nothing)
          | none => some (s.again, .nothing)
      | _ => none
  | .broken =>
      match s.phase with
      | .serving _ _ => some (s.again, .nothing)
      | _ => none
  | .commit op =>
      match s.devices.apply op with
      | .ok devices => some ({ s with devices }, .nothing)
      | .error _ => none

end PairingLoop

end Server
