import GoNomad.Lib.Run
import GoNomad.Policy.Engine
import GoNomad.Proto.Control
import GoNomad.Store.Devices

/-!
# The router

The only path from the wire to a service: which methods are on offer, what a
pairing connection may do, and how a device registers.  The services (files,
terminals, shells) and the encoding of parameters and results are parameters;
every call of a service is written down.
-/

namespace Server

open Proto Policy Store

/-! ### Services -/

inductive PtyError
  | notFound
  | spawnFailed (shell detail : String)
  | noShell
  | closed
  | tooManyTerminals (limit : Nat)
  deriving DecidableEq

/-- A terminal error as the protocol has it.  A terminal whose process has gone is
the same as one that never existed. -/
def ptyError : PtyError → ProtoError
  | .notFound | .closed => .notFound
  | .tooManyTerminals limit =>
      .new (.resourceExhausted "terminals"
        (if limit < 2 ^ 32 then UInt32.ofNat limit else UInt32.ofNat (2 ^ 32 - 1)))
  | .noShell | .spawnFailed _ _ => .new (.unsupported "no usable shell on this machine" none)

/-- A call of a service. -/
inductive ServiceCall
  | fsList (grant : Option DeviceGrant) (path : String)
  | fsRead (grant : Option DeviceGrant) (path : String)
  | authorizeDir (grant : Option DeviceGrant) (path : String)
  | detectShells
  | shellById (id : String)
  | ptySpawn (shell cwd : Option String) (cols rows : UInt16)
  | ptyScreen (id : UInt64)
  | ptyShellOf (id : UInt64)
  | ptyWrite (id : UInt64) (data : List UInt8)
  | ptyResize (id : UInt64) (cols rows : UInt16)
  | ptyKill (id : UInt64)
  | ptyList
  deriving DecidableEq

/-- The services of a machine in a state of type `σ`. -/
structure Services (σ : Type) where
  list : Option DeviceGrant → String → σ → Except ProtoError (List DirEntry)
  read : Option DeviceGrant → String → σ → Except ProtoError FsReadResult
  authorizeDir : Option DeviceGrant → String → σ → Except ProtoError String
  detect : σ → List String
  byId : String → σ → Option String
  spawn : Option String → Option String → UInt16 → UInt16 → σ → Except PtyError UInt64 × σ
  screen : UInt64 → σ → Except PtyError ScreenFrame
  shellOf : UInt64 → σ → Option String
  write : UInt64 → List UInt8 → σ → Except PtyError Unit × σ
  resize : UInt64 → UInt16 → UInt16 → σ → Except PtyError Unit × σ
  kill : UInt64 → σ → Except PtyError Unit × σ
  ptys : σ → List UInt64

/-- How parameters are decoded and results encoded. -/
structure Codec where
  register : List UInt8 → Option SysRegisterParams
  fsPath : List UInt8 → Option FsPathParams
  ptySpawn : List UInt8 → Option PtySpawnParams
  ptyInput : List UInt8 → Option PtyInputParams
  ptyResize : List UInt8 → Option PtyResizeParams
  ptyId : List UInt8 → Option PtyIdParams
  result : MethodResult → Option (List UInt8)

namespace Codec

def decode {α : Type} (decoder : List UInt8 → Option α) (bytes : List UInt8) : Except ProtoError α :=
  match decoder bytes with
  | some params => .ok params
  | none => .error (.badRequest "malformed parameters")

def encode (codec : Codec) (value : MethodResult) : Except ProtoError (List UInt8) :=
  match codec.result value with
  | some bytes => .ok bytes
  | none => .error (.internal "encode")

end Codec

/-- What every connection shares. -/
structure Daemon where
  workspaceRoots : List String
  hostName : String
  daemonVersion : String
  os : String

/-- The machine, and the calls of services so far. -/
structure World (σ : Type) where
  machine : σ
  calls : List ServiceCall

/-- A handler: it may fail, and what it did stays done. -/
abbrev Handler (σ : Type) := ExceptT ProtoError (StateM (World σ))

namespace Handler

variable {σ : Type} {α : Type}

/-- Calls a service. -/
def call (entry : ServiceCall) (f : σ → α × σ) : Handler σ α :=
  fun w => (.ok (f w.machine).1, ⟨(f w.machine).2, w.calls ++ [entry]⟩)

/-- Calls a service that changes nothing. -/
def ask (entry : ServiceCall) (f : σ → α) : Handler σ α := call entry fun m => (f m, m)

def ofPty (x : Except PtyError α) : Handler σ α := liftM (x.mapError ptyError)

end Handler

/-! ### Routers -/

/-- Whether this connection is pairing a new device or serving a known one. -/
inductive PairingState
  /-- With the digits this side derived from the handshake. -/
  | pairing (expectedSas : String)
  | established
  deriving DecidableEq

/-- What the connection loop has to do. -/
inductive Effect
  | none
  | registered (peerKey : PublicKey) (deviceName : String) (deviceModel : Option String)
  deriving DecidableEq

/-- Dispatches requests for one connection; no grant is held while pairing. -/
structure Router where
  daemon : Daemon
  peerKey : PublicKey
  grant : Option DeviceGrant
  state : PairingState

/-- The digits of a text. -/
def asciiDigits (s : String) : String :=
  String.ofList (s.toList.filter fun c => '0' ≤ c && c ≤ '9')

/-- A grant freshly made by pairing. -/
def newlyPaired (deviceId : DeviceId) : DeviceGrant := ⟨deviceId, .defaultGrant, false⟩

namespace Router

/-- A router for an established session with a known device. -/
def forDevice (daemon : Daemon) (peerKey : PublicKey) (grant : DeviceGrant) : Router :=
  ⟨daemon, peerKey, some grant, .established⟩

/-- A router for an in-progress pairing. -/
def forPairing (daemon : Daemon) (peerKey : PublicKey) (expectedSas : String) : Router :=
  ⟨daemon, peerKey, none, .pairing expectedSas⟩

/-- The capabilities the peer currently holds. -/
def capabilities (r : Router) : CapabilitySet :=
  (r.grant.map DeviceGrant.effectiveCapabilities).getD .empty

variable {σ : Type} (services : Services σ) (codec : Codec)

/-- Denies unless the peer holds a capability. -/
def require (r : Router) (capability : Capability) : Handler σ Unit :=
  if r.capabilities.contains capability then pure () else throw (.denied capability)

def sysInfo (r : Router) : Handler σ (List UInt8) := do
  let shells ← Handler.ask .detectShells services.detect
  codec.encode (.sysInfo
    { hostName := r.daemon.hostName, daemonVersion := r.daemon.daemonVersion, os := r.daemon.os,
      capabilities := r.capabilities, workspaceRoots := r.daemon.workspaceRoots, shells })

/-- Completes pairing. -/
def sysRegister (r : Router) (request : Request) :
    Except ProtoError (List UInt8 × Effect) × Router :=
  match Codec.decode codec.register request.params with
  | .error error => (.error error, r)
  | .ok params =>
      match r.state with
      | .established => (.error (.badRequest "not pairing"), r)
      | .pairing expectedSas =>
          if asciiDigits params.sas ≠ expectedSas then
            (.error (.badRequest "pairing code mismatch"), r)
          else
            let deviceId := fromPublicKey r.peerKey
            -- The rest of the connection is used without reconnecting.
            let r' := { r with grant := some (newlyPaired deviceId), state := .established }
            match codec.encode (.sysRegister ⟨deviceId.toHex, .defaultGrant⟩) with
            | .error error => (.error error, r')
            | .ok result =>
                (.ok (result, .registered r.peerKey params.deviceName params.deviceModel), r')

def fsList (r : Router) (request : Request) : Handler σ (List UInt8) := do
  let params ← Codec.decode codec.fsPath request.params
  let entries ← Handler.ask (.fsList r.grant params.path) (services.list r.grant params.path)
  let entries ← entries
  codec.encode (.fsList ⟨params.path, entries⟩)

def fsRead (r : Router) (request : Request) : Handler σ (List UInt8) := do
  let params ← Codec.decode codec.fsPath request.params
  let content ← Handler.ask (.fsRead r.grant params.path) (services.read r.grant params.path)
  let content ← content
  codec.encode (.fsRead content)

/-- Where a terminal starts: inside a workspace root, if it is chosen. -/
def spawnDir (r : Router) : Option String → Handler σ (Option String)
  | some dir => do
      let cwd ← Handler.ask (.authorizeDir r.grant dir) (services.authorizeDir r.grant dir)
      let cwd ← cwd
      pure (some cwd)
  | none => pure none

def spawnShell : Option String → Handler σ (Option String)
  | some id => do
      let shell ← Handler.ask (.shellById id) (services.byId id)
      match shell with
      | some shell => pure (some shell)
      | none => throw (.new (.unsupported ("shell " ++ id) none))
  | none => pure none

def ptySpawn (r : Router) (request : Request) : Handler σ (List UInt8) := do
  r.require .ptySpawn
  let params ← Codec.decode codec.ptySpawn request.params
  let cwd ← r.spawnDir services params.cwd
  let shell ← spawnShell services params.shell
  let id ← Handler.call (.ptySpawn shell cwd params.cols params.rows)
    (services.spawn shell cwd params.cols params.rows)
  let id ← Handler.ofPty id
  let screen ← Handler.ask (.ptyScreen id) (services.screen id)
  let screen ← Handler.ofPty screen
  let shellId ← Handler.ask (.ptyShellOf id) (services.shellOf id)
  codec.encode (.ptySpawn ⟨id, screen, shellId.getD "unknown"⟩)

def ptyInput (r : Router) (request : Request) : Handler σ (List UInt8) := do
  r.require .ptySpawn
  let params ← Codec.decode codec.ptyInput request.params
  let data := utf8 params.data
  let done ← Handler.call (.ptyWrite params.ptyId data) (services.write params.ptyId data)
  Handler.ofPty done
  codec.encode .empty

def ptyResize (r : Router) (request : Request) : Handler σ (List UInt8) := do
  r.require .ptySpawn
  let params ← Codec.decode codec.ptyResize request.params
  let done ← Handler.call (.ptyResize params.ptyId params.cols params.rows)
    (services.resize params.ptyId params.cols params.rows)
  Handler.ofPty done
  codec.encode .empty

def ptyScreen (r : Router) (request : Request) : Handler σ (List UInt8) := do
  r.require .ptySpawn
  let params ← Codec.decode codec.ptyId request.params
  let screen ← Handler.ask (.ptyScreen params.ptyId) (services.screen params.ptyId)
  let screen ← Handler.ofPty screen
  codec.encode (.ptyScreen screen)

def ptyKill (r : Router) (request : Request) : Handler σ (List UInt8) := do
  r.require .ptySpawn
  let params ← Codec.decode codec.ptyId request.params
  let done ← Handler.call (.ptyKill params.ptyId) (services.kill params.ptyId)
  Handler.ofPty done
  codec.encode .empty

def ptyList (r : Router) : Handler σ (List UInt8) := do
  r.require .ptySpawn
  let ids ← Handler.ask .ptyList services.ptys
  codec.encode (.ptyList ids)

/-- The methods other than registration. -/
def serve (r : Router) (request : Request) : Handler σ (List UInt8) :=
  if request.method = Method.sysInfo then r.sysInfo services codec
  else if request.method = Method.fsList then r.fsList services codec request
  else if request.method = Method.fsRead then r.fsRead services codec request
  else if request.method = Method.ptySpawn then r.ptySpawn services codec request
  else if request.method = Method.ptyInput then r.ptyInput services codec request
  else if request.method = Method.ptyResize then r.ptyResize services codec request
  else if request.method = Method.ptyScreen then r.ptyScreen services codec request
  else if request.method = Method.ptyKill then r.ptyKill services codec request
  else if request.method = Method.ptyList then r.ptyList services codec
  else throw (.new (.unsupported request.method none))

/-- A pairing is in progress. -/
def isPairing (r : Router) : Bool :=
  match r.state with
  | .pairing _ => true
  | .established => false

def dispatch (r : Router) (request : Request) (w : World σ) :
    Except ProtoError (List UInt8 × Effect) × Router × World σ :=
  -- An unknown method is not to be confused with a permission failure.
  if request.method ∉ Method.all then
    (.error (.new (.unsupported request.method none)), r, w)
  else if r.isPairing ∧ request.method ≠ Method.sysRegister then
    (.error (.denied .fsRead), r, w)
  else if ¬ r.isPairing ∧ request.method = Method.sysRegister then
    (.error (.new (.unsupported "sys.register outside a pairing window" none)), r, w)
  else if request.method = Method.sysRegister then
    match r.sysRegister codec request with
    | (result, r') => (result, r', w)
  else
    match r.serve services codec request w with
    | (result, w') => (result.map fun bytes => (bytes, .none), r, w')

/-- Handles one request. -/
def handle (r : Router) (request : Request) (w : World σ) :
    (Response × Effect) × Router × World σ :=
  match r.dispatch services codec request w with
  | (.ok (result, effect), r', w') => ((⟨request.correlationId, .ok result⟩, effect), r', w')
  | (.error error, r', w') => ((⟨request.correlationId, .error error⟩, .none), r', w')

end Router

end Server
