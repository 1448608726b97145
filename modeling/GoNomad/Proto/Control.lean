import GoNomad.Proto.Error

/-!
# Control messages and methods

What crosses the control stream, and the parameters and results of the methods
that the daemon implements.
-/

namespace Proto

/-! ### Messages -/

/-- The client's first message. -/
structure Hello where
  protoVersion : UInt32
  minSupported : UInt32
  clientVersion : String
  deviceKey : PublicKey
  capabilitiesRequested : CapabilitySet
  compressionDicts : List UInt32
  features : List String
  resumeSession : Option UInt64
  deriving DecidableEq

/-- The daemon accepts the client. -/
structure HelloOk where
  protoVersion : UInt32
  serverVersion : String
  grantedCapabilities : CapabilitySet
  workspaceRoots : List String
  compressionDict : Option UInt32
  serverFeatures : List String
  sessionId : UInt64
  deriving DecidableEq

/-- Why the daemon refuses a client. -/
inductive RejectReason
  | versionTooOld (serverMin : UInt32)
  | versionTooNew (serverMax : UInt32)
  | unpaired
  | revoked
  | rateLimited (retryAfterMs : UInt32)
  deriving DecidableEq

structure HelloReject where
  reason : RejectReason
  serverVersion : String
  deriving DecidableEq

/-- A call; the parameters are encoded as the method has them. -/
structure Request where
  correlationId : UInt64
  method : String
  params : List UInt8
  deriving DecidableEq

inductive ResponseBody
  /-- The encoded result of the method. -/
  | ok (result : List UInt8)
  | progress (done total : Option UInt64) (message : Option String)
  | error (error : ProtoError)
  deriving DecidableEq

structure Response where
  correlationId : UInt64
  body : ResponseBody
  deriving DecidableEq

inductive ControlMessage
  | hello (hello : Hello)
  | helloOk (helloOk : HelloOk)
  | helloReject (helloReject : HelloReject)
  | request (request : Request)
  | response (response : Response)
  | cancel (correlationId : UInt64)
  | ping (nonce : UInt64)
  | pong (nonce : UInt64)
  deriving DecidableEq

/-! ### Methods -/

namespace Method

def sysInfo : String := "sys.info"

def sysRegister : String := "sys.register"

def fsList : String := "fs.list"

def fsRead : String := "fs.read"

def ptySpawn : String := "pty.spawn"

def ptyInput : String := "pty.input"

def ptyResize : String := "pty.resize"

def ptyScreen : String := "pty.screen"

def ptyKill : String := "pty.kill"

def ptyList : String := "pty.list"

/-- Every method this build implements. -/
def all : List String :=
  [sysInfo, sysRegister, fsList, fsRead, ptySpawn, ptyInput, ptyResize, ptyScreen, ptyKill, ptyList]

end Method

structure SysRegisterParams where
  deviceName : String
  deviceModel : Option String
  /-- The digits the phone shows. -/
  sas : String
  deriving DecidableEq

/-- The parameters of `fs.list` and of `fs.read`. -/
structure FsPathParams where
  path : String
  deriving DecidableEq

structure PtySpawnParams where
  cwd : Option String
  shell : Option String
  cols : UInt16
  rows : UInt16
  deriving DecidableEq

structure PtyInputParams where
  ptyId : UInt64
  data : String
  deriving DecidableEq

structure PtyResizeParams where
  ptyId : UInt64
  cols : UInt16
  rows : UInt16
  deriving DecidableEq

structure PtyIdParams where
  ptyId : UInt64
  deriving DecidableEq

structure SysInfoResult where
  hostName : String
  daemonVersion : String
  os : String
  capabilities : CapabilitySet
  workspaceRoots : List String
  shells : List String
  deriving DecidableEq

structure SysRegisterResult where
  deviceId : String
  capabilities : CapabilitySet
  deriving DecidableEq

inductive EntryKind
  | file
  | directory
  | symlink
  deriving DecidableEq

structure DirEntry where
  name : String
  kind : EntryKind
  sizeBytes : Option UInt64
  modifiedMs : Option Int64
  isHidden : Bool
  deriving DecidableEq

structure FsListResult where
  path : String
  entries : List DirEntry
  deriving DecidableEq

structure FsReadResult where
  path : String
  text : String
  contentHash : Digest
  truncated : Bool
  deriving DecidableEq

/-- A terminal's screen. -/
structure ScreenFrame where
  ptyId : UInt64
  rows : List String
  cursorRow : UInt16
  cursorCol : UInt16
  cols : UInt16
  exited : Bool
  deriving DecidableEq

structure PtySpawnResult where
  ptyId : UInt64
  initial : ScreenFrame
  shell : String
  deriving DecidableEq

/-- What a method returns. -/
inductive MethodResult
  | sysInfo (result : SysInfoResult)
  | sysRegister (result : SysRegisterResult)
  | fsList (result : FsListResult)
  | fsRead (result : FsReadResult)
  | ptySpawn (result : PtySpawnResult)
  | ptyScreen (frame : ScreenFrame)
  | ptyList (ptyIds : List UInt64)
  /-- Of `pty.input`, `pty.resize` and `pty.kill`. -/
  | empty
  deriving DecidableEq

end Proto
