import GoNomad.Lib.CborRecord
import GoNomad.Proto.ControlCbor
import GoNomad.Proto.Frame

/-!
# How messages are read

The other way: messages, and the parameters and results of the methods, from the
items they were written as.  A field that nobody knows is skipped, one that may be
absent is optional, and any other that is missing, comes twice or is of another kind
fails the whole.  Items of indefinite length, with a tag or a floating-point number
in them, are not written and not read here.
-/

namespace Proto

open Cbor

namespace Decode

/-! ### Values -/

/-- An identifier is read from hex of either case. -/
def id {kind : IdKind} : Tree → Option (Id kind)
  | .text s =>
      match Id.fromHex s with
      | .ok x => some x
      | .error _ => none
  | _ => none

/-- Bytes may come as a list of integers. -/
def bytesCompat : Tree → Option (List UInt8)
  | .bytes b => some b
  | .array items => readAll toU8 items
  | _ => none

def capabilities (t : Tree) : Option CapabilitySet := (toU16 t).map CapabilitySet.mk

def entryKind : Tree → Option EntryKind
  | .text "file" => some .file
  | .text "directory" => some .directory
  | .text "symlink" => some .symlink
  | _ => none

def capability : Tree → Option Capability
  | .text "fs_read" => some .fsRead
  | .text "fs_write" => some .fsWrite
  | .text "fs_secrets" => some .fsSecrets
  | .text "pty_spawn" => some .ptySpawn
  | .text "exec_allowlisted" => some .execAllowlisted
  | .text "exec_arbitrary" => some .execArbitrary
  | .text "git_read" => some .gitRead
  | .text "git_write" => some .gitWrite
  | .text "git_dangerous" => some .gitDangerous
  | .text "agent_spawn" => some .agentSpawn
  | .text "policy_write" => some .policyWrite
  | _ => none

/-! ### Parameters -/

def registerParams : Tree → Option SysRegisterParams := record fun fields => do
  let deviceName ← field "device_name" toText fields
  let deviceModel ← optionalField "device_model" toText fields
  let sas ← field "sas" toText fields
  return { deviceName, deviceModel, sas }

def fsPathParams : Tree → Option FsPathParams := record fun fields => do
  let path ← field "path" toText fields
  return { path }

def ptySpawnParams : Tree → Option PtySpawnParams := record fun fields => do
  let cwd ← optionalField "cwd" toText fields
  let shell ← optionalField "shell" toText fields
  let cols ← field "cols" toU16 fields
  let rows ← field "rows" toU16 fields
  return { cwd, shell, cols, rows }

def ptyInputParams : Tree → Option PtyInputParams := record fun fields => do
  let ptyId ← field "pty_id" toU64 fields
  let data ← field "data" toText fields
  return { ptyId, data }

def ptyResizeParams : Tree → Option PtyResizeParams := record fun fields => do
  let ptyId ← field "pty_id" toU64 fields
  let cols ← field "cols" toU16 fields
  let rows ← field "rows" toU16 fields
  return { ptyId, cols, rows }

def ptyIdParams : Tree → Option PtyIdParams := record fun fields => do
  let ptyId ← field "pty_id" toU64 fields
  return { ptyId }

/-! ### Results -/

def sysInfoResult : Tree → Option SysInfoResult := record fun fields => do
  let hostName ← field "host_name" toText fields
  let daemonVersion ← field "daemon_version" toText fields
  let os ← field "os" toText fields
  let capabilities ← field "capabilities" capabilities fields
  let workspaceRoots ← field "workspace_roots" (toList toText) fields
  let shells ← field "shells" (toList toText) fields
  return { hostName, daemonVersion, os, capabilities, workspaceRoots, shells }

def registerResult : Tree → Option SysRegisterResult := record fun fields => do
  let deviceId ← field "device_id" toText fields
  let capabilities ← field "capabilities" capabilities fields
  return { deviceId, capabilities }

def dirEntry : Tree → Option DirEntry := record fun fields => do
  let name ← field "name" toText fields
  let kind ← field "kind" entryKind fields
  let sizeBytes ← optionalField "size_bytes" toU64 fields
  let modifiedMs ← optionalField "modified_ms" toI64 fields
  let isHidden ← field "is_hidden" toBool fields
  return { name, kind, sizeBytes, modifiedMs, isHidden }

def fsListResult : Tree → Option FsListResult := record fun fields => do
  let path ← field "path" toText fields
  let entries ← field "entries" (toList dirEntry) fields
  return { path, entries }

def fsReadResult : Tree → Option FsReadResult := record fun fields => do
  let path ← field "path" toText fields
  let text ← field "text" toText fields
  let contentHash ← field "content_hash" id fields
  let truncated ← field "truncated" toBool fields
  return { path, text, contentHash, truncated }

def screenFrame : Tree → Option ScreenFrame := record fun fields => do
  let ptyId ← field "pty_id" toU64 fields
  let rows ← field "rows" (toList toText) fields
  let cursorRow ← field "cursor_row" toU16 fields
  let cursorCol ← field "cursor_col" toU16 fields
  let cols ← field "cols" toU16 fields
  let exited ← field "exited" toBool fields
  return { ptyId, rows, cursorRow, cursorCol, cols, exited }

def ptySpawnResult : Tree → Option PtySpawnResult := record fun fields => do
  let ptyId ← field "pty_id" toU64 fields
  let initial ← field "initial" screenFrame fields
  let shell ← field "shell" toText fields
  return { ptyId, initial, shell }

def ptyListResult : Tree → Option (List UInt64) := record fun fields =>
  field "pty_ids" (toList toU64) fields

/-- A record of which nothing is asked. -/
def empty : Tree → Option Unit := record fun _ => some ()

/-! ### Errors -/

def errorKind : Tree → Option ErrorKind := taggedBy "kind" fun kind fields =>
  match kind with
  | "denied" => return .denied (← field "capability" capability fields)
  | "not_found" => some .notFound
  | "conflict" => return .conflict (← field "current_hash" id fields)
  | "rate_limited" => return .rateLimited (← field "retry_after_ms" toU32 fields)
  | "resource_exhausted" => do
      let resource ← field "resource" toText fields
      let limit ← field "limit" toU32 fields
      return .resourceExhausted resource limit
  | "unsupported" => do
      let feature ← field "feature" toText fields
      let sinceVersion ← optionalField "since_version" toU32 fields
      return .unsupported feature sinceVersion
  | "presence_required" => return .presenceRequired (← field "challenge" id fields)
  | "cancelled" => some .cancelled
  | "bad_request" => return .badRequest (← field "detail" toText fields)
  | "internal" => return .internal (← field "trace_id" toText fields)
  | _ => none

def protoError : Tree → Option ProtoError := record fun fields => do
  let kind ← field "kind" errorKind fields
  let correlationId ← optionalField "correlation_id" toU64 fields
  return { kind, correlationId }

/-! ### Messages -/

def rejectReason : Tree → Option RejectReason := taggedBy "reason" fun reason fields =>
  match reason with
  | "version_too_old" => return .versionTooOld (← field "server_min" toU32 fields)
  | "version_too_new" => return .versionTooNew (← field "server_max" toU32 fields)
  | "unpaired" => some .unpaired
  | "revoked" => some .revoked
  | "rate_limited" => return .rateLimited (← field "retry_after_ms" toU32 fields)
  | _ => none

def responseBody : Tree → Option ResponseBody := taggedBy "status" fun status fields =>
  match status with
  | "ok" => return .ok (← field "result" bytesCompat fields)
  | "progress" => do
      let done ← optionalField "done" toU64 fields
      let total ← optionalField "total" toU64 fields
      let message ← optionalField "message" toText fields
      return .progress done total message
  | "error" => return .error (← field "error" protoError fields)
  | _ => none

def hello (fields : Fields) : Option Hello := do
  let protoVersion ← field "proto_version" toU32 fields
  let minSupported ← field "min_supported" toU32 fields
  let clientVersion ← field "client_version" toText fields
  let deviceKey ← field "device_key" id fields
  let capabilitiesRequested ← field "capabilities_requested" capabilities fields
  let compressionDicts ← defaulted "compression_dicts" [] (toList toU32) fields
  let features ← defaulted "features" [] (toList toText) fields
  let resumeSession ← optionalField "resume_session" toU64 fields
  return {
    protoVersion, minSupported, clientVersion, deviceKey, capabilitiesRequested,
    compressionDicts, features, resumeSession }

def helloOk (fields : Fields) : Option HelloOk := do
  let protoVersion ← field "proto_version" toU32 fields
  let serverVersion ← field "server_version" toText fields
  let grantedCapabilities ← field "granted_capabilities" capabilities fields
  let workspaceRoots ← field "workspace_roots" (toList toText) fields
  let compressionDict ← optionalField "compression_dict" toU32 fields
  let serverFeatures ← defaulted "server_features" [] (toList toText) fields
  let sessionId ← field "session_id" toU64 fields
  return {
    protoVersion, serverVersion, grantedCapabilities, workspaceRoots, compressionDict,
    serverFeatures, sessionId }

def helloReject (fields : Fields) : Option HelloReject := do
  let reason ← field "reason" rejectReason fields
  let serverVersion ← field "server_version" toText fields
  return { reason, serverVersion }

/-- Two fields are read that nothing looks at. -/
def request (fields : Fields) : Option Request := do
  let correlationId ← field "correlation_id" toU64 fields
  let method ← field "method" toText fields
  let params ← field "params" bytesCompat fields
  let _idempotencyKey : Option Digest ← optionalField "idempotency_key" id fields
  let _presenceSignature ← optionalField "presence_signature" (toList toU8) fields
  return { correlationId, method, params }

def response (fields : Fields) : Option Response := do
  let correlationId ← field "correlation_id" toU64 fields
  let body ← field "body" responseBody fields
  return { correlationId, body }

def controlMessage : Tree → Option ControlMessage := taggedBy "type" fun type fields =>
  match type with
  | "hello" => return .hello (← hello fields)
  | "hello_ok" => return .helloOk (← helloOk fields)
  | "hello_reject" => return .helloReject (← helloReject fields)
  | "request" => return .request (← request fields)
  | "response" => return .response (← response fields)
  | "cancel" => return .cancel (← field "correlation_id" toU64 fields)
  | "ping" => return .ping (← field "nonce" toU64 fields)
  | "pong" => return .pong (← field "nonce" toU64 fields)
  | _ => none

/-! ### From bytes -/

/-- How deep items may stand in each other. -/
def recursionLimit : Nat := 256

/-- The value at the front of some bytes; what follows it is not looked at. -/
def fromReader {α : Type} (read : Tree → Option α) (bytes : List UInt8) : Option α := do
  let (t, _) ← readTree recursionLimit bytes
  read t

end Decode

namespace Frame

/-- Deserializes the payload; one that is raw or compressed is not parsed. -/
def decodeCbor {α : Type} (read : Tree → Option α) (f : Frame) : Except FrameError α :=
  if f.flags.isRaw || f.flags.isCompressed then .error .malformedPayload
  else
    match Decode.fromReader read f.payload with
    | some a => .ok a
    | none => .error .malformedPayload

end Frame

end Proto
