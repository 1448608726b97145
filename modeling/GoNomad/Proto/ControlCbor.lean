import GoNomad.Proto.MethodCbor

/-!
# How messages are written

What a method returns, an error, and every message on the control stream.  An
enumeration with a tag is a map whose first field is the tag.

* `length_le_struct` — a structure is at least as long as each of its fields;
* `length_le_response` — a response is longer than the result it carries.
-/

namespace Proto.MethodCbor

open Cbor

def int (v : Int64) : List UInt8 := (Item.int v).encode

def bool (b : Bool) : List UInt8 := [if b then 0xf5 else 0xf4]

def bytes (b : List UInt8) : List UInt8 := (Item.bytes b).encode

/-- A list with its elements already written. -/
def array (elements : List (List UInt8)) : List UInt8 :=
  Cbor.length 4 elements.length ++ elements.flatten

/-- An identifier is written in hex. -/
def id {kind : IdKind} (x : Id kind) : List UInt8 := text x.toHex

/-- A value that may be absent, in a field that is always written. -/
def nullable {α : Type} (write : α → List UInt8) : Option α → List UInt8
  | none => Item.null.encode
  | some a => write a

/-- A set of capabilities is its bits. -/
def capabilities (set : CapabilitySet) : List UInt8 := uint set.bits.toUInt64

/-! ### Results -/

def sysInfoResult (result : SysInfoResult) : List UInt8 :=
  struct [("host_name", text result.hostName), ("daemon_version", text result.daemonVersion),
    ("os", text result.os), ("capabilities", capabilities result.capabilities),
    ("workspace_roots", array (result.workspaceRoots.map text)),
    ("shells", array (result.shells.map text))]

def entryKind : EntryKind → List UInt8
  | .file => text "file"
  | .directory => text "directory"
  | .symlink => text "symlink"

def dirEntry (entry : DirEntry) : List UInt8 :=
  struct ([("name", text entry.name), ("kind", entryKind entry.kind)] ++
    optional "size_bytes" uint entry.sizeBytes ++ optional "modified_ms" int entry.modifiedMs ++
    [("is_hidden", bool entry.isHidden)])

def fsListResult (result : FsListResult) : List UInt8 :=
  struct [("path", text result.path), ("entries", array (result.entries.map dirEntry))]

def fsReadResult (result : FsReadResult) : List UInt8 :=
  struct [("path", text result.path), ("text", text result.text),
    ("content_hash", id result.contentHash), ("truncated", bool result.truncated)]

def screenFrame (frame : ScreenFrame) : List UInt8 :=
  struct [("pty_id", uint frame.ptyId), ("rows", array (frame.rows.map text)),
    ("cursor_row", uint frame.cursorRow.toUInt64), ("cursor_col", uint frame.cursorCol.toUInt64),
    ("cols", uint frame.cols.toUInt64), ("exited", bool frame.exited)]

def ptySpawnResult (result : PtySpawnResult) : List UInt8 :=
  struct [("pty_id", uint result.ptyId), ("initial", screenFrame result.initial),
    ("shell", text result.shell)]

def result : MethodResult → List UInt8
  | .sysInfo result => sysInfoResult result
  | .sysRegister result => registerResult result
  | .fsList result => fsListResult result
  | .fsRead result => fsReadResult result
  | .ptySpawn result => ptySpawnResult result
  | .ptyScreen frame => screenFrame frame
  | .ptyList ptyIds => struct [("pty_ids", array (ptyIds.map uint))]
  | .empty => struct []

/-! ### Errors -/

def capability : Capability → List UInt8
  | .fsRead => text "fs_read"
  | .fsWrite => text "fs_write"
  | .fsSecrets => text "fs_secrets"
  | .ptySpawn => text "pty_spawn"
  | .execAllowlisted => text "exec_allowlisted"
  | .execArbitrary => text "exec_arbitrary"
  | .gitRead => text "git_read"
  | .gitWrite => text "git_write"
  | .gitDangerous => text "git_dangerous"
  | .agentSpawn => text "agent_spawn"
  | .policyWrite => text "policy_write"

def errorKind : ErrorKind → List UInt8
  | .denied cap => struct [("kind", text "denied"), ("capability", capability cap)]
  | .notFound => struct [("kind", text "not_found")]
  | .conflict currentHash => struct [("kind", text "conflict"), ("current_hash", id currentHash)]
  | .rateLimited retryAfterMs =>
      struct [("kind", text "rate_limited"), ("retry_after_ms", uint retryAfterMs.toUInt64)]
  | .resourceExhausted resource limit =>
      struct [("kind", text "resource_exhausted"), ("resource", text resource),
        ("limit", uint limit.toUInt64)]
  | .unsupported feature sinceVersion =>
      struct [("kind", text "unsupported"), ("feature", text feature),
        ("since_version", nullable (fun version => uint version.toUInt64) sinceVersion)]
  | .presenceRequired challenge =>
      struct [("kind", text "presence_required"), ("challenge", id challenge)]
  | .cancelled => struct [("kind", text "cancelled")]
  | .badRequest detail => struct [("kind", text "bad_request"), ("detail", text detail)]
  | .internal traceId => struct [("kind", text "internal"), ("trace_id", text traceId)]

def protoError (error : ProtoError) : List UInt8 :=
  struct ([("kind", errorKind error.kind)] ++ optional "correlation_id" uint error.correlationId)

/-! ### Messages -/

def rejectReason : RejectReason → List UInt8
  | .versionTooOld serverMin =>
      struct [("reason", text "version_too_old"), ("server_min", uint serverMin.toUInt64)]
  | .versionTooNew serverMax =>
      struct [("reason", text "version_too_new"), ("server_max", uint serverMax.toUInt64)]
  | .unpaired => struct [("reason", text "unpaired")]
  | .revoked => struct [("reason", text "revoked")]
  | .rateLimited retryAfterMs =>
      struct [("reason", text "rate_limited"), ("retry_after_ms", uint retryAfterMs.toUInt64)]

def responseBody : ResponseBody → List UInt8
  | .ok result => struct [("status", text "ok"), ("result", bytes result)]
  | .progress done total message =>
      struct ([("status", text "progress")] ++ optional "done" uint done ++
        optional "total" uint total ++ optional "message" text message)
  | .error error => struct [("status", text "error"), ("error", protoError error)]

/-- A list that is not written when it is empty. -/
def unlessEmpty {α : Type} (name : String) (write : α → List UInt8) :
    List α → List (String × List UInt8)
  | [] => []
  | a :: as => [(name, array ((a :: as).map write))]

def helloFields (hello : Hello) : List (String × List UInt8) :=
  [("proto_version", uint hello.protoVersion.toUInt64),
    ("min_supported", uint hello.minSupported.toUInt64),
    ("client_version", text hello.clientVersion), ("device_key", id hello.deviceKey),
    ("capabilities_requested", capabilities hello.capabilitiesRequested)] ++
  unlessEmpty "compression_dicts" (fun dict => uint dict.toUInt64) hello.compressionDicts ++
  unlessEmpty "features" text hello.features ++
  optional "resume_session" uint hello.resumeSession

def helloOkFields (hello : HelloOk) : List (String × List UInt8) :=
  [("proto_version", uint hello.protoVersion.toUInt64),
    ("server_version", text hello.serverVersion),
    ("granted_capabilities", capabilities hello.grantedCapabilities),
    ("workspace_roots", array (hello.workspaceRoots.map text))] ++
  optional "compression_dict" (fun dict => uint dict.toUInt64) hello.compressionDict ++
  unlessEmpty "server_features" text hello.serverFeatures ++
  [("session_id", uint hello.sessionId)]

/-- A message with its kind first. -/
def tagged (kind : String) (fields : List (String × List UInt8)) : List UInt8 :=
  struct (("type", text kind) :: fields)

def controlMessage : ControlMessage → List UInt8
  | .hello hello => tagged "hello" (helloFields hello)
  | .helloOk hello => tagged "hello_ok" (helloOkFields hello)
  | .helloReject reject =>
      tagged "hello_reject" [("reason", rejectReason reject.reason),
        ("server_version", text reject.serverVersion)]
  | .request request =>
      tagged "request" [("correlation_id", uint request.correlationId),
        ("method", text request.method), ("params", bytes request.params)]
  | .response response =>
      tagged "response" [("correlation_id", uint response.correlationId),
        ("body", responseBody response.body)]
  | .cancel correlationId => tagged "cancel" [("correlation_id", uint correlationId)]
  | .ping nonce => tagged "ping" [("nonce", uint nonce)]
  | .pong nonce => tagged "pong" [("nonce", uint nonce)]

/-! ### How long they are -/

/-- A structure is at least as long as each of its fields. -/
theorem length_le_struct {fields : List (String × List UInt8)} {name : String}
    {value : List UInt8} (h : (name, value) ∈ fields) :
    value.length ≤ (struct fields).length := by
  obtain ⟨before, after, rfl⟩ := List.append_of_mem h
  rw [struct, List.flatMap_append, List.flatMap_cons]
  simp only [List.length_append]
  omega

theorem length_le_text (s : String) : (utf8 s).length ≤ (text s).length := by
  rw [text, Item.encode, List.length_append]
  omega

theorem length_le_bytes (b : List UInt8) : b.length ≤ (bytes b).length := by
  rw [bytes, Item.encode, List.length_append]
  omega

/-- **A response is at least as long as the result it carries.** -/
theorem length_le_response (correlationId : UInt64) (result : List UInt8) :
    result.length ≤ (controlMessage (.response ⟨correlationId, .ok result⟩)).length :=
  calc result.length
      ≤ (bytes result).length := length_le_bytes result
    _ ≤ (responseBody (.ok result)).length := length_le_struct (.tail _ (.head _))
    _ ≤ _ := length_le_struct (.tail _ (.tail _ (.head _)))

/-- What is read takes as many bytes as its text. -/
theorem length_le_fsReadResult (result : FsReadResult) :
    (utf8 result.text).length ≤ (fsReadResult result).length :=
  (length_le_text result.text).trans (length_le_struct (.tail _ (.head _)))

end Proto.MethodCbor
