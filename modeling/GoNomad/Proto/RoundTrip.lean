import GoNomad.Proto.Decode

/-!
# What is written is read back

Every parameter, result and message, from the front of any bytes.

* `codes_screenFrame`, `codes_fsListResult`, … — the parameters and results;
* `codes_controlMessage` — the messages;
* `fromReader_of_codes` — what follows is left alone;
* `decodeCbor_of_frame` — a message in its frame.
-/

namespace Proto.Decode

open Cbor

/-! ### Values -/

section Values

variable (depth : Nat)

theorem codes_id {kind : IdKind} (x : Id kind) : Codes depth id (MethodCbor.id x) x := by
  refine ⟨_, reads_text depth x.toHex, ?_⟩
  simp only [id, Id.fromHex_toHex]

theorem codes_bytes (b : List UInt8) : Codes depth bytesCompat (MethodCbor.bytes b) b :=
  ⟨_, reads_bytes depth b, rfl⟩

theorem codes_capabilities (set : CapabilitySet) :
    Codes depth capabilities (MethodCbor.capabilities set) set := by
  obtain ⟨t, hreads, ht⟩ := codes_u16 depth set.bits
  exact ⟨t, hreads, by rw [capabilities, ht]; rfl⟩

theorem codes_entryKind (kind : EntryKind) :
    Codes depth entryKind (MethodCbor.entryKind kind) kind := by
  cases kind <;> exact ⟨_, reads_text depth _, rfl⟩

theorem codes_capability (cap : Capability) :
    Codes depth capability (MethodCbor.capability cap) cap := by
  cases cap <;> exact ⟨_, reads_text depth _, rfl⟩

end Values

section Slots

variable {α : Type} {depth : Nat} {read : Tree → Option α} {write : α → List UInt8}

theorem slot_optional (name : String) (hnull : read .null = none)
    (h : ∀ a, Codes depth read (write a) a) (o : Option α) :
    Slot depth name (atMostOne none (nullable read)) (MethodCbor.optional name write o) o := by
  cases o with
  | none => exact slot_absent name (nullable read) none
  | some a => exact ((h a).nullable hnull).slot name none

theorem slot_unlessEmpty (name : String) (h : ∀ a, Codes depth read (write a) a) (as : List α) :
    Slot (depth + 1) name (atMostOne [] (toList read)) (MethodCbor.unlessEmpty name write as) as := by
  cases as with
  | nil => exact slot_absent name (toList read) []
  | cons a as => exact (codes_array fun b _ => h b).slot name []

theorem codes_nullable (hnull : read .null = none) (h : ∀ a, Codes depth read (write a) a)
    (o : Option α) : Codes depth (nullable read) (MethodCbor.nullable write o) o := by
  cases o with
  | none => exact codes_none depth
  | some a => exact (h a).nullable hnull

theorem codes_list (h : ∀ a, Codes depth read (write a) a) (as : List α) :
    Codes (depth + 1) (toList read) (MethodCbor.array (as.map write)) as :=
  codes_array fun a _ => h a

end Slots

/-! ### Parameters -/

section Parameters

variable (depth : Nat)

theorem codes_registerParams (params : SysRegisterParams) :
    Codes (depth + 1) registerParams (MethodCbor.registerParams params) params := by
  obtain ⟨t₁, hr₁, ht₁⟩ := codes_text depth params.deviceName
  obtain ⟨ts₂, hr₂, ht₂⟩ := slot_optional "device_model" rfl (codes_text depth) params.deviceModel
  obtain ⟨t₃, hr₃, ht₃⟩ := codes_text depth params.sas
  refine codes_record (List.rel_append (List.rel_append (.cons (hr₁.field _) .nil) hr₂)
    (.cons (hr₃.field _) .nil)) fun t ht => ?_
  simp [registerParams, record, ht, field, optionalField, defaulted, one, ht₁, ht₂, ht₃]

theorem codes_fsPathParams (params : FsPathParams) :
    Codes (depth + 1) fsPathParams (MethodCbor.fsPathParams params) params := by
  obtain ⟨t₁, hr₁, ht₁⟩ := codes_text depth params.path
  refine codes_record (.cons (hr₁.field _) .nil) fun t ht => ?_
  simp [fsPathParams, record, ht, field, one, ht₁]

theorem codes_ptySpawnParams (params : PtySpawnParams) :
    Codes (depth + 1) ptySpawnParams (MethodCbor.ptySpawnParams params) params := by
  obtain ⟨ts₁, hr₁, ht₁⟩ := slot_optional "cwd" rfl (codes_text depth) params.cwd
  obtain ⟨ts₂, hr₂, ht₂⟩ := slot_optional "shell" rfl (codes_text depth) params.shell
  obtain ⟨t₃, hr₃, ht₃⟩ := codes_u16 depth params.cols
  obtain ⟨t₄, hr₄, ht₄⟩ := codes_u16 depth params.rows
  refine codes_record (List.rel_append (List.rel_append hr₁ hr₂)
    (.cons (hr₃.field _) (.cons (hr₄.field _) .nil))) fun t ht => ?_
  simp [ptySpawnParams, record, ht, field, optionalField, defaulted, one, ht₁, ht₂, ht₃, ht₄]

theorem codes_ptyInputParams (params : PtyInputParams) :
    Codes (depth + 1) ptyInputParams (MethodCbor.ptyInputParams params) params := by
  obtain ⟨t₁, hr₁, ht₁⟩ := codes_u64 depth params.ptyId
  obtain ⟨t₂, hr₂, ht₂⟩ := codes_text depth params.data
  refine codes_record (.cons (hr₁.field _) (.cons (hr₂.field _) .nil)) fun t ht => ?_
  simp [ptyInputParams, record, ht, field, one, ht₁, ht₂]

theorem codes_ptyResizeParams (params : PtyResizeParams) :
    Codes (depth + 1) ptyResizeParams (MethodCbor.ptyResizeParams params) params := by
  obtain ⟨t₁, hr₁, ht₁⟩ := codes_u64 depth params.ptyId
  obtain ⟨t₂, hr₂, ht₂⟩ := codes_u16 depth params.cols
  obtain ⟨t₃, hr₃, ht₃⟩ := codes_u16 depth params.rows
  refine codes_record (.cons (hr₁.field _) (.cons (hr₂.field _) (.cons (hr₃.field _) .nil)))
    fun t ht => ?_
  simp [ptyResizeParams, record, ht, field, one, ht₁, ht₂, ht₃]

theorem codes_ptyIdParams (params : PtyIdParams) :
    Codes (depth + 1) ptyIdParams (MethodCbor.ptyIdParams params) params := by
  obtain ⟨t₁, hr₁, ht₁⟩ := codes_u64 depth params.ptyId
  refine codes_record (.cons (hr₁.field _) .nil) fun t ht => ?_
  simp [ptyIdParams, record, ht, field, one, ht₁]

end Parameters

/-! ### Results -/

section Results

variable (depth : Nat)

theorem codes_sysInfoResult (result : SysInfoResult) :
    Codes (depth + 2) sysInfoResult (MethodCbor.sysInfoResult result) result := by
  obtain ⟨t₁, hr₁, ht₁⟩ := codes_text (depth + 1) result.hostName
  obtain ⟨t₂, hr₂, ht₂⟩ := codes_text (depth + 1) result.daemonVersion
  obtain ⟨t₃, hr₃, ht₃⟩ := codes_text (depth + 1) result.os
  obtain ⟨t₄, hr₄, ht₄⟩ := codes_capabilities (depth + 1) result.capabilities
  obtain ⟨t₅, hr₅, ht₅⟩ := codes_list (codes_text depth) result.workspaceRoots
  obtain ⟨t₆, hr₆, ht₆⟩ := codes_list (codes_text depth) result.shells
  refine codes_record (.cons (hr₁.field _) (.cons (hr₂.field _) (.cons (hr₃.field _)
    (.cons (hr₄.field _) (.cons (hr₅.field _) (.cons (hr₆.field _) .nil)))))) fun t ht => ?_
  simp [sysInfoResult, record, ht, field, one, ht₁, ht₂, ht₃, ht₄, ht₅, ht₆]

theorem codes_registerResult (result : SysRegisterResult) :
    Codes (depth + 1) registerResult (MethodCbor.registerResult result) result := by
  obtain ⟨t₁, hr₁, ht₁⟩ := codes_text depth result.deviceId
  obtain ⟨t₂, hr₂, ht₂⟩ := codes_capabilities depth result.capabilities
  refine codes_record (.cons (hr₁.field _) (.cons (hr₂.field _) .nil)) fun t ht => ?_
  simp [registerResult, record, ht, field, one, ht₁, ht₂]

theorem codes_dirEntry (entry : DirEntry) :
    Codes (depth + 1) dirEntry (MethodCbor.dirEntry entry) entry := by
  obtain ⟨t₁, hr₁, ht₁⟩ := codes_text depth entry.name
  obtain ⟨t₂, hr₂, ht₂⟩ := codes_entryKind depth entry.kind
  obtain ⟨ts₃, hr₃, ht₃⟩ := slot_optional "size_bytes" rfl (codes_u64 depth) entry.sizeBytes
  obtain ⟨ts₄, hr₄, ht₄⟩ := slot_optional "modified_ms" rfl (codes_i64 depth) entry.modifiedMs
  obtain ⟨t₅, hr₅, ht₅⟩ := codes_bool depth entry.isHidden
  refine codes_record (List.rel_append (List.rel_append (List.rel_append
    (.cons (hr₁.field _) (.cons (hr₂.field _) .nil)) hr₃) hr₄) (.cons (hr₅.field _) .nil))
    fun t ht => ?_
  simp [dirEntry, record, ht, field, optionalField, defaulted, one, ht₁, ht₂, ht₃, ht₄, ht₅]

theorem codes_fsListResult (result : FsListResult) :
    Codes (depth + 3) fsListResult (MethodCbor.fsListResult result) result := by
  obtain ⟨t₁, hr₁, ht₁⟩ := codes_text (depth + 2) result.path
  obtain ⟨t₂, hr₂, ht₂⟩ := codes_list (codes_dirEntry depth) result.entries
  refine codes_record (.cons (hr₁.field _) (.cons (hr₂.field _) .nil)) fun t ht => ?_
  simp [fsListResult, record, ht, field, one, ht₁, ht₂]

theorem codes_fsReadResult (result : FsReadResult) :
    Codes (depth + 1) fsReadResult (MethodCbor.fsReadResult result) result := by
  obtain ⟨t₁, hr₁, ht₁⟩ := codes_text depth result.path
  obtain ⟨t₂, hr₂, ht₂⟩ := codes_text depth result.text
  obtain ⟨t₃, hr₃, ht₃⟩ := codes_id depth result.contentHash
  obtain ⟨t₄, hr₄, ht₄⟩ := codes_bool depth result.truncated
  refine codes_record (.cons (hr₁.field _) (.cons (hr₂.field _) (.cons (hr₃.field _)
    (.cons (hr₄.field _) .nil)))) fun t ht => ?_
  simp [fsReadResult, record, ht, field, one, ht₁, ht₂, ht₃, ht₄]

theorem codes_screenFrame (frame : ScreenFrame) :
    Codes (depth + 2) screenFrame (MethodCbor.screenFrame frame) frame := by
  obtain ⟨t₁, hr₁, ht₁⟩ := codes_u64 (depth + 1) frame.ptyId
  obtain ⟨t₂, hr₂, ht₂⟩ := codes_list (codes_text depth) frame.rows
  obtain ⟨t₃, hr₃, ht₃⟩ := codes_u16 (depth + 1) frame.cursorRow
  obtain ⟨t₄, hr₄, ht₄⟩ := codes_u16 (depth + 1) frame.cursorCol
  obtain ⟨t₅, hr₅, ht₅⟩ := codes_u16 (depth + 1) frame.cols
  obtain ⟨t₆, hr₆, ht₆⟩ := codes_bool (depth + 1) frame.exited
  refine codes_record (.cons (hr₁.field _) (.cons (hr₂.field _) (.cons (hr₃.field _)
    (.cons (hr₄.field _) (.cons (hr₅.field _) (.cons (hr₆.field _) .nil)))))) fun t ht => ?_
  simp [screenFrame, record, ht, field, one, ht₁, ht₂, ht₃, ht₄, ht₅, ht₆]

theorem codes_ptySpawnResult (result : PtySpawnResult) :
    Codes (depth + 3) ptySpawnResult (MethodCbor.ptySpawnResult result) result := by
  obtain ⟨t₁, hr₁, ht₁⟩ := codes_u64 (depth + 2) result.ptyId
  obtain ⟨t₂, hr₂, ht₂⟩ := codes_screenFrame depth result.initial
  obtain ⟨t₃, hr₃, ht₃⟩ := codes_text (depth + 2) result.shell
  refine codes_record (.cons (hr₁.field _) (.cons (hr₂.field _) (.cons (hr₃.field _) .nil)))
    fun t ht => ?_
  simp [ptySpawnResult, record, ht, field, one, ht₁, ht₂, ht₃]

end Results

/-! ### Errors -/

section Errors

variable (depth : Nat)

theorem codes_errorKind (kind : ErrorKind) :
    Codes (depth + 1) errorKind (MethodCbor.errorKind kind) kind := by
  have htag := fun name => (reads_text depth name).field "kind"
  cases kind with
  | denied cap =>
      obtain ⟨t₁, hr₁, ht₁⟩ := codes_capability depth cap
      refine codes_record (.cons (htag _) (.cons (hr₁.field _) .nil)) fun t ht => ?_
      simp [errorKind, taggedBy, record, ht, field, one, ht₁]
  | conflict currentHash =>
      obtain ⟨t₁, hr₁, ht₁⟩ := codes_id depth currentHash
      refine codes_record (.cons (htag _) (.cons (hr₁.field _) .nil)) fun t ht => ?_
      simp [errorKind, taggedBy, record, ht, field, one, ht₁]
  | rateLimited retryAfterMs =>
      obtain ⟨t₁, hr₁, ht₁⟩ := codes_u32 depth retryAfterMs
      refine codes_record (.cons (htag _) (.cons (hr₁.field _) .nil)) fun t ht => ?_
      simp [errorKind, taggedBy, record, ht, field, one, ht₁]
  | resourceExhausted resource limit =>
      obtain ⟨t₁, hr₁, ht₁⟩ := codes_text depth resource
      obtain ⟨t₂, hr₂, ht₂⟩ := codes_u32 depth limit
      refine codes_record (.cons (htag _) (.cons (hr₁.field _) (.cons (hr₂.field _) .nil)))
        fun t ht => ?_
      simp [errorKind, taggedBy, record, ht, field, one, ht₁, ht₂]
  | unsupported feature sinceVersion =>
      obtain ⟨t₁, hr₁, ht₁⟩ := codes_text depth feature
      obtain ⟨t₂, hr₂, ht₂⟩ := codes_nullable rfl (codes_u32 depth) sinceVersion
      refine codes_record (.cons (htag _) (.cons (hr₁.field _) (.cons (hr₂.field _) .nil)))
        fun t ht => ?_
      simp [errorKind, taggedBy, record, ht, field, optionalField, defaulted, one, atMostOne,
        ht₁, ht₂]
  | presenceRequired challenge =>
      obtain ⟨t₁, hr₁, ht₁⟩ := codes_id depth challenge
      refine codes_record (.cons (htag _) (.cons (hr₁.field _) .nil)) fun t ht => ?_
      simp [errorKind, taggedBy, record, ht, field, one, ht₁]
  | badRequest detail =>
      obtain ⟨t₁, hr₁, ht₁⟩ := codes_text depth detail
      refine codes_record (.cons (htag _) (.cons (hr₁.field _) .nil)) fun t ht => ?_
      simp [errorKind, taggedBy, record, ht, field, one, ht₁]
  | internal traceId =>
      obtain ⟨t₁, hr₁, ht₁⟩ := codes_text depth traceId
      refine codes_record (.cons (htag _) (.cons (hr₁.field _) .nil)) fun t ht => ?_
      simp [errorKind, taggedBy, record, ht, field, one, ht₁]
  | notFound | cancelled =>
      refine codes_record (.cons (htag _) .nil) fun t ht => ?_
      simp [errorKind, taggedBy, record, ht, field, one]

theorem codes_protoError (error : ProtoError) :
    Codes (depth + 2) protoError (MethodCbor.protoError error) error := by
  obtain ⟨t₁, hr₁, ht₁⟩ := codes_errorKind depth error.kind
  obtain ⟨ts₂, hr₂, ht₂⟩ :=
    slot_optional "correlation_id" rfl (codes_u64 (depth + 1)) error.correlationId
  refine codes_record (List.rel_append (.cons (hr₁.field _) .nil) hr₂) fun t ht => ?_
  simp [protoError, record, ht, field, optionalField, defaulted, one, ht₁, ht₂]

end Errors

/-! ### Messages -/

section Messages

variable (depth : Nat)

theorem codes_rejectReason (reason : RejectReason) :
    Codes (depth + 1) rejectReason (MethodCbor.rejectReason reason) reason := by
  have htag := fun name => (reads_text depth name).field "reason"
  cases reason with
  | versionTooOld version | versionTooNew version | rateLimited version =>
      obtain ⟨t₁, hr₁, ht₁⟩ := codes_u32 depth version
      refine codes_record (.cons (htag _) (.cons (hr₁.field _) .nil)) fun t ht => ?_
      simp [rejectReason, taggedBy, record, ht, field, one, ht₁]
  | unpaired | revoked =>
      refine codes_record (.cons (htag _) .nil) fun t ht => ?_
      simp [rejectReason, taggedBy, record, ht, field, one]

theorem codes_responseBody (body : ResponseBody) :
    Codes (depth + 3) responseBody (MethodCbor.responseBody body) body := by
  have htag := fun name => (reads_text (depth + 2) name).field "status"
  cases body with
  | ok result =>
      obtain ⟨t₁, hr₁, ht₁⟩ := codes_bytes (depth + 2) result
      refine codes_record (.cons (htag _) (.cons (hr₁.field _) .nil)) fun t ht => ?_
      simp [responseBody, taggedBy, record, ht, field, one, ht₁]
  | progress done total message =>
      obtain ⟨ts₁, hr₁, ht₁⟩ := slot_optional "done" rfl (codes_u64 (depth + 2)) done
      obtain ⟨ts₂, hr₂, ht₂⟩ := slot_optional "total" rfl (codes_u64 (depth + 2)) total
      obtain ⟨ts₃, hr₃, ht₃⟩ := slot_optional "message" rfl (codes_text (depth + 2)) message
      refine codes_record (List.rel_append (List.rel_append (List.rel_append
        (.cons (htag _) .nil) hr₁) hr₂) hr₃) fun t ht => ?_
      simp [responseBody, taggedBy, record, ht, field, optionalField, defaulted, one,
        ht₁, ht₂, ht₃]
  | error error =>
      obtain ⟨t₁, hr₁, ht₁⟩ := codes_protoError depth error
      refine codes_record (.cons (htag _) (.cons (hr₁.field _) .nil)) fun t ht => ?_
      simp [responseBody, taggedBy, record, ht, field, one, ht₁]

theorem codes_hello (h : Hello) :
    Codes (depth + 2) controlMessage (MethodCbor.controlMessage (.hello h)) (.hello h) := by
  obtain ⟨t₁, hr₁, ht₁⟩ := codes_u32 (depth + 1) h.protoVersion
  obtain ⟨t₂, hr₂, ht₂⟩ := codes_u32 (depth + 1) h.minSupported
  obtain ⟨t₃, hr₃, ht₃⟩ := codes_text (depth + 1) h.clientVersion
  obtain ⟨t₄, hr₄, ht₄⟩ := codes_id (depth + 1) h.deviceKey
  obtain ⟨t₅, hr₅, ht₅⟩ := codes_capabilities (depth + 1) h.capabilitiesRequested
  obtain ⟨ts₆, hr₆, ht₆⟩ :=
    slot_unlessEmpty "compression_dicts" (codes_u32 depth) h.compressionDicts
  obtain ⟨ts₇, hr₇, ht₇⟩ := slot_unlessEmpty "features" (codes_text depth) h.features
  obtain ⟨ts₈, hr₈, ht₈⟩ :=
    slot_optional "resume_session" rfl (codes_u64 (depth + 1)) h.resumeSession
  refine codes_record (.cons ((reads_text (depth + 1) "hello").field "type") (List.rel_append
    (List.rel_append (List.rel_append (.cons (hr₁.field _) (.cons (hr₂.field _)
      (.cons (hr₃.field _) (.cons (hr₄.field _) (.cons (hr₅.field _) .nil))))) hr₆) hr₇) hr₈))
    fun t ht => ?_
  simp [controlMessage, taggedBy, record, ht, hello, field, defaulted, optionalField, one,
    ht₁, ht₂, ht₃, ht₄, ht₅, ht₆, ht₇, ht₈]

theorem codes_helloOk (h : HelloOk) :
    Codes (depth + 2) controlMessage (MethodCbor.controlMessage (.helloOk h)) (.helloOk h) := by
  obtain ⟨t₁, hr₁, ht₁⟩ := codes_u32 (depth + 1) h.protoVersion
  obtain ⟨t₂, hr₂, ht₂⟩ := codes_text (depth + 1) h.serverVersion
  obtain ⟨t₃, hr₃, ht₃⟩ := codes_capabilities (depth + 1) h.grantedCapabilities
  obtain ⟨t₄, hr₄, ht₄⟩ := codes_list (codes_text depth) h.workspaceRoots
  obtain ⟨ts₅, hr₅, ht₅⟩ :=
    slot_optional "compression_dict" rfl (codes_u32 (depth + 1)) h.compressionDict
  obtain ⟨ts₆, hr₆, ht₆⟩ := slot_unlessEmpty "server_features" (codes_text depth) h.serverFeatures
  obtain ⟨t₇, hr₇, ht₇⟩ := codes_u64 (depth + 1) h.sessionId
  refine codes_record (.cons ((reads_text (depth + 1) "hello_ok").field "type") (List.rel_append
    (List.rel_append (List.rel_append (.cons (hr₁.field _) (.cons (hr₂.field _)
      (.cons (hr₃.field _) (.cons (hr₄.field _) .nil)))) hr₅) hr₆) (.cons (hr₇.field _) .nil)))
    fun t ht => ?_
  simp [controlMessage, taggedBy, record, ht, helloOk, field, defaulted, optionalField, one,
    ht₁, ht₂, ht₃, ht₄, ht₅, ht₆, ht₇]

/-- **Messages are read back.** -/
theorem codes_controlMessage (message : ControlMessage) :
    Codes (depth + 4) controlMessage (MethodCbor.controlMessage message) message := by
  have htag := fun kind => (reads_text (depth + 3) kind).field "type"
  cases message with
  | hello h => exact codes_hello (depth + 2) h
  | helloOk h => exact codes_helloOk (depth + 2) h
  | helloReject reject =>
      obtain ⟨t₁, hr₁, ht₁⟩ := codes_rejectReason (depth + 2) reject.reason
      obtain ⟨t₂, hr₂, ht₂⟩ := codes_text (depth + 3) reject.serverVersion
      refine codes_record (.cons (htag _) (.cons (hr₁.field _) (.cons (hr₂.field _) .nil)))
        fun t ht => ?_
      simp [controlMessage, taggedBy, record, ht, helloReject, field, one, ht₁, ht₂]
  | request request =>
      obtain ⟨t₁, hr₁, ht₁⟩ := codes_u64 (depth + 3) request.correlationId
      obtain ⟨t₂, hr₂, ht₂⟩ := codes_text (depth + 3) request.method
      obtain ⟨t₃, hr₃, ht₃⟩ := codes_bytes (depth + 3) request.params
      refine codes_record (.cons (htag _) (.cons (hr₁.field _) (.cons (hr₂.field _)
        (.cons (hr₃.field _) .nil)))) fun t ht => ?_
      simp [controlMessage, taggedBy, record, ht, Decode.request, field, optionalField, defaulted,
        one, atMostOne, ht₁, ht₂, ht₃]
  | response response =>
      obtain ⟨t₁, hr₁, ht₁⟩ := codes_u64 (depth + 3) response.correlationId
      obtain ⟨t₂, hr₂, ht₂⟩ := codes_responseBody depth response.body
      refine codes_record (.cons (htag _) (.cons (hr₁.field _) (.cons (hr₂.field _) .nil)))
        fun t ht => ?_
      simp [controlMessage, taggedBy, record, ht, Decode.response, field, one, ht₁, ht₂]
  | cancel id | ping id | pong id =>
      obtain ⟨t₁, hr₁, ht₁⟩ := codes_u64 (depth + 3) id
      refine codes_record (.cons (htag _) (.cons (hr₁.field _) .nil)) fun t ht => ?_
      simp [controlMessage, taggedBy, record, ht, field, one, ht₁]

end Messages

/-! ### From bytes -/

/-- **What is read back is read from the front of any bytes.** -/
theorem fromReader_of_codes {α : Type} {read : Tree → Option α} {bytes : List UInt8} {a : α}
    (h : Codes recursionLimit read bytes a) (hlen : bytes.length ≤ u64Max) (rest : List UInt8) :
    fromReader read (bytes ++ rest) = some a := by
  obtain ⟨t, hreads, ht⟩ := h
  simp [fromReader, hreads hlen rest, ht]

/-- A payload is shorter than a length can say. -/
theorem payload_le (f : Frame) : f.payload.length ≤ u64Max :=
  f.payload_le.trans (by decide)

/-- **A message is decoded from its frame.** -/
theorem decodeCbor_of_frame {flags : FrameFlags} {message : ControlMessage} {f : Frame}
    (hflags : (flags.isRaw || flags.isCompressed) = false)
    (h : Frame.new flags (MethodCbor.controlMessage message) = .ok f) :
    f.decodeCbor controlMessage = .ok message := by
  have hpayload : f.payload = MethodCbor.controlMessage message ∧ f.flags = flags := by
    unfold Frame.new at h
    split_ifs at h
    cases h
    exact ⟨rfl, rfl⟩
  have hlen := payload_le f
  rw [hpayload.1] at hlen
  have hread := fromReader_of_codes (codes_controlMessage 252 message) hlen []
  rw [List.append_nil, ← hpayload.1] at hread
  unfold Frame.decodeCbor
  rw [hpayload.2, hflags, hread]
  rfl

end Proto.Decode
