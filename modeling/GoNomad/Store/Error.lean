import GoNomad.Lib.Fallible
import GoNomad.Lib.Text
import GoNomad.Proto.Ids

/-!
# Store errors and column values

What can go wrong in the store, and the conversions between column values and
the types of the program.  What a column could not be decoded as is carried as
data; the engine's own errors are opaque.
-/

namespace Store

open Proto

/-! ### Errors -/

/-- Why a stored value could not be decoded, by column. -/
inductive Corrupt
  | negative (column : String) (raw : Int64)
  | exceedsI64 (column : String) (raw : UInt64)
  | notDigest (column : String) (error : ParseIdError)
  | notDeviceId (column : String) (error : ParseIdError)
  | notPublicKey (column : String) (error : ParseIdError)
  | notSignature (column : String) (got : Nat)
  | unknownAuditResult (text : Str)
  | invalidVersion (version : Int)
  | notKeyHash (id : DeviceId)
  deriving DecidableEq

/-- Everything that can go wrong in the store. -/
inductive StoreError
  /-- The database engine rejected an operation. -/
  | database
  | notFound (entity key : String)
  | alreadyPaired (deviceId : DeviceId)
  | corruptRow (table : String) (detail : Corrupt)
  | auditChainBroken (seq : UInt64)
  | checkpointSigning (reason : String)
  /-- A migration failed and was rolled back. -/
  | migration (version : UInt32) (name : String) (rolledBackTo : UInt32)
  /-- The database was written by a newer build. -/
  | schemaTooNew (found supported : UInt32)
  | invalidMigrationSet (detail : String)
  deriving DecidableEq

/-! ### Columns -/

/-- Reads a `u64` that was stored in a signed column. -/
def u64FromI64 (table column : String) (raw : Int64) : Except StoreError UInt64 :=
  if 0 ≤ raw.toInt then .ok (UInt64.ofNat raw.toInt.toNat)
  else .error (.corruptRow table (.negative column raw))

/-- Narrows a `u64` for storage in a signed column. -/
def i64FromU64 (table column : String) (raw : UInt64) : Except StoreError Int64 :=
  if raw.toNat < 2 ^ 63 then .ok (Int64.ofNat raw.toNat)
  else .error (.corruptRow table (.exceedsI64 column raw))

/-- A text column; bytes that are not UTF-8 are the engine's error. -/
def text (raw : List UInt8) : Except StoreError Str :=
  match Str.ofBytes raw with
  | none => .error .database
  | some s => .ok s

/-- Decodes a 32-byte column. -/
def digest (table column : String) (raw : List UInt8) : Except StoreError Digest :=
  match Id.fromSlice raw with
  | .error e => .error (.corruptRow table (.notDigest column e))
  | .ok d => .ok d

/-- Decodes a hex text column into a device id. -/
def deviceId (table column : String) (raw : Str) : Except StoreError DeviceId :=
  match Id.fromHex raw.text with
  | .error e => .error (.corruptRow table (.notDeviceId column e))
  | .ok d => .ok d

/-- Decodes a hex text column into a public key. -/
def publicKey (table column : String) (raw : Str) : Except StoreError PublicKey :=
  match Id.fromHex raw.text with
  | .error e => .error (.corruptRow table (.notPublicKey column e))
  | .ok d => .ok d

/-- A 64-byte detached signature. -/
structure Signature where
  bytes : List UInt8
  length_eq : bytes.length = 64
  deriving DecidableEq

/-- Decodes a 64-byte column. -/
def signature (table column : String) (raw : List UInt8) : Except StoreError Signature :=
  if h : raw.length = 64 then .ok ⟨raw, h⟩
  else .error (.corruptRow table (.notSignature column raw.length))

/-- Decodes what a nullable column holds. -/
def nullable {α β : Type} (f : α → Except StoreError β) : Option α → Except StoreError (Option β)
  | none => .ok none
  | some a => (f a).map some

variable {table column : String}

/-- What fits a signed column is read back from it. -/
theorem u64FromI64_ofNat {x : UInt64} (h : x.toNat < 2 ^ 63) :
    u64FromI64 table column (Int64.ofNat x.toNat) = .ok x := by
  unfold u64FromI64
  rw [Int64.toInt_ofNat_of_lt h, if_pos (Int.natCast_nonneg _), Int.toNat_natCast,
    UInt64.ofNat_toNat]

theorem lt_of_i64FromU64 {x : UInt64} {raw : Int64} (h : i64FromU64 table column x = .ok raw) :
    x.toNat < 2 ^ 63 := by
  unfold i64FromU64 at h
  split_ifs at h with hlt
  exact hlt

theorem i64FromU64_ok {x : UInt64} (h : x.toNat < 2 ^ 63) :
    i64FromU64 table column x = .ok (Int64.ofNat x.toNat) := by
  unfold i64FromU64
  rw [if_pos h]

/-- What was read from a signed column fits one. -/
theorem u64FromI64_lt {raw : Int64} {x : UInt64} (h : u64FromI64 table column raw = .ok x) :
    x.toNat < 2 ^ 63 ∧ raw = Int64.ofNat x.toNat := by
  unfold u64FromI64 at h
  split_ifs at h with hnonneg
  cases h
  have hlt := raw.toInt_lt
  have hword : (UInt64.ofNat raw.toInt.toNat).toNat = raw.toInt.toNat := by
    rw [UInt64.toNat_ofNat']
    omega
  refine ⟨by omega, ?_⟩
  apply Int64.toInt_inj.mp
  rw [hword, Int64.toInt_ofNat_of_lt (by omega)]
  omega

theorem digest_bytes (d : Digest) : digest table column d.bytes = .ok d := by
  unfold digest
  rw [Id.fromSlice_bytes]

theorem signature_bytes (s : Signature) : signature table column s.bytes = .ok s := by
  unfold signature
  rw [dif_pos s.length_eq]

theorem text_bytes (s : Str) : text s.bytes = .ok s := by
  unfold text
  rw [Str.ofBytes_bytes]

/-- A short text is read back. -/
theorem text_utf8 {s : String} (h : (utf8 s).length < 2 ^ 63) : text (utf8 s) = .ok ⟨s, h⟩ :=
  text_bytes ⟨s, h⟩

theorem length_utf8_toHex {kind : IdKind} (x : Id kind) : (utf8 x.toHex).length < 2 ^ 63 := by
  have hlen := length_utf8_ofList (Hex.encode x.bytes)
  rw [Hex.length_encode, x.length_eq] at hlen
  unfold Id.toHex
  unfold idLen at hlen
  omega

/-- An identifier is read back from its hex column. -/
theorem deviceId_toHex (d : DeviceId) (h : (utf8 d.toHex).length < 2 ^ 63) :
    deviceId table column ⟨d.toHex, h⟩ = .ok d := by
  unfold deviceId
  rw [Id.fromHex_toHex]

theorem publicKey_toHex (k : PublicKey) (h : (utf8 k.toHex).length < 2 ^ 63) :
    publicKey table column ⟨k.toHex, h⟩ = .ok k := by
  unfold publicKey
  rw [Id.fromHex_toHex]

end Store
