import GoNomad.Lib.Blake3
import GoNomad.Lib.Hex

/-!
# Identifiers

Three 32-byte identifiers, kept apart by their types: an Ed25519 verifying key,
the hash of one (a device id), and a hash of arbitrary content (a digest).  The
length is part of the value, so an identifier of another length cannot be built.
-/

namespace Proto

/-- Length in bytes of every identifier. -/
def idLen : Nat := 32

/-- What an identifier identifies. -/
inductive IdKind
  | publicKey
  | deviceId
  | digest
  deriving DecidableEq, Repr

/-- 32 bytes of one kind. -/
structure Id (kind : IdKind) where
  bytes : List UInt8
  length_eq : bytes.length = idLen
  deriving DecidableEq

/-- An Ed25519 verifying key: the credential a device authenticates with. -/
abbrev PublicKey := Id .publicKey

/-- A stable short handle for a paired device: the hash of its key. -/
abbrev DeviceId := Id .deviceId

/-- A BLAKE3 digest of content. -/
abbrev Digest := Id .digest

/-- Why an identifier could not be parsed. -/
inductive ParseIdError
  | notHex
  | wrongLength (got : Nat)
  deriving DecidableEq, Repr

namespace Id

variable {kind : IdKind}

/-- 32 equal bytes. -/
def replicate (b : UInt8) : Id kind := ⟨List.replicate idLen b, List.length_replicate⟩

/-- Hashes bytes. -/
def of (bytes : List UInt8) : Id kind := ⟨Blake3.hash bytes, Blake3.length_hash bytes⟩

/-- Parses from exactly 32 bytes. -/
def fromSlice (bytes : List UInt8) : Except ParseIdError (Id kind) :=
  if h : bytes.length = idLen then .ok ⟨bytes, h⟩ else .error (.wrongLength bytes.length)

/-- Parses from lowercase or uppercase hex. -/
def fromHex (s : String) : Except ParseIdError (Id kind) :=
  match Hex.decode s.toList with
  | none => .error .notHex
  | some raw => fromSlice raw

/-- Renders as lowercase hex. -/
def toHex (x : Id kind) : String := String.ofList (Hex.encode x.bytes)

theorem ext_bytes {x y : Id kind} (h : x.bytes = y.bytes) : x = y := by
  cases x
  cases y
  congr

theorem fromSlice_bytes (x : Id kind) : fromSlice x.bytes = .ok x := by
  unfold fromSlice
  rw [dif_pos x.length_eq]

theorem bytes_of_fromSlice {bytes : List UInt8} {x : Id kind} (h : fromSlice bytes = .ok x) :
    x.bytes = bytes := by
  unfold fromSlice at h
  split_ifs at h
  cases h
  rfl

theorem fromHex_toHex (x : Id kind) : fromHex x.toHex = .ok x := by
  unfold fromHex toHex
  rw [String.toList_ofList, Hex.decode_encode]
  exact fromSlice_bytes x

end Id

end Proto
