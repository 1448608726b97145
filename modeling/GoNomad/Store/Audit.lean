import GoNomad.Lib.Table
import GoNomad.Store.Canonical
import GoNomad.Store.Error

/-!
# The audit log

The hash-chained log of the store: entries and truncation checkpoints as they
are hashed, signed and stored, and the four operations on the two tables
(append, verify, verify against an anchor, rotate).  A column holds what the
schema lets anyone put there, so every row is decoded before it is believed.

The hash function is a parameter.  An operation that fails leaves the tables as
they were, since its transaction is rolled back.
-/

namespace Store

open Proto Cbor

/-! ### Faults -/

/-- Why an operation fails: an error of the store, or arithmetic that leaves its
type. -/
inductive Fault
  | store (error : StoreError)
  | overflow
  deriving DecidableEq

instance : MonadLift (Except StoreError) (Except Fault) := ⟨fun x => x.mapError .store⟩

namespace Fault

@[simp] theorem lift_ok {α : Type} (a : α) :
    (liftM (Except.ok a : Except StoreError α) : Except Fault α) = .ok a :=
  rfl

@[simp] theorem lift_error {α : Type} (e : StoreError) :
    (liftM (Except.error e : Except StoreError α) : Except Fault α) = .error (.store e) :=
  rfl

end Fault

def checkedAdd (a b : UInt64) : Except Fault UInt64 :=
  if a.toNat + b.toNat < 2 ^ 64 then .ok (a + b) else .error .overflow

def checkedSub (a b : UInt64) : Except Fault UInt64 :=
  if b.toNat ≤ a.toNat then .ok (a - b) else .error .overflow

def saturatingSub (a b : UInt64) : UInt64 := if b.toNat ≤ a.toNat then a - b else 0

/-! ### Entries and checkpoints -/

def auditTable : String := "audit"

def checkpointTable : String := "audit_checkpoints"

/-- The `prev_hash` of the very first entry: all zeroes. -/
def genesisPrevHash : Digest := .replicate 0

/-- The sequence number of the genesis entry. -/
def firstSeq : UInt64 := 1

/-- Domain separator mixed into every entry hash. -/
def entryDomain : String := "gonomad.audit.entry.v1"

/-- Domain separator mixed into every checkpoint signature. -/
def checkpointDomain : String := "gonomad.audit.checkpoint.v1"

/-- The outcome recorded against an audited operation. -/
inductive AuditResult
  | ok
  | denied
  | failed
  deriving DecidableEq, Repr

namespace AuditResult

/-- Every variant, in declaration order. -/
def all : List AuditResult := [ok, denied, failed]

/-- The stable string stored in the database and mixed into the hash. -/
def asStr : AuditResult → String
  | ok => "ok"
  | denied => "denied"
  | failed => "failed"

/-- The outcome a stored string stands for. -/
def fromStr (s : Str) : Except StoreError AuditResult :=
  match all.find? fun r => r.asStr = s.text with
  | none => .error (.corruptRow auditTable (.unknownAuditResult s))
  | some r => .ok r

end AuditResult

/-- What a caller supplies when logging an event. -/
structure AuditRecord where
  deviceId : Option DeviceId
  operation : Str
  argsDigest : Digest
  result : AuditResult
  deriving DecidableEq

/-- One committed entry, including the chain fields the log assigned. -/
structure AuditEntry where
  seq : UInt64
  tsUtcMs : Int64
  monotonicNs : UInt64
  deviceId : Option DeviceId
  operation : Str
  argsDigest : Digest
  result : AuditResult
  prevHash : Digest
  hash : Digest
  deriving DecidableEq

namespace AuditEntry

/-- The fields that are hashed: every one but `hash` itself, and a domain
separator. -/
def fields (e : AuditEntry) : List (String × Item) :=
  [("t", .text entryDomain),
   ("seq", .uint e.seq),
   ("ts", .int e.tsUtcMs),
   ("mono", .uint e.monotonicNs),
   ("dev", match e.deviceId with
     | none => .null
     | some d => .bytes d.bytes),
   ("op", .text e.operation.text),
   ("args", .bytes e.argsDigest.bytes),
   ("res", .text e.result.asStr),
   ("prev", .bytes e.prevHash.bytes)]

/-- The exact bytes that are hashed. -/
def canonicalBytes (e : AuditEntry) : List UInt8 := Canonical.map e.fields

variable (blake3 : List UInt8 → Digest)

/-- Recomputes this entry's hash from its contents. -/
def computeHash (e : AuditEntry) : Digest := blake3 e.canonicalBytes

/-- The stored hash matches the entry's contents. -/
def isSelfConsistent (e : AuditEntry) : Bool := e.computeHash blake3 = e.hash

end AuditEntry

/-- A signed record of where retention rotation cut the chain. -/
structure Checkpoint where
  truncatedThroughSeq : UInt64
  chainHash : Digest
  entriesRemoved : UInt64
  tsUtcMs : Int64
  signer : PublicKey
  signature : Signature
  deriving DecidableEq

/-- The bytes covered by a checkpoint's signature. -/
def Checkpoint.signingBytes (truncatedThroughSeq : UInt64) (chainHash : Digest)
    (entriesRemoved : UInt64) (tsUtcMs : Int64) (signer : PublicKey) : List UInt8 :=
  Canonical.map
    [("t", .text checkpointDomain),
     ("through", .uint truncatedThroughSeq),
     ("chain", .bytes chainHash.bytes),
     ("removed", .uint entriesRemoved),
     ("ts", .int tsUtcMs),
     ("signer", .bytes signer.bytes)]

/-- Signs truncation checkpoints, unless the key is out of reach. -/
structure CheckpointSigner where
  publicKey : PublicKey
  sign : List UInt8 → Except String Signature

/-! ### Rows -/

/-- A row of the audit table, text columns as their bytes. -/
structure AuditRow where
  seq : Int64
  tsUtc : Int64
  monotonicNs : Int64
  deviceId : Option (List UInt8)
  operation : List UInt8
  argsDigest : List UInt8
  result : List UInt8
  prevHash : List UInt8
  hash : List UInt8
  deriving DecidableEq

/-- A row as it is read, before its columns are decoded. -/
structure RawEntry where
  seq : Int64
  tsUtc : Int64
  monotonicNs : Int64
  deviceId : Option Str
  operation : Str
  argsDigest : List UInt8
  result : Str
  prevHash : List UInt8
  hash : List UInt8

namespace RawEntry

def fromRow (row : AuditRow) : Except StoreError RawEntry := do
  let deviceId ← nullable text row.deviceId
  let operation ← text row.operation
  let result ← text row.result
  pure
    { seq := row.seq, tsUtc := row.tsUtc, monotonicNs := row.monotonicNs, deviceId, operation,
      argsDigest := row.argsDigest, result, prevHash := row.prevHash, hash := row.hash }

def decode (raw : RawEntry) : Except StoreError AuditEntry := do
  let seq ← u64FromI64 auditTable "seq" raw.seq
  let monotonicNs ← u64FromI64 auditTable "monotonic_ns" raw.monotonicNs
  let deviceId ← nullable (Store.deviceId auditTable "device_id") raw.deviceId
  let argsDigest ← digest auditTable "args_digest" raw.argsDigest
  let result ← AuditResult.fromStr raw.result
  let prevHash ← digest auditTable "prev_hash" raw.prevHash
  let hash ← digest auditTable "hash" raw.hash
  pure
    { seq, tsUtcMs := raw.tsUtc, monotonicNs, deviceId, operation := raw.operation, argsDigest,
      result, prevHash, hash }

end RawEntry

/-- What a row of the audit table decodes to. -/
def AuditRow.entry (row : AuditRow) : Except StoreError AuditEntry := do
  let raw ← RawEntry.fromRow row
  raw.decode

/-- The row an entry is stored as. -/
def AuditEntry.row (e : AuditEntry) : Except StoreError AuditRow := do
  let seq ← i64FromU64 auditTable "seq" e.seq
  let monotonicNs ← i64FromU64 auditTable "monotonic_ns" e.monotonicNs
  pure
    { seq, tsUtc := e.tsUtcMs, monotonicNs, deviceId := e.deviceId.map fun d => utf8 d.toHex,
      operation := e.operation.bytes, argsDigest := e.argsDigest.bytes,
      result := utf8 e.result.asStr, prevHash := e.prevHash.bytes, hash := e.hash.bytes }

/-- A row of the checkpoint table. -/
structure CheckpointRow where
  truncatedThroughSeq : Int64
  chainHash : List UInt8
  entriesRemoved : Int64
  tsUtc : Int64
  signer : List UInt8
  signature : List UInt8
  deriving DecidableEq

/-- A checkpoint row as it is read, before its columns are decoded. -/
structure RawCheckpoint where
  truncatedThroughSeq : Int64
  chainHash : List UInt8
  entriesRemoved : Int64
  tsUtc : Int64
  signer : Str
  signature : List UInt8

namespace RawCheckpoint

def fromRow (row : CheckpointRow) : Except StoreError RawCheckpoint := do
  let signer ← text row.signer
  pure
    { truncatedThroughSeq := row.truncatedThroughSeq, chainHash := row.chainHash,
      entriesRemoved := row.entriesRemoved, tsUtc := row.tsUtc, signer,
      signature := row.signature }

def decode (raw : RawCheckpoint) : Except StoreError Checkpoint := do
  let truncatedThroughSeq ←
    u64FromI64 checkpointTable "truncated_through_seq" raw.truncatedThroughSeq
  let chainHash ← digest checkpointTable "chain_hash" raw.chainHash
  let entriesRemoved ← u64FromI64 checkpointTable "entries_removed" raw.entriesRemoved
  let signer ← publicKey checkpointTable "signer" raw.signer
  let signature ← Store.signature checkpointTable "signature" raw.signature
  pure { truncatedThroughSeq, chainHash, entriesRemoved, tsUtcMs := raw.tsUtc, signer, signature }

end RawCheckpoint

/-- What a row of the checkpoint table decodes to. -/
def CheckpointRow.checkpoint (row : CheckpointRow) : Except StoreError Checkpoint := do
  let raw ← RawCheckpoint.fromRow row
  raw.decode

/-- The row a checkpoint is stored as. -/
def Checkpoint.row (cp : Checkpoint) : Except StoreError CheckpointRow := do
  let truncatedThroughSeq ←
    i64FromU64 checkpointTable "truncated_through_seq" cp.truncatedThroughSeq
  let entriesRemoved ← i64FromU64 checkpointTable "entries_removed" cp.entriesRemoved
  pure
    { truncatedThroughSeq, chainHash := cp.chainHash.bytes, entriesRemoved, tsUtc := cp.tsUtcMs,
      signer := utf8 cp.signer.toHex, signature := cp.signature.bytes }

/-! ### The log -/

/-- Where and how the chain failed to verify. -/
inductive ChainBreak
  | missingEntry (foundSeq : UInt64)
  | contentTampered (expected found : Digest)
  | brokenLink (expected found : Digest)
  | truncatedHead (expected : Digest) (found : Option Digest)
  | undecodableRow (detail : StoreError)
  deriving DecidableEq

/-- The result of walking the chain. -/
inductive ChainStatus
  | intact (entries : UInt64) (headSeq : Option UInt64) (headHash : Option Digest)
  | broken (seq : UInt64) (cause : ChainBreak)
  deriving DecidableEq

/-- The sequence number where integrity breaks, if it does. -/
def ChainStatus.brokenAt : ChainStatus → Option UInt64
  | intact .. => none
  | broken seq _ => some seq

/-- The two tables of the log. -/
structure AuditDb where
  audit : Table AuditRow fun row => row.seq.toInt
  checkpoints : Table CheckpointRow fun row => row.truncatedThroughSeq.toInt

namespace AuditDb

/-- A log nothing was ever written to. -/
def empty : AuditDb := ⟨.empty, .empty⟩

def countWithin (db : AuditDb) : Except StoreError UInt64 :=
  u64FromI64 auditTable "count" (Int64.ofNat db.audit.rows.length)

def firstSeqWithin (db : AuditDb) : Except StoreError (Option UInt64) :=
  nullable (fun row => u64FromI64 auditTable "seq" row.seq) db.audit.first

def tailEntry (db : AuditDb) : Except StoreError (Option AuditEntry) :=
  nullable AuditRow.entry db.audit.last

/-- The last entry's sequence number and hash, or `none` when empty. -/
def head (db : AuditDb) : Except StoreError (Option (UInt64 × Digest)) := do
  pure ((← db.tailEntry).map fun e => (e.seq, e.hash))

/-- Fetches one entry by sequence number. -/
def get (db : AuditDb) (seq : UInt64) : Except StoreError (Option AuditEntry) := do
  let seq ← i64FromU64 auditTable "seq" seq
  nullable AuditRow.entry (db.audit.find seq.toInt)

def latestCheckpointWithin (db : AuditDb) : Except StoreError (Option Checkpoint) :=
  nullable CheckpointRow.checkpoint db.checkpoints.last

variable (blake3 : List UInt8 → Digest)

/-- The sequence number, the predecessor's hash and the least monotonic reading
of the next entry. -/
def nextSlot (db : AuditDb) : Except Fault (UInt64 × Digest × UInt64) := do
  match ← db.tailEntry with
  | some tail =>
      -- Only the one entry that is built on is checked.
      if tail.isSelfConsistent blake3 then
        let seq ← checkedAdd tail.seq 1
        let floor ← checkedAdd tail.monotonicNs 1
        pure (seq, tail.hash, floor)
      else
        throw (.store (.auditChainBroken tail.seq))
  | none =>
      match ← db.latestCheckpointWithin with
      | some cp =>
          let seq ← checkedAdd cp.truncatedThroughSeq 1
          pure (seq, cp.chainHash, 0)
      | none => pure (firstSeq, genesisPrevHash, 0)

/-- The entry a record becomes in a slot. -/
def newEntry (slot : UInt64 × Digest × UInt64) (record : AuditRecord) (tsUtcMs : Int64)
    (monotonicNs : UInt64) : AuditEntry :=
  let entry : AuditEntry :=
    { seq := slot.1, tsUtcMs, monotonicNs := max monotonicNs slot.2.2,
      deviceId := record.deviceId, operation := record.operation,
      argsDigest := record.argsDigest, result := record.result, prevHash := slot.2.1,
      hash := genesisPrevHash }
  { entry with hash := entry.computeHash blake3 }

def appendWithin (db : AuditDb) (record : AuditRecord) (tsUtcMs : Int64) (monotonicNs : UInt64) :
    Except Fault (AuditEntry × AuditDb) := do
  let slot ← db.nextSlot blake3
  let entry := newEntry blake3 slot record tsUtcMs monotonicNs
  let row ← entry.row
  match db.audit.insert row with
  | none => throw (.store .database)
  | some audit => pure (entry, { db with audit })

/-- Walks the rows from the entry that is expected next.  The content is checked
before the link, so a field that was edited is blamed on its own entry. -/
def walk (expectedSeq : UInt64) (expectedPrev : Digest) (entries : UInt64)
    (head : Option (UInt64 × Digest)) : List AuditRow → Except Fault ChainStatus
  | [] => pure (.intact entries (head.map Prod.fst) (head.map Prod.snd))
  | row :: rows => do
      let raw ← RawEntry.fromRow row
      let seqHint := match u64FromI64 auditTable "seq" raw.seq with
        | .ok seq => seq
        | .error _ => expectedSeq
      match raw.decode with
      | .error e => pure (.broken seqHint (.undecodableRow e))
      | .ok entry =>
          let recomputed := entry.computeHash blake3
          if entry.seq ≠ expectedSeq then
            -- Rows come back ordered, so this is always a gap.
            pure (.broken expectedSeq (.missingEntry entry.seq))
          else if recomputed ≠ entry.hash then
            pure (.broken entry.seq (.contentTampered recomputed entry.hash))
          else if entry.prevHash ≠ expectedPrev then
            pure (.broken entry.seq (.brokenLink expectedPrev entry.prevHash))
          else
            let entries ← checkedAdd entries 1
            let nextSeq ← checkedAdd entry.seq 1
            walk nextSeq entry.hash entries (some (entry.seq, entry.hash)) rows

/-- Where the chain is expected to start: after the newest checkpoint if the log
has been rotated, at genesis otherwise. -/
def startWithin (db : AuditDb) : Except Fault (UInt64 × Digest) := do
  match ← db.latestCheckpointWithin with
  | some cp =>
      let seq ← checkedAdd cp.truncatedThroughSeq 1
      pure (seq, cp.chainHash)
  | none => pure (firstSeq, genesisPrevHash)

def verifyWithin (db : AuditDb) : Except Fault ChainStatus := do
  let start ← db.startWithin
  walk blake3 start.1 start.2 0 none db.audit.rows

/-- As `verifyWithin`, but the head hash has to be `anchor` as well. -/
def verifyWithAnchor (db : AuditDb) (anchor : Digest) : Except Fault ChainStatus := do
  match ← db.verifyWithin blake3 with
  | .broken seq cause => pure (.broken seq cause)
  | .intact entries headSeq headHash =>
      if headHash = some anchor then
        pure (.intact entries headSeq headHash)
      else
        let seq ← match headSeq with
          | none => pure firstSeq
          | some s => checkedAdd s 1
        pure (.broken seq (.truncatedHead anchor headHash))

/-- Signs and records the cut of the log after `splice`, and deletes what is
before it. -/
def truncate (db : AuditDb) (splice : AuditEntry) (truncateThrough entriesRemoved : UInt64)
    (signer : CheckpointSigner) (tsUtcMs : Int64) :
    Except Fault (Option Checkpoint × AuditDb) := do
  let message := Checkpoint.signingBytes truncateThrough splice.hash entriesRemoved tsUtcMs
    signer.publicKey
  match signer.sign message with
  | .error reason => throw (.store (.checkpointSigning reason))
  | .ok signature =>
      let checkpoint : Checkpoint :=
        { truncatedThroughSeq := truncateThrough, chainHash := splice.hash, entriesRemoved,
          tsUtcMs, signer := signer.publicKey, signature }
      let row ← checkpoint.row
      match db.checkpoints.insert row with
      | none => throw (.store .database)
      | some checkpoints =>
          let through ← i64FromU64 auditTable "seq" truncateThrough
          pure (some checkpoint,
            { audit := db.audit.deleteThrough through.toInt, checkpoints })

/-- Enforces the retention cap. -/
def rotateAt (db : AuditDb) (maxEntries : UInt64) (signer : CheckpointSigner) (tsUtcMs : Int64) :
    Except Fault (Option Checkpoint × AuditDb) := do
  match (← db.verifyWithin blake3).brokenAt with
  | some seq => throw (.store (.auditChainBroken seq))
  | none =>
      let total ← db.countWithin
      if total ≤ maxEntries then
        pure (none, db)
      else
        match ← db.tailEntry with
        | none => pure (none, db)
        | some head =>
            match ← db.firstSeqWithin with
            | none => pure (none, db)
            | some first =>
                let truncateThrough := saturatingSub head.seq maxEntries
                match ← db.get truncateThrough with
                | none => throw (.store (.auditChainBroken truncateThrough))
                | some splice =>
                    let before ← checkedSub truncateThrough first
                    let entriesRemoved ← checkedAdd before 1
                    db.truncate splice truncateThrough entriesRemoved signer tsUtcMs

end AuditDb

end Store
