import GoNomad.Lib.HashChain
import GoNomad.Store.Audit

/-!
# Entries and their rows

What was stored is read back: an entry whose numbers fit the signed columns has
a row, and the row decodes to the entry.  Read as chain entries, two entries
with the same canonical bytes have the same hashed fields.

* `AuditEntry.entry_stored`, `Checkpoint.checkpoint_stored` — stored rows are read back;
* `AuditEntry.eq_of_canonicalBytes` — the canonical encoding is injective.
-/

namespace Store

open Proto Cbor

/-! ### Entries -/

namespace AuditEntry

/-- The numbers of an entry fit the signed columns. -/
def Fits (e : AuditEntry) : Prop := e.seq.toNat < 2 ^ 63 ∧ e.monotonicNs.toNat < 2 ^ 63

/-- The row of an entry that fits. -/
def stored (e : AuditEntry) : AuditRow :=
  { seq := Int64.ofNat e.seq.toNat, tsUtc := e.tsUtcMs,
    monotonicNs := Int64.ofNat e.monotonicNs.toNat,
    deviceId := e.deviceId.map fun d => utf8 d.toHex, operation := e.operation.bytes,
    argsDigest := e.argsDigest.bytes, result := utf8 e.result.asStr,
    prevHash := e.prevHash.bytes, hash := e.hash.bytes }

theorem row_eq {e : AuditEntry} (h : e.Fits) : e.row = .ok e.stored := by
  unfold row
  rw [i64FromU64_ok h.1, i64FromU64_ok h.2]
  rfl

/-- Only an entry that fits has a row. -/
theorem fits_of_row {e : AuditEntry} {r : AuditRow} (h : e.row = .ok r) : e.Fits := by
  unfold row at h
  obtain ⟨seq, hseq, h⟩ := Except.bind_eq_ok.mp h
  obtain ⟨mono, hmono, -⟩ := Except.bind_eq_ok.mp h
  exact ⟨lt_of_i64FromU64 hseq, lt_of_i64FromU64 hmono⟩

theorem stored_seq {e : AuditEntry} (h : e.Fits) : e.stored.seq.toInt = e.seq.toNat :=
  Int64.toInt_ofNat_of_lt h.1

theorem text_asStr (r : AuditResult) :
    ∃ s, text (utf8 r.asStr) = .ok s ∧ AuditResult.fromStr s = .ok r := by
  have hlen : (utf8 r.asStr).length < 2 ^ 63 := by cases r <;> decide
  refine ⟨⟨r.asStr, hlen⟩, text_utf8 hlen, ?_⟩
  cases r <;> rfl

/-- **A stored entry is read back.** -/
theorem entry_stored {e : AuditEntry} (h : e.Fits) : e.stored.entry = .ok e := by
  obtain ⟨res, hres, hparse⟩ := text_asStr e.result
  have hraw : RawEntry.fromRow e.stored = .ok
      { seq := e.stored.seq, tsUtc := e.tsUtcMs, monotonicNs := e.stored.monotonicNs,
        deviceId := e.deviceId.map fun d => ⟨d.toHex, length_utf8_toHex d⟩,
        operation := e.operation, argsDigest := e.argsDigest.bytes, result := res,
        prevHash := e.prevHash.bytes, hash := e.hash.bytes } := by
    unfold RawEntry.fromRow stored
    dsimp only
    rw [text_bytes, hres]
    cases e.deviceId with
    | none => rfl
    | some d =>
        dsimp only [Option.map, nullable]
        rw [text_utf8 (length_utf8_toHex d)]
        rfl
  unfold AuditRow.entry
  rw [hraw]
  show RawEntry.decode _ = _
  unfold RawEntry.decode stored
  dsimp only
  rw [u64FromI64_ofNat h.1, u64FromI64_ofNat h.2, digest_bytes, digest_bytes, digest_bytes, hparse]
  obtain ⟨seq, ts, mono, dev, op, args, result, prev, hash⟩ := e
  cases dev with
  | none => rfl
  | some d =>
      dsimp only [Option.map, nullable]
      rw [deviceId_toHex]
      rfl

/-- What the columns of a row that decodes hold. -/
theorem columns_of_entry {row : AuditRow} {e : AuditEntry} (h : row.entry = .ok e) :
    ∃ dev res, nullable text row.deviceId = .ok dev ∧ text row.operation = .ok e.operation ∧
      text row.result = .ok res ∧ row.tsUtc = e.tsUtcMs ∧
      u64FromI64 auditTable "seq" row.seq = .ok e.seq ∧
      u64FromI64 auditTable "monotonic_ns" row.monotonicNs = .ok e.monotonicNs ∧
      nullable (Store.deviceId auditTable "device_id") dev = .ok e.deviceId ∧
      digest auditTable "args_digest" row.argsDigest = .ok e.argsDigest ∧
      AuditResult.fromStr res = .ok e.result ∧
      digest auditTable "prev_hash" row.prevHash = .ok e.prevHash ∧
      digest auditTable "hash" row.hash = .ok e.hash := by
  unfold AuditRow.entry at h
  obtain ⟨raw, hraw, h⟩ := Except.bind_eq_ok.mp h
  unfold RawEntry.fromRow at hraw
  obtain ⟨dev, hdev, hraw⟩ := Except.bind_eq_ok.mp hraw
  obtain ⟨op, hop, hraw⟩ := Except.bind_eq_ok.mp hraw
  obtain ⟨res, hres, hraw⟩ := Except.bind_eq_ok.mp hraw
  cases hraw
  unfold RawEntry.decode at h
  obtain ⟨seq, hseq, h⟩ := Except.bind_eq_ok.mp h
  obtain ⟨mono, hmono, h⟩ := Except.bind_eq_ok.mp h
  obtain ⟨device, hdevice, h⟩ := Except.bind_eq_ok.mp h
  obtain ⟨args, hargs, h⟩ := Except.bind_eq_ok.mp h
  obtain ⟨result, hresult, h⟩ := Except.bind_eq_ok.mp h
  obtain ⟨prev, hprev, h⟩ := Except.bind_eq_ok.mp h
  obtain ⟨hash, hhash, h⟩ := Except.bind_eq_ok.mp h
  cases h
  exact ⟨dev, res, hdev, hop, hres, rfl, hseq, hmono, hdevice, hargs, hresult, hprev, hhash⟩

/-- What a row decodes to fits, and has the number of the row. -/
theorem fits_of_entry {row : AuditRow} {e : AuditEntry} (h : row.entry = .ok e) :
    e.Fits ∧ row.seq.toInt = e.seq.toNat := by
  obtain ⟨dev, res, -, -, -, -, hseq, hmono, -⟩ := columns_of_entry h
  obtain ⟨hlt, hword⟩ := u64FromI64_lt hseq
  obtain ⟨hlt', -⟩ := u64FromI64_lt hmono
  refine ⟨⟨hlt, hlt'⟩, ?_⟩
  rw [hword, Int64.toInt_ofNat_of_lt hlt]

/-- A row with another number decodes to the entry with that number. -/
theorem entry_with_seq {row : AuditRow} {e : AuditEntry} {raw : Int64} {n : UInt64}
    (h : row.entry = .ok e) (hn : u64FromI64 auditTable "seq" raw = .ok n) :
    ({ row with seq := raw } : AuditRow).entry = .ok { e with seq := n } := by
  obtain ⟨dev, res, hdev, hop, hres, hts, -, hmono, hdevice, hargs, hresult, hprev, hhash⟩ :=
    columns_of_entry h
  unfold AuditRow.entry RawEntry.fromRow
  dsimp only
  rw [hdev, hop, hres, hts, Except.ok_bind, Except.ok_bind, Except.ok_bind]
  show RawEntry.decode _ = _
  unfold RawEntry.decode
  dsimp only
  rw [hn, hmono, hdevice, hargs, hresult, hprev, hhash]
  rfl

/-- A row with another text of its device decodes to the same entry. -/
theorem entry_with_device {row : AuditRow} {e : AuditEntry} {raw : Option (List UInt8)}
    {dev : Option Str} (h : row.entry = .ok e) (hraw : nullable text raw = .ok dev)
    (hdev : nullable (Store.deviceId auditTable "device_id") dev = .ok e.deviceId) :
    ({ row with deviceId := raw } : AuditRow).entry = .ok e := by
  obtain ⟨dev', res, -, hop, hres, hts, hseq, hmono, -, hargs, hresult, hprev, hhash⟩ :=
    columns_of_entry h
  unfold AuditRow.entry RawEntry.fromRow
  dsimp only
  rw [hraw, hop, hres, hts, Except.ok_bind, Except.ok_bind, Except.ok_bind]
  show RawEntry.decode _ = _
  unfold RawEntry.decode
  dsimp only
  rw [hseq, hmono, hdev, hargs, hresult, hprev, hhash]
  rfl

/-! ### The canonical encoding -/

/-- The hashed fields of an entry: the entry without its hash. -/
def content (e : AuditEntry) : AuditEntry := { e with hash := genesisPrevHash }

theorem keys (e : AuditEntry) :
    e.fields.map Prod.fst = ["t", "seq", "ts", "mono", "dev", "op", "args", "res", "prev"] :=
  rfl

theorem bounded_id {kind : IdKind} (x : Id kind) : (Item.bytes x.bytes).Bounded := by
  show x.bytes.length ≤ u64Max
  rw [x.length_eq]
  decide

theorem bounded_fields (e : AuditEntry) : ∀ f ∈ e.fields, f.2.Bounded := by
  have hop : (Item.text e.operation.text).Bounded := by
    have hlt := e.operation.bounded
    show (utf8 e.operation.text).length ≤ u64Max
    unfold u64Max
    omega
  have hres : (Item.text e.result.asStr).Bounded := by
    cases e.result <;> decide
  intro f hf
  simp only [fields, List.mem_cons, List.not_mem_nil, or_false] at hf
  rcases hf with rfl | rfl | rfl | rfl | rfl | rfl | rfl | rfl | rfl
  · show (Item.text entryDomain).Bounded
    decide
  · trivial
  · trivial
  · trivial
  · cases e.deviceId with
    | none => trivial
    | some d => exact bounded_id d
  · exact hop
  · exact bounded_id _
  · exact hres
  · exact bounded_id _

theorem asStr_injective {r s : AuditResult} (h : r.asStr = s.asStr) : r = s := by
  revert h
  cases r <;> cases s <;> decide

/-- **The canonical encoding is injective** on the hashed fields. -/
theorem eq_of_canonicalBytes {e f : AuditEntry} (h : e.canonicalBytes = f.canonicalBytes) :
    e.content = f.content := by
  have hvalues := @Canonical.map_inj e.fields f.fields rfl
    (by rw [keys]; decide) (by rw [keys]; decide) e.bounded_fields f.bounded_fields h
  simp only [fields, List.map_cons, List.map_nil, Item.value, List.cons.injEq, Value.int.injEq,
    Value.text.injEq, Value.bytes.injEq, and_true, true_and, Int.natCast_inj] at hvalues
  obtain ⟨hseq, hts, hmono, hdev, hop, hargs, hres, hprev⟩ := hvalues
  have hdev : e.deviceId = f.deviceId := by
    revert hdev
    cases e.deviceId with
    | none =>
        cases f.deviceId with
        | none => intro _; rfl
        | some d => intro hdev; cases hdev
    | some d =>
        cases f.deviceId with
        | none => intro hdev; cases hdev
        | some d' =>
            intro hdev
            rw [Id.ext_bytes (Value.bytes.inj hdev)]
  unfold content
  rw [UInt64.toNat_inj.mp hseq, Int64.toInt_inj.mp hts, UInt64.toNat_inj.mp hmono, hdev,
    Str.bytes_injective hop, Id.ext_bytes hargs, asStr_injective (utf8_injective hres),
    Id.ext_bytes hprev]

end AuditEntry

/-! ### Checkpoints -/

namespace Checkpoint

/-- The numbers of a checkpoint fit the signed columns. -/
def Fits (cp : Checkpoint) : Prop :=
  cp.truncatedThroughSeq.toNat < 2 ^ 63 ∧ cp.entriesRemoved.toNat < 2 ^ 63

/-- The row of a checkpoint that fits. -/
def stored (cp : Checkpoint) : CheckpointRow :=
  { truncatedThroughSeq := Int64.ofNat cp.truncatedThroughSeq.toNat,
    chainHash := cp.chainHash.bytes, entriesRemoved := Int64.ofNat cp.entriesRemoved.toNat,
    tsUtc := cp.tsUtcMs, signer := utf8 cp.signer.toHex, signature := cp.signature.bytes }

theorem row_eq {cp : Checkpoint} (h : cp.Fits) : cp.row = .ok cp.stored := by
  unfold row
  rw [i64FromU64_ok h.1, i64FromU64_ok h.2]
  rfl

theorem stored_through {cp : Checkpoint} (h : cp.Fits) :
    cp.stored.truncatedThroughSeq.toInt = cp.truncatedThroughSeq.toNat :=
  Int64.toInt_ofNat_of_lt h.1

/-- **A stored checkpoint is read back.** -/
theorem checkpoint_stored {cp : Checkpoint} (h : cp.Fits) : cp.stored.checkpoint = .ok cp := by
  unfold CheckpointRow.checkpoint RawCheckpoint.fromRow stored
  dsimp only
  rw [text_utf8 (length_utf8_toHex cp.signer)]
  show RawCheckpoint.decode _ = _
  unfold RawCheckpoint.decode
  dsimp only
  rw [u64FromI64_ofNat h.1, u64FromI64_ofNat h.2, digest_bytes, publicKey_toHex, signature_bytes]
  rfl

end Checkpoint

end Store
