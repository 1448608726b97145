import GoNomad.Store.AuditForgery

/-!
# The canonical encoding is canonical

What the chain hashes and the daemon signs is told apart by its bytes, and there
is one way to write it.

* `canonical_encoding` — the bytes of a map do not depend on the order of its
  fields and determine what it says, in shortest form and in increasing order of
  the keys; so they determine the hashed fields of an entry, and no entry is
  written like a checkpoint.
-/

namespace Store

open Proto Cbor

theorem AuditEntry.measured_fields (e : AuditEntry) : ∀ f ∈ e.fields, Canonical.Measured f := by
  have hkeys : ∀ k ∈ e.fields.map Prod.fst, (Item.text k).Bounded := by
    rw [e.keys]
    decide
  intro f hf
  exact ⟨hkeys f.1 (List.mem_map_of_mem hf), e.bounded_fields f hf⟩

theorem Exposed.measured_signedFields (through : UInt64) (hash : Digest) (removed : UInt64) (ts : Int64)
    (key : PublicKey) : ∀ f ∈ signedFields through hash removed ts key, Canonical.Measured f := by
  have hkeys : ∀ k ∈ (signedFields through hash removed ts key).map Prod.fst,
      (Item.text k).Bounded := by
    show ∀ k ∈ ["t", "through", "chain", "removed", "ts", "signer"], (Item.text k).Bounded
    decide
  intro f hf
  exact ⟨hkeys f.1 (List.mem_map_of_mem hf), bounded_signedFields _ _ _ _ _ f hf⟩

/-- **No entry is written like a checkpoint.** -/
theorem AuditEntry.canonicalBytes_ne (e : AuditEntry) (cp : Checkpoint) :
    e.canonicalBytes ≠ cp.canonicalBytes := by
  intro h
  have hperm := @Canonical.meaning_perm e.fields (Exposed.signedFields cp.truncatedThroughSeq
    cp.chainHash cp.entriesRemoved cp.tsUtcMs cp.signer) e.measured_fields
    (Exposed.measured_signedFields _ _ _ _ _) h
  -- An entry says nine things and a checkpoint six.
  have hlength := hperm.length_eq
  rw [List.length_map, List.length_map] at hlength
  have : 9 = 6 := hlength
  omega

/-- Entries are written alike exactly when nothing but their hashes differs. -/
theorem AuditEntry.canonicalBytes_eq_iff (e f : AuditEntry) :
    e.canonicalBytes = f.canonicalBytes ↔ { e with hash := f.hash } = f := by
  constructor
  · intro h
    have hcontent := eq_of_canonicalBytes h
    show { e.content with hash := f.hash } = f
    rw [hcontent]
    rfl
  · intro h
    rw [← h]
    rfl

/-- **The canonical encoding is canonical and injective.** -/
theorem canonical_encoding :
    -- A map has one encoding, whatever the order of its fields, and no other map has it.
    (∀ m n : Canonical.Fields, m.entries.Perm n.entries →
      Canonical.map m.entries = Canonical.map n.entries) ∧
    (∀ m n : Canonical.Fields, Canonical.map m.entries = Canonical.map n.entries ↔
      ∀ key value, m.At key value ↔ n.At key value) ∧
    -- Its keys are written in strictly increasing order of their encodings.
    (∀ m : Canonical.Fields, ∃ written : List (String × Item), written.Perm m.entries ∧
      (written.Pairwise fun a b => (Item.text a.1).encode < (Item.text b.1).encode) ∧
      Canonical.map m.entries = Cbor.length 5 written.length ++
        written.flatMap fun field => (Item.text field.1).encode ++ field.2.encode) ∧
    -- A head is read back, and from no bytes that are fewer.
    (∀ major < 8, ∀ (arg : UInt64) (rest : List UInt8),
      readHead (head major arg ++ rest) = some (major, arg.toNat, rest) ∧
      ∀ bytes, readHead bytes = some (major, arg.toNat, rest) →
        (head major arg).length + rest.length ≤ bytes.length) ∧
    -- So is an item.
    (∀ i : Item, i.Bounded → ∀ rest : List UInt8,
      read (i.encode ++ rest) = some (i.value, rest) ∧
      ∀ bytes, read bytes = some (i.value, rest) →
        i.encode.length + rest.length ≤ bytes.length) ∧
    -- The argument of a negative integer is computed without overflow.
    (∀ v : Int64, v < 0 → (v + 1).toInt = v.toInt + 1 ∧ (-(v + 1)).toInt = -(v.toInt + 1) ∧
      0 ≤ (-(v + 1)).toInt ∧
      (Item.int v).encode = head 1 (UInt64.ofNat (-(v + 1)).toInt.toNat)) ∧
    -- Entries that differ in more than their hashes are told apart, also from checkpoints.
    (∀ e f : AuditEntry, e.canonicalBytes = f.canonicalBytes ↔ { e with hash := f.hash } = f) ∧
    ∀ (e : AuditEntry) (cp : Checkpoint), e.canonicalBytes ≠ cp.canonicalBytes := by
  refine ⟨fun m n => Canonical.Fields.map_perm, Canonical.Fields.map_eq_iff, fun m => ?_,
    fun major hmajor arg rest => ⟨readHead_head hmajor arg rest, fun bytes h => ?_⟩,
    fun i hi rest => ⟨read_encode hi rest, fun bytes h => ?_⟩, fun v hv => ?_,
    AuditEntry.canonicalBytes_eq_iff, AuditEntry.canonicalBytes_ne⟩
  · refine ⟨Canonical.ordered m.entries, Canonical.ordered_perm _, m.increasing, ?_⟩
    exact m.map_ordered
  · rw [length_head]
    exact headLen_le_of_readHead h
  · rw [Item.length_encode hi]
    exact size_le_of_read h
  · exact encode_negative hv

end Store
