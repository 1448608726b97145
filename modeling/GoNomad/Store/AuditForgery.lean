import GoNomad.Store.AuditRun

/-!
# Forged rotations

Someone who can write the database rewrites both tables between the daemon's
calls.  They do not hold the daemon's key: what that key has signed is what the
daemon's rotations asked it to sign.  The verifier is told who signed a
checkpoint by the checkpoint itself.

* `rotateAt_eq` — a rotation asks for at most one signature, over the cut;
* `checkpoints_genuine_iff` — checkpoints that verify were signed by the daemon
  exactly when they name it;
* `forged_checkpoint` — a checkpoint of an attacker's own verifies as well.
-/

namespace Store

open Proto Cbor Transition

/-- The bytes covered by the signature of a checkpoint. -/
def Checkpoint.canonicalBytes (cp : Checkpoint) : List UInt8 :=
  signingBytes cp.truncatedThroughSeq cp.chainHash cp.entriesRemoved cp.tsUtcMs cp.signer

/-- Verifies checkpoint signatures. -/
structure CheckpointVerifier where
  verify : PublicKey → List UInt8 → Signature → Bool

namespace AuditDb

/-- Every truncation checkpoint, oldest first. -/
def allCheckpoints (db : AuditDb) : Except StoreError (List Checkpoint) :=
  db.checkpoints.rows.mapM CheckpointRow.checkpoint

/-- The first checkpoint whose signature does not verify. -/
def firstUnverified (verifier : CheckpointVerifier) : List Checkpoint → Option UInt64
  | [] => none
  | cp :: cps =>
      if verifier.verify cp.signer cp.canonicalBytes cp.signature then
        firstUnverified verifier cps
      else
        some cp.truncatedThroughSeq

/-- Checks every truncation checkpoint's signature. -/
def verifyCheckpoints (db : AuditDb) (verifier : CheckpointVerifier) :
    Except StoreError (Option UInt64) := do
  pure (firstUnverified verifier (← db.allCheckpoints))

variable {verifier : CheckpointVerifier} {cps : List Checkpoint} {cp : Checkpoint}

theorem verified_of_none (h : firstUnverified verifier cps = none) :
    ∀ cp ∈ cps, verifier.verify cp.signer cp.canonicalBytes cp.signature = true := by
  induction cps with
  | nil =>
      intro cp hcp
      cases hcp
  | cons first cps ih =>
      unfold firstUnverified at h
      split_ifs at h with hfirst
      intro cp hcp
      rcases List.mem_cons.mp hcp with rfl | hcp
      · exact hfirst
      · exact ih h cp hcp

/-- What a check that finds nothing has checked. -/
theorem verified_of_verifyCheckpoints {db : AuditDb} (h : db.verifyCheckpoints verifier = .ok none)
    (hcps : db.allCheckpoints = .ok cps) (hcp : cp ∈ cps) :
    verifier.verify cp.signer cp.canonicalBytes cp.signature = true := by
  unfold verifyCheckpoints at h
  rw [hcps, Except.ok_bind] at h
  exact verified_of_none (Except.ok.inj h) cp hcp

/-! ### What a rotation has signed -/

variable (blake3 : List UInt8 → Digest)

/-- Where a rotation cuts the log, before anyone signs: after which entry, what
the number of the cut is and how many entries it removes. -/
def rotateCut (db : AuditDb) (maxEntries : UInt64) :
    Except Fault (Option (AuditEntry × UInt64 × UInt64)) := do
  match (← db.verifyWithin blake3).brokenAt with
  | some seq => throw (.store (.auditChainBroken seq))
  | none =>
      let total ← db.countWithin
      if total ≤ maxEntries then
        pure none
      else
        match ← db.tailEntry with
        | none => pure none
        | some head =>
            match ← db.firstSeqWithin with
            | none => pure none
            | some first =>
                let truncateThrough := saturatingSub head.seq maxEntries
                match ← db.get truncateThrough with
                | none => throw (.store (.auditChainBroken truncateThrough))
                | some splice =>
                    let before ← checkedSub truncateThrough first
                    let entriesRemoved ← checkedAdd before 1
                    pure (some (splice, truncateThrough, entriesRemoved))

/-- **A rotation asks for at most one signature**, over its cut. -/
theorem rotateAt_eq (db : AuditDb) (maxEntries : UInt64) (signer : CheckpointSigner)
    (tsUtcMs : Int64) : db.rotateAt blake3 maxEntries signer tsUtcMs = (do
      match ← db.rotateCut blake3 maxEntries with
      | none => pure (none, db)
      | some (splice, truncateThrough, entriesRemoved) =>
          db.truncate splice truncateThrough entriesRemoved signer tsUtcMs) := by
  unfold rotateAt rotateCut
  rcases db.verifyWithin blake3 with fault | status
  · rfl
  rcases hbroken : status.brokenAt with _ | seq
  · simp only [Except.ok_bind, hbroken]
    rcases db.countWithin with error | total
    · rfl
    simp only [Fault.lift_ok, Except.ok_bind]
    split_ifs
    · rfl
    rcases db.tailEntry with error | _ | head
    · rfl
    · rfl
    simp only [Fault.lift_ok, Except.ok_bind]
    rcases db.firstSeqWithin with error | _ | first
    · rfl
    · rfl
    simp only [Fault.lift_ok, Except.ok_bind]
    rcases db.get (saturatingSub head.seq maxEntries) with error | _ | splice
    · rfl
    · rfl
    simp only [Fault.lift_ok, Except.ok_bind]
    rcases checkedSub (saturatingSub head.seq maxEntries) first with fault | before
    · rfl
    rcases hadd : checkedAdd before 1 with fault | removed
    · simp only [Except.ok_bind, hadd]
      rfl
    · simp only [Except.ok_bind, hadd]
      rfl
  · simp only [Except.ok_bind, hbroken]
    rfl

/-- What the key signs in a rotation, also in one that fails afterwards. -/
def rotateSigned (db : AuditDb) (maxEntries : UInt64) (signer : CheckpointSigner)
    (tsUtcMs : Int64) : List (List UInt8 × Signature) :=
  match db.rotateCut blake3 maxEntries with
  | .ok (some (splice, truncateThrough, entriesRemoved)) =>
      let message := Checkpoint.signingBytes truncateThrough splice.hash entriesRemoved tsUtcMs
        signer.publicKey
      match signer.sign message with
      | .ok signature => [(message, signature)]
      | .error _ => []
  | _ => []

end AuditDb

/-! ### A database that others write -/

/-- The tables, and everything the daemon's key has signed. -/
structure Exposed where
  db : AuditDb
  signed : List (List UInt8 × Signature)

/-- A call of the daemon, or a rewrite of the tables by someone else. -/
inductive ExposedEvent
  | append (record : AuditRecord) (tsUtcMs : Int64) (monotonicNs : UInt64)
  | rotate (maxEntries : UInt64) (tsUtcMs : Int64)
  | rewrite (db : AuditDb)

namespace Exposed

def empty : Exposed := ⟨.empty, []⟩

variable (blake3 : List UInt8 → Digest) (signer : CheckpointSigner)

/-- One event; a call that fails changes no table. -/
def step (s : Exposed) : ExposedEvent → Option (Exposed × Except Fault Unit)
  | .append record tsUtcMs monotonicNs =>
      match s.db.appendWithin blake3 record tsUtcMs monotonicNs with
      | .ok (_, db) => some ({ s with db }, .ok ())
      | .error fault => some (s, .error fault)
  | .rotate maxEntries tsUtcMs =>
      let signed := s.signed ++ s.db.rotateSigned blake3 maxEntries signer tsUtcMs
      match s.db.rotateAt blake3 maxEntries signer tsUtcMs with
      | .ok (_, db) => some (⟨db, signed⟩, .ok ())
      | .error fault => some ({ s with signed }, .error fault)
  | .rewrite db => some ({ s with db }, .ok ())

/-- A signature is accepted exactly when it is genuine: the daemon's key signed
what is in the list, and other keys signed what their holders like. -/
def Exact (verifier : CheckpointVerifier) (daemon : PublicKey)
    (signed : List (List UInt8 × Signature))
    (foreign : PublicKey → List UInt8 → Signature → Prop) : Prop :=
  ∀ key message signature, verifier.verify key message signature = true ↔
    if key = daemon then (message, signature) ∈ signed else foreign key message signature

/-- Every message that was signed names the daemon. -/
def NamesDaemon (signer : CheckpointSigner) (signed : List (List UInt8 × Signature)) : Prop :=
  ∀ entry ∈ signed, ∃ truncatedThroughSeq chainHash entriesRemoved tsUtcMs,
    entry.1 = Checkpoint.signingBytes truncatedThroughSeq chainHash entriesRemoved tsUtcMs
      signer.publicKey

variable {blake3 signer}
variable {trace : List (ExposedEvent × Except Fault Unit)} {s s' : Exposed} {ev : ExposedEvent}
  {o : Except Fault Unit}

theorem namesDaemon_rotateSigned (db : AuditDb) (maxEntries : UInt64) (tsUtcMs : Int64) :
    NamesDaemon signer (db.rotateSigned blake3 maxEntries signer tsUtcMs) := by
  intro entry hentry
  unfold AuditDb.rotateSigned at hentry
  split at hentry
  · next splice through removed _ =>
      dsimp only at hentry
      split at hentry
      · obtain rfl := List.mem_singleton.mp hentry
        exact ⟨through, splice.hash, removed, tsUtcMs, rfl⟩
      · cases hentry
  · cases hentry

theorem NamesDaemon.append {signed more : List (List UInt8 × Signature)}
    (h : NamesDaemon signer signed) (hmore : NamesDaemon signer more) :
    NamesDaemon signer (signed ++ more) := by
  intro entry hentry
  rcases List.mem_append.mp hentry with hentry | hentry
  · exact h entry hentry
  · exact hmore entry hentry

theorem NamesDaemon.step (h : NamesDaemon signer s.signed)
    (hstep : Exposed.step blake3 signer s ev = some (s', o)) : NamesDaemon signer s'.signed := by
  cases ev with
  | append record tsUtcMs monotonicNs =>
      dsimp only [Exposed.step] at hstep
      split at hstep
      · cases hstep
        exact h
      · cases hstep
        exact h
  | rotate maxEntries tsUtcMs =>
      dsimp only [Exposed.step] at hstep
      split at hstep
      · cases hstep
        exact h.append (namesDaemon_rotateSigned s.db maxEntries tsUtcMs)
      · cases hstep
        exact h.append (namesDaemon_rotateSigned s.db maxEntries tsUtcMs)
  | rewrite db =>
      cases hstep
      exact h

/-- The fields of a checkpoint that are signed. -/
def signedFields (through : UInt64) (hash : Digest) (removed : UInt64) (ts : Int64)
    (key : PublicKey) : List (String × Item) :=
  [("t", .text checkpointDomain), ("through", .uint through), ("chain", .bytes hash.bytes),
    ("removed", .uint removed), ("ts", .int ts), ("signer", .bytes key.bytes)]

theorem bounded_signedFields (through : UInt64) (hash : Digest) (removed : UInt64) (ts : Int64)
    (key : PublicKey) : ∀ f ∈ signedFields through hash removed ts key, f.2.Bounded := by
  intro f hf
  simp only [signedFields, List.mem_cons, List.not_mem_nil, or_false] at hf
  rcases hf with rfl | rfl | rfl | rfl | rfl | rfl
  · show (Item.text checkpointDomain).Bounded
    decide
  · trivial
  · exact AuditEntry.bounded_id hash
  · trivial
  · trivial
  · exact AuditEntry.bounded_id key

/-- The bytes of a checkpoint say who signed it. -/
theorem signer_of_signingBytes {through through' removed removed' : UInt64} {hash hash' : Digest}
    {ts ts' : Int64} {key key' : PublicKey}
    (h : Checkpoint.signingBytes through hash removed ts key =
      Checkpoint.signingBytes through' hash' removed' ts' key') : key = key' := by
  have hkeys : ∀ (through removed : UInt64) (hash : Digest) (ts : Int64) (key : PublicKey),
      (signedFields through hash removed ts key).map Prod.fst =
        ["t", "through", "chain", "removed", "ts", "signer"] := fun _ _ _ _ _ => rfl
  have hvalues := @Canonical.map_inj (signedFields through hash removed ts key)
    (signedFields through' hash' removed' ts' key') rfl (by rw [hkeys]; decide)
    (by rw [hkeys]; decide) (bounded_signedFields _ _ _ _ _) (bounded_signedFields _ _ _ _ _) h
  simp only [signedFields, List.map_cons, List.map_nil, Item.value, List.cons.injEq,
    Value.bytes.injEq, and_true, true_and] at hvalues
  exact Id.ext_bytes hvalues.2.2.2.2

/-- **Checkpoints that verify were signed by the daemon exactly when they name
it**, whatever was written to the tables. -/
theorem checkpoints_genuine_iff (hrun : Run (step blake3 signer) unguarded empty trace s)
    {verifier : CheckpointVerifier} {foreign : PublicKey → List UInt8 → Signature → Prop}
    (hexact : Exact verifier signer.publicKey s.signed foreign)
    (hchecked : s.db.verifyCheckpoints verifier = .ok none) {cps : List Checkpoint}
    (hcps : s.db.allCheckpoints = .ok cps) :
    (∀ cp ∈ cps, (cp.canonicalBytes, cp.signature) ∈ s.signed) ↔
      ∀ cp ∈ cps, cp.signer = signer.publicKey := by
  have hnames : NamesDaemon signer s.signed :=
    hrun.invariant (fun _ s => NamesDaemon signer s.signed) (fun _ h => absurd h List.not_mem_nil)
      fun _ _ _ _ _ h _ hstep => h.step hstep
  refine ⟨fun hgenuine cp hcp => ?_, fun hnamed cp hcp => ?_⟩
  · obtain ⟨through, hash, removed, ts, hmessage⟩ := hnames _ (hgenuine cp hcp)
    exact signer_of_signingBytes hmessage
  · have hverified := AuditDb.verified_of_verifyCheckpoints hchecked hcps hcp
    have haccepted := (hexact _ _ _).mp hverified
    rwa [if_pos (hnamed cp hcp)] at haccepted

/-! ### An honest checkpoint and a forged one -/

/-- A verifier that knows what the daemon's key has signed, and no other key. -/
def knownVerifier (daemon : PublicKey) (signed : List (List UInt8 × Signature)) :
    CheckpointVerifier where
  verify key message signature := key = daemon ∧ (message, signature) ∈ signed

theorem exact_knownVerifier (daemon : PublicKey) (signed : List (List UInt8 × Signature)) :
    Exact (knownVerifier daemon signed) daemon signed fun _ _ _ => False := by
  intro key message signature
  simp [knownVerifier]

/-- An entry is appended and rotated away. -/
def honestEvents : List ExposedEvent :=
  [.append (Log.sampleRecord .ok) 1000 5, .rotate 0 2000]

/-- The daemon's own checkpoint verifies, and was signed by it. -/
theorem checkpoints_genuine_sample :
    ∃ trace s cps, Run (step Id.of Log.sampleSigner) unguarded empty trace s ∧
      s.db.allCheckpoints = .ok cps ∧
      s.db.verifyCheckpoints (knownVerifier Log.sampleSigner.publicKey s.signed) = .ok none ∧
      cps.map Checkpoint.signer = [Log.sampleSigner.publicKey] ∧
      ∀ cp ∈ cps, (cp.canonicalBytes, cp.signature) ∈ s.signed := by
  have hexec : ((exec (step Id.of Log.sampleSigner) unguarded honestEvents [] empty).map fun r =>
      (r.2.db.allCheckpoints.toOption.map fun cps => cps.map Checkpoint.signer,
        (r.2.db.verifyCheckpoints
          (knownVerifier Log.sampleSigner.publicKey r.2.signed)).toOption)) =
      some (some [Log.sampleSigner.publicKey], some none) := by
    decide +kernel
  obtain ⟨⟨trace, s⟩, hrun, hsummary⟩ := Option.map_eq_some_iff.mp hexec
  obtain ⟨hsigners, hnone⟩ := Prod.mk.inj hsummary
  obtain ⟨cps, hcps, hsigners⟩ := Option.map_eq_some_iff.mp hsigners
  have hcps := Except.toOption_eq_some.mp hcps
  have hnone := Except.toOption_eq_some.mp hnone
  refine ⟨trace, s, cps, run_of_exec _ hrun, hcps, hnone, hsigners, ?_⟩
  refine (checkpoints_genuine_iff (run_of_exec _ hrun) (exact_knownVerifier _ _) hnone hcps).mpr ?_
  intro cp hcp
  have hmem := List.mem_map_of_mem (f := Checkpoint.signer) hcp
  rw [hsigners] at hmem
  exact List.mem_singleton.mp hmem

/-- A checkpoint that an attacker signed with a key of their own. -/
def forged : Checkpoint where
  truncatedThroughSeq := 5
  chainHash := .replicate 7
  entriesRemoved := 5
  tsUtcMs := 0
  signer := .replicate 9
  signature := ⟨List.replicate 64 3, List.length_replicate⟩

/-- A verifier that knows what the attacker's key has signed. -/
def attackedVerifier : CheckpointVerifier where
  verify key message signature :=
    key = forged.signer ∧ message = forged.canonicalBytes ∧ signature = forged.signature

/-- **A checkpoint of an attacker's own verifies**, over a chain that is intact. -/
theorem forged_checkpoint :
    ¬ ∀ (signer : CheckpointSigner) (verifier : CheckpointVerifier)
      (foreign : PublicKey → List UInt8 → Signature → Prop)
      (trace : List (ExposedEvent × Except Fault Unit)) (s : Exposed) (entries : UInt64)
      (headSeq : Option UInt64) (headHash : Option Digest) (cps : List Checkpoint),
      Run (step Id.of signer) unguarded empty trace s →
      Exact verifier signer.publicKey s.signed foreign →
      s.db.verifyWithin Id.of = .ok (.intact entries headSeq headHash) →
      s.db.verifyCheckpoints verifier = .ok none → s.db.allCheckpoints = .ok cps →
      ∀ cp ∈ cps, (cp.canonicalBytes, cp.signature) ∈ s.signed := by
  intro hall
  have hfits : forged.Fits := ⟨by decide, by decide⟩
  have hdecode := Checkpoint.checkpoint_stored hfits
  let db : AuditDb := ⟨.empty, ⟨[forged.stored], List.pairwise_singleton _ _⟩⟩
  have hcps : db.allCheckpoints = .ok [forged] := by
    show [forged.stored].mapM CheckpointRow.checkpoint = _
    rw [List.mapM_cons, hdecode]
    rfl
  have hchecked : db.verifyCheckpoints attackedVerifier = .ok none := by
    unfold AuditDb.verifyCheckpoints
    rw [hcps, Except.ok_bind]
    simp [AuditDb.firstUnverified, attackedVerifier]
    rfl
  have hstart : db.startWithin = .ok (6, .replicate 7) := by
    show (liftM (nullable CheckpointRow.checkpoint (some forged.stored)) >>= _ : Except Fault _) = _
    dsimp only [nullable]
    rw [hdecode]
    rfl
  have hintact : db.verifyWithin Id.of = .ok (.intact 0 none none) := by
    unfold AuditDb.verifyWithin
    rw [hstart]
    rfl
  have hexact : Exact attackedVerifier Log.sampleSigner.publicKey []
      fun key message signature =>
        key = forged.signer ∧ message = forged.canonicalBytes ∧ signature = forged.signature := by
    intro key message signature
    by_cases hkey : key = Log.sampleSigner.publicKey
    · have hother : Log.sampleSigner.publicKey ≠ forged.signer := by decide
      simp [attackedVerifier, hkey, hother]
    · simp [attackedVerifier, hkey]
  have hsigned := hall Log.sampleSigner attackedVerifier _ [(.rewrite db, .ok ())] ⟨db, []⟩ 0 none
    none [forged] (.snoc .nil trivial rfl) hexact hintact hchecked hcps forged (.head _)
  exact absurd hsigned List.not_mem_nil

end Exposed

end Store
