import GoNomad.Lib.Transaction
import GoNomad.Store.AuditForgery
import GoNomad.Store.AuditTamper

/-!
# What a rotation leaves

A rotation writes through a transaction of its own, which is rolled back
wherever it is dropped before it was committed.  Here the statements are run one
by one, and the engine may refuse any of them.

* `rotateAt_describes` — a checkpoint describes the rows that were deleted, in
  whatever state the tables were;
* `rotation_atomic` — a rotation did that, or it changed nothing.
-/

namespace Store

open Proto

variable {blake3 : List UInt8 → Digest}

/-! ### What a checkpoint describes -/

/-- `before` became `after` by cutting off the rows that `cp` describes and by
adding `cp` after all other checkpoints. -/
structure Rotated (before after : AuditDb) (cp : Checkpoint) : Prop where
  /-- The deleted rows are a prefix, as long as the checkpoint says. -/
  removed : ∃ dropped last e, before.audit.rows = dropped ++ last :: after.audit.rows ∧
    cp.entriesRemoved.toNat = dropped.length + 1 ∧
    -- The last of them has the number and the hash of the checkpoint.
    last.entry = .ok e ∧ e.seq = cp.truncatedThroughSeq ∧ e.hash = cp.chainHash
  /-- What is left is exactly what has greater numbers. -/
  through : ∀ row, row ∈ after.audit.rows ↔
    row ∈ before.audit.rows ∧ (cp.truncatedThroughSeq.toNat : Int) < row.seq.toInt
  /-- One checkpoint was added, and it is read back. -/
  added : ∃ row, after.checkpoints.rows = before.checkpoints.rows ++ [row] ∧
    row.checkpoint = .ok cp

namespace AuditDb

variable {db db' : AuditDb} {es : List AuditEntry} {start : UInt64} {prev : Digest}

/-- A log that verifies is a chain of entries from where it is expected to start. -/
theorem intact_of_verify {status : ChainStatus} (h : db.verifyWithin blake3 = .ok status)
    (hbroken : status.brokenAt = none) : ∃ start prev es, db.Intact blake3 start prev es := by
  cases status with
  | broken seq cause => cases hbroken
  | intact entries headSeq headHash =>
      obtain ⟨⟨start, prev⟩, hstart, -⟩ := Except.bind_eq_ok.mp h
      obtain ⟨es, hdec, hlinked, -⟩ := linked_of_verifyWithin hstart h
      exact ⟨start, prev, es, hstart, hdec, hlinked⟩

/-- A checkpoint that was read has the number of its row. -/
theorem through_of_checkpoint {row : CheckpointRow} {cp : Checkpoint}
    (h : row.checkpoint = .ok cp) :
    row.truncatedThroughSeq.toInt = cp.truncatedThroughSeq.toNat := by
  obtain ⟨raw, hraw, h⟩ := Except.bind_eq_ok.mp h
  obtain ⟨signer, -, hraw⟩ := Except.bind_eq_ok.mp hraw
  cases hraw
  obtain ⟨through, hthrough, h⟩ := Except.bind_eq_ok.mp h
  obtain ⟨hash, -, h⟩ := Except.bind_eq_ok.mp h
  obtain ⟨removed, -, h⟩ := Except.bind_eq_ok.mp h
  obtain ⟨key, -, h⟩ := Except.bind_eq_ok.mp h
  obtain ⟨signature, -, h⟩ := Except.bind_eq_ok.mp h
  cases h
  obtain ⟨hlt, hword⟩ := u64FromI64_lt hthrough
  change row.truncatedThroughSeq = _ at hword
  rw [hword]
  exact Int64.toInt_ofNat_of_lt hlt

/-- A log is expected to start after its checkpoints. -/
theorem checkpoints_lt_start (h : db.startWithin = .ok (start, prev)) :
    ∀ row ∈ db.checkpoints.rows, row.truncatedThroughSeq.toInt < start.toNat := by
  intro row hrow
  obtain ⟨last, hlast⟩ : ∃ last, db.checkpoints.last = some last :=
    Option.ne_none_iff_exists'.mp fun hnone => by
      rw [Table.last, List.getLast?_eq_none_iff] at hnone
      rw [hnone] at hrow
      cases hrow
  have hle := Table.key_le_last hlast hrow
  unfold startWithin latestCheckpointWithin at h
  rw [hlast] at h
  dsimp only [nullable] at h
  rcases hcp : last.checkpoint with error | cp
  · rw [hcp] at h
    cases h
  · rw [hcp] at h
    change checkedAdd cp.truncatedThroughSeq 1 >>= _ = _ at h
    obtain ⟨next, hadd, h⟩ := Except.bind_eq_ok.mp h
    cases h
    have hone : (1 : UInt64).toNat = 1 := rfl
    unfold checkedAdd at hadd
    split_ifs at hadd with hlt
    cases hadd
    rw [through_of_checkpoint hcp] at hle
    rw [UInt64.toNat_add, Nat.mod_eq_of_lt hlt]
    omega

theorem lift_eq_ok {α : Type} {x : Except StoreError α} {a : α}
    (h : (liftM x : Except Fault α) = .ok a) : x = .ok a := by
  cases x with
  | ok b =>
      cases h
      rfl
  | error e => cases h

/-- An entry that was fetched is that of a row with its number. -/
theorem row_of_get {seq : UInt64} {e : AuditEntry} (h : db.get seq = .ok (some e)) :
    ∃ row ∈ db.audit.rows, row.entry = .ok e ∧ e.seq = seq := by
  obtain ⟨raw, hraw, h⟩ := Except.bind_eq_ok.mp h
  have hlt := lt_of_i64FromU64 hraw
  rw [i64FromU64_ok hlt] at hraw
  cases hraw
  cases hfind : db.audit.find (Int64.ofNat seq.toNat).toInt with
  | none =>
      rw [hfind] at h
      cases h
  | some row =>
      rw [hfind] at h
      obtain ⟨e', hentry, he⟩ := Except.map_eq_ok.mp h
      cases he
      obtain ⟨-, hnum⟩ := AuditEntry.fits_of_entry hentry
      have hkey : row.seq.toInt = (Int64.ofNat seq.toNat).toInt := by
        simpa using List.find?_some hfind
      rw [Int64.toInt_ofNat_of_lt hlt] at hkey
      exact ⟨row, List.mem_of_find?_eq_some hfind, hentry, UInt64.toNat_inj.mp (by omega)⟩

/-- The least number of a log that verifies is the one it is expected to start at. -/
theorem start_of_firstSeq {first : UInt64} (h : db.firstSeqWithin = .ok (some first))
    (hintact : db.Intact blake3 start prev es) : first = start := by
  unfold firstSeqWithin Table.first at h
  cases hrows : db.audit.rows with
  | nil =>
      rw [hrows] at h
      cases h
  | cons row rows =>
      rw [hrows] at h
      obtain ⟨first', hfirst, heq⟩ := Except.map_eq_ok.mp h
      cases heq
      obtain ⟨hlt, hword⟩ := u64FromI64_lt hfirst
      obtain ⟨e, he, -⟩ := hintact.entry_of_row (hrows ▸ List.mem_cons_self)
      obtain ⟨es₁, es₂, -, hnil, -, -, hseq, -⟩ :=
        @Intact.split blake3 _ db start prev [] rows row e hintact hrows he
      cases hnil
      obtain ⟨-, hnum⟩ := AuditEntry.fits_of_entry he
      rw [hword, Int64.toInt_ofNat_of_lt hlt] at hnum
      rw [List.length_nil] at hseq
      exact UInt64.toNat_inj.mp (by omega)

/-- **Where a rotation cuts**: after an entry of the chain, and the number of
entries up to it is the number of those that it removes. -/
theorem rotateCut_spec {maxEntries through removed : UInt64} {splice : AuditEntry}
    (h : db.rotateCut blake3 maxEntries = .ok (some (splice, through, removed))) :
    ∃ start prev es pre row post, db.Intact blake3 start prev es ∧
      db.audit.rows = pre ++ row :: post ∧ row.entry = .ok splice ∧ splice.seq = through ∧
      start.toNat ≤ through.toNat ∧ removed.toNat = pre.length + 1 := by
  obtain ⟨status, hverify, h⟩ := Except.bind_eq_ok.mp h
  cases hbroken : status.brokenAt with
  | some seq =>
      rw [hbroken] at h
      cases h
  | none =>
      obtain ⟨start, prev, es, hintact⟩ := intact_of_verify hverify hbroken
      rw [hbroken] at h
      obtain ⟨total, -, h⟩ := Except.bind_eq_ok.mp h
      split_ifs at h
      · cases h
      obtain ⟨_ | head, -, h⟩ := Except.bind_eq_ok.mp h
      · cases h
      obtain ⟨_ | first, hfirst, h⟩ := Except.bind_eq_ok.mp h
      · cases h
      obtain ⟨_ | found, hget, h⟩ := Except.bind_eq_ok.mp h
      · cases h
      obtain ⟨before, hbefore, h⟩ := Except.bind_eq_ok.mp h
      obtain ⟨count, hcount, h⟩ := Except.bind_eq_ok.mp h
      cases h
      obtain rfl := start_of_firstSeq (lift_eq_ok hfirst) hintact
      obtain ⟨row, hrow, hentry, hseq⟩ := row_of_get (lift_eq_ok hget)
      obtain ⟨pre, post, hrows⟩ := List.append_of_mem hrow
      obtain ⟨es₁, es₂, -, hpre, -, -, hnum, -⟩ := hintact.split hrows hentry
      have hlen : pre.length = es₁.length := hpre.length_eq
      have hone : (1 : UInt64).toNat = 1 := rfl
      unfold checkedSub at hbefore
      split_ifs at hbefore with hle
      cases hbefore
      unfold checkedAdd at hcount
      split_ifs at hcount with hlt
      cases hcount
      refine ⟨first, prev, es, pre, row, post, hintact, hrows, hentry, hseq, hle, ?_⟩
      rw [UInt64.toNat_add, Nat.mod_eq_of_lt hlt,
        UInt64.toNat_sub_of_le _ _ (UInt64.le_iff_toNat_le.mpr hle), ← hseq]
      omega

/-- Only a checkpoint that fits has a row. -/
theorem stored_of_row {cp : Checkpoint} {row : CheckpointRow} (h : cp.row = .ok row) :
    cp.Fits ∧ row = cp.stored := by
  have hrow := h
  obtain ⟨through, hthrough, h⟩ := Except.bind_eq_ok.mp h
  obtain ⟨removed, hremoved, -⟩ := Except.bind_eq_ok.mp h
  have hfits : cp.Fits := ⟨lt_of_i64FromU64 hthrough, lt_of_i64FromU64 hremoved⟩
  rw [Checkpoint.row_eq hfits] at hrow
  cases hrow
  exact ⟨hfits, rfl⟩

/-- Deleting up to the number of a row deletes it and what is before it. -/
theorem deleteThrough_rows {pre post : List AuditRow} {row : AuditRow}
    (hrows : db.audit.rows = pre ++ row :: post) :
    (db.audit.deleteThrough row.seq.toInt).rows = post := by
  have hsorted := db.audit.sorted
  rw [hrows] at hsorted
  obtain ⟨-, hrest, hcross⟩ := List.pairwise_append.mp hsorted
  refine @Table.delete_through _ _ db.audit _ post (pre ++ [row]) (by rw [hrows]; simp) ?_ ?_
  · intro r hr
    rcases List.mem_append.mp hr with hr | hr
    · exact Int.le_of_lt (hcross r hr row (.head _))
    · obtain rfl := List.mem_singleton.mp hr
      exact Int.le_refl _
  · intro r hr
    exact (List.pairwise_cons.mp hrest).1 r hr

/-- **A checkpoint describes what was deleted**, in whatever state the tables
were. -/
theorem rotateAt_describes {maxEntries : UInt64} {signer : CheckpointSigner} {tsUtcMs : Int64}
    {cp : Checkpoint}
    (h : db.rotateAt blake3 maxEntries signer tsUtcMs = .ok (some cp, db')) :
    Rotated db db' cp ∧ cp.tsUtcMs = tsUtcMs ∧ cp.signer = signer.publicKey ∧
      signer.sign cp.canonicalBytes = .ok cp.signature := by
  rw [rotateAt_eq] at h
  obtain ⟨_ | ⟨splice, through, removed⟩, hcut, h⟩ := Except.bind_eq_ok.mp h
  · cases h
  obtain ⟨start, prev, es, pre, row, post, hintact, hrows, hentry, hseq, hle, hremoved⟩ :=
    rotateCut_spec hcut
  obtain ⟨-, hnum⟩ := AuditEntry.fits_of_entry hentry
  change db.truncate splice through removed signer tsUtcMs = _ at h
  unfold truncate at h
  dsimp only at h
  cases hsign : signer.sign
      (Checkpoint.signingBytes through splice.hash removed tsUtcMs signer.publicKey) with
  | error reason =>
      rw [hsign] at h
      cases h
  | ok signature =>
      rw [hsign] at h
      obtain ⟨cprow, hcprow, h⟩ := Except.bind_eq_ok.mp h
      obtain ⟨hfits, rfl⟩ := stored_of_row (lift_eq_ok hcprow)
      -- Every other checkpoint is before the start of the log.
      have hgreatest : ∀ r ∈ db.checkpoints.rows, r.truncatedThroughSeq.toInt <
          (Checkpoint.stored ⟨through, splice.hash, removed, tsUtcMs, signer.publicKey,
            signature⟩).truncatedThroughSeq.toInt := by
        intro r hr
        have hlt := checkpoints_lt_start hintact.startWithin r hr
        rw [Checkpoint.stored_through hfits]
        dsimp only
        omega
      obtain ⟨checkpoints, hinsert, hadded⟩ := Table.insert_last hgreatest
      rw [hinsert] at h
      obtain ⟨raw, hraw, h⟩ := Except.bind_eq_ok.mp h
      have hlt := lt_of_i64FromU64 (lift_eq_ok hraw)
      have hraw := lift_eq_ok hraw
      rw [i64FromU64_ok hlt] at hraw
      cases hraw
      cases h
      have hkey : (Int64.ofNat through.toNat).toInt = row.seq.toInt := by
        rw [Int64.toInt_ofNat_of_lt hlt, hnum, hseq]
      have hkept := deleteThrough_rows hrows
      refine ⟨⟨⟨pre, row, splice, ?_, hremoved, hentry, hseq, rfl⟩, ?_, ?_⟩, rfl, rfl, hsign⟩
      · rw [hkey, hkept, hrows]
      · intro r
        show r ∈ db.audit.rows.filter _ ↔ _
        rw [List.mem_filter, decide_eq_true_eq, Int64.toInt_ofNat_of_lt hlt]
      · exact ⟨_, hadded, Checkpoint.checkpoint_stored hfits⟩

end AuditDb

/-! ### The statements of a rotation -/

/-- A connection: the tables as they were last committed, and as an open
transaction sees them. -/
structure Connection where
  committed : AuditDb
  pending : Option AuditDb

namespace Connection

/-- The tables as the statements of the connection see them. -/
def view (c : Connection) : AuditDb := c.pending.getD c.committed

/-- What dropping a transaction does to one that is still open. -/
def rollback (c : Connection) : Connection := { c with pending := none }

end Connection

/-- The statements of a rotation. -/
inductive Statement
  | begin
  | selectCheckpoint
  | countEntries
  | selectTail
  | selectFirst
  | selectSplice
  | insertCheckpoint
  | deleteEntries
  | commit
  deriving DecidableEq

/-- Which statements the engine refuses, and after how many rows the walk along
the entries fails, if it does. -/
structure Engine where
  refuses : Statement → Bool
  walkFailsAfter : Option Nat

namespace Engine

variable (engine : Engine) (blake3)

/-- The engine may refuse a statement. -/
def run (statement : Statement) : Program Connection Fault PUnit :=
  liftM (if engine.refuses statement then .error (.store .database) else .ok () :
    Except Fault PUnit)

/-- A statement that reads the tables. -/
def query {α : Type} (statement : Statement) (f : AuditDb → Except Fault α) :
    Program Connection Fault α := do
  engine.run statement
  let c ← get
  liftM (f c.view)

/-- The rows that the engine hands out, and whether there are more. -/
def entries (db : AuditDb) : List AuditRow × Bool :=
  match engine.walkFailsAfter with
  | none => (db.audit.rows, false)
  | some n => (db.audit.rows.take n, true)

/-- A walk that does not end at a break ends where the engine fails. -/
def verifyRows (db : AuditDb) : Except Fault ChainStatus := do
  let start ← db.startWithin
  let (rows, fails) := engine.entries db
  match ← AuditDb.walk blake3 start.1 start.2 0 none rows with
  | .broken seq cause => pure (.broken seq cause)
  | .intact count headSeq headHash =>
      if fails then throw (.store .database) else pure (.intact count headSeq headHash)

/-- What a rotation reads: where it cuts the log, if it does. -/
def selectCut (maxEntries : UInt64) :
    Program Connection Fault (Option (AuditEntry × UInt64 × UInt64)) := do
  match (← engine.query .selectCheckpoint (engine.verifyRows blake3)).brokenAt with
  | some seq => throw (.store (.auditChainBroken seq))
  | none =>
      let total ← engine.query .countEntries fun db => liftM db.countWithin
      if total ≤ maxEntries then
        pure none
      else
        match ← engine.query .selectTail fun db => liftM db.tailEntry with
        | none => pure none
        | some head =>
            match ← engine.query .selectFirst fun db => liftM db.firstSeqWithin with
            | none => pure none
            | some first =>
                let truncateThrough := saturatingSub head.seq maxEntries
                match ← engine.query .selectSplice fun db => liftM (db.get truncateThrough) with
                | none => throw (.store (.auditChainBroken truncateThrough))
                | some splice =>
                    let before ← (liftM (checkedSub truncateThrough first) :
                      Program Connection Fault UInt64)
                    let entriesRemoved ← (liftM (checkedAdd before 1) :
                      Program Connection Fault UInt64)
                    pure (some (splice, truncateThrough, entriesRemoved))

/-- A statement that changes the tables of the open transaction. -/
def execute (statement : Statement) (f : AuditDb → Except Fault AuditDb) :
    Program Connection Fault PUnit := do
  engine.run statement
  let c ← get
  let db ← (liftM (f c.view) : Program Connection Fault AuditDb)
  set { c with pending := some db }

/-- What a rotation writes, after the signer has signed. -/
def writeCut (splice : AuditEntry) (truncateThrough entriesRemoved : UInt64)
    (signer : CheckpointSigner) (tsUtcMs : Int64) :
    Program Connection Fault (Option Checkpoint) := do
  let message := Checkpoint.signingBytes truncateThrough splice.hash entriesRemoved tsUtcMs
    signer.publicKey
  match signer.sign message with
  | .error reason => throw (.store (.checkpointSigning reason))
  | .ok signature =>
      let checkpoint : Checkpoint :=
        { truncatedThroughSeq := truncateThrough, chainHash := splice.hash, entriesRemoved,
          tsUtcMs, signer := signer.publicKey, signature }
      engine.execute .insertCheckpoint fun db => do
        let row ← (liftM checkpoint.row : Except Fault CheckpointRow)
        match db.checkpoints.insert row with
        | none => throw (.store .database)
        | some checkpoints => pure { db with checkpoints }
      engine.execute .deleteEntries fun db => do
        let through ← (liftM (i64FromU64 auditTable "seq" truncateThrough) : Except Fault Int64)
        pure { db with audit := db.audit.deleteThrough through.toInt }
      engine.run .commit
      modify fun c => ⟨c.view, none⟩
      pure (some checkpoint)

/-- Opens a transaction, unless one is open. -/
def begin : Program Connection Fault PUnit := do
  engine.run .begin
  let c ← get
  match c.pending with
  | some _ => throw (.store .database)
  | none => set { c with pending := some c.committed }

/-- A rotation.  However its body ends, the transaction is dropped. -/
def rotateAt (maxEntries : UInt64) (signer : CheckpointSigner) (tsUtcMs : Int64) :
    Program Connection Fault (Option Checkpoint) := do
  engine.begin
  Program.dropping Connection.rollback do
    match ← engine.selectCut blake3 maxEntries with
    | none => pure none
    | some (splice, truncateThrough, entriesRemoved) =>
        engine.writeCut splice truncateThrough entriesRemoved signer tsUtcMs

variable {engine blake3} {c c' : Connection} {db : AuditDb}

/-! ### What the statements do -/

theorem exec_run (statement : Statement) (c : Connection) : (engine.run statement).exec c =
    (if engine.refuses statement then .error (.store .database) else .ok (), c) :=
  Program.exec_check _ c

theorem exec_query {α : Type} (statement : Statement) (f : AuditDb → Except Fault α)
    (c : Connection) : (engine.query statement f).exec c =
      (if engine.refuses statement then .error (.store .database) else f c.view, c) := by
  unfold query
  rw [Program.exec_bind, exec_run]
  cases engine.refuses statement with
  | true => rfl
  | false =>
      show ((liftM (f c.view) : Program Connection Fault α)).exec c = _
      exact Program.exec_check _ c

theorem exec_execute (statement : Statement) (f : AuditDb → Except Fault AuditDb)
    (c : Connection) : (engine.execute statement f).exec c =
      match (if engine.refuses statement then .error (.store .database) else f c.view :
          Except Fault AuditDb) with
      | .ok db => (.ok (), { c with pending := some db })
      | .error e => (.error e, c) := by
  unfold execute
  rw [Program.exec_bind, exec_run]
  cases engine.refuses statement with
  | true => rfl
  | false =>
      show ((liftM (f c.view) : Program Connection Fault AuditDb) >>= fun db =>
        set ({ c with pending := some db } : Connection)).exec c = _
      rw [Program.exec_bind, Program.exec_check]
      cases f c.view with
      | ok db => rfl
      | error e => rfl

/-- A program that goes through after a statement that reads went on with what
the tables hold. -/
theorem query_bind_eq_ok {α β : Type} {statement : Statement} {f : AuditDb → Except Fault α}
    {g : α → Program Connection Fault β} {b : β}
    (h : (engine.query statement f >>= g).exec c = (.ok b, c')) :
    ∃ a, f c.view = .ok a ∧ (g a).exec c = (.ok b, c') := by
  obtain ⟨a, c₁, hquery, hrest⟩ := Program.exec_bind_eq_ok.mp h
  rw [exec_query] at hquery
  split_ifs at hquery
  · cases hquery
  · obtain ⟨hf, rfl⟩ := Prod.mk.inj hquery
    exact ⟨a, hf, hrest⟩

theorem check_bind_eq_ok {α β : Type} {check : Except Fault α}
    {g : α → Program Connection Fault β} {b : β}
    (h : ((liftM check : Program Connection Fault α) >>= g).exec c = (.ok b, c')) :
    ∃ a, check = .ok a ∧ (g a).exec c = (.ok b, c') := by
  obtain ⟨a, c₁, hcheck, hrest⟩ := Program.exec_bind_eq_ok.mp h
  rw [Program.exec_check] at hcheck
  obtain ⟨hf, rfl⟩ := Prod.mk.inj hcheck
  exact ⟨a, hf, hrest⟩

theorem reads_query {α : Type} (statement : Statement) (f : AuditDb → Except Fault α) :
    Program.Reads (engine.query statement f) := by
  intro c
  rw [exec_query]

/-- Looking for the cut changes nothing. -/
theorem reads_selectCut (maxEntries : UInt64) :
    Program.Reads (engine.selectCut blake3 maxEntries) := by
  unfold selectCut
  refine (reads_query _ _).bind fun status => ?_
  cases status.brokenAt with
  | some seq => exact Program.reads_throw _
  | none =>
      refine (reads_query _ _).bind fun total => ?_
      dsimp only
      split_ifs
      · exact Program.reads_pure _
      refine (reads_query _ _).bind fun tail => ?_
      rcases tail with _ | head
      · exact Program.reads_pure _
      refine (reads_query _ _).bind fun first => ?_
      rcases first with _ | first
      · exact Program.reads_pure _
      refine (reads_query _ _).bind fun splice => ?_
      rcases splice with _ | splice
      · exact Program.reads_throw _
      refine (Program.reads_check _).bind fun before => ?_
      exact (Program.reads_check _).bind fun removed => Program.reads_pure _

/-- A walk that the engine does not cut short is the walk along all the rows. -/
theorem verifyRows_intact {status : ChainStatus} (h : engine.verifyRows blake3 db = .ok status)
    (hbroken : status.brokenAt = none) : db.verifyWithin blake3 = .ok status := by
  obtain ⟨start, hstart, h⟩ := Except.bind_eq_ok.mp h
  unfold entries at h
  cases hfails : engine.walkFailsAfter with
  | none =>
      rw [hfails] at h
      obtain ⟨walked, hwalk, h⟩ := Except.bind_eq_ok.mp h
      unfold AuditDb.verifyWithin
      rw [hstart, Except.ok_bind, hwalk]
      cases walked with
      | broken seq cause => exact h
      | intact count headSeq headHash => exact h
  | some n =>
      rw [hfails] at h
      obtain ⟨walked, -, h⟩ := Except.bind_eq_ok.mp h
      cases walked with
      | broken seq cause =>
          cases h
          cases hbroken
      | intact count headSeq headHash => cases h

/-- What was read for the cut is what the tables hold. -/
theorem selectCut_eq_ok {maxEntries : UInt64} {cut : AuditEntry × UInt64 × UInt64}
    (h : (engine.selectCut blake3 maxEntries).exec c = (.ok (some cut), c')) :
    c.view.rotateCut blake3 maxEntries = .ok (some cut) := by
  unfold AuditDb.rotateCut
  obtain ⟨status, hstatus, h⟩ := query_bind_eq_ok h
  cases hbroken : status.brokenAt with
  | some seq =>
      rw [hbroken] at h
      cases h
  | none =>
      rw [hbroken] at h
      rw [verifyRows_intact hstatus hbroken, Except.ok_bind, hbroken]
      obtain ⟨total, htotal, h⟩ := query_bind_eq_ok h
      dsimp only at h ⊢
      rw [htotal, Except.ok_bind]
      split_ifs at h ⊢
      · cases h
      obtain ⟨_ | head, hhead, h⟩ := query_bind_eq_ok h
      · cases h
      rw [hhead, Except.ok_bind]
      obtain ⟨_ | first, hfirst, h⟩ := query_bind_eq_ok h
      · cases h
      dsimp only
      rw [hfirst, Except.ok_bind]
      obtain ⟨_ | splice, hsplice, h⟩ := query_bind_eq_ok h
      · cases h
      dsimp only
      rw [hsplice, Except.ok_bind]
      obtain ⟨before, hbefore, h⟩ := check_bind_eq_ok h
      obtain ⟨removed, hremoved, h⟩ := check_bind_eq_ok h
      dsimp only
      rw [hbefore, Except.ok_bind, hremoved, Except.ok_bind]
      cases h
      rfl

/-- A statement that changes the tables of the transaction, or fails and does not. -/
theorem execute_cases (statement : Statement) (f : AuditDb → Except Fault AuditDb)
    (c : Connection) :
    (∃ db, f c.view = .ok db ∧
        (engine.execute statement f).exec c = (.ok (), { c with pending := some db })) ∨
      ∃ e, (engine.execute statement f).exec c = (.error e, c) := by
  rw [exec_execute]
  cases engine.refuses statement with
  | true => exact .inr ⟨_, rfl⟩
  | false =>
      cases hf : f c.view with
      | ok db => exact .inl ⟨db, rfl, by simp⟩
      | error e => exact .inr ⟨e, by simp⟩

/-- **Writing the cut** changes the committed tables as `truncate` does, or not
at all. -/
theorem writeCut_cases {splice : AuditEntry} {through removed : UInt64}
    {signer : CheckpointSigner} {tsUtcMs : Int64} {r : Except Fault (Option Checkpoint)}
    (h : (engine.writeCut splice through removed signer tsUtcMs).exec c = (r, c')) :
    (∃ cp db', r = .ok (some cp) ∧
        c.view.truncate splice through removed signer tsUtcMs = .ok (some cp, db') ∧
        c' = ⟨db', none⟩) ∨
      c'.committed = c.committed ∧ ∀ cp, r ≠ .ok (some cp) := by
  unfold writeCut at h
  unfold AuditDb.truncate
  dsimp only at h ⊢
  cases hsign : signer.sign
      (Checkpoint.signingBytes through splice.hash removed tsUtcMs signer.publicKey) with
  | error reason =>
      rw [hsign] at h
      cases h
      exact .inr ⟨rfl, fun cp hcp => nomatch hcp⟩
  | ok signature =>
      rw [hsign] at h
      dsimp only at h ⊢
      generalize Checkpoint.mk through splice.hash removed tsUtcMs signer.publicKey signature = cp
        at h ⊢
      rw [Program.exec_bind] at h
      rcases execute_cases .insertCheckpoint _ c with ⟨db₁, hinsert, hexec⟩ | ⟨e, hexec⟩
      · rw [hexec] at h
        dsimp only at h
        rw [Program.exec_bind] at h
        rcases execute_cases .deleteEntries _ { c with pending := some db₁ } with
          ⟨db₂, hdelete, hexec⟩ | ⟨e, hexec⟩
        · rw [hexec] at h
          dsimp only at h
          rw [Program.exec_bind, exec_run] at h
          obtain ⟨row, hrow, hinsert⟩ := Except.bind_eq_ok.mp hinsert
          obtain ⟨raw, hraw, hdelete⟩ := Except.bind_eq_ok.mp hdelete
          cases hdelete
          cases hcommit : engine.refuses .commit with
          | true =>
              rw [hcommit] at h
              cases h
              exact .inr ⟨rfl, fun cp hcp => nomatch hcp⟩
          | false =>
              rw [hcommit] at h
              cases h
              refine .inl ⟨cp, _, rfl, ?_, rfl⟩
              rw [hrow, Except.ok_bind]
              cases hput : c.view.checkpoints.insert row with
              | none =>
                  rw [hput] at hinsert
                  cases hinsert
              | some checkpoints =>
                  rw [hput] at hinsert
                  cases hinsert
                  dsimp only
                  rw [hraw]
                  rfl
        · rw [hexec] at h
          cases h
          exact .inr ⟨rfl, fun cp hcp => nomatch hcp⟩
      · rw [hexec] at h
        cases h
        exact .inr ⟨rfl, fun cp hcp => nomatch hcp⟩

/-- **A rotation did what `rotateAt` does to the tables, or nothing.** -/
theorem rotateAt_cases {maxEntries : UInt64} {signer : CheckpointSigner} {tsUtcMs : Int64}
    {r : Except Fault (Option Checkpoint)}
    (h : (engine.rotateAt blake3 maxEntries signer tsUtcMs).exec c = (r, c')) :
    (∃ cp db', r = .ok (some cp) ∧
        c.committed.rotateAt blake3 maxEntries signer tsUtcMs = .ok (some cp, db') ∧
        c' = ⟨db', none⟩) ∨
      c' = c ∧ ∀ cp, r ≠ .ok (some cp) := by
  unfold rotateAt begin at h
  rw [bind_assoc, Program.exec_bind, exec_run] at h
  cases hbegin : engine.refuses .begin with
  | true =>
      rw [hbegin] at h
      cases h
      exact .inr ⟨rfl, fun cp hcp => nomatch hcp⟩
  | false =>
      rw [hbegin] at h
      obtain ⟨committed, pending⟩ := c
      cases pending with
      | some db =>
          cases h
          exact .inr ⟨rfl, fun cp hcp => nomatch hcp⟩
      | none =>
          -- The transaction starts from the committed tables.
          change (Program.dropping Connection.rollback _).exec ⟨committed, some committed⟩ = _ at h
          rw [Program.exec_dropping, Program.exec_bind] at h
          have hread := @reads_selectCut blake3 engine maxEntries ⟨committed, some committed⟩
          rcases hcut : (engine.selectCut blake3 maxEntries).exec ⟨committed, some committed⟩ with
            ⟨e | _ | cut, c₁⟩
          all_goals
            rw [hcut] at h hread
            dsimp only at hread h
            subst hread
          · cases h
            exact .inr ⟨rfl, fun cp hcp => nomatch hcp⟩
          · cases h
            exact .inr ⟨rfl, fun cp hcp => nomatch hcp⟩
          · obtain ⟨splice, through, removed⟩ := cut
            have hcut := selectCut_eq_ok hcut
            rcases hwrite : (engine.writeCut splice through removed signer tsUtcMs).exec
              ⟨committed, some committed⟩ with ⟨r', c₂⟩
            rw [hwrite] at h
            cases h
            rcases writeCut_cases hwrite with ⟨cp, db', rfl, htruncate, rfl⟩ | ⟨hsame, hfailed⟩
            · refine .inl ⟨cp, db', rfl, ?_, rfl⟩
              rw [AuditDb.rotateAt_eq]
              change committed.rotateCut blake3 maxEntries = _ at hcut
              rw [hcut]
              exact htruncate
            · refine .inr ⟨?_, hfailed⟩
              show Connection.mk c₂.committed none = _
              rw [hsame]

/-! ### An engine that refuses nothing -/

/-- The engine runs every statement. -/
def willing : Engine := ⟨fun _ => false, none⟩

theorem willing_query_bind {α β : Type} {statement : Statement} {f : AuditDb → Except Fault α}
    {g : α → Program Connection Fault β} {g' : α → Except Fault β}
    (h : ∀ a, (g a).exec c = (g' a, c)) :
    (willing.query statement f >>= g).exec c = (f c.view >>= g', c) := by
  have hrun : (willing.query statement f).exec c = (f c.view, c) := by
    rw [exec_query]
    exact congrArg (·, c) (if_neg Bool.false_ne_true)
  rw [Program.exec_bind, hrun]
  cases f c.view with
  | ok a => exact h a
  | error e => rfl

theorem check_bind {α β : Type} {check : Except Fault α} {g : α → Program Connection Fault β}
    {g' : α → Except Fault β} (h : ∀ a, (g a).exec c = (g' a, c)) :
    ((liftM check : Program Connection Fault α) >>= g).exec c = (check >>= g', c) := by
  rw [Program.exec_bind, Program.exec_check]
  cases check with
  | ok a => exact h a
  | error e => rfl

theorem willing_verifyRows (db : AuditDb) : willing.verifyRows blake3 db = db.verifyWithin blake3 := by
  unfold verifyRows AuditDb.verifyWithin
  cases db.startWithin with
  | error e => rfl
  | ok start =>
      rw [Except.ok_bind, Except.ok_bind]
      show (AuditDb.walk blake3 start.1 start.2 0 none db.audit.rows >>= _) = _
      rcases AuditDb.walk blake3 start.1 start.2 0 none db.audit.rows with e | _ | _
      · rfl
      · rfl
      · rfl

theorem willing_selectCut (maxEntries : UInt64) (c : Connection) :
    (willing.selectCut blake3 maxEntries).exec c = (c.view.rotateCut blake3 maxEntries, c) := by
  unfold selectCut AuditDb.rotateCut
  rw [← willing_verifyRows]
  refine willing_query_bind fun status => ?_
  cases status.brokenAt with
  | some seq => rfl
  | none =>
      refine willing_query_bind fun total => ?_
      dsimp only
      split_ifs
      · rfl
      refine willing_query_bind fun tail => ?_
      rcases tail with _ | head
      · rfl
      refine willing_query_bind fun first => ?_
      rcases first with _ | first
      · rfl
      refine willing_query_bind fun splice => ?_
      rcases splice with _ | splice
      · rfl
      refine check_bind fun before => ?_
      exact check_bind fun removed => rfl

theorem willing_execute (statement : Statement) (f : AuditDb → Except Fault AuditDb)
    (c : Connection) : (willing.execute statement f).exec c =
      match f c.view with
      | .ok db => (.ok (), { c with pending := some db })
      | .error e => (.error e, c) := by
  rw [exec_execute]
  rfl

/-- What a rotation returns, and what is left of its transaction. -/
def dropped (db : AuditDb) :
    Except Fault (Option Checkpoint × AuditDb) → Except Fault (Option Checkpoint) × Connection
  | .ok (cp, db') => (.ok cp, ⟨db', none⟩)
  | .error fault => (.error fault, ⟨db, none⟩)

theorem willing_writeCut (db : AuditDb) (splice : AuditEntry) (through removed : UInt64)
    (signer : CheckpointSigner) (tsUtcMs : Int64) :
    (Program.dropping Connection.rollback
        (willing.writeCut splice through removed signer tsUtcMs)).exec ⟨db, some db⟩ =
      dropped db (db.truncate splice through removed signer tsUtcMs) := by
  rw [Program.exec_dropping]
  unfold writeCut AuditDb.truncate
  dsimp only
  cases signer.sign
      (Checkpoint.signingBytes through splice.hash removed tsUtcMs signer.publicKey) with
  | error reason => rfl
  | ok signature =>
      dsimp only
      rw [Program.exec_bind, willing_execute]
      generalize Checkpoint.mk through splice.hash removed tsUtcMs signer.publicKey signature = cp
      rw [show (⟨db, some db⟩ : Connection).view = db from rfl]
      rcases cp.row with e | row
      · rfl
      rw [Fault.lift_ok, Except.ok_bind, Except.ok_bind]
      cases db.checkpoints.insert row with
      | none => rfl
      | some checkpoints =>
          dsimp only [pure, Except.pure]
          rw [Program.exec_bind, willing_execute]
          rcases i64FromU64 auditTable "seq" through with e | raw
          · rfl
          · rfl

/-- **On an engine that refuses nothing** a rotation is `rotateAt` on the committed
tables. -/
theorem willing_rotateAt (db : AuditDb) (maxEntries : UInt64) (signer : CheckpointSigner)
    (tsUtcMs : Int64) : (willing.rotateAt blake3 maxEntries signer tsUtcMs).exec ⟨db, none⟩ =
      dropped db (db.rotateAt blake3 maxEntries signer tsUtcMs) := by
  rw [AuditDb.rotateAt_eq]
  change (Program.dropping Connection.rollback _).exec ⟨db, some db⟩ = _
  have hcut := @willing_selectCut blake3 maxEntries ⟨db, some db⟩
  rw [show (⟨db, some db⟩ : Connection).view = db from rfl] at hcut
  rw [Program.exec_dropping, Program.exec_bind, hcut]
  rcases db.rotateCut blake3 maxEntries with fault | _ | ⟨splice, through, removed⟩
  · rfl
  · rfl
  · exact willing_writeCut db splice through removed signer tsUtcMs

end Engine

end Store
