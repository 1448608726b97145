import GoNomad.Store.AuditChain

/-!
# The log and its history

The history of a log is everything that was ever appended to it.  The log holds
what is left of the history after a cut, and the newest checkpoint says where
the cut is.  Appending extends the history; rotating moves the cut.

* `Chained.verifyWithin` — a log that is what is left of its history verifies;
* `Chained.appendWithin` — appending extends the history by the new entry;
* `Chained.rotateAt` — rotating moves the cut to what the cap leaves.
-/

namespace Store

open Proto

namespace AuditDb

variable (blake3 : List UInt8 → Digest)

/-- The log is what is left of its history after `cut` entries. -/
structure Chained (db : AuditDb) (hist : List AuditEntry) (cut : Nat) : Prop where
  linked : (auditChain blake3).Linked 1 genesisPrevHash hist
  fits : ∀ e ∈ hist, e.Fits
  cut_le : cut ≤ hist.length
  rows : db.audit.rows = (hist.drop cut).map AuditEntry.stored
  splice : (cut = 0 ∧ db.checkpoints.rows = []) ∨
    ∃ cp : Checkpoint, cp.Fits ∧ db.checkpoints.last = some cp.stored ∧
      cp.truncatedThroughSeq.toNat = cut ∧
      cp.chainHash = (auditChain blake3).tip genesisPrevHash (hist.take cut)

variable {blake3}
variable {db db' : AuditDb} {hist : List AuditEntry} {cut i : Nat} {e : AuditEntry}

/-- What a later cut takes away is a prefix. -/
theorem drop_split {cut' : Nat} (hcut : cut ≤ cut') (hist : List AuditEntry) :
    hist.drop cut = (hist.drop cut).take (cut' - cut) ++ hist.drop cut' := by
  have hdrop := List.take_append_drop (cut' - cut) (hist.drop cut)
  rw [List.drop_drop, Nat.add_sub_cancel' hcut] at hdrop
  exact hdrop.symm

theorem chained_empty : empty.Chained blake3 [] 0 where
  linked := trivial
  fits := fun _ h => by cases h
  cut_le := Nat.le_refl 0
  rows := rfl
  splice := .inl ⟨rfl, rfl⟩

namespace Chained

variable (h : db.Chained blake3 hist cut)
include h

/-- The entry at a place of the history has the number of the place. -/
theorem seq_eq (hi : hist[i]? = some e) : e.seq.toNat = i + 1 := by
  have hseq : e.seq.toNat = 1 + i := (auditChain blake3).seq_of_linked h.linked hi
  omega

theorem fits_at (hi : hist[i]? = some e) : e.Fits := h.fits e (List.mem_of_getElem? hi)

/-- The history is shorter than the numbers of a signed column. -/
theorem length_lt : hist.length < 2 ^ 63 := by
  by_cases hnil : hist.length = 0
  · rw [hnil]
    decide
  · obtain ⟨tail, hlast⟩ : ∃ e, hist[hist.length - 1]? = some e :=
      ⟨_, List.getElem?_eq_getElem (by omega)⟩
    have hseq := h.seq_eq hlast
    have hfits := (h.fits_at hlast).1
    omega

theorem decodes : Decodes db.audit.rows (hist.drop cut) := by
  rw [h.rows]
  exact decodes_stored fun e he => h.fits e (List.mem_of_mem_drop he)

theorem linked_rest : (auditChain blake3).Linked (1 + cut)
    ((auditChain blake3).tip genesisPrevHash (hist.take cut)) (hist.drop cut) :=
  (auditChain blake3).linked_drop h.linked h.cut_le

/-- The newest checkpoint, if there is one, says where the cut is. -/
theorem latestCheckpointWithin :
    (cut = 0 ∧ db.latestCheckpointWithin = .ok none) ∨
      ∃ cp : Checkpoint, db.latestCheckpointWithin = .ok (some cp) ∧
        cp.truncatedThroughSeq.toNat = cut ∧
        cp.chainHash = (auditChain blake3).tip genesisPrevHash (hist.take cut) := by
  unfold AuditDb.latestCheckpointWithin
  rcases h.splice with ⟨hcut, hnone⟩ | ⟨cp, hfits, hlast, hthrough, hhash⟩
  · have hlast : db.checkpoints.last = none := by
      unfold Table.last
      rw [hnone]
      rfl
    rw [hlast]
    exact .inl ⟨hcut, rfl⟩
  · rw [hlast]
    refine .inr ⟨cp, ?_, hthrough, hhash⟩
    dsimp only [nullable]
    rw [Checkpoint.checkpoint_stored hfits]
    rfl

/-- The chain is expected to start after the cut. -/
theorem startWithin : ∃ start : UInt64, start.toNat = 1 + cut ∧
    db.startWithin = .ok (start, (auditChain blake3).tip genesisPrevHash (hist.take cut)) := by
  have hlt := h.length_lt
  have hcut := h.cut_le
  unfold AuditDb.startWithin
  rcases h.latestCheckpointWithin with ⟨rfl, hnone⟩ | ⟨cp, hsome, hthrough, hhash⟩
  · rw [hnone]
    exact ⟨firstSeq, rfl, rfl⟩
  · have hone : (1 : UInt64).toNat = 1 := rfl
    obtain ⟨hadd, hval⟩ := @checkedAdd_ok cp.truncatedThroughSeq 1 (by omega)
    refine ⟨cp.truncatedThroughSeq + 1, by omega, ?_⟩
    rw [hsome, Fault.lift_ok, Except.ok_bind]
    dsimp only
    rw [hadd, Except.ok_bind, hhash]
    rfl

/-- **A log that is what is left of its history verifies.** -/
theorem verifyWithin : ∃ n : UInt64, n.toNat = (hist.drop cut).length ∧ db.verifyWithin blake3 =
    .ok (.intact n ((headAfter none (hist.drop cut)).map Prod.fst)
      ((headAfter none (hist.drop cut)).map Prod.snd)) := by
  obtain ⟨start, hval, hstart⟩ := h.startWithin
  refine verifyWithin_intact hstart h.decodes ?_
  rw [hval]
  exact h.linked_rest

/-- The last row is the last entry of the history, unless everything is cut away. -/
theorem tailEntry : (hist.length = cut ∧ db.tailEntry = .ok none) ∨
    ∃ init tail, hist = init ++ [tail] ∧ cut ≤ init.length ∧ db.tailEntry = .ok (some tail) := by
  have hcut := h.cut_le
  unfold AuditDb.tailEntry Table.last
  rw [h.rows]
  by_cases hall : hist.length = cut
  · refine .inl ⟨hall, ?_⟩
    rw [List.drop_of_length_le (by omega)]
    rfl
  · have hne : hist ≠ [] := by
      intro hnil
      rw [hnil] at hall hcut
      exact hall (Nat.le_zero.mp hcut).symm
    obtain ⟨init, tail, rfl⟩ : ∃ init tail, hist = init ++ [tail] :=
      ⟨hist.dropLast, hist.getLast hne, (List.dropLast_concat_getLast hne).symm⟩
    rw [List.length_append, List.length_singleton] at hall hcut
    refine .inr ⟨init, tail, rfl, by omega, ?_⟩
    rw [List.drop_append_of_le_length (by omega), List.map_append, List.map_singleton,
      List.getLast?_concat]
    dsimp only [nullable]
    rw [AuditEntry.entry_stored (h.fits tail (by simp))]
    rfl

/-- The last row is the last entry of the history, if it is not cut away. -/
theorem tailEntry_of_cut_lt (hlt : cut < hist.length) :
    ∃ tail, db.tailEntry = .ok (some tail) ∧ tail.seq.toNat = hist.length := by
  rcases h.tailEntry with ⟨hall, -⟩ | ⟨init, tail, hhist, -, htail⟩
  · omega
  · have hat : hist[init.length]? = some tail := by
      rw [hhist]
      exact List.getElem?_concat_length
    refine ⟨tail, htail, ?_⟩
    rw [h.seq_eq hat, hhist, List.length_append, List.length_singleton]

/-! ### Appending -/

/-- The next entry continues the history; its reading is above that of the last
entry, if that is not cut away. -/
theorem nextSlot : ∃ slot : UInt64 × Digest × UInt64, db.nextSlot blake3 = .ok slot ∧
    slot.1.toNat = hist.length + 1 ∧ slot.2.1 = (auditChain blake3).tip genesisPrevHash hist ∧
    (hist.length = cut ∧ slot.2.2 = 0 ∨
      ∃ init tail, hist = init ++ [tail] ∧ cut ≤ init.length ∧
        slot.2.2.toNat = tail.monotonicNs.toNat + 1) := by
  have hlt := h.length_lt
  have hone : (1 : UInt64).toNat = 1 := rfl
  unfold AuditDb.nextSlot
  rcases h.tailEntry with ⟨hall, hnone⟩ | ⟨init, tail, rfl, hcut, hsome⟩
  · -- Everything is cut away: the newest checkpoint carries the chain on.
    rw [hnone, Fault.lift_ok, Except.ok_bind]
    dsimp only
    have htake : hist.take cut = hist := List.take_of_length_le (by omega)
    rcases h.latestCheckpointWithin with ⟨rfl, hnone⟩ | ⟨cp, hsome, hthrough, hhash⟩
    · obtain rfl := List.eq_nil_of_length_eq_zero hall
      rw [hnone]
      exact ⟨(firstSeq, genesisPrevHash, 0), rfl, rfl, rfl, .inl ⟨rfl, rfl⟩⟩
    · rw [htake] at hhash
      obtain ⟨hadd, hval⟩ := @checkedAdd_ok cp.truncatedThroughSeq 1 (by omega)
      refine ⟨(cp.truncatedThroughSeq + 1, cp.chainHash, 0), ?_, ?_, hhash, .inl ⟨hall, rfl⟩⟩
      · rw [hsome, Fault.lift_ok, Except.ok_bind]
        dsimp only
        rw [hadd, Except.ok_bind]
        rfl
      · show (cp.truncatedThroughSeq + 1).toNat = _
        omega
  · have hat : (init ++ [tail])[init.length]? = some tail := List.getElem?_concat_length
    have hseq := h.seq_eq hat
    have hfits := h.fits_at hat
    have hself : tail.isSelfConsistent blake3 = true := by
      have hstored := (auditChain blake3).stored_of_linked h.linked (List.mem_of_getElem? hat)
      exact decide_eq_true hstored.symm
    have hmono := hfits.2
    have hnum := hfits.1
    obtain ⟨hadd, hval⟩ := @checkedAdd_ok tail.seq 1 (by omega)
    obtain ⟨hadd', hval'⟩ := @checkedAdd_ok tail.monotonicNs 1 (by omega)
    refine ⟨(tail.seq + 1, tail.hash, tail.monotonicNs + 1), ?_, ?_, ?_,
      .inr ⟨init, tail, rfl, hcut, hval'⟩⟩
    · rw [hsome, Fault.lift_ok, Except.ok_bind]
      dsimp only
      rw [if_pos hself, hadd, Except.ok_bind, hadd', Except.ok_bind]
      rfl
    · show (tail.seq + 1).toNat = _
      rw [hval, List.length_append, List.length_singleton]
      omega
    · rw [(auditChain blake3).tip_snoc]
      rfl

/-- Every row is numbered up to the length of the history. -/
theorem seq_le_length {row : AuditRow} (hrow : row ∈ db.audit.rows) :
    row.seq.toInt ≤ hist.length := by
  rw [h.rows] at hrow
  obtain ⟨e, he, rfl⟩ := List.mem_map.mp hrow
  have he := List.mem_of_mem_drop he
  obtain ⟨i, hi⟩ := List.mem_iff_getElem?.mp he
  obtain ⟨hlt, -⟩ := List.getElem?_eq_some_iff.mp hi
  rw [AuditEntry.stored_seq (h.fits e he), h.seq_eq hi]
  omega

omit h in
/-- An entry that does not fit its columns is not stored. -/
theorem appendWithin_unfit {slot : UInt64 × Digest × UInt64} (hslot : db.nextSlot blake3 = .ok slot)
    {record : AuditRecord} {tsUtcMs : Int64} {monotonicNs : UInt64}
    (hunfit : ¬ (newEntry blake3 slot record tsUtcMs monotonicNs).Fits) :
    ∃ error, db.appendWithin blake3 record tsUtcMs monotonicNs = .error (.store error) := by
  unfold AuditDb.appendWithin
  rw [hslot, Except.ok_bind]
  dsimp only
  cases hrow : (newEntry blake3 slot record tsUtcMs monotonicNs).row with
  | error error => exact ⟨error, rfl⟩
  | ok row => exact absurd (AuditEntry.fits_of_row hrow) hunfit

/-- An entry that fits its columns extends the history. -/
theorem appendWithin_fits {slot : UInt64 × Digest × UInt64} (hslot : db.nextSlot blake3 = .ok slot)
    {record : AuditRecord} {tsUtcMs : Int64} {monotonicNs : UInt64}
    (hfits : (newEntry blake3 slot record tsUtcMs monotonicNs).Fits) :
    ∃ db', db.appendWithin blake3 record tsUtcMs monotonicNs =
        .ok (newEntry blake3 slot record tsUtcMs monotonicNs, db') ∧
      db'.Chained blake3 (hist ++ [newEntry blake3 slot record tsUtcMs monotonicNs]) cut ∧
      db'.audit.rows =
        db.audit.rows ++ [(newEntry blake3 slot record tsUtcMs monotonicNs).stored] ∧
      db'.checkpoints = db.checkpoints := by
  obtain ⟨slot', hslot', hseq, hprev, -⟩ := h.nextSlot
  obtain rfl := Except.ok.inj (hslot.symm.trans hslot')
  unfold AuditDb.appendWithin
  rw [hslot, Except.ok_bind]
  dsimp only
  generalize hentry : newEntry blake3 slot record tsUtcMs monotonicNs = e at hfits ⊢
  have hfields : e.seq = slot.1 ∧ e.prevHash = slot.2.1 ∧ e.hash = e.computeHash blake3 := by
    rw [← hentry]
    exact ⟨rfl, rfl, rfl⟩
  obtain ⟨hnumber, hlink, hhash⟩ := hfields
  have hgreatest : ∀ r ∈ db.audit.rows, r.seq.toInt < e.stored.seq.toInt := by
    intro r hr
    have hle := h.seq_le_length hr
    rw [AuditEntry.stored_seq hfits, hnumber, hseq]
    omega
  obtain ⟨audit, hinsert, hrows⟩ := Table.insert_last hgreatest
  refine ⟨{ db with audit }, ?_, ?_, hrows, rfl⟩
  · rw [AuditEntry.row_eq hfits, Fault.lift_ok, Except.ok_bind, hinsert]
    rfl
  · have hcut := h.cut_le
    refine ⟨(auditChain blake3).linked_snoc.mpr ⟨h.linked, ?_, hhash, hlink.trans hprev⟩,
      ?_, ?_, ?_, ?_⟩
    · show e.seq.toNat = 1 + hist.length
      rw [hnumber]
      omega
    · intro f hf
      rcases List.mem_append.mp hf with hf | hf
      · exact h.fits f hf
      · obtain rfl := List.mem_singleton.mp hf
        exact hfits
    · rw [List.length_append]
      omega
    · show audit.rows = _
      rw [hrows, h.rows, List.drop_append_of_le_length hcut, List.map_append,
        List.map_singleton]
    · rw [List.take_append_of_le_length hcut]
      exact h.splice

/-- **Appending extends the history by the new entry**, or fails with an error of
the store. -/
theorem appendWithin (record : AuditRecord) (tsUtcMs : Int64) (monotonicNs : UInt64) :
    (∃ error, db.appendWithin blake3 record tsUtcMs monotonicNs = .error (.store error)) ∨
      ∃ e db', db.appendWithin blake3 record tsUtcMs monotonicNs = .ok (e, db') ∧
        db'.Chained blake3 (hist ++ [e]) cut ∧
        db'.audit.rows = db.audit.rows ++ [e.stored] ∧ db'.checkpoints = db.checkpoints := by
  obtain ⟨slot, hslot, -⟩ := h.nextSlot
  by_cases hfits : (newEntry blake3 slot record tsUtcMs monotonicNs).Fits
  · exact .inr ⟨_, h.appendWithin_fits hslot hfits⟩
  · exact .inl (appendWithin_unfit hslot hfits)

/-! ### Rotating -/

theorem countWithin : ∃ total : UInt64, total.toNat = (hist.drop cut).length ∧
    db.countWithin = .ok total := by
  have hlt := h.length_lt
  have hlen : (hist.drop cut).length = hist.length - cut := List.length_drop
  have hword : (UInt64.ofNat (hist.drop cut).length).toNat = (hist.drop cut).length := by
    rw [UInt64.toNat_ofNat']
    omega
  refine ⟨UInt64.ofNat (hist.drop cut).length, hword, ?_⟩
  unfold AuditDb.countWithin
  rw [h.rows, List.length_map]
  have hread := @u64FromI64_ofNat auditTable "count" (UInt64.ofNat (hist.drop cut).length) (by omega)
  rwa [hword] at hread

/-- The first row is the first entry after the cut. -/
theorem firstSeqWithin (hcut : cut < hist.length) : ∃ first : UInt64, first.toNat = cut + 1 ∧
    db.firstSeqWithin = .ok (some first) := by
  obtain ⟨e, he⟩ : ∃ e, hist[cut]? = some e := ⟨_, List.getElem?_eq_getElem hcut⟩
  refine ⟨e.seq, h.seq_eq he, ?_⟩
  unfold AuditDb.firstSeqWithin Table.first
  rw [h.rows, List.head?_map, List.head?_drop, he]
  show nullable _ (some e.stored) = _
  dsimp only [nullable, AuditEntry.stored]
  rw [u64FromI64_ofNat (h.fits_at he).1]
  rfl

/-- Every entry after the cut is found under its number. -/
theorem get (hi : hist[i]? = some e) (hcut : cut ≤ i) : db.get e.seq = .ok (some e) := by
  have hfits := h.fits_at hi
  have hmem : e.stored ∈ db.audit.rows := by
    rw [h.rows]
    refine List.mem_map_of_mem ?_
    refine List.mem_of_getElem? (i := i - cut) ?_
    rw [List.getElem?_drop, Nat.add_sub_cancel' hcut]
    exact hi
  have hfind : db.audit.find e.stored.seq.toInt = some e.stored := Table.find_of_mem hmem
  unfold AuditDb.get
  rw [i64FromU64_ok hfits.1, Except.ok_bind]
  show nullable _ (db.audit.find e.stored.seq.toInt) = _
  rw [hfind]
  dsimp only [nullable]
  rw [AuditEntry.entry_stored hfits]
  rfl

/-- **Truncating moves the cut**, if the signer signs. -/
theorem truncate (hi : hist[i]? = some e) (hcut : cut ≤ i) {removed : UInt64}
    (hremoved : removed.toNat = i + 1 - cut) (signer : CheckpointSigner) (tsUtcMs : Int64) :
    (∃ reason, db.truncate e e.seq removed signer tsUtcMs =
        .error (.store (.checkpointSigning reason))) ∨
      ∃ cp db', db.truncate e e.seq removed signer tsUtcMs = .ok (some cp, db') ∧
        db'.Chained blake3 hist (i + 1) ∧ cp.truncatedThroughSeq = e.seq ∧
        cp.entriesRemoved = removed := by
  have hfits := h.fits_at hi
  have hseq := h.seq_eq hi
  have hnum := hfits.1
  obtain ⟨hlt, -⟩ := List.getElem?_eq_some_iff.mp hi
  unfold AuditDb.truncate
  dsimp only
  cases hsign : signer.sign
      (Checkpoint.signingBytes e.seq e.hash removed tsUtcMs signer.publicKey) with
  | error reason => exact .inl ⟨reason, rfl⟩
  | ok signature =>
      dsimp only
      generalize hcp : Checkpoint.mk e.seq e.hash removed tsUtcMs signer.publicKey signature = cp
      have hfields : cp.truncatedThroughSeq = e.seq ∧ cp.chainHash = e.hash ∧
          cp.entriesRemoved = removed := by
        rw [← hcp]
        exact ⟨rfl, rfl, rfl⟩
      obtain ⟨hthrough, hhash, hcount⟩ := hfields
      have hcpfits : cp.Fits := by
        refine ⟨?_, ?_⟩
        · rw [hthrough]
          exact hnum
        · rw [hcount]
          omega
      -- The cut only ever moves forward, so its number is new.
      have hgreatest : ∀ r ∈ db.checkpoints.rows,
          r.truncatedThroughSeq.toInt < cp.stored.truncatedThroughSeq.toInt := by
        intro r hr
        rw [Checkpoint.stored_through hcpfits, hthrough, hseq]
        rcases h.splice with ⟨-, hnone⟩ | ⟨last, hlastfits, hlast, hlastcut, -⟩
        · rw [hnone] at hr
          cases hr
        · have hle := Table.key_le_last hlast hr
          rw [Checkpoint.stored_through hlastfits, hlastcut] at hle
          omega
      obtain ⟨checkpoints, hinsert, hrows⟩ := Table.insert_last hgreatest
      refine .inr ⟨cp, ⟨db.audit.deleteThrough (Int64.ofNat e.seq.toNat).toInt, checkpoints⟩, ?_,
        ⟨h.linked, h.fits, hlt, ?_, .inr ⟨cp, hcpfits, ?_, ?_, ?_⟩⟩, hthrough, hcount⟩
      · rw [Checkpoint.row_eq hcpfits, Fault.lift_ok, Except.ok_bind, hinsert]
        dsimp only
        rw [i64FromU64_ok hnum]
        rfl
      · have hrows : db.audit.rows = ((hist.drop cut).take (i + 1 - cut)).map AuditEntry.stored ++
            (hist.drop (i + 1)).map AuditEntry.stored := by
          rw [h.rows, ← List.map_append, ← drop_split (by omega)]
        rw [Int64.toInt_ofNat_of_lt hnum, hseq]
        refine Table.delete_through hrows ?_ ?_
        · intro r hr
          obtain ⟨f, hf, rfl⟩ := List.mem_map.mp hr
          obtain ⟨j, hj⟩ := List.mem_iff_getElem?.mp hf
          rw [List.getElem?_take] at hj
          split_ifs at hj with hjlt
          rw [List.getElem?_drop] at hj
          rw [AuditEntry.stored_seq (h.fits_at hj), h.seq_eq hj]
          omega
        · intro r hr
          obtain ⟨f, hf, rfl⟩ := List.mem_map.mp hr
          obtain ⟨j, hj⟩ := List.mem_iff_getElem?.mp hf
          rw [List.getElem?_drop] at hj
          rw [AuditEntry.stored_seq (h.fits_at hj), h.seq_eq hj]
          omega
      · unfold Table.last
        rw [hrows, List.getLast?_concat]
      · rw [hthrough, hseq]
      · rw [hhash]
        exact ((auditChain blake3).tip_take hi).symm

/-- **Rotating moves the cut to what the cap leaves**, unless the log is within
the cap or the signer refuses. -/
theorem rotateAt (maxEntries : UInt64) (signer : CheckpointSigner) (tsUtcMs : Int64) :
    ((hist.drop cut).length ≤ maxEntries.toNat ∧
        db.rotateAt blake3 maxEntries signer tsUtcMs = .ok (none, db)) ∨
      (maxEntries.toNat < (hist.drop cut).length ∧
        ((∃ reason, db.rotateAt blake3 maxEntries signer tsUtcMs =
            .error (.store (.checkpointSigning reason))) ∨
          ∃ cp db', db.rotateAt blake3 maxEntries signer tsUtcMs = .ok (some cp, db') ∧
            db'.Chained blake3 hist (hist.length - maxEntries.toNat) ∧
            cp.truncatedThroughSeq.toNat = hist.length - maxEntries.toNat ∧
            cp.entriesRemoved.toNat = hist.length - maxEntries.toNat - cut)) := by
  obtain ⟨n, -, hverify⟩ := h.verifyWithin
  obtain ⟨total, htotal, hcount⟩ := h.countWithin
  have hlen : (hist.drop cut).length = hist.length - cut := List.length_drop
  unfold AuditDb.rotateAt
  rw [hverify, Except.ok_bind]
  dsimp only [ChainStatus.brokenAt]
  rw [hcount, Fault.lift_ok, Except.ok_bind]
  by_cases hcap : total ≤ maxEntries
  · refine .inl ⟨?_, ?_⟩
    · rw [← htotal]
      exact UInt64.le_iff_toNat_le.mp hcap
    · rw [if_pos hcap]
      rfl
  · have hover : maxEntries.toNat < (hist.drop cut).length := by
      rw [← htotal]
      exact Nat.lt_of_not_le fun hle => hcap (UInt64.le_iff_toNat_le.mpr hle)
    refine .inr ⟨hover, ?_⟩
    obtain ⟨tail, htail, htailSeq⟩ := h.tailEntry_of_cut_lt (by omega)
    obtain ⟨first, hfirst, hfirstRow⟩ := h.firstSeqWithin (by omega)
    -- The entry at the cut, which the checkpoint carries on from.
    obtain ⟨i, hi⟩ : ∃ i, i + 1 = hist.length - maxEntries.toNat :=
      ⟨hist.length - maxEntries.toNat - 1, by omega⟩
    obtain ⟨splice, hsplice⟩ : ∃ e, hist[i]? = some e := ⟨_, List.getElem?_eq_getElem (by omega)⟩
    have hseq := h.seq_eq hsplice
    have hnum := (h.fits_at hsplice).1
    have hthrough : saturatingSub tail.seq maxEntries = splice.seq := by
      unfold saturatingSub
      rw [if_pos (by omega)]
      apply UInt64.toNat_inj.mp
      rw [UInt64.toNat_sub_of_le _ _ (UInt64.le_iff_toNat_le.mpr (by omega))]
      omega
    have hsub : checkedSub splice.seq first = .ok (splice.seq - first) := if_pos (by omega)
    have hdiff : (splice.seq - first).toNat = splice.seq.toNat - first.toNat :=
      UInt64.toNat_sub_of_le _ _ (UInt64.le_iff_toNat_le.mpr (by omega))
    have hone : (1 : UInt64).toNat = 1 := rfl
    obtain ⟨hadd, hval⟩ := @checkedAdd_ok (splice.seq - first) 1 (by omega)
    rw [if_neg hcap, htail, Fault.lift_ok, Except.ok_bind]
    dsimp only
    rw [hfirstRow, Fault.lift_ok, Except.ok_bind]
    dsimp only
    rw [hthrough, h.get hsplice (by omega), Fault.lift_ok, Except.ok_bind]
    dsimp only
    rw [hsub, Except.ok_bind, hadd, Except.ok_bind]
    have hremoved : (splice.seq - first + 1).toNat = i + 1 - cut := by omega
    rcases h.truncate hsplice (by omega) hremoved signer tsUtcMs with ⟨reason, hrefused⟩ |
      ⟨cp, db', hdone, hchained, hcut, hcount⟩
    · exact .inl ⟨reason, hrefused⟩
    · rw [hi] at hchained
      refine .inr ⟨cp, db', hdone, hchained, ?_, ?_⟩
      · rw [hcut]
        omega
      · rw [hcount]
        omega

end Chained

end AuditDb

end Store
