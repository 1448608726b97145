import GoNomad.Store.AuditRun

/-!
# Tampering with the audit table

What an attacker who rewrites the rows of the audit table, but not the
checkpoints, cannot hide from a verifier who knows the head hash.  The hash is
taken to be free of collisions between what was hashed and what is hashed now.

* `verify_from` — the walk gets to the first row that was touched;
* `Log.tamper_evident` — an intact table with the anchored head is the original
  one, and the usual attacks are found where they were made.
-/

namespace Store

open Proto

variable (blake3 : List UInt8 → Digest)

/-- No entry of the one table collides with an entry of the other. -/
def NoCollision (rows rows' : List AuditRow) : Prop :=
  ∀ row ∈ rows, ∀ row' ∈ rows', ∀ e e', row.entry = .ok e → row'.entry = .ok e' →
    blake3 e.canonicalBytes = blake3 e'.canonicalBytes → e.canonicalBytes = e'.canonicalBytes

/-- The log with another audit table and the same checkpoints. -/
def AuditDb.withRows (db : AuditDb) (audit : Table AuditRow fun row => row.seq.toInt) : AuditDb :=
  { db with audit }

variable {blake3}
variable {rows rows' : List AuditRow} {es : List AuditEntry}

theorem decodes_append {pre post : List AuditRow} (h : Decodes (pre ++ post) es) :
    ∃ es₁ es₂, es = es₁ ++ es₂ ∧ Decodes pre es₁ ∧ Decodes post es₂ := by
  induction pre generalizing es with
  | nil => exact ⟨[], es, rfl, .nil, h⟩
  | cons row pre ih =>
      cases h with
      | cons hrow hrest =>
          obtain ⟨es₁, es₂, rfl, hpre, hpost⟩ := ih hrest
          exact ⟨_ :: es₁, es₂, rfl, .cons hrow hpre, hpost⟩

/-- Every entry of a decoded table is the entry of a row. -/
theorem row_of_decodes {e : AuditEntry} (h : Decodes rows es) (he : e ∈ es) :
    ∃ row ∈ rows, row.entry = .ok e := by
  induction h with
  | nil => cases he
  | cons hrow _ ih =>
      rcases List.mem_cons.mp he with rfl | he
      · exact ⟨_, .head _, hrow⟩
      · obtain ⟨row, hmem, hentry⟩ := ih he
        exact ⟨row, .tail _ hmem, hentry⟩

/-- Every row of a decoded table decodes to one of the entries. -/
theorem mem_of_decodes {row : AuditRow} {e : AuditEntry} (h : Decodes rows es) (hrow : row ∈ rows)
    (he : row.entry = .ok e) : e ∈ es := by
  induction h with
  | nil => cases hrow
  | cons hfirst _ ih =>
      rcases List.mem_cons.mp hrow with rfl | hrow
      · rw [hfirst] at he
        cases he
        exact .head _
      · exact .tail _ (ih hrow)

theorem noCollision_of_decodes {es' : List AuditEntry} (h : Decodes rows es)
    (h' : Decodes rows' es')
    (hno : ∀ e ∈ es, ∀ e' ∈ es', e.computeHash blake3 = e'.computeHash blake3 →
      e.canonicalBytes = e'.canonicalBytes) : NoCollision blake3 rows rows' := by
  intro row hrow row' hrow' e e' he he' hhash
  exact hno e (mem_of_decodes h hrow he) e' (mem_of_decodes h' hrow' he') hhash

theorem map_entry_of_decodes (h : Decodes rows es) : rows.map AuditRow.entry = es.map .ok := by
  induction h with
  | nil => rfl
  | cons hrow _ ih => rw [List.map_cons, List.map_cons, hrow, ih]

/-- Entries of the two tables with different hashed fields have different hashes. -/
theorem NoCollision.hash_ne (h : NoCollision blake3 rows rows') {row row' : AuditRow}
    (hrow : row ∈ rows) (hrow' : row' ∈ rows') {e e' : AuditEntry} (he : row.entry = .ok e)
    (he' : row'.entry = .ok e') (hne : e.content ≠ e'.content) :
    e.computeHash blake3 ≠ e'.computeHash blake3 := by
  intro hhash
  exact hne (AuditEntry.eq_of_canonicalBytes (h row hrow row' hrow' e e' he he' hhash))

theorem content_ne_of_seq {e e' : AuditEntry} (h : e.seq ≠ e'.seq) : e.content ≠ e'.content := by
  intro hcontent
  have hseq : e.content.seq = e'.content.seq := by rw [hcontent]
  exact h hseq

/-- A row with the number of another row decodes to the entry with that number. -/
theorem entry_renumbered {row₁ row₂ : AuditRow} {e₁ e₂ : AuditEntry} (h₁ : row₁.entry = .ok e₁)
    (h₂ : row₂.entry = .ok e₂) :
    ({ row₂ with seq := row₁.seq } : AuditRow).entry = .ok { e₂ with seq := e₁.seq } := by
  obtain ⟨dev, res, -, -, -, -, hseq, -⟩ := AuditEntry.columns_of_entry h₁
  exact AuditEntry.entry_with_seq h₂ hseq

namespace AuditDb

/-- The rows decode to a chain that starts where it is expected to. -/
structure Intact (blake3 : List UInt8 → Digest) (db : AuditDb) (start : UInt64) (prev : Digest)
    (es : List AuditEntry) : Prop where
  startWithin : db.startWithin = .ok (start, prev)
  decodes : Decodes db.audit.rows es
  linked : (auditChain blake3).Linked start.toNat prev es

variable {db : AuditDb} {audit : Table AuditRow fun row => row.seq.toInt} {start : UInt64}
  {prev : Digest} {pre mid post rest : List AuditRow} {row row' next : AuditRow} {e e' : AuditEntry}

theorem verifyWithAnchor_broken {seq : UInt64} {cause : ChainBreak} (anchor : Digest)
    (h : db.verifyWithin blake3 = .ok (.broken seq cause)) :
    db.verifyWithAnchor blake3 anchor = .ok (.broken seq cause) := by
  unfold verifyWithAnchor
  rw [h]
  rfl

namespace Intact

variable (h : db.Intact blake3 start prev es)
include h

/-- The entry of a row, between what is before it and what is after it. -/
theorem split (hrows : db.audit.rows = pre ++ row :: post) (he : row.entry = .ok e) :
    ∃ es₁ es₂, es = es₁ ++ e :: es₂ ∧ Decodes pre es₁ ∧ Decodes post es₂ ∧
      (auditChain blake3).Linked start.toNat prev es₁ ∧ e.seq.toNat = start.toNat + es₁.length ∧
      e.hash = e.computeHash blake3 ∧ e.prevHash = (auditChain blake3).tip prev es₁ ∧
      (auditChain blake3).Linked (e.seq.toNat + 1) e.hash es₂ := by
  have hdec := h.decodes
  rw [hrows] at hdec
  obtain ⟨es₁, es', rfl, hpre, hdec⟩ := decodes_append hdec
  cases hdec with
  | cons hrow hpost =>
      rw [he] at hrow
      cases hrow
      obtain ⟨hlinked, hseq, hhash, hprev, hrest⟩ := (auditChain blake3).linked_append.mp h.linked
      have hseq : e.seq.toNat = start.toNat + es₁.length := hseq
      refine ⟨es₁, _, rfl, hpre, hpost, hlinked, hseq, hhash, hprev, ?_⟩
      rw [hseq]
      exact hrest

/-- **The walk gets to the first row that was touched.** -/
theorem verify_from (hrows : db.audit.rows = pre ++ row :: post) (he : row.entry = .ok e)
    (haudit : audit.rows = pre ++ rest) :
    ∃ n head, n.toNat ≤ e.seq.toNat ∧
      (db.withRows audit).verifyWithin blake3 = walk blake3 e.seq e.prevHash n head rest := by
  obtain ⟨es₁, es₂, -, hpre, -, hlinked, hseq, -, hprev, -⟩ := h.split hrows he
  obtain ⟨nextSeq, n, hwalk, hnext, hn⟩ :=
    @walk_append blake3 start prev 0 none pre es₁ hpre hlinked (Nat.zero_le _) rest
  have hzero : (0 : UInt64).toNat = 0 := rfl
  have hnextSeq : nextSeq = e.seq := UInt64.toNat_inj.mp (by omega)
  refine ⟨n, headAfter none es₁, by omega, ?_⟩
  have hstart : (db.withRows audit).startWithin = .ok (start, prev) := h.startWithin
  have hrows' : (db.withRows audit).audit.rows = pre ++ rest := haudit
  unfold AuditDb.verifyWithin
  rw [hstart, Except.ok_bind, hrows', hwalk, hnextSeq, ← hprev]

/-- Every row decodes to an entry that stores its own hash. -/
theorem entry_of_row (hrow : row ∈ db.audit.rows) :
    ∃ e, row.entry = .ok e ∧ e.hash = e.computeHash blake3 := by
  obtain ⟨pre, post, hrows⟩ := List.append_of_mem hrow
  have hdec := h.decodes
  rw [hrows] at hdec
  obtain ⟨es₁, es', -, -, hdec⟩ := decodes_append hdec
  cases hdec with
  | cons he _ =>
      obtain ⟨_, _, _, _, _, _, _, hhash, _⟩ := h.split hrows he
      exact ⟨_, he, hhash⟩

/-- The entry after a row has the next number and carries the hash of the row. -/
theorem next_of (hrows : db.audit.rows = pre ++ row :: next :: post) (he : row.entry = .ok e) :
    ∃ f, next.entry = .ok f ∧ f.seq.toNat = e.seq.toNat + 1 ∧ f.computeHash blake3 = f.hash ∧
      f.prevHash = e.hash := by
  obtain ⟨es₁, es₂, -, -, hpost, -, -, -, -, hrest⟩ := h.split hrows he
  cases hpost with
  | cons hnext _ =>
      obtain ⟨hseq, hhash, hprev, -⟩ := hrest
      exact ⟨_, hnext, hseq, hhash.symm, hprev⟩

/-- A row that stores a hash that is not its own is found. -/
theorem tampered_at (hrows : db.audit.rows = pre ++ row :: post) (he : row.entry = .ok e)
    (haudit : audit.rows = pre ++ row' :: rest) (he' : row'.entry = .ok e') (hseq : e'.seq = e.seq)
    (hne : e'.computeHash blake3 ≠ e'.hash) :
    (db.withRows audit).verifyWithin blake3 =
      .ok (.broken e.seq (.contentTampered (e'.computeHash blake3) e'.hash)) := by
  obtain ⟨n, head, -, hverify⟩ := h.verify_from hrows he haudit
  rw [hverify, walk_row he', if_neg (not_not_intro hseq), if_pos hne, hseq]

/-- **An edited row is found.** -/
theorem edited (hrows : db.audit.rows = pre ++ row :: post) (he : row.entry = .ok e)
    (haudit : audit.rows = pre ++ row' :: post) (he' : row'.entry = .ok e') (hseq : e'.seq = e.seq)
    (hhash : e'.hash = e.hash) (hne : e.content ≠ e'.content)
    (hno : NoCollision blake3 db.audit.rows audit.rows) :
    (db.withRows audit).verifyWithin blake3 =
      .ok (.broken e.seq (.contentTampered (e'.computeHash blake3) e.hash)) := by
  obtain ⟨es₁, es₂, -, -, -, -, -, hself, -⟩ := h.split hrows he
  have hmem : row ∈ db.audit.rows := by
    rw [hrows]
    simp
  have hmem' : row' ∈ audit.rows := by
    rw [haudit]
    simp
  have hdiff := hno.hash_ne hmem hmem' he he' hne
  rw [← hhash]
  refine h.tampered_at hrows he haudit he' hseq fun hsame => hdiff ?_
  rw [hsame, hhash, hself]

/-- **A deleted row is found**, unless it was the last. -/
theorem deleted (hrows : db.audit.rows = pre ++ row :: next :: post) (he : row.entry = .ok e)
    (haudit : audit.rows = pre ++ next :: post) :
    (db.withRows audit).verifyWithin blake3 = .ok (.broken e.seq (.missingEntry (e.seq + 1))) := by
  obtain ⟨f, hf, hseq, -⟩ := h.next_of hrows he
  obtain ⟨n, head, -, hverify⟩ := h.verify_from hrows he haudit
  obtain ⟨⟨hlt, -⟩, -⟩ := AuditEntry.fits_of_entry he
  have hone : (1 : UInt64).toNat = 1 := rfl
  have hnext : f.seq = e.seq + 1 := by
    apply UInt64.toNat_inj.mp
    rw [UInt64.toNat_add]
    omega
  have hne : f.seq ≠ e.seq := by
    intro hsame
    rw [hsame] at hseq
    omega
  rw [hverify, walk_row hf, if_pos hne, hnext]

/-- **A row whose hash was recomputed is found** at the row after it. -/
theorem rehashed (hrows : db.audit.rows = pre ++ row :: next :: post) (he : row.entry = .ok e)
    (haudit : audit.rows = pre ++ row' :: next :: post) (he' : row'.entry = .ok e')
    (hseq : e'.seq = e.seq) (hprev : e'.prevHash = e.prevHash)
    (hhash : e'.hash = e'.computeHash blake3) (hne : e.content ≠ e'.content)
    (hno : NoCollision blake3 db.audit.rows audit.rows) :
    (db.withRows audit).verifyWithin blake3 =
      .ok (.broken (e.seq + 1) (.brokenLink e'.hash e.hash)) := by
  obtain ⟨es₁, es₂, -, -, -, -, -, hself, -⟩ := h.split hrows he
  obtain ⟨f, hf, hfseq, hfself, hfprev⟩ := h.next_of hrows he
  obtain ⟨n, head, hn, hverify⟩ := h.verify_from hrows he haudit
  obtain ⟨nextSeq, n', hwalk, hnext, -⟩ := @walk_cons blake3 e.seq e.prevHash n head row'
    (next :: post) e' he' hseq hhash.symm hprev hn
  have hmem : row ∈ db.audit.rows := by
    rw [hrows]
    simp
  have hmem' : row' ∈ audit.rows := by
    rw [haudit]
    simp
  have hdiff := hno.hash_ne hmem hmem' he he' hne
  obtain ⟨⟨hlt, -⟩, -⟩ := AuditEntry.fits_of_entry he
  have hone : (1 : UInt64).toNat = 1 := rfl
  have hfnext : f.seq = nextSeq := UInt64.toNat_inj.mp (by omega)
  have hesucc : f.seq = e.seq + 1 := by
    apply UInt64.toNat_inj.mp
    rw [UInt64.toNat_add]
    omega
  have hbroken : f.prevHash ≠ e'.hash := by
    rw [hfprev, hself, hhash]
    exact hdiff
  rw [hverify, hwalk, walk_row hf, if_neg (not_not_intro hfnext), if_neg (not_not_intro hfself),
    if_pos hbroken, hesucc, hfprev]

/-- **Two swapped rows are found** at the first of them. -/
theorem swapped {row₁ row₂ : AuditRow} {e₁ e₂ : AuditEntry}
    (hrows : db.audit.rows = pre ++ row₁ :: (mid ++ row₂ :: post)) (he₁ : row₁.entry = .ok e₁)
    (he₂ : row₂.entry = .ok e₂)
    (haudit : audit.rows =
      pre ++ { row₂ with seq := row₁.seq } :: (mid ++ { row₁ with seq := row₂.seq } :: post))
    (hno : NoCollision blake3 db.audit.rows audit.rows) :
    ∃ expected, (db.withRows audit).verifyWithin blake3 =
      .ok (.broken e₁.seq (.contentTampered expected e₂.hash)) := by
  have he' := entry_renumbered he₁ he₂
  have hmem : row₂ ∈ db.audit.rows := by
    rw [hrows]
    simp
  have hmem' : ({ row₂ with seq := row₁.seq } : AuditRow) ∈ audit.rows := by
    rw [haudit]
    simp
  obtain ⟨e₂', he₂', hself⟩ := h.entry_of_row hmem
  rw [he₂] at he₂'
  cases he₂'
  -- The rows are in the order of their numbers, so the two numbers differ.
  have hlt : row₁.seq.toInt < row₂.seq.toInt := by
    have hsorted := db.audit.sorted
    rw [hrows] at hsorted
    obtain ⟨-, hsorted, -⟩ := List.pairwise_append.mp hsorted
    exact (List.pairwise_cons.mp hsorted).1 row₂ (by simp)
  have hseq : e₂.seq ≠ e₁.seq := by
    intro hsame
    have h₁ := (AuditEntry.fits_of_entry he₁).2
    have h₂ := (AuditEntry.fits_of_entry he₂).2
    rw [hsame] at h₂
    omega
  have hdiff := hno.hash_ne hmem hmem' he₂ he' (content_ne_of_seq hseq)
  have hne : ({ e₂ with seq := e₁.seq } : AuditEntry).computeHash blake3 ≠ e₂.hash := by
    rw [hself]
    exact hdiff.symm
  have hfound := h.tampered_at hrows he₁ haudit he' rfl hne
  exact ⟨_, hfound⟩

/-- The last entry is where the chain ends. -/
theorem tip_eq (hrows : db.audit.rows = pre ++ [row]) (he : row.entry = .ok e) :
    (auditChain blake3).tip prev es = e.hash ∧ es ≠ [] := by
  obtain ⟨es₁, es₂, rfl, -, hpost, -⟩ := h.split hrows he
  cases hpost
  exact ⟨(auditChain blake3).tip_snoc prev es₁ e, by simp⟩

/-- **A removed suffix is found**, if a row is left. -/
theorem truncated {anchor : Digest} {last : AuditRow} {tail : AuditEntry}
    (hrows : db.audit.rows = pre ++ row :: (mid ++ [last])) (he : row.entry = .ok e)
    (htail : last.entry = .ok tail) (hanchor : tail.hash = anchor)
    (haudit : audit.rows = pre ++ [row]) (hno : NoCollision blake3 db.audit.rows audit.rows) :
    (db.withRows audit).verifyWithAnchor blake3 anchor =
      .ok (.broken (e.seq + 1) (.truncatedHead anchor (some e.hash))) := by
  obtain ⟨es₁, es₂, -, -, -, -, -, hself, -⟩ := h.split hrows he
  have hmem : last ∈ db.audit.rows := by
    rw [hrows]
    simp
  have hmem' : row ∈ audit.rows := by
    rw [haudit]
    simp
  obtain ⟨tail', htail', htailSelf⟩ := h.entry_of_row hmem
  rw [htail] at htail'
  cases htail'
  have hlt : row.seq.toInt < last.seq.toInt := by
    have hsorted := db.audit.sorted
    rw [hrows] at hsorted
    obtain ⟨-, hsorted, -⟩ := List.pairwise_append.mp hsorted
    exact (List.pairwise_cons.mp hsorted).1 last (by simp)
  have hseq : tail.seq ≠ e.seq := by
    intro hsame
    have h₁ := (AuditEntry.fits_of_entry he).2
    have h₂ := (AuditEntry.fits_of_entry htail).2
    rw [hsame] at h₂
    omega
  have hdiff := hno.hash_ne hmem hmem' htail he (content_ne_of_seq hseq)
  have hne : some e.hash ≠ some anchor := by
    rw [← hanchor, hself, htailSelf]
    exact fun hsome => hdiff (Option.some.inj hsome).symm
  obtain ⟨n, head, hn, hverify⟩ := h.verify_from hrows he haudit
  obtain ⟨nextSeq, n', hwalk, -⟩ :=
    @walk_cons blake3 e.seq e.prevHash n head row [] e he rfl hself.symm rfl hn
  obtain ⟨⟨hfits, -⟩, -⟩ := AuditEntry.fits_of_entry he
  have hone : (1 : UInt64).toNat = 1 := rfl
  obtain ⟨hadd, -⟩ := @checkedAdd_ok e.seq 1 (by omega)
  unfold verifyWithAnchor
  rw [hverify, hwalk]
  show (if some e.hash = some anchor then _ else _) = _
  rw [if_neg hne]
  show (checkedAdd e.seq 1 >>= _) = _
  rw [hadd]
  rfl

/-- **An intact table with the anchored head is the original one.** -/
theorem eq_of_intact {anchor : Digest} {entries : UInt64} {headSeq : Option UInt64}
    {headHash : Option Digest} (hne : es ≠ [])
    (hanchor : (auditChain blake3).tip prev es = anchor)
    (hno : NoCollision blake3 db.audit.rows audit.rows)
    (hverify : (db.withRows audit).verifyWithAnchor blake3 anchor =
      .ok (.intact entries headSeq headHash)) :
    Decodes audit.rows es := by
  have hstart : (db.withRows audit).startWithin = .ok (start, prev) := h.startWithin
  unfold verifyWithAnchor at hverify
  obtain ⟨status, hstatus, hverify⟩ := Except.bind_eq_ok.mp hverify
  cases status with
  | broken seq cause => cases hverify
  | intact entries' headSeq' headHash' =>
      dsimp only at hverify
      split_ifs at hverify with hhead
      · subst hhead
        obtain ⟨fs, hdec, hlinked, hlast⟩ := linked_of_verifyWithin hstart hstatus
        have hfs : fs ≠ [] := by
          rintro rfl
          cases hlast
        have htip : (auditChain blake3).tip prev fs = anchor := by
          obtain ⟨init, f, rfl⟩ : ∃ init f, fs = init ++ [f] :=
            ⟨fs.dropLast, fs.getLast hfs, (List.dropLast_concat_getLast hfs).symm⟩
          rw [headAfter_snoc] at hlast
          rw [(auditChain blake3).tip_snoc]
          exact (Option.some.inj hlast).symm
        have hcollision : (auditChain blake3).NoCollision es fs := by
          intro e he f hf hhash
          obtain ⟨row, hrow, hentry⟩ := row_of_decodes h.decodes he
          obtain ⟨row', hrow', hentry'⟩ := row_of_decodes hdec hf
          exact AuditEntry.eq_of_canonicalBytes (hno row hrow row' hrow' e f hentry hentry' hhash)
        rw [(auditChain blake3).eq_of_tip h.linked hlinked hcollision (by rw [hanchor, htip]) hne hfs]
        exact hdec
      · cases headSeq' with
        | none => cases hverify
        | some seq =>
            obtain ⟨_, -, hverify⟩ := Except.bind_eq_ok.mp hverify
            cases hverify

end Intact

/-- A log that is what is left of its history is intact. -/
theorem Chained.intact {hist : List AuditEntry} {cut : Nat} (h : db.Chained blake3 hist cut) :
    ∃ start, db.Intact blake3 start
      ((auditChain blake3).tip genesisPrevHash (hist.take cut)) (hist.drop cut) := by
  obtain ⟨start, hval, hstart⟩ := h.startWithin
  refine ⟨start, hstart, h.decodes, ?_⟩
  rw [hval]
  exact h.linked_rest

/-! ### The attacks -/

/-- What a verifier who knows the head hash of a log finds in another audit table
with the same checkpoints. -/
structure TamperEvident (blake3 : List UInt8 → Digest) (db : AuditDb) (anchor : Digest) : Prop where
  /-- An intact table holds the original entries. -/
  intact : ∀ audit entries headSeq headHash, NoCollision blake3 db.audit.rows audit.rows →
    (db.withRows audit).verifyWithAnchor blake3 anchor = .ok (.intact entries headSeq headHash) →
    audit.rows.map AuditRow.entry = db.audit.rows.map AuditRow.entry
  /-- A changed field of entry `n` is found at `n`. -/
  edited : ∀ audit pre row row' post e e', NoCollision blake3 db.audit.rows audit.rows →
    db.audit.rows = pre ++ row :: post → audit.rows = pre ++ row' :: post →
    row.entry = .ok e → row'.entry = .ok e' → e'.seq = e.seq → e'.hash = e.hash →
    e.content ≠ e'.content →
    (db.withRows audit).verifyWithAnchor blake3 anchor =
      .ok (.broken e.seq (.contentTampered (e'.computeHash blake3) e.hash))
  /-- Deleting entry `n`, not the last, is found at `n`. -/
  deleted : ∀ audit pre row post e, db.audit.rows = pre ++ row :: post → post ≠ [] →
    audit.rows = pre ++ post → row.entry = .ok e →
    (db.withRows audit).verifyWithAnchor blake3 anchor =
      .ok (.broken e.seq (.missingEntry (e.seq + 1)))
  /-- A changed entry `n`, not the last, whose hash was recomputed is found at `n + 1`. -/
  rehashed : ∀ audit pre row row' post e e', NoCollision blake3 db.audit.rows audit.rows →
    db.audit.rows = pre ++ row :: post → post ≠ [] → audit.rows = pre ++ row' :: post →
    row.entry = .ok e → row'.entry = .ok e' → e'.seq = e.seq → e'.prevHash = e.prevHash →
    e'.hash = e'.computeHash blake3 → e.content ≠ e'.content →
    (db.withRows audit).verifyWithAnchor blake3 anchor =
      .ok (.broken (e.seq + 1) (.brokenLink e'.hash e.hash))
  /-- Swapping all columns but the number of two entries is found at the first. -/
  swapped : ∀ audit pre row₁ mid row₂ post e₁ e₂, NoCollision blake3 db.audit.rows audit.rows →
    db.audit.rows = pre ++ row₁ :: (mid ++ row₂ :: post) →
    audit.rows =
      pre ++ { row₂ with seq := row₁.seq } :: (mid ++ { row₁ with seq := row₂.seq } :: post) →
    row₁.entry = .ok e₁ → row₂.entry = .ok e₂ →
    ∃ expected, (db.withRows audit).verifyWithAnchor blake3 anchor =
      .ok (.broken e₁.seq (.contentTampered expected e₂.hash))
  /-- Removing a suffix is found, if an entry is left. -/
  truncated : ∀ audit pre row post e, NoCollision blake3 db.audit.rows audit.rows →
    db.audit.rows = pre ++ row :: post → post ≠ [] → audit.rows = pre ++ [row] →
    row.entry = .ok e →
    (db.withRows audit).verifyWithAnchor blake3 anchor =
      .ok (.broken (e.seq + 1) (.truncatedHead anchor (some e.hash)))

/-- The anchor is the hash of the last row. -/
theorem last_of_head {headSeq : UInt64} {anchor : Digest}
    (h : db.head = .ok (some (headSeq, anchor))) :
    ∃ init last tail, db.audit.rows = init ++ [last] ∧ last.entry = .ok tail ∧
      tail.hash = anchor := by
  unfold head tailEntry Table.last at h
  obtain ⟨found, hfound, h⟩ := Except.bind_eq_ok.mp h
  cases hlast : db.audit.rows.getLast? with
  | none =>
      rw [hlast] at hfound
      cases hfound
      cases h
  | some last =>
      obtain ⟨init, hinit⟩ := List.getLast?_eq_some_iff.mp hlast
      rw [hlast] at hfound
      dsimp only [nullable] at hfound
      cases hentry : last.entry with
      | error error =>
          rw [hentry] at hfound
          cases hfound
      | ok tail =>
          rw [hentry] at hfound
          cases hfound
          cases h
          exact ⟨init, last, tail, hinit, hentry, rfl⟩

end AuditDb

open Transition

/-- **Tampering is evident.**  Whatever an honest run has logged, another audit
table that verifies against its head hash holds the same entries, and the usual
attacks are found where they were made. -/
theorem Log.tamper_evident {trace : List (AuditEvent × AuditObs)} {s : Log} {headSeq : UInt64}
    {anchor : Digest} (hrun : Run (step blake3) unguarded empty trace s)
    (hhead : s.db.head = .ok (some (headSeq, anchor))) : s.db.TamperEvident blake3 anchor := by
  obtain ⟨start, h⟩ := (chained hrun).intact
  obtain ⟨init, last, tail, hlast, htail, hanchor⟩ := AuditDb.last_of_head hhead
  constructor
  · intro audit entries headSeq headHash hno hverify
    obtain ⟨htip, hne⟩ := h.tip_eq hlast htail
    rw [hanchor] at htip
    have hdec := h.eq_of_intact hne htip hno hverify
    rw [map_entry_of_decodes hdec, map_entry_of_decodes h.decodes]
  · intro audit pre row row' post e e' hno hrows haudit he he' hseq hhash hne
    exact AuditDb.verifyWithAnchor_broken anchor
      (h.edited hrows he haudit he' hseq hhash hne hno)
  · intro audit pre row post e hrows hpost haudit he
    obtain ⟨next, post, rfl⟩ := List.exists_cons_of_ne_nil hpost
    exact AuditDb.verifyWithAnchor_broken anchor (h.deleted hrows he haudit)
  · intro audit pre row row' post e e' hno hrows hpost haudit he he' hseq hprev hhash hne
    obtain ⟨next, post, rfl⟩ := List.exists_cons_of_ne_nil hpost
    exact AuditDb.verifyWithAnchor_broken anchor
      (h.rehashed hrows he haudit he' hseq hprev hhash hne hno)
  · intro audit pre row₁ mid row₂ post e₁ e₂ hno hrows haudit he₁ he₂
    obtain ⟨expected, hbroken⟩ := h.swapped hrows he₁ he₂ haudit hno
    exact ⟨expected, AuditDb.verifyWithAnchor_broken anchor hbroken⟩
  · intro audit pre row post e hno hrows hpost haudit he
    obtain ⟨mid, final, rfl⟩ : ∃ mid final, post = mid ++ [final] :=
      ⟨post.dropLast, post.getLast hpost, (List.dropLast_concat_getLast hpost).symm⟩
    have hends : (pre ++ row :: mid) ++ [final] = init ++ [last] := by
      rw [← hlast, hrows, List.append_assoc, List.cons_append]
    obtain ⟨-, hfinal⟩ := List.append_inj' hends rfl
    rw [List.singleton_inj.mp hfinal] at hrows
    exact h.truncated hrows he htail hanchor haudit hno

/-! ### A log with two entries -/

/-- Two entries that follow each other. -/
def sampleFirst : AuditEntry :=
  AuditDb.newEntry Id.of (1, genesisPrevHash, 0) (Log.sampleRecord .ok) 1000 5

def sampleSecond : AuditEntry :=
  AuditDb.newEntry Id.of (2, sampleFirst.hash, 6) (Log.sampleRecord .denied) 3000 4

/-- The first entry with another time. -/
def sampleEdited : AuditEntry := { sampleFirst with tsUtcMs := 7 }

/-- The edited entry is found at number 1. -/
theorem Log.tamper_evident_pair :
    ∃ trace s headSeq anchor, ∃ audit : Table AuditRow fun row => row.seq.toInt,
      Run (step Id.of) unguarded empty trace s ∧ s.db.head = .ok (some (headSeq, anchor)) ∧
      s.db.audit.rows = [sampleFirst.stored, sampleSecond.stored] ∧
      audit.rows = [sampleEdited.stored, sampleSecond.stored] ∧
      (s.db.withRows audit).verifyWithAnchor Id.of anchor =
        .ok (.broken 1 (.contentTampered (sampleEdited.computeHash Id.of) sampleFirst.hash)) := by
  have hexec : ((exec (step Id.of) unguarded
      [.begin 0 (.append (sampleRecord .ok) 1000 5), .finish 0,
       .begin 1 (.append (sampleRecord .denied) 3000 4), .finish 1] [] empty).map
        fun r => r.2.db.audit.rows) = some [sampleFirst.stored, sampleSecond.stored] := by
    decide +kernel
  obtain ⟨⟨trace, s⟩, hrun, hrows⟩ := Option.map_eq_some_iff.mp hexec
  dsimp only at hrows
  have hfirst : sampleFirst.stored.entry = .ok sampleFirst :=
    AuditEntry.entry_stored ⟨by decide +kernel, by decide +kernel⟩
  have hsecond : sampleSecond.stored.entry = .ok sampleSecond :=
    AuditEntry.entry_stored ⟨by decide +kernel, by decide +kernel⟩
  have hedited : sampleEdited.stored.entry = .ok sampleEdited :=
    AuditEntry.entry_stored ⟨by decide +kernel, by decide +kernel⟩
  have hhead : s.db.head = .ok (some (sampleSecond.seq, sampleSecond.hash)) := by
    unfold AuditDb.head AuditDb.tailEntry Table.last
    rw [hrows]
    show (nullable AuditRow.entry (some sampleSecond.stored) >>= _) = _
    dsimp only [nullable]
    rw [hsecond]
    rfl
  have hsorted : [sampleEdited.stored, sampleSecond.stored].Pairwise
      fun a b => a.seq.toInt < b.seq.toInt := by
    simp only [List.pairwise_cons, List.mem_singleton, forall_eq, List.not_mem_nil, false_implies,
      implies_true, List.Pairwise.nil, and_true]
    decide +kernel
  have hno : NoCollision Id.of s.db.audit.rows [sampleEdited.stored, sampleSecond.stored] := by
    rw [hrows]
    refine noCollision_of_decodes (.cons hfirst (.cons hsecond .nil))
      (.cons hedited (.cons hsecond .nil)) ?_
    have h₁ : sampleFirst.computeHash Id.of ≠ sampleEdited.computeHash Id.of := by decide +kernel
    have h₂ : sampleFirst.computeHash Id.of ≠ sampleSecond.computeHash Id.of := by decide +kernel
    have h₃ : sampleSecond.computeHash Id.of ≠ sampleEdited.computeHash Id.of := by decide +kernel
    simp [h₁, h₂, h₃]
  refine ⟨trace, s, sampleSecond.seq, sampleSecond.hash, ⟨_, hsorted⟩,
    run_of_exec _ hrun, hhead, hrows, rfl, ?_⟩
  exact (tamper_evident (run_of_exec _ hrun) hhead).edited ⟨_, hsorted⟩ [] sampleFirst.stored
    sampleEdited.stored [sampleSecond.stored] sampleFirst sampleEdited hno hrows rfl hfirst hedited
    rfl rfl (by decide +kernel)

end Store
