import GoNomad.Store.AuditRows

/-!
# The walk along the chain

The stored entries are a hash chain, and the walk of `verify` accepts exactly
the rows that decode to one.

* `walk_append` — the walk goes through rows that decode to a chain;
* `linked_of_intact` — rows the walk accepts decode to a chain;
* `verifyWithin_intact` — what `verify` reports on a chain.
-/

namespace Store

open Proto

variable (blake3 : List UInt8 → Digest)

/-- Audit entries as a hash chain. -/
def auditChain : HashChain AuditEntry AuditEntry Digest where
  content := AuditEntry.content
  seq e := e.seq.toNat
  prev e := e.prevHash
  stored e := e.hash
  digest e := e.computeHash blake3
  ext := by
    intro e f hcontent hhash
    cases e
    cases f
    unfold AuditEntry.content at hcontent
    injection hcontent
    congr

/-- The rows decode to the entries. -/
def Decodes (rows : List AuditRow) (es : List AuditEntry) : Prop :=
  List.Forall₂ (fun row e => row.entry = .ok e) rows es

/-- The head that the walk has seen after some entries. -/
def headAfter (head : Option (UInt64 × Digest)) : List AuditEntry → Option (UInt64 × Digest)
  | [] => head
  | e :: es => headAfter (some (e.seq, e.hash)) es

theorem headAfter_append (head : Option (UInt64 × Digest)) (es fs : List AuditEntry) :
    headAfter head (es ++ fs) = headAfter (headAfter head es) fs := by
  induction es generalizing head with
  | nil => rfl
  | cons e es ih => exact ih _

theorem headAfter_snoc (head : Option (UInt64 × Digest)) (es : List AuditEntry) (e : AuditEntry) :
    headAfter head (es ++ [e]) = some (e.seq, e.hash) := by
  rw [headAfter_append]
  rfl

/-- The stored rows of entries that fit decode to the entries. -/
theorem decodes_stored {es : List AuditEntry} (h : ∀ e ∈ es, e.Fits) :
    Decodes (es.map AuditEntry.stored) es := by
  induction es with
  | nil => exact .nil
  | cons e es ih =>
      exact .cons (AuditEntry.entry_stored (h e (.head _))) (ih fun f hf => h f (.tail _ hf))

theorem checkedAdd_ok {a b : UInt64} (h : a.toNat + b.toNat < 2 ^ 64) :
    checkedAdd a b = .ok (a + b) ∧ (a + b).toNat = a.toNat + b.toNat := by
  refine ⟨if_pos h, ?_⟩
  rw [UInt64.toNat_add, Nat.mod_eq_of_lt h]

namespace AuditDb

variable {blake3}
variable {expectedSeq : UInt64} {expectedPrev : Digest} {n : UInt64}
  {head : Option (UInt64 × Digest)} {row : AuditRow} {rows : List AuditRow} {e : AuditEntry}
  {es : List AuditEntry}

/-- What the walk does with a row that decodes. -/
theorem walk_row (h : row.entry = .ok e) :
    walk blake3 expectedSeq expectedPrev n head (row :: rows) =
      if e.seq ≠ expectedSeq then .ok (.broken expectedSeq (.missingEntry e.seq))
      else if e.computeHash blake3 ≠ e.hash then
        .ok (.broken e.seq (.contentTampered (e.computeHash blake3) e.hash))
      else if e.prevHash ≠ expectedPrev then
        .ok (.broken e.seq (.brokenLink expectedPrev e.prevHash))
      else
        checkedAdd n 1 >>= fun entries => checkedAdd e.seq 1 >>= fun nextSeq =>
          walk blake3 nextSeq e.hash entries (some (e.seq, e.hash)) rows := by
  unfold AuditRow.entry at h
  obtain ⟨raw, hraw, hdecode⟩ := Except.bind_eq_ok.mp h
  dsimp only [walk]
  rw [hraw, Fault.lift_ok, Except.ok_bind, hdecode]
  rfl

/-- A row that does not decode ends the walk. -/
theorem walk_undecodable {error : StoreError} (h : row.entry = .error error) :
    walk blake3 expectedSeq expectedPrev n head (row :: rows) = .error (.store error) ∨
      ∃ seq, walk blake3 expectedSeq expectedPrev n head (row :: rows) =
        .ok (.broken seq (.undecodableRow error)) := by
  unfold AuditRow.entry at h
  dsimp only [walk]
  cases hraw : RawEntry.fromRow row with
  | error e =>
      rw [hraw] at h
      cases h
      exact .inl rfl
  | ok raw =>
      rw [hraw] at h
      have hdecode : raw.decode = .error error := h
      rw [Fault.lift_ok, Except.ok_bind, hdecode]
      exact .inr ⟨_, rfl⟩

/-- A row whose entry is the expected one is passed. -/
theorem walk_cons (h : row.entry = .ok e) (hseq : e.seq = expectedSeq)
    (hhash : e.computeHash blake3 = e.hash) (hprev : e.prevHash = expectedPrev)
    (hn : n.toNat ≤ expectedSeq.toNat) :
    ∃ nextSeq n' : UInt64,
      walk blake3 expectedSeq expectedPrev n head (row :: rows) =
        walk blake3 nextSeq e.hash n' (some (e.seq, e.hash)) rows ∧
      nextSeq.toNat = expectedSeq.toNat + 1 ∧ n'.toNat = n.toNat + 1 := by
  obtain ⟨⟨hlt, -⟩, -⟩ := AuditEntry.fits_of_entry h
  rw [hseq] at hlt
  have hone : (1 : UInt64).toNat = 1 := rfl
  obtain ⟨hadd, hval⟩ := @checkedAdd_ok n 1 (by omega)
  obtain ⟨hadd', hval'⟩ := @checkedAdd_ok expectedSeq 1 (by omega)
  refine ⟨expectedSeq + 1, n + 1, ?_, hval', hval⟩
  rw [walk_row h, if_neg (not_not_intro hseq), if_neg (not_not_intro hhash),
    if_neg (not_not_intro hprev), hseq, hadd, hadd']
  rfl

/-- **The walk goes through rows that decode to a chain.** -/
theorem walk_append (hdec : Decodes rows es)
    (hlinked : (auditChain blake3).Linked expectedSeq.toNat expectedPrev es)
    (hn : n.toNat ≤ expectedSeq.toNat) (rest : List AuditRow) :
    ∃ nextSeq n' : UInt64,
      walk blake3 expectedSeq expectedPrev n head (rows ++ rest) =
        walk blake3 nextSeq ((auditChain blake3).tip expectedPrev es) n' (headAfter head es) rest ∧
      nextSeq.toNat = expectedSeq.toNat + es.length ∧ n'.toNat = n.toNat + es.length := by
  induction hdec generalizing expectedSeq expectedPrev n head with
  | nil => exact ⟨expectedSeq, n, rfl, rfl, rfl⟩
  | @cons row e rows es hrow _ ih =>
      obtain ⟨hseq, hhash, hprev, hlinked⟩ := hlinked
      obtain ⟨nextSeq, n', hwalk, hnext, hn'⟩ := @walk_cons blake3 expectedSeq expectedPrev n head row
        (rows ++ rest) e hrow (UInt64.toNat_inj.mp hseq) hhash.symm hprev hn
      rw [← hnext] at hlinked
      obtain ⟨lastSeq, n'', hwalk', hlast, hn''⟩ :=
        @ih nextSeq e.hash n' (some (e.seq, e.hash)) hlinked (by omega)
      refine ⟨lastSeq, n'', hwalk.trans hwalk', ?_, ?_⟩
      · rw [List.length_cons]
        omega
      · rw [List.length_cons]
        omega

/-- **Rows the walk accepts decode to a chain.** -/
theorem linked_of_intact {entries : UInt64} {headSeq : Option UInt64} {headHash : Option Digest}
    (h : walk blake3 expectedSeq expectedPrev n head rows = .ok (.intact entries headSeq headHash))
    (hn : n.toNat ≤ expectedSeq.toNat) :
    ∃ es, Decodes rows es ∧ (auditChain blake3).Linked expectedSeq.toNat expectedPrev es ∧
      headHash = (headAfter head es).map Prod.snd := by
  induction rows generalizing expectedSeq expectedPrev n head with
  | nil =>
      unfold walk at h
      cases h
      exact ⟨[], .nil, trivial, rfl⟩
  | cons row rows ih =>
      cases hentry : row.entry with
      | error e =>
          rcases @walk_undecodable blake3 expectedSeq expectedPrev n head row rows e hentry with
            hwalk | ⟨seq, hwalk⟩
          · rw [hwalk] at h
            cases h
          · rw [hwalk] at h
            cases h
      | ok e =>
          -- An entry that is not the expected one ends the walk too.
          have hexpected : e.seq = expectedSeq ∧ e.computeHash blake3 = e.hash ∧
              e.prevHash = expectedPrev := by
            rw [walk_row hentry] at h
            split_ifs at h with hseq hhash hprev
            · cases h
            · cases h
            · cases h
            · exact ⟨not_not.mp hseq, not_not.mp hhash, not_not.mp hprev⟩
          obtain ⟨hseq, hhash, hprev⟩ := hexpected
          obtain ⟨nextSeq, n', hwalk, hnext, hn'⟩ :=
            @walk_cons blake3 expectedSeq expectedPrev n head row rows e hentry hseq hhash hprev hn
          rw [hwalk] at h
          obtain ⟨es, hdec, hlinked, hhead⟩ := ih h (by omega)
          refine ⟨e :: es, .cons hentry hdec, ⟨?_, hhash.symm, hprev, ?_⟩, hhead⟩
          · exact congrArg UInt64.toNat hseq
          · rw [← hnext]
            exact hlinked

/-- **What `verify` reports on a chain** that starts where it is expected to. -/
theorem verifyWithin_intact {db : AuditDb} {start : UInt64} {prev : Digest}
    (hstart : db.startWithin = .ok (start, prev)) (hdec : Decodes db.audit.rows es)
    (hlinked : (auditChain blake3).Linked start.toNat prev es) :
    ∃ n : UInt64, n.toNat = es.length ∧ db.verifyWithin blake3 =
      .ok (.intact n ((headAfter none es).map Prod.fst) ((headAfter none es).map Prod.snd)) := by
  obtain ⟨nextSeq, n, hwalk, -, hn⟩ :=
    @walk_append blake3 start prev 0 none db.audit.rows es hdec hlinked (Nat.zero_le _) []
  rw [List.append_nil] at hwalk
  refine ⟨n, ?_, ?_⟩
  · rw [hn]
    exact Nat.zero_add _
  · unfold verifyWithin
    rw [hstart, Except.ok_bind, hwalk]
    rfl

/-- Rows that `verify` accepts decode to a chain. -/
theorem linked_of_verifyWithin {db : AuditDb} {start : UInt64} {prev : Digest} {entries : UInt64}
    {headSeq : Option UInt64} {headHash : Option Digest}
    (hstart : db.startWithin = .ok (start, prev))
    (h : db.verifyWithin blake3 = .ok (.intact entries headSeq headHash)) :
    ∃ es, Decodes db.audit.rows es ∧ (auditChain blake3).Linked start.toNat prev es ∧
      headHash = (headAfter none es).map Prod.snd := by
  unfold verifyWithin at h
  rw [hstart, Except.ok_bind] at h
  exact linked_of_intact h (Nat.zero_le _)

end AuditDb

end Store
