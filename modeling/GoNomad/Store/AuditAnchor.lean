import GoNomad.Store.AuditRun

/-!
# The anchor of an honest log

A phone remembers the hash of the entry that was appended last and has the log
verified against it.  The head that `verify` reports is the last row, so the
anchor is recognised as long as a row is left.

* `Log.anchor_intact_iff` — in every reachable log, the newest hash is accepted
  exactly when some row survives the rotations;
* `Log.anchor_refused` — a rotation to nothing makes it look like tampering.
-/

namespace Store

open Proto

variable {blake3 : List UInt8 → Digest}

namespace AuditDb

variable {db : AuditDb} {hist : List AuditEntry} {cut : Nat} {e : AuditEntry}

/-- The head of what is left is the last entry of the history. -/
theorem Chained.headAfter_rest (h : db.Chained blake3 (hist ++ [e]) cut)
    (hleft : db.audit.rows ≠ []) :
    headAfter none ((hist ++ [e]).drop cut) = some (e.seq, e.hash) := by
  have hcut : cut ≤ hist.length := by
    by_contra hpast
    apply hleft
    have hle := h.cut_le
    rw [h.rows, List.drop_of_length_le, List.map_nil]
    rw [List.length_append, List.length_singleton] at hle ⊢
    omega
  rw [List.drop_append_of_le_length hcut]
  exact headAfter_snoc none _ e

/-- With a row left, the hash of the last entry is the head. -/
theorem Chained.verifyWithAnchor (h : db.Chained blake3 (hist ++ [e]) cut)
    (hleft : db.audit.rows ≠ []) :
    ∃ n : UInt64,
      db.verifyWithAnchor blake3 e.hash = .ok (.intact n (some e.seq) (some e.hash)) := by
  obtain ⟨n, -, hverify⟩ := h.verifyWithin
  rw [h.headAfter_rest hleft] at hverify
  refine ⟨n, ?_⟩
  unfold AuditDb.verifyWithAnchor
  rw [hverify, Except.ok_bind]
  exact if_pos rfl

/-- With no row left, there is no head to compare an anchor with. -/
theorem Chained.verifyWithAnchor_empty (h : db.Chained blake3 hist cut)
    (hgone : db.audit.rows = []) (anchor : Digest) :
    db.verifyWithAnchor blake3 anchor =
      .ok (.broken firstSeq (.truncatedHead anchor none)) := by
  obtain ⟨n, -, hverify⟩ := h.verifyWithin
  have hnil : hist.drop cut = [] := by
    have hrows := h.rows
    rw [hgone] at hrows
    exact List.map_eq_nil_iff.mp hrows.symm
  rw [hnil] at hverify
  unfold AuditDb.verifyWithAnchor
  rw [hverify, Except.ok_bind]
  rfl

end AuditDb

namespace Log

open Transition

/-- The log verifies against an anchor. -/
def AnchorIntact (blake3 : List UInt8 → Digest) (db : AuditDb) (anchor : Digest) : Prop :=
  ∃ entries headSeq headHash,
    db.verifyWithAnchor blake3 anchor = .ok (.intact entries headSeq headHash)

/-- **The newest hash is accepted exactly while a row is left**, and where none is
left the whole log is reported as truncated. -/
theorem anchor_intact_iff {trace : List (AuditEvent × AuditObs)} {s : Log}
    (hrun : Run (step blake3) unguarded empty trace s) {earlier : List AuditEntry} {e : AuditEntry}
    (hlast : appended trace = earlier ++ [e]) :
    (AnchorIntact blake3 s.db e.hash ↔ s.db.audit.rows ≠ []) ∧
      (s.db.audit.rows = [] →
        s.db.verifyWithAnchor blake3 e.hash =
          .ok (.broken firstSeq (.truncatedHead e.hash none))) := by
  have h := chained hrun
  rw [hlast] at h
  refine ⟨⟨fun hintact hgone => ?_, fun hleft => ?_⟩, fun hgone =>
    h.verifyWithAnchor_empty hgone _⟩
  · obtain ⟨entries, headSeq, headHash, hverify⟩ := hintact
    rw [h.verifyWithAnchor_empty hgone] at hverify
    cases hverify
  · obtain ⟨n, hverify⟩ := h.verifyWithAnchor hleft
    exact ⟨n, some e.seq, some e.hash, hverify⟩

/-- An entry is appended, and a rotation under a cap finds nothing to remove. -/
def anchoredEvents : List AuditEvent :=
  [.begin 0 (.append (sampleRecord .ok) 1000 5), .finish 0,
   .begin 0 (.rotate 1 sampleSigner 2000), .finish 0]

theorem anchor_intact_sample :
    ∃ trace s e, Run (step Id.of) unguarded empty trace s ∧ appended trace = [] ++ [e] ∧
      s.db.audit.rows ≠ [] ∧ AnchorIntact Id.of s.db e.hash := by
  have hexec : ((exec (step Id.of) unguarded anchoredEvents [] empty).map fun r =>
      ((appended r.1).length, r.2.db.audit.rows.length)) = some (1, 1) := by
    decide +kernel
  obtain ⟨⟨trace, s⟩, hrun, hsummary⟩ := Option.map_eq_some_iff.mp hexec
  obtain ⟨hlength, hrows⟩ := Prod.mk.inj hsummary
  obtain ⟨e, hlast⟩ := List.length_eq_one_iff.mp hlength
  change s.db.audit.rows.length = 1 at hrows
  have hleft : s.db.audit.rows ≠ [] := List.ne_nil_of_length_pos (by omega)
  have hfirst : appended trace = [] ++ [e] := hlast
  exact ⟨trace, s, e, run_of_exec _ hrun, hfirst, hleft,
    (anchor_intact_iff (run_of_exec _ hrun) hfirst).1.mpr hleft⟩

/-- An entry is appended, and everything is rotated away. -/
def emptiedEvents : List AuditEvent :=
  [.begin 0 (.append (sampleRecord .ok) 1000 5), .finish 0,
   .begin 0 (.rotate 0 sampleSigner 2000), .finish 0]

/-- **A rotation to nothing raises the alarm**: the anchor is that of the entry
appended last, and nobody tampered with anything. -/
theorem anchor_refused :
    ¬ ∀ (trace : List (AuditEvent × AuditObs)) (s : Log) (earlier : List AuditEntry)
      (e : AuditEntry), Run (step Id.of) unguarded empty trace s →
      appended trace = earlier ++ [e] → AnchorIntact Id.of s.db e.hash := by
  intro hall
  have hexec : ((exec (step Id.of) unguarded emptiedEvents [] empty).map fun r =>
      ((appended r.1).length, r.2.db.audit.rows.length)) = some (1, 0) := by
    decide +kernel
  obtain ⟨⟨trace, s⟩, hrun, hsummary⟩ := Option.map_eq_some_iff.mp hexec
  obtain ⟨hlength, hrows⟩ := Prod.mk.inj hsummary
  obtain ⟨e, hlast⟩ := List.length_eq_one_iff.mp hlength
  have hchained := chained (run_of_exec _ hrun)
  obtain ⟨entries, headSeq, headHash, hverify⟩ := hall trace s [] e (run_of_exec _ hrun) hlast
  rw [hchained.verifyWithAnchor_empty (List.eq_nil_of_length_eq_zero hrows)] at hverify
  cases hverify

end Log

end Store
