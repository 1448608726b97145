import GoNomad.Lib.Run
import GoNomad.Store.AuditHistory

/-!
# Runs of the audit log

Any number of connections append to one log and rotate it.  A call takes the
write lock when its transaction begins and gives it back when the transaction
ends; a connection that finds the lock taken is turned away.  A transaction that
ends in an error leaves the committed tables as they were.

* `Log.chained` — along every run the log is what is left of its history;
* `Log.audit_chain` — along every run the log verifies, and every call does to
  it what it says.
-/

namespace Store

open Proto

/-- A call that writes. -/
inductive AuditCall
  | append (record : AuditRecord) (tsUtcMs : Int64) (monotonicNs : UInt64)
  | rotate (maxEntries : UInt64) (signer : CheckpointSigner) (tsUtcMs : Int64)

/-- What a call returns. -/
inductive AuditReply
  | appended (entry : AuditEntry)
  | rotated (checkpoint : Option Checkpoint)
  | failed (fault : Fault)
  deriving DecidableEq

/-- What happens on a connection. -/
inductive AuditEvent
  /-- The call begins its transaction. -/
  | begin (conn : Nat) (call : AuditCall)
  /-- The call goes through its transaction and ends it. -/
  | finish (conn : Nat)
  /-- The engine fails and the transaction is rolled back. -/
  | abandon (conn : Nat)

/-- What shows. -/
inductive AuditObs
  | started
  | returned (reply : AuditReply)
  deriving DecidableEq

/-- The committed tables, and the call that holds the write lock. -/
structure Log where
  db : AuditDb
  holder : Option (Nat × AuditCall)

namespace Log

/-- A log nothing was ever written to. -/
def empty : Log := ⟨.empty, none⟩

variable (blake3 : List UInt8 → Digest)

/-- The body of a call inside its transaction. -/
def body (db : AuditDb) : AuditCall → Except Fault (AuditReply × AuditDb)
  | .append record tsUtcMs monotonicNs => do
      let (entry, db) ← db.appendWithin blake3 record tsUtcMs monotonicNs
      pure (.appended entry, db)
  | .rotate maxEntries signer tsUtcMs => do
      let (checkpoint, db) ← db.rotateAt blake3 maxEntries signer tsUtcMs
      pure (.rotated checkpoint, db)

/-- One event.  A call that fails is rolled back. -/
def step (s : Log) : AuditEvent → Option (Log × AuditObs)
  | .begin conn call =>
      match s.holder with
      | none => some ({ s with holder := some (conn, call) }, .started)
      | some _ => some (s, .returned (.failed (.store .database)))
  | .finish conn =>
      match s.holder with
      | none => none
      | some (holder, call) =>
          if holder = conn then
            match body blake3 s.db call with
            | .ok (reply, db) => some (⟨db, none⟩, .returned reply)
            | .error fault => some ({ s with holder := none }, .returned (.failed fault))
          else
            none
  | .abandon conn =>
      match s.holder with
      | none => none
      | some (holder, _) =>
          if holder = conn then
            some ({ s with holder := none }, .returned (.failed (.store .database)))
          else
            none

/-! ### What a run did -/

/-- The entry that was appended, if one was. -/
def appendedBy : AuditObs → Option AuditEntry
  | .returned (.appended e) => some e
  | _ => none

/-- How many entries a rotation says it removed. -/
def removedBy : AuditObs → Nat
  | .returned (.rotated (some cp)) => cp.entriesRemoved.toNat
  | _ => 0

/-- Everything that was appended, in order. -/
def appended (trace : List (AuditEvent × AuditObs)) : List AuditEntry :=
  trace.filterMap fun entry => appendedBy entry.2

/-- How many entries the rotations say they removed. -/
def removed (trace : List (AuditEvent × AuditObs)) : Nat :=
  (trace.map fun entry => removedBy entry.2).sum

/-- What a call may do to the tables, by what it returns. -/
def Did (before after : AuditDb) : AuditCall → AuditReply → Prop
  | .append .., .appended e =>
      after.audit.rows = before.audit.rows ++ [e.stored] ∧ after.checkpoints = before.checkpoints
  | .rotate maxEntries _ _, .rotated none =>
      after = before ∧ after.audit.rows.length ≤ maxEntries.toNat
  | .rotate maxEntries _ _, .rotated (some cp) =>
      after.audit.rows.length ≤ maxEntries.toNat ∧
        ∃ dropped, before.audit.rows = dropped ++ after.audit.rows ∧
          cp.entriesRemoved.toNat = dropped.length ∧
          -- The cut is the head less the cap, and nothing wrapped or saturated.
          ∃ head, before.tailEntry = .ok (some head) ∧
            cp.truncatedThroughSeq.toNat + maxEntries.toNat = head.seq.toNat
  | _, .failed fault => after = before ∧ fault ≠ .overflow
  | _, _ => False

/-- Each entry carries the hash of the one before it, the first one `prev`. -/
def LinkedFrom (prev : Digest) : List AuditEntry → Prop
  | [] => True
  | e :: es => e.prevHash = prev ∧ LinkedFrom e.hash es

/-- What holds of the log after every call of a run. -/
structure Sound (trace : List (AuditEvent × AuditObs)) (s : Log) : Prop where
  /-- `verify` reports an intact chain of all the rows. -/
  intact : ∃ entries headSeq headHash, entries.toNat = s.db.audit.rows.length ∧
    s.db.verifyWithin blake3 = .ok (.intact entries headSeq headHash)
  /-- The numbers have neither gaps nor repetitions, over all the rotations. -/
  numbered : ∀ i e, (appended trace)[i]? = some e → e.seq.toNat = i + 1
  /-- What the rotations have not removed is stored, as it was appended. -/
  surviving : s.db.audit.rows = ((appended trace).drop (removed trace)).map AuditEntry.stored
  decoded : Decodes s.db.audit.rows ((appended trace).drop (removed trace))
  /-- The chain carries on from the newest checkpoint, or from genesis. -/
  linked : ∃ cp, s.db.latestCheckpointWithin = .ok cp ∧
    (cp.map fun cp => cp.truncatedThroughSeq.toNat).getD 0 = removed trace ∧
    LinkedFrom ((cp.map Checkpoint.chainHash).getD genesisPrevHash)
      ((appended trace).drop (removed trace))
  /-- Whatever call ends next does what it says. -/
  calls : ∀ conn call s' reply, s.holder = some (conn, call) →
    step blake3 s (.finish conn) = some (s', .returned reply) → Did s.db s'.db call reply
  /-- Nothing but the end of a call changes the tables. -/
  others : ∀ ev s' o, (∀ conn, ev ≠ .finish conn) → step blake3 s ev = some (s', o) → s'.db = s.db

variable {blake3}

theorem did_failed (db : AuditDb) (call : AuditCall) {fault : Fault} (h : fault ≠ .overflow) :
    Did db db call (.failed fault) := by
  cases call with
  | append => exact ⟨rfl, h⟩
  | rotate => exact ⟨rfl, h⟩

/-- **What one call does to a log** that is what is left of its history. -/
theorem body_chained {db : AuditDb} {hist : List AuditEntry} {cut : Nat}
    (h : db.Chained blake3 hist cut) (call : AuditCall) :
    (∃ error, body blake3 db call = .error (.store error)) ∨
      ∃ reply db', body blake3 db call = .ok (reply, db') ∧ Did db db' call reply ∧
        db'.Chained blake3 (hist ++ (appendedBy (.returned reply)).toList)
          (cut + removedBy (.returned reply)) := by
  cases call with
  | append record tsUtcMs monotonicNs =>
      dsimp only [body]
      rcases h.appendWithin record tsUtcMs monotonicNs with ⟨error, herror⟩ |
        ⟨e, db', hok, hchained, hrows, hcheckpoints⟩
      · rw [herror]
        exact .inl ⟨error, rfl⟩
      · rw [hok]
        exact .inr ⟨.appended e, db', rfl, ⟨hrows, hcheckpoints⟩, hchained⟩
  | rotate maxEntries signer tsUtcMs =>
      dsimp only [body]
      rcases h.rotateAt maxEntries signer tsUtcMs with ⟨hcap, hnone⟩ |
        ⟨hcap, ⟨reason, hrefused⟩ | ⟨cp, db', hdone, hchained, hthrough, hremoved⟩⟩
      · rw [hnone]
        refine .inr ⟨.rotated none, db, rfl, ⟨rfl, ?_⟩, ?_⟩
        · rw [h.rows, List.length_map]
          exact hcap
        · rw [show appendedBy (.returned (.rotated none)) = none from rfl, Option.toList_none,
            List.append_nil]
          exact h
      · rw [hrefused]
        exact .inl ⟨_, rfl⟩
      · have hlen : (hist.drop cut).length = hist.length - cut := List.length_drop
        rw [hdone]
        refine .inr ⟨.rotated (some cp), db', rfl, ⟨?_, ?_⟩, ?_⟩
        · rw [hchained.rows, List.length_map, List.length_drop]
          omega
        · have hsplit := AuditDb.drop_split
            (show cut ≤ hist.length - maxEntries.toNat by omega) hist
          obtain ⟨tail, htail, htailSeq⟩ := h.tailEntry_of_cut_lt (by omega)
          refine ⟨((hist.drop cut).take (hist.length - maxEntries.toNat - cut)).map
            AuditEntry.stored, ?_, ?_, tail, htail, ?_⟩
          · rw [h.rows, hchained.rows, ← List.map_append, ← hsplit]
          · rw [List.length_map, List.length_take]
            omega
          · omega
        · have hcut : cut + removedBy (.returned (.rotated (some cp))) =
              hist.length - maxEntries.toNat := by
            show cut + cp.entriesRemoved.toNat = _
            omega
          rw [hcut, show appendedBy (.returned (.rotated (some cp))) = none from rfl,
            Option.toList_none, List.append_nil]
          exact hchained

theorem appended_snoc (trace : List (AuditEvent × AuditObs)) (e : AuditEvent) (o : AuditObs) :
    appended (trace ++ [(e, o)]) = appended trace ++ (appendedBy o).toList := by
  unfold appended
  rw [List.filterMap_append]
  cases h : appendedBy o with
  | none => simp [h]
  | some entry => simp [h]

theorem removed_snoc (trace : List (AuditEvent × AuditObs)) (e : AuditEvent) (o : AuditObs) :
    removed (trace ++ [(e, o)]) = removed trace + removedBy o := by
  simp [removed]

/-- An event other than the end of a call leaves the tables as they are. -/
theorem db_of_step {s s' : Log} {ev : AuditEvent} {o : AuditObs}
    (h : step blake3 s ev = some (s', o)) (hfinish : ∀ conn, ev ≠ .finish conn) :
    s'.db = s.db ∧ appendedBy o = none ∧ removedBy o = 0 := by
  cases ev with
  | begin conn call =>
      dsimp only [step] at h
      cases hholder : s.holder with
      | none =>
          rw [hholder] at h
          cases h
          exact ⟨rfl, rfl, rfl⟩
      | some holder =>
          rw [hholder] at h
          cases h
          exact ⟨rfl, rfl, rfl⟩
  | finish conn => exact absurd rfl (hfinish conn)
  | abandon conn =>
      dsimp only [step] at h
      cases hholder : s.holder with
      | none =>
          rw [hholder] at h
          cases h
      | some holder =>
          rw [hholder] at h
          dsimp only at h
          split_ifs at h
          cases h
          exact ⟨rfl, rfl, rfl⟩

/-- The end of a call is the call's body, committed if it succeeds. -/
theorem finish_cases {s s' : Log} {conn : Nat} {o : AuditObs}
    (h : step blake3 s (.finish conn) = some (s', o)) :
    ∃ call, s.holder = some (conn, call) ∧
      ((∃ fault, body blake3 s.db call = .error fault ∧ s' = ⟨s.db, none⟩ ∧
          o = .returned (.failed fault)) ∨
        ∃ reply db, body blake3 s.db call = .ok (reply, db) ∧ s' = ⟨db, none⟩ ∧
          o = .returned reply) := by
  dsimp only [step] at h
  cases hholder : s.holder with
  | none =>
      rw [hholder] at h
      cases h
  | some entry =>
      obtain ⟨holder, call⟩ := entry
      rw [hholder] at h
      dsimp only at h
      split_ifs at h with hconn
      subst hconn
      refine ⟨call, rfl, ?_⟩
      cases hbody : body blake3 s.db call with
      | error fault =>
          rw [hbody] at h
          cases h
          exact .inl ⟨fault, rfl, rfl, rfl⟩
      | ok result =>
          obtain ⟨reply, db⟩ := result
          rw [hbody] at h
          cases h
          exact .inr ⟨reply, db, rfl, rfl, rfl⟩

open Transition

/-- **Along every run the log is what is left of its history.** -/
theorem chained {trace : List (AuditEvent × AuditObs)} {s : Log}
    (hrun : Run (step blake3) unguarded empty trace s) :
    s.db.Chained blake3 (appended trace) (removed trace) := by
  refine hrun.invariant (fun trace s => s.db.Chained blake3 (appended trace) (removed trace))
    AuditDb.chained_empty ?_
  intro trace s ev s' o h _ hstep
  rw [appended_snoc, removed_snoc]
  by_cases hfinish : ∃ conn, ev = .finish conn
  · obtain ⟨conn, rfl⟩ := hfinish
    obtain ⟨call, -, ⟨fault, -, rfl, rfl⟩ | ⟨reply, db, hbody, rfl, rfl⟩⟩ := finish_cases hstep
    · rw [show appendedBy (.returned (.failed fault)) = none from rfl, Option.toList_none,
        List.append_nil]
      exact h
    · rcases body_chained h call with ⟨error, herror⟩ | ⟨reply', db', hok, -, hchained⟩
      · rw [hbody] at herror
        cases herror
      · rw [hbody] at hok
        cases hok
        exact hchained
  · obtain ⟨hdb, happended, hremoved⟩ := db_of_step hstep fun conn hconn => hfinish ⟨conn, hconn⟩
    rw [hdb, happended, hremoved, Option.toList_none, List.append_nil]
    exact h

theorem linkedFrom_of_linked {n : Nat} {prev : Digest} {es : List AuditEntry}
    (h : (auditChain blake3).Linked n prev es) : LinkedFrom prev es := by
  induction es generalizing n prev with
  | nil => trivial
  | cons e es ih =>
      obtain ⟨-, -, hprev, hrest⟩ := h
      exact ⟨hprev, ih hrest⟩

/-- **The log verifies after every call**, and every call does to it what it says. -/
theorem audit_chain {trace : List (AuditEvent × AuditObs)} {s : Log}
    (hrun : Run (step blake3) unguarded empty trace s) : Sound blake3 trace s := by
  have h := chained hrun
  refine ⟨?_, ?_, h.rows, h.decodes, ?_, ?_, ?_⟩
  · obtain ⟨n, hn, hverify⟩ := h.verifyWithin
    refine ⟨n, _, _, ?_, hverify⟩
    rw [hn, h.rows, List.length_map]
  · intro i e hi
    exact h.seq_eq hi
  · have hlinked := linkedFrom_of_linked h.linked_rest
    rcases h.latestCheckpointWithin with ⟨hcut, hnone⟩ | ⟨cp, hsome, hthrough, hhash⟩
    · rw [hcut] at hlinked ⊢
      exact ⟨none, hnone, rfl, hlinked⟩
    · rw [← hhash] at hlinked
      exact ⟨some cp, hsome, hthrough, hlinked⟩
  · intro conn call s' reply hholder hstep
    obtain ⟨call', hholder', hcases⟩ := finish_cases hstep
    rw [hholder] at hholder'
    cases hholder'
    rcases body_chained h call with ⟨error, herror⟩ | ⟨reply', db', hok, hdid, -⟩
    · rcases hcases with ⟨fault, hfault, rfl, hreply⟩ | ⟨reply', db, hbody, -, -⟩
      · rw [herror] at hfault
        cases hfault
        cases hreply
        exact did_failed s.db call fun hoverflow => by cases hoverflow
      · rw [herror] at hbody
        cases hbody
    · rcases hcases with ⟨fault, hfault, -, -⟩ | ⟨reply'', db, hbody, rfl, hreply⟩
      · rw [hok] at hfault
        cases hfault
      · rw [hok] at hbody
        cases hbody
        cases hreply
        exact hdid
  · intro ev s' o hfinish hstep
    exact (db_of_step hstep hfinish).1

/-! ### A run with a rotation -/

/-- A signer whose key is never out of reach. -/
def sampleSigner : CheckpointSigner where
  publicKey := .replicate 1
  sign _ := .ok ⟨List.replicate 64 2, List.length_replicate⟩

/-- An entry of the daemon itself. -/
def sampleRecord (result : AuditResult) : AuditRecord where
  deviceId := none
  operation := ⟨"fs.read", by decide⟩
  argsDigest := .replicate 3
  result := result

/-- Appends an entry, is turned away once, rotates everything away, and appends
another entry. -/
def sampleEvents : List AuditEvent :=
  [.begin 0 (.append (sampleRecord .ok) 1000 5), .begin 1 (.rotate 0 sampleSigner 2000), .finish 0,
   .begin 1 (.rotate 0 sampleSigner 2000), .finish 1,
   .begin 0 (.append (sampleRecord .denied) 3000 4), .finish 0]

/-- The rotation removes entry 1 and the next entry is number 2. -/
theorem audit_chain_rotated :
    ∃ trace s, Run (step Id.of) unguarded empty trace s ∧ trace.length = 7 ∧
      (appended trace).map (fun e => e.seq.toNat) = [1, 2] ∧ removed trace = 1 ∧
      Sound Id.of trace s := by
  have hexec : ((exec (step Id.of) unguarded sampleEvents [] empty).map fun r =>
      (r.1.length, (appended r.1).map fun e => e.seq.toNat, removed r.1)) = some (7, [1, 2], 1) := by
    decide +kernel
  obtain ⟨⟨trace, s⟩, hrun, hsummary⟩ := Option.map_eq_some_iff.mp hexec
  obtain ⟨hlength, hrest⟩ := Prod.mk.inj hsummary
  obtain ⟨hnumbers, hremoved⟩ := Prod.mk.inj hrest
  exact ⟨trace, s, run_of_exec sampleEvents hrun, hlength, hnumbers, hremoved,
    audit_chain (run_of_exec sampleEvents hrun)⟩

end Log

end Store
