import GoNomad.Store.AuditRun

/-!
# The monotonic order of the log

An entry is stamped with the reading of its caller, raised above the stamp of
the last row.  The stamp of an entry that was rotated away is forgotten, and a
stamp has to fit a signed column.

* `Chained.appendWithin_stamp` — what stamp an append gives, and when it fails;
* `Log.monotonic_order` — along every run of timely appends the stamps increase,
  and no reading ends the log;
* `Log.order_lost` — a rotation to nothing forgets the order.
-/

namespace Store

open Proto

/-- The largest number of a signed column. -/
def i64Max : Nat := 2 ^ 63 - 1

variable {blake3 : List UInt8 → Digest}

namespace AuditDb

variable {db db' : AuditDb} {hist : List AuditEntry} {cut : Nat} {e : AuditEntry}
variable {record : AuditRecord} {tsUtcMs : Int64} {monotonicNs : UInt64}

/-- The least stamp of the next entry: above the last row, if there is one. -/
def stampFloor (hist : List AuditEntry) (cut : Nat) : Nat :=
  ((hist.drop cut).getLast?.map fun tail => tail.monotonicNs.toNat + 1).getD 0

theorem stampFloor_all (h : hist.length ≤ cut) : stampFloor hist cut = 0 := by
  unfold stampFloor
  rw [List.drop_of_length_le h]
  rfl

theorem stampFloor_snoc {init : List AuditEntry} (h : cut ≤ init.length) (tail : AuditEntry) :
    stampFloor (init ++ [tail]) cut = tail.monotonicNs.toNat + 1 := by
  unfold stampFloor
  rw [List.drop_append_of_le_length h, List.getLast?_concat]
  rfl

/-- When everything is cut away no row is left. -/
theorem Chained.rows_nil (h : db.Chained blake3 hist cut) (hall : hist.length = cut) :
    db.audit.rows = [] := by
  rw [h.rows, List.drop_of_length_le (by omega), List.map_nil]

theorem toNat_max (a b : UInt64) : (max a b).toNat = max a.toNat b.toNat := by
  show (if a ≤ b then b else a).toNat = _
  split_ifs with hle
  · rw [UInt64.le_iff_toNat_le] at hle
    omega
  · rw [UInt64.le_iff_toNat_le] at hle
    omega

/-- **The stamp of an append.**  It succeeds exactly when the stamp and the number
fit their columns. -/
theorem Chained.appendWithin_stamp (h : db.Chained blake3 hist cut) (record : AuditRecord)
    (tsUtcMs : Int64) (monotonicNs : UInt64) :
    (hist.length < i64Max ∧ max monotonicNs.toNat (stampFloor hist cut) ≤ i64Max ∧
      ∃ e db', db.appendWithin blake3 record tsUtcMs monotonicNs = .ok (e, db') ∧
        e.monotonicNs.toNat = max monotonicNs.toNat (stampFloor hist cut)) ∨
      ((i64Max ≤ hist.length ∨ i64Max < max monotonicNs.toNat (stampFloor hist cut)) ∧
        ∃ error, db.appendWithin blake3 record tsUtcMs monotonicNs = .error (.store error)) := by
  obtain ⟨slot, hslot, hseq, -, hfloor⟩ := h.nextSlot
  have hfloor : slot.2.2.toNat = stampFloor hist cut := by
    rcases hfloor with ⟨hall, hzero⟩ | ⟨init, tail, rfl, hcut, hfloor⟩
    · rw [stampFloor_all (by omega), hzero]
      rfl
    · rw [stampFloor_snoc hcut, hfloor]
  have hstamp : (newEntry blake3 slot record tsUtcMs monotonicNs).monotonicNs.toNat =
      max monotonicNs.toNat (stampFloor hist cut) := by
    rw [← hfloor]
    exact toNat_max _ _
  have hnumber : (newEntry blake3 slot record tsUtcMs monotonicNs).seq.toNat =
      hist.length + 1 := hseq
  unfold i64Max
  by_cases hfits : (newEntry blake3 slot record tsUtcMs monotonicNs).Fits
  · obtain ⟨db', hok, -⟩ := h.appendWithin_fits hslot hfits
    obtain ⟨hnum, hmono⟩ := hfits
    exact .inl ⟨by omega, by omega, _, db', hok, hstamp⟩
  · refine .inr ⟨?_, appendWithin_unfit hslot hfits⟩
    by_contra hbelow
    exact hfits ⟨by omega, by omega⟩

/-- After the largest stamp every append fails, whatever its reading. -/
theorem Chained.append_blocked (h : db.Chained blake3 (hist ++ [e]) cut)
    (hcut : cut ≤ hist.length) (hlast : e.monotonicNs.toNat = i64Max) (record : AuditRecord)
    (tsUtcMs : Int64) (monotonicNs : UInt64) :
    ∃ error, db.appendWithin blake3 record tsUtcMs monotonicNs = .error (.store error) := by
  rcases h.appendWithin_stamp record tsUtcMs monotonicNs with ⟨-, hfits, -⟩ | ⟨-, herror⟩
  · rw [stampFloor_snoc hcut, hlast] at hfits
    omega
  · exact herror

end AuditDb

namespace Log

open Transition

abbrev Trace := List (AuditEvent × AuditObs)

/-- A reading at which an append keeps the order and leaves room for the next:
above everything ever appended if no row is left to compare it with, and not
such that the largest stamp is given. -/
def Timely (trace : Trace) (s : Log) (monotonicNs : UInt64) : Prop :=
  (s.db.audit.rows = [] → ∀ e ∈ appended trace, e.monotonicNs < monotonicNs) ∧
    monotonicNs.toNat ≠ i64Max ∧ ∀ row ∈ s.db.audit.rows, row.monotonicNs.toInt ≠ i64Max - 1

/-- The appends that end in an event have timely readings.  A reading beyond a
signed column only fails itself. -/
def TimelyEvent (trace : Trace) (s : Log) : AuditEvent → Prop
  | .finish _ =>
      match s.holder with
      | some (_, .append _ _ monotonicNs) =>
          monotonicNs.toNat ≤ i64Max → Timely trace s monotonicNs
      | _ => True
  | _ => True

/-- The stamps of the entries increase. -/
def Increasing (es : List AuditEntry) : Prop :=
  es.Pairwise fun e f => e.monotonicNs < f.monotonicNs

/-- An append with any reading that fits its column goes through, unless the
numbers are used up. -/
def Appendable (blake3 : List UInt8 → Digest) (trace : Trace) (s : Log) : Prop :=
  (appended trace).length < i64Max → ∀ (record : AuditRecord) (tsUtcMs : Int64)
    (monotonicNs : UInt64), monotonicNs.toNat ≤ i64Max →
    ∃ e db, s.db.appendWithin blake3 record tsUtcMs monotonicNs = .ok (e, db)

/-- What holds along a run of timely appends. -/
structure Stamped (blake3 : List UInt8 → Digest) (trace : Trace) (s : Log) : Prop where
  chained : s.db.Chained blake3 (appended trace) (removed trace)
  increasing : Increasing (appended trace)
  below : ∀ e ∈ appended trace, e.monotonicNs.toNat < i64Max

theorem increasing_snoc {es : List AuditEntry} {e : AuditEntry} (h : Increasing es)
    (hlast : ∀ f ∈ es, f.monotonicNs < e.monotonicNs) : Increasing (es ++ [e]) := by
  refine List.pairwise_append.mpr ⟨h, List.pairwise_singleton _ e, fun f hf g hg => ?_⟩
  obtain rfl := List.mem_singleton.mp hg
  exact hlast f hf

variable {trace : Trace} {s s' : Log} {ev : AuditEvent} {o : AuditObs}

/-- **A timely append is stamped above everything before it**, and below the
largest stamp. -/
theorem Stamped.append (h : Stamped blake3 trace s) {record : AuditRecord} {tsUtcMs : Int64}
    {monotonicNs : UInt64} {e : AuditEntry} {db : AuditDb}
    (htimely : monotonicNs.toNat ≤ i64Max → Timely trace s monotonicNs)
    (happend : s.db.appendWithin blake3 record tsUtcMs monotonicNs = .ok (e, db)) :
    (∀ f ∈ appended trace, f.monotonicNs < e.monotonicNs) ∧ e.monotonicNs.toNat < i64Max := by
  rcases h.chained.appendWithin_stamp record tsUtcMs monotonicNs with
    ⟨-, hfits, e', db', hok, hstamp⟩ | ⟨-, error, herror⟩
  · rw [happend] at hok
    cases hok
    obtain ⟨habove, hroom, hlast⟩ := htimely (by omega)
    rcases h.chained.tailEntry with ⟨hall, -⟩ | ⟨init, tail, hhist, hcut, -⟩
    · -- No row is left: the reading itself is the stamp.
      rw [AuditDb.stampFloor_all hall.le] at hstamp hfits
      refine ⟨fun f hf => ?_, by omega⟩
      have hlt := UInt64.lt_iff_toNat_lt.mp (habove (h.chained.rows_nil hall) f hf)
      exact UInt64.lt_iff_toNat_lt.mpr (by omega)
    · have hrows := h.chained.rows
      have hbelow := h.below
      have hincreasing := h.increasing
      rw [hhist, AuditDb.stampFloor_snoc hcut] at hstamp hfits
      rw [hhist, List.drop_append_of_le_length hcut] at hrows
      rw [hhist] at hbelow hincreasing
      have htail := hbelow tail (by simp)
      have hrow := hlast tail.stored (by
        rw [hrows, List.map_append]
        simp)
      have hfield : tail.stored.monotonicNs.toInt = tail.monotonicNs.toNat :=
        Int64.toInt_ofNat_of_lt (by
          unfold i64Max at htail
          omega)
      rw [hfield] at hrow
      refine ⟨fun f hf => ?_, by omega⟩
      rw [hhist] at hf
      rcases List.mem_append.mp hf with hf | hf
      · have hlt := (List.pairwise_append.mp hincreasing).2.2 f hf tail (List.mem_singleton_self _)
        have hlt := UInt64.lt_iff_toNat_lt.mp hlt
        exact UInt64.lt_iff_toNat_lt.mpr (by omega)
      · obtain rfl := List.mem_singleton.mp hf
        exact UInt64.lt_iff_toNat_lt.mpr (by omega)
  · rw [happend] at herror
    cases herror

theorem appended_none (o : AuditObs) (h : appendedBy o = none) (ev : AuditEvent) :
    appended (trace ++ [(ev, o)]) = appended trace := by
  rw [appended_snoc, h, Option.toList_none, List.append_nil]

/-- An event whose call appends nothing keeps the stamps. -/
theorem Stamped.of_none (h : Stamped blake3 trace s)
    (hchained : s'.db.Chained blake3 (appended (trace ++ [(ev, o)])) (removed (trace ++ [(ev, o)])))
    (hnone : appendedBy o = none) : Stamped blake3 (trace ++ [(ev, o)]) s' := by
  have hsame := @appended_none trace o hnone ev
  refine ⟨hchained, ?_, ?_⟩
  · rw [hsame]
    exact h.increasing
  · rw [hsame]
    exact h.below

theorem Stamped.step (h : Stamped blake3 trace s) (htimely : TimelyEvent trace s ev)
    (hstep : Log.step blake3 s ev = some (s', o))
    (hchained : s'.db.Chained blake3 (appended (trace ++ [(ev, o)]))
      (removed (trace ++ [(ev, o)]))) :
    Stamped blake3 (trace ++ [(ev, o)]) s' := by
  by_cases hfinish : ∃ conn, ev = .finish conn
  · obtain ⟨conn, rfl⟩ := hfinish
    obtain ⟨call, hholder, ⟨fault, -, -, rfl⟩ | ⟨reply, db, hbody, -, rfl⟩⟩ := finish_cases hstep
    · exact h.of_none hchained rfl
    · cases call with
      | append record tsUtcMs monotonicNs =>
          dsimp only [body] at hbody
          obtain ⟨⟨e, db'⟩, happend, hreply⟩ := Except.bind_eq_ok.mp hbody
          cases hreply
          dsimp only [TimelyEvent] at htimely
          rw [hholder] at htimely
          obtain ⟨hlast, hbelow⟩ := h.append htimely happend
          have hsnoc := appended_snoc trace (.finish conn) (.returned (.appended e))
          change _ = appended trace ++ [e] at hsnoc
          refine ⟨hchained, ?_, ?_⟩
          · rw [hsnoc]
            exact increasing_snoc h.increasing hlast
          · rw [hsnoc]
            intro f hf
            rcases List.mem_append.mp hf with hf | hf
            · exact h.below f hf
            · obtain rfl := List.mem_singleton.mp hf
              exact hbelow
      | rotate maxEntries signer tsUtcMs =>
          dsimp only [body] at hbody
          obtain ⟨⟨cp, db'⟩, -, hreply⟩ := Except.bind_eq_ok.mp hbody
          cases hreply
          exact h.of_none hchained rfl
  · have hother := db_of_step hstep fun conn hconn => hfinish ⟨conn, hconn⟩
    exact h.of_none hchained hother.2.1

/-- Stamps below the largest leave room for the next. -/
theorem Stamped.appendable (h : Stamped blake3 trace s) : Appendable blake3 trace s := by
  intro hlength record tsUtcMs monotonicNs hreading
  have hfloor : AuditDb.stampFloor (appended trace) (removed trace) ≤ i64Max := by
    rcases h.chained.tailEntry with ⟨hall, -⟩ | ⟨init, tail, hhist, hcut, -⟩
    · rw [AuditDb.stampFloor_all hall.le]
      exact Nat.zero_le _
    · have htail := h.below tail (by
        rw [hhist]
        simp)
      rw [hhist, AuditDb.stampFloor_snoc hcut]
      omega
  rcases h.chained.appendWithin_stamp record tsUtcMs monotonicNs with
    ⟨-, -, e, db, hok, -⟩ | ⟨hunfit, -⟩
  · exact ⟨e, db, hok⟩
  · omega

/-- **Along every run of timely appends the stamps increase**, over all the
rotations, and an append with any reading still goes through. -/
theorem monotonic_order (hrun : Run (step blake3) TimelyEvent empty trace s) :
    Increasing (appended trace) ∧ Appendable blake3 trace s := by
  have hstamped : Run (step blake3) unguarded empty trace s ∧ Stamped blake3 trace s := by
    induction hrun with
    | nil =>
        exact ⟨.nil, AuditDb.chained_empty, .nil, fun e he => nomatch he⟩
    | snoc _ guard taken ih =>
        have hrun' := ih.1.snoc trivial taken
        exact ⟨hrun', ih.2.step guard taken (Log.chained hrun')⟩
  exact ⟨hstamped.2.increasing, hstamped.2.appendable⟩

instance (trace : Trace) (s : Log) (monotonicNs : UInt64) :
    Decidable (Timely trace s monotonicNs) :=
  inferInstanceAs (Decidable (_ ∧ _ ∧ _))

instance (trace : Trace) (s : Log) : (ev : AuditEvent) → Decidable (TimelyEvent trace s ev)
  | .finish _ =>
      match h : s.holder with
      | some (_, .append _ _ monotonicNs) =>
          decidable_of_iff (monotonicNs.toNat ≤ i64Max → Timely trace s monotonicNs) (by
            dsimp only [TimelyEvent]
            rw [h])
      | some (_, .rotate _ _ _) => .isTrue (by
          dsimp only [TimelyEvent]
          rw [h]
          trivial)
      | none => .isTrue (by
          dsimp only [TimelyEvent]
          rw [h]
          trivial)
  | .begin _ _ | .abandon _ => .isTrue trivial

/-- A stale reading while a row is left, and a fresh one after none is. -/
def timelyEvents : List AuditEvent :=
  [.begin 0 (.append (sampleRecord .ok) 1000 5), .finish 0,
   .begin 0 (.append (sampleRecord .ok) 1000 3), .finish 0,
   .begin 1 (.rotate 0 sampleSigner 2000), .finish 1,
   .begin 0 (.append (sampleRecord .denied) 3000 9), .finish 0]

theorem monotonic_order_sample :
    ∃ trace s, (appended trace).map (fun e => e.monotonicNs.toNat) = [5, 6, 9] ∧
      Run (step Id.of) TimelyEvent empty trace s ∧
      Increasing (appended trace) ∧ Appendable Id.of trace s := by
  have hexec : ((exec (step Id.of) TimelyEvent timelyEvents [] empty).map fun r =>
      (appended r.1).map fun e => e.monotonicNs.toNat) = some [5, 6, 9] := by
    decide +kernel
  obtain ⟨⟨trace, s⟩, hrun, hstamps⟩ := Option.map_eq_some_iff.mp hexec
  exact ⟨trace, s, hstamps, run_of_exec _ hrun, monotonic_order (run_of_exec _ hrun)⟩

/-- **A rotation to nothing forgets the order**: the next stamp may be below the
last. -/
theorem order_lost :
    ¬ ∀ trace s, Run (step Id.of) unguarded empty trace s →
      Increasing (appended trace) ∧ Appendable Id.of trace s := by
  intro hall
  have hexec : ((exec (step Id.of) unguarded sampleEvents [] empty).map fun r =>
      (appended r.1).map fun e => e.monotonicNs) = some [5, 4] := by
    decide +kernel
  obtain ⟨⟨trace, s⟩, hrun, hstamps⟩ := Option.map_eq_some_iff.mp hexec
  have hincreasing := (hall trace s (run_of_exec _ hrun)).1
  have hpairs : ((appended trace).map fun e => e.monotonicNs).Pairwise (· < ·) :=
    List.pairwise_map.mpr hincreasing
  change (appended trace).map (fun e => e.monotonicNs) = [5, 4] at hstamps
  rw [hstamps] at hpairs
  exact absurd hpairs (by decide)

end Log

end Store
