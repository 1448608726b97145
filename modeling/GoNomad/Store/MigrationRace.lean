import GoNomad.Lib.Run
import GoNomad.Store.Migrations

/-!
# Two processes that migrate one database

Each process reads the version, works out what is pending and only then takes
the write lock.  Readers see what was committed; the holder of the lock works on
a copy until it commits.

* `once` — where the version has not moved when the lock is taken, every script
  runs once and both calls succeed;
* `migrated_twice` — a process that read the version before the other committed.
-/

namespace Store

namespace Migrations

/-- Where a process stands in `apply_set`. -/
inductive Process
  | opened
  /-- The bookkeeping table exists. -/
  | prepared
  /-- The version was read and scripts are pending. -/
  | waiting (fromVersion : UInt32)
  /-- The lock is held and these scripts are left. -/
  | running (fromVersion : UInt32) (rest : List Migration)
  | finished (result : Except StoreError MigrationReport)

/-- A database that two processes share. -/
structure Race (σ : Type) where
  db : Database σ
  /-- What the holder of the write lock has done to its copy. -/
  transaction : Option (Database σ)
  processes : Bool → Process

namespace Race

variable {σ : Type}

/-- The state after a process moved on. -/
def move (s : Race σ) (p : Bool) (process : Process) : Race σ :=
  { s with processes := Function.update s.processes p process }

/-- Two processes that open a database. -/
def start (db : Database σ) : Race σ := ⟨db, none, fun _ => .opened⟩

variable (execute : String → Program (Database σ) DatabaseError Unit) (ms : List Migration)
  (clock : Bool → Int)

/-- One step of a process, with the version of the script it ran. -/
def step (s : Race σ) (p : Bool) : Option (Race σ × Option UInt32) :=
  match s.processes p with
  | .opened =>
      match validate 0 ms with
      | .error err => some (s.move p (.finished (.error err)), none)
      | .ok () =>
          -- Creating the table waits for the lock; finding it there does not.
          if s.transaction.isNone ∨ s.db.versions.isSome then
            some ({ s with db := ensured s.db }.move p .prepared, none)
          else none
  | .prepared =>
      match (currentVersion.exec s.db).1 with
      | .error err => some (s.move p (.finished (.error err)), none)
      | .ok v =>
          if newest ms < v then
            some (s.move p (.finished (.error (.schemaTooNew v (newest ms)))), none)
          else if pending v ms = [] then
            some (s.move p (.finished (.ok ⟨v, v, []⟩)), none)
          else some (s.move p (.waiting v), none)
  | .waiting v =>
      if s.transaction.isNone then
        some ({ s with transaction := some s.db }.move p (.running v (pending v ms)), none)
      else none
  | .running v rest =>
      match s.transaction, rest with
      | none, _ => none
      | some copy, [] =>
          let report := ⟨v, newest (pending v ms), (pending v ms).map Migration.version⟩
          some ({ s with db := copy, transaction := none }.move p (.finished (.ok report)), none)
      | some copy, m :: rest =>
          match (runOne execute m (clock p)).exec copy with
          | (.ok (), copy') =>
              some ({ s with transaction := some copy' }.move p (.running v rest), some m.version)
          | (.error _, _) =>
              let err := .migration m.version m.name v
              some ({ s with transaction := none }.move p (.finished (.error err)), some m.version)
  | .finished _ => none

/-- The versions whose scripts ran, in order. -/
def executed (trace : List (Bool × Option UInt32)) : List UInt32 := trace.filterMap Prod.snd

/-- The version that a process read is still the recorded one when it takes the
lock. -/
def Unmoved (_ : List (Bool × Option UInt32)) (s : Race σ) (p : Bool) : Prop :=
  ∀ v, s.processes p = .waiting v → Recorded s.db v

instance (db : Database σ) (v : UInt32) : Decidable (Recorded db v) :=
  inferInstanceAs (Decidable (maxVersion (history db) = _))

instance (trace : List (Bool × Option UInt32)) (s : Race σ) (p : Bool) :
    Decidable (Unmoved trace s p) :=
  match h : s.processes p with
  | .waiting v => decidable_of_iff (Recorded s.db v)
      ⟨fun hv w hw => by rw [h] at hw; cases hw; exact hv, fun hall => hall v h⟩
  | .opened | .prepared | .running _ _ | .finished _ => .isTrue fun w hw => by rw [h] at hw; cases hw

variable {execute ms clock} {db₀ : Database σ} {s s' : Race σ} {p q : Bool} {v : UInt32}
  {o : Option UInt32} {trace : List (Bool × Option UInt32)} {t : Int}

theorem executed_snoc : executed (trace ++ [(p, o)]) = executed trace ++ o.toList := by
  unfold executed
  rw [List.filterMap_append]
  cases o with
  | none => rfl
  | some version => rfl

@[simp] theorem move_same (process : Process) : (s.move p process).processes p = process :=
  Function.update_self ..

theorem move_other (process : Process) (hne : q ≠ p) :
    (s.move p process).processes q = s.processes q :=
  Function.update_of_ne hne ..

/-! ### Every reachable state -/

/-- Where a process stands that does not hold the lock: once it is under way, the
bookkeeping table exists. -/
def Ready (ms : List Migration) (v : UInt32) (prepared : Prop) (process : Process) : Prop :=
  process = .opened ∨ prepared ∧ (process = .prepared ∨
    (process = .waiting v ∧ pending v ms ≠ []) ∨ ∃ r, process = .finished (.ok r))

theorem Ready.mono {prepared prepared' : Prop} {process : Process} (h : Ready ms v prepared process)
    (himp : prepared → prepared') : Ready ms v prepared' process :=
  h.imp_right fun ⟨hp, hrest⟩ => ⟨himp hp, hrest⟩

/-- How far the two processes have come: nothing has run; one holds the lock and
has run a part; or one has committed everything. -/
inductive Reached (execute : String → Program (Database σ) DatabaseError Unit)
    (ms : List Migration) (clock : Bool → Int) (db₀ : Database σ) (v : UInt32) (s : Race σ) :
    List UInt32 → Prop
  | before (hdb : s.db = db₀ ∨ s.db = ensured db₀) (hfree : s.transaction = none)
      (hready : ∀ p, Ready ms v (s.db = ensured db₀) (s.processes p))
      (hdone : ∀ p r, s.processes p = .finished r → pending v ms = []) :
      Reached execute ms clock db₀ v s []
  | during {q : Bool} {ran rest : List Migration} {copy : Database σ}
      (hsplit : pending v ms = ran ++ rest) (hsome : pending v ms ≠ [])
      (hdb : s.db = ensured db₀) (hheld : s.transaction = some copy)
      (hq : s.processes q = .running v rest)
      (hcopy : (runPending execute v (clock q) ran).exec (ensured db₀) = (.ok (), copy))
      (hready : ∀ p, p ≠ q → Ready ms v True (s.processes p)) :
      Reached execute ms clock db₀ v s (ran.map Migration.version)
  | after {q : Bool} {r : MigrationReport} (hsome : pending v ms ≠ [])
      (hdb : (runPending execute v (clock q) (pending v ms)).exec (ensured db₀) = (.ok (), s.db))
      (hfree : s.transaction = none) (hq : s.processes q = .finished (.ok r))
      (hready : ∀ p, p ≠ q → Ready ms v True (s.processes p)) :
      Reached execute ms clock db₀ v s ((pending v ms).map Migration.version)

/-- A set that one process alone can apply. -/
structure Applies (execute : String → Program (Database σ) DatabaseError Unit)
    (ms : List Migration) (db₀ : Database σ) (v : UInt32) : Prop where
  valid : Ascending ms
  recorded : Recorded db₀ v
  newest : v.toNat ≤ (newest ms).toNat
  apart : ∀ m ∈ ms, Apart execute m.sql
  runs : ∀ t, ∃ d, (runPending execute v t (pending v ms)).exec (ensured db₀) = (.ok (), d)

theorem applies_of_ok {r : MigrationReport} {d : Database σ} (hvalid : Ascending ms)
    (hapart : ∀ m ∈ ms, Apart execute m.sql)
    (hrun : (applySet execute ms t).exec db₀ = (.ok r, d)) :
    ∃ v, Applies execute ms db₀ v ∧ r.applied = (pending v ms).map Migration.version := by
  obtain ⟨v, hv, hle, happlied, hcase⟩ := applied_of_ok hvalid hrun
  refine ⟨v, ⟨hvalid, hv, hle, hapart, fun t' => ?_⟩, happlied⟩
  rcases hcase with ⟨hnone, -⟩ | ⟨-, hran⟩
  · rw [hnone]
    exact ⟨_, rfl⟩
  · obtain ⟨d', hran', -⟩ := same_runPending v t' (Same.refl _)
      (fun m hm => hapart m (mem_pending.mp hm).1) hran
    exact ⟨d', hran'⟩

/-- A process that reads the version of a settled or untouched database. -/
theorem step_prepared {w : UInt32} (hp : s.processes p = .prepared) (hw : Recorded s.db w)
    (hle : w.toNat ≤ (Migrations.newest ms).toNat) (hstep : step execute ms clock s p = some (s', o)) :
    o = none ∧ (pending w ms = [] ∧ s' = s.move p (.finished (.ok ⟨w, w, []⟩)) ∨
      pending w ms ≠ [] ∧ s' = s.move p (.waiting w)) := by
  unfold step at hstep
  rw [hp] at hstep
  dsimp only at hstep
  rw [hw.exec] at hstep
  dsimp only at hstep
  rw [if_neg (by rw [UInt32.lt_iff_toNat_lt]; omega)] at hstep
  split_ifs at hstep with hnone
  · cases hstep
    exact ⟨rfl, .inl ⟨hnone, rfl⟩⟩
  · cases hstep
    exact ⟨rfl, .inr ⟨hnone, rfl⟩⟩

variable (h : Applies execute ms db₀ v)

include h

/-- After everything ran nothing is pending. -/
theorem Applies.settled {d : Database σ} (hsome : pending v ms ≠ [])
    (hran : (runPending execute v t (pending v ms)).exec (ensured db₀) = (.ok (), d)) :
    ∃ w, Recorded d w ∧ v.toNat < w.toNat ∧ w.toNat ≤ (Migrations.newest ms).toNat ∧
      pending w ms = [] ∧ ensured d = d := by
  have hpending : ∀ m ∈ pending v ms, Apart execute m.sql :=
    fun m hm => h.apart m (mem_pending.mp hm).1
  obtain ⟨last, hlast, hlastEq⟩ := newest_mem hsome
  obtain ⟨hlastMem, hlastAbove⟩ := mem_pending.mp hlast
  have hvalid' : Ascending (ms ++ []) := by
    rw [List.append_nil]
    exact h.valid
  have happend := pending_append hvalid' hsome
  rw [List.append_nil, List.self_eq_append_right] at happend
  refine ⟨Migrations.newest (pending v ms), recorded_runPending hpending hran hsome fun row hrow => ?_,
    by rw [← hlastEq]; exact hlastAbove,
    newest_le fun m hm => le_newest (mem_pending.mp hm).1, happend,
    ensured_eq (versions_runPending hpending hran (Option.some_ne_none _))⟩
  have hle := h.recorded.le row hrow
  rw [← hlastEq]
  omega

theorem step_opened (hp : s.processes p = .opened)
    (hstep : step execute ms clock s p = some (s', o)) :
    o = none ∧ (s.transaction = none ∨ s.db.versions.isSome = true) ∧
      s' = { s with db := ensured s.db }.move p .prepared := by
  unfold step at hstep
  rw [hp] at hstep
  dsimp only at hstep
  rw [validate_iff.mpr h.valid] at hstep
  dsimp only at hstep
  split_ifs at hstep with hfree
  cases hstep
  exact ⟨rfl, hfree.imp_left Option.isNone_iff_eq_none.mp, rfl⟩

/-- A process that does not hold the lock moves on. -/
theorem Applies.ready {w : UInt32} (hready : Ready ms v (s.db = ensured s.db) (s.processes p))
    (hw : Recorded s.db w) (hle : w.toNat ≤ (Migrations.newest ms).toNat)
    (hsame : pending w ms ≠ [] → w = v)
    (hstep : step execute ms clock s p = some (s', o)) :
    (∃ process, s' = { s with db := ensured s.db }.move p process ∧ o = none ∧
      Ready ms v True process ∧ (∀ r, process = .finished r → pending w ms = [])) ∨
    (s.processes p = .waiting v ∧ s.transaction = none ∧ o = none ∧ pending v ms ≠ [] ∧
      s' = { s with transaction := some s.db }.move p (.running v (pending v ms))) := by
  rcases hready with hp | ⟨hprepared, hp | ⟨hp, hsome⟩ | ⟨r, hp⟩⟩
  · obtain ⟨rfl, -, rfl⟩ := step_opened h hp hstep
    exact .inl ⟨.prepared, rfl, rfl, .inr ⟨trivial, .inl rfl⟩, fun r hr => by cases hr⟩
  · obtain ⟨rfl, ⟨hnone, rfl⟩ | ⟨hsome, rfl⟩⟩ := step_prepared hp hw hle hstep
    · refine .inl ⟨.finished (.ok ⟨w, w, []⟩), ?_, rfl, .inr ⟨trivial, .inr (.inr ⟨_, rfl⟩)⟩,
        fun _ _ => hnone⟩
      rw [← hprepared]
    · refine .inl ⟨.waiting w, ?_, rfl, ?_, fun r hr => by cases hr⟩
      · rw [← hprepared]
      · have hwv := hsame hsome
        subst hwv
        exact .inr ⟨trivial, .inr (.inl ⟨rfl, hsome⟩)⟩
  · unfold step at hstep
    rw [hp] at hstep
    dsimp only at hstep
    split_ifs at hstep with hfree
    cases hstep
    exact .inr ⟨hp, Option.isNone_iff_eq_none.mp hfree, rfl, hsome, rfl⟩
  · unfold step at hstep
    rw [hp] at hstep
    cases hstep

/-- **One step** of either process. -/
theorem Applies.step (hreached : Reached execute ms clock db₀ v s (executed trace))
    (hunmoved : Unmoved trace s p) (hstep : Race.step execute ms clock s p = some (s', o)) :
    Reached execute ms clock db₀ v s' (executed (trace ++ [(p, o)])) := by
  rw [executed_snoc]
  generalize executed trace = ran at hreached
  cases hreached with
  | before hdb hfree hready hdone =>
      have hrecorded : Recorded s.db v := by
        rcases hdb with hdb | hdb
        · rw [hdb]
          exact h.recorded
        · rw [hdb]
          exact h.recorded
      have hensured : ensured s.db = ensured db₀ := by
        rcases hdb with hdb | hdb
        · rw [hdb]
        · rw [hdb]
          rfl
      rcases h.ready ((hready p).mono fun hp => by rw [hensured]; exact hp) hrecorded h.newest
        (fun _ => rfl) hstep with
        ⟨process, rfl, rfl, hnew, hfinished⟩ | ⟨hp, -, rfl, hsome, rfl⟩
      · refine .before (.inr hensured) hfree (fun q => ?_) fun q r hq => ?_
        · by_cases hqp : q = p
          · subst hqp
            rw [move_same]
            exact hnew.mono fun _ => hensured
          · rw [move_other _ hqp]
            exact (hready q).mono fun _ => hensured
        · by_cases hqp : q = p
          · subst hqp
            rw [move_same] at hq
            exact hfinished r hq
          · rw [move_other _ hqp] at hq
            exact hdone q r hq
      · have hprepared : s.db = ensured db₀ := by
          rcases hready p with hopened | ⟨hprepared, -⟩
          · rw [hp] at hopened
            cases hopened
          · exact hprepared
        show Reached execute ms clock db₀ v _ (([] : List Migration).map Migration.version)
        refine .during (List.nil_append _).symm hsome hprepared ?_ (move_same _) rfl fun q hqp => ?_
        · show some s.db = _
          rw [hprepared]
        · rw [move_other _ hqp]
          exact (hready q).mono fun _ => trivial
  | @during q ran rest copy hsplit hsome hdb hheld hq hcopy hready =>
      by_cases hpq : p = q
      · subst hpq
        unfold Race.step at hstep
        rw [hq] at hstep
        dsimp only at hstep
        rw [hheld] at hstep
        cases rest with
        | nil =>
            cases hstep
            rw [List.append_nil] at hsplit
            show Reached execute ms clock db₀ v _ (ran.map Migration.version ++ [])
            rw [List.append_nil, ← hsplit]
            refine .after hsome ?_ rfl (move_same _) fun q hqp => ?_
            · rw [hsplit]
              exact hcopy
            · rw [move_other _ hqp]
              exact hready q hqp
        | cons m rest =>
            obtain ⟨d, hd⟩ := h.runs (clock p)
            rw [hsplit] at hd
            obtain ⟨e, hran, hrest⟩ := exec_runPending_append.mp hd
            rw [hcopy] at hran
            cases hran
            obtain ⟨e, hone, -⟩ := exec_runPending_cons.mp hrest
            dsimp only at hstep
            rw [hone] at hstep
            cases hstep
            have hmap : ran.map Migration.version ++ (some m.version).toList =
                (ran ++ [m]).map Migration.version := by
              rw [List.map_append]
              rfl
            rw [hmap]
            refine .during (by rw [hsplit, List.append_assoc]; rfl) hsome hdb rfl (move_same _)
              ?_ fun q hqp => ?_
            · exact exec_runPending_append.mpr ⟨copy, hcopy, exec_runPending_cons.mpr ⟨e, hone, rfl⟩⟩
            · rw [move_other _ hqp]
              exact hready q hqp
      · have hensured : s.db = ensured s.db := by
          rw [hdb]
          rfl
        have hrecorded : Recorded s.db v := by
          rw [hdb]
          exact h.recorded
        rcases h.ready ((hready p hpq).mono fun _ => hensured) hrecorded h.newest (fun _ => rfl)
          hstep with ⟨process, rfl, rfl, hnew, -⟩ | ⟨-, hfree, -⟩
        · show Reached execute ms clock db₀ v _ (ran.map Migration.version ++ [])
          rw [List.append_nil]
          refine .during hsplit hsome (hensured.symm.trans hdb) hheld ?_ hcopy fun q' hq' => ?_
          · rw [move_other _ fun hqp => hpq hqp.symm]
            exact hq
          · by_cases hqp : q' = p
            · subst hqp
              rw [move_same]
              exact hnew
            · rw [move_other _ hqp]
              exact hready q' hq'
        · rw [hheld] at hfree
          cases hfree
  | @after q r hsome hdb hfree hq hready =>
      obtain ⟨w, hw, hlt, hle, hnone, hensured⟩ := h.settled hsome hdb
      by_cases hpq : p = q
      · subst hpq
        unfold Race.step at hstep
        rw [hq] at hstep
        cases hstep
      · rcases h.ready ((hready p hpq).mono fun _ => hensured.symm) hw hle
          (fun hpending => absurd hnone hpending) hstep with
          ⟨process, rfl, rfl, hnew, -⟩ | ⟨hp, -, -, -, -⟩
        · show Reached execute ms clock db₀ v _ ((pending v ms).map Migration.version ++ [])
          rw [List.append_nil]
          have hq' : (({ s with db := ensured s.db } : Race σ).move p process).processes q =
              .finished (.ok r) := by
            rw [move_other _ fun hqp => hpq hqp.symm]
            exact hq
          refine .after hsome ?_ hfree hq' fun q' hne => ?_
          · show _ = (Except.ok (), ensured s.db)
            rw [hensured]
            exact hdb
          · by_cases hqp : q' = p
            · subst hqp
              rw [move_same]
              exact hnew
            · rw [move_other _ hqp]
              exact hready q' hne
        · -- The version has moved since this process read it.
          have hv := hunmoved v hp
          unfold Recorded at hv hw
          omega

/-- **Every run** in which the version does not move under a process. -/
theorem Applies.run (hrun : Transition.Run (Race.step execute ms clock) Unmoved (start db₀) trace s) :
    Reached execute ms clock db₀ v s (executed trace) := by
  refine hrun.invariant (fun trace s => Reached execute ms clock db₀ v s (executed trace)) ?_ ?_
  · exact .before (.inl rfl) rfl (fun _ => .inl rfl) fun _ _ hp => by cases hp
  · intro trace s p s' o hreached hunmoved hstep
    exact h.step hreached hunmoved hstep

/-- The versions that are pending are different. -/
theorem Applies.pending_nodup : ((pending v ms).map Migration.version).Nodup := by
  refine List.Pairwise.map _ ?_ (h.valid.2.sublist List.filter_sublist)
  intro a b hlt heq
  rw [heq] at hlt
  exact Nat.lt_irrefl _ hlt

/-- A process that can move on, unless both have finished. -/
theorem Applies.progress (hreached : Reached execute ms clock db₀ v s (executed trace))
    (hleft : ∃ p, ∀ r, s.processes p ≠ .finished r) :
    ∃ p s' o, Race.step execute ms clock s p = some (s', o) := by
  have hfreed : s.transaction = none → (∀ p, ∀ w rest, s.processes p ≠ .running w rest) →
      ∃ p s' o, Race.step execute ms clock s p = some (s', o) := by
    intro hfree hnone
    obtain ⟨p, hp⟩ := hleft
    refine ⟨p, ?_⟩
    unfold Race.step
    cases hprocess : s.processes p with
    | opened =>
        dsimp only
        rw [validate_iff.mpr h.valid]
        dsimp only
        rw [if_pos (.inl (by rw [hfree]; rfl))]
        exact ⟨_, _, rfl⟩
    | prepared =>
        dsimp only
        cases (currentVersion.exec s.db).1 with
        | error err => exact ⟨_, _, rfl⟩
        | ok w =>
            dsimp only
            split_ifs
            · exact ⟨_, _, rfl⟩
            · exact ⟨_, _, rfl⟩
            · exact ⟨_, _, rfl⟩
    | waiting w =>
        dsimp only
        rw [if_pos (by rw [hfree]; rfl)]
        exact ⟨_, _, rfl⟩
    | running w rest => exact absurd hprocess (hnone p w rest)
    | finished r => exact absurd hprocess (hp r)
  have hidle : ∀ {prepared : Prop} {process : Process}, Ready ms v prepared process →
      ∀ w rest, process ≠ .running w rest := by
    rintro prepared process (rfl | ⟨-, rfl | ⟨rfl, -⟩ | ⟨r, rfl⟩⟩) w rest hrunning
    · cases hrunning
    · cases hrunning
    · cases hrunning
    · cases hrunning
  generalize executed trace = ran at hreached
  cases hreached with
  | before hdb hfree hready hdone => exact hfreed hfree fun p => hidle (hready p)
  | @during q ran rest copy hsplit hsome hdb hheld hq hcopy hready =>
      refine ⟨q, ?_⟩
      unfold Race.step
      rw [hq]
      dsimp only
      rw [hheld]
      cases rest with
      | nil => exact ⟨_, _, rfl⟩
      | cons m rest =>
          dsimp only
          rcases (runOne execute m (clock q)).exec copy with ⟨r, copy'⟩
          cases r with
          | ok u => exact ⟨_, _, rfl⟩
          | error err => exact ⟨_, _, rfl⟩
  | @after q r hsome hdb hfree hq hready =>
      refine hfreed hfree fun p w rest hrunning => ?_
      by_cases hpq : p = q
      · subst hpq
        rw [hq] at hrunning
        cases hrunning
      · exact hidle (hready p hpq) w rest hrunning

omit h

/-- What two processes that migrate one database have done. -/
structure Once (execute : String → Program (Database σ) DatabaseError Unit) (ms : List Migration)
    (clock : Bool → Int) (todo : List UInt32) (s : Race σ) (ran : List UInt32) : Prop where
  succeeds : ∀ p r, s.processes p = .finished r → ∃ report, r = .ok report
  nodup : ran.Nodup
  part : ran <+: todo
  whole : (∀ p, ∃ r, s.processes p = .finished r) → ran = todo
  progress : (∃ p, ∀ r, s.processes p ≠ .finished r) →
    ∃ p s' o, Race.step execute ms clock s p = some (s', o)

/-- The moves of a first process that applies three scripts, and of a second. -/
def inTurn : List Bool := .replicate 7 true ++ .replicate 2 false

/-- The second process reads the version before the first one commits. -/
def overlapping : List Bool := [true, true, false, false] ++ .replicate 5 true ++ [false, false]

end Race

end Migrations

end Store
