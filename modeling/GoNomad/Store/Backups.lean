import GoNomad.Lib.Run
import GoNomad.Store.Migrations
import Mathlib.Logic.Function.Basic

/-!
# Backups before migrations

Opening a store copies the database file aside before a migration changes it, as
`<path>.pre-v<version>.bak`.  What was written last stands in a log beside the file,
which is folded in first.  The process can be killed between any two steps, also
within the copy.

* `Ready.step` — **the invariant**: what a build that is about to migrate has copied;
* `Kept.step` — a copy stays as it is once the database is newer;
* `rollback` — in every run, the copy is the database that was migrated, and an older
  build opens it as it is.
-/

namespace Store.Backups

open Migrations
open Function (update)

/-- A copy of the database file. -/
inductive Copy (σ : Type)
  | absent
  /-- Not copied to its end. -/
  | torn
  | whole (db : Database σ)

/-- How far a build has got in opening the store. -/
inductive Opening
  | idle
  | configured (build : List Migration)
  /-- Copies the file, at a version. -/
  | copying (build : List Migration) (fromVersion : UInt32)
  | backedUp (build : List Migration)
  deriving DecidableEq

/-- The database file, the database with its log, and the copies by version. -/
structure Disk (σ : Type) where
  file : Database σ
  live : Database σ
  copies : UInt32 → Copy σ
  opening : Opening

inductive Event (σ : Type)
  /-- Changes rows. -/
  | write (contents : σ)
  /-- The engine folds the log into the file. -/
  | checkpoint
  | open (build : List Migration)
  /-- Looks whether a copy is due, and if so folds the log in, unless another
  connection holds it, and begins to copy. -/
  | backUp (folds : Bool)
  | copied
  | copyFails
  | apply (appliedAt : Int)
  | kill

inductive Outcome
  | silent
  | failed
  | opened (report : MigrationReport)
  deriving DecidableEq

section System

variable {σ : Type} (execute : String → Program (Database σ) DatabaseError Unit)

/-- Begins to copy the file where there is something to lose. -/
def backUp (s : Disk σ) (build : List Migration) (folds : Bool) : Disk σ × Outcome :=
  match currentVersion.exec s.live with
  | (.error _, live) => ({ s with live, opening := .idle }, .failed)
  | (.ok fromVersion, live) =>
      if fromVersion = 0 ∨ newest build ≤ fromVersion then
        ({ s with live, opening := .backedUp build }, .silent)
      else
        ({ file := if folds then live else s.file
           live
           copies := update s.copies fromVersion .torn
           opening := .copying build fromVersion }, .silent)

/-- Migrates. -/
def apply (s : Disk σ) (build : List Migration) (appliedAt : Int) : Disk σ × Outcome :=
  match (applySet execute build appliedAt).exec s.live with
  | (.error _, live) => ({ s with live, opening := .idle }, .failed)
  | (.ok report, live) => ({ s with live, opening := .idle }, .opened report)

def step (s : Disk σ) : Event σ → Option (Disk σ × Outcome)
  | .write contents => some ({ s with live := { s.live with contents } }, .silent)
  | .checkpoint => some ({ s with file := s.live }, .silent)
  | .open build =>
      match s.opening with
      | .idle => some ({ s with opening := .configured build }, .silent)
      | _ => none
  | .backUp folds =>
      match s.opening with
      | .configured build => some (backUp s build folds)
      | _ => none
  | .copied =>
      match s.opening with
      | .copying build fromVersion =>
          some ({ s with copies := update s.copies fromVersion (.whole s.file)
                         opening := .backedUp build }, .silent)
      | _ => none
  | .copyFails =>
      match s.opening with
      | .copying _ _ => some ({ s with opening := .idle }, .failed)
      | _ => none
  | .apply appliedAt =>
      match s.opening with
      | .backedUp build => some (apply execute s build appliedAt)
      | _ => none
  | .kill => some ({ s with opening := .idle }, .silent)

/-- The builds there are open the store, and while one does nobody else uses it. -/
def Alone (builds : List (List Migration)) (_ : List (Event σ × Outcome)) (s : Disk σ) :
    Event σ → Prop
  | .write _ => s.opening = .idle
  | .open build => build ∈ builds
  | .backUp folds => folds = true
  | _ => True

instance (builds : List (List Migration)) (trace : List (Event σ × Outcome)) (s : Disk σ)
    (e : Event σ) : Decidable (Alone builds trace s e) := by
  unfold Alone
  split <;> infer_instance

/-- **What holds while a build opens the store**: before it migrates, what it migrates
has been copied. -/
def Ready (builds : List (List Migration)) (s : Disk σ) : Prop :=
  match s.opening with
  | .idle => True
  | .configured build => build ∈ builds
  | .copying build fromVersion =>
      build ∈ builds ∧ s.file = s.live ∧ Recorded s.live fromVersion
  | .backedUp build =>
      build ∈ builds ∧ ∀ v, Recorded s.live v →
        v = 0 ∨ newest build ≤ v ∨ s.copies v = .whole s.live

/-- A database has been copied aside, and the one in use is newer. -/
structure Kept (v : UInt32) (db : Database σ) (s : Disk σ) : Prop where
  copy : s.copies v = .whole db
  newer : ∃ w, Recorded s.live w ∧ v.toNat < w.toNat

end System

section Proofs

variable {σ : Type} {execute : String → Program (Database σ) DatabaseError Unit}
  {builds : List (List Migration)} {ms : List Migration} {s t : Disk σ} {e : Event σ} {o : Outcome}
  {trace : List (Event σ × Outcome)} {db d : Database σ} {v w : UInt32} {appliedAt : Int}
  {report : MigrationReport}

/-! ### What a migration does to the version -/

theorem recorded_unique (h : Recorded db v) (h' : Recorded db w) : v = w := by
  apply UInt32.toNat_inj.mp
  unfold Recorded at h h'
  omega

theorem recorded_ensured : Recorded (ensured db) v ↔ Recorded db v := Iff.rfl

/-- A database of a version has the table of versions. -/
theorem ensured_of_recorded (h : Recorded db v) (hv : v ≠ 0) : ensured db = db := by
  refine ensured_eq fun hnone => hv ?_
  unfold Recorded history at h
  rw [hnone] at h
  have hzero : (0 : Int) = v.toNat := h
  apply UInt32.toNat_inj.mp
  rw [UInt32.toNat_zero]
  omega

/-- **A migration that went through**: the versions before and after it. -/
theorem applySet_upgrades (hapart : ∀ m ∈ ms, Apart execute m.sql)
    (hrun : (applySet execute ms appliedAt).exec db = (.ok report, d)) :
    Recorded db report.fromVersion ∧ (report.applied = [] ∧ d = ensured db ∨
      report.fromVersion < newest ms ∧ ∃ w, Recorded d w ∧ report.fromVersion.toNat < w.toNat) := by
  have hvalid : Ascending ms := by
    by_contra hinvalid
    obtain ⟨err, herr⟩ := applySet_invalid execute db appliedAt hinvalid
    rw [hrun] at herr
    cases herr
  obtain ⟨v, hv, -⟩ := applied_of_ok hvalid hrun
  obtain ⟨r, db', hexec, happlied⟩ := applySet_cases execute appliedAt hvalid hv
  rw [hrun] at hexec
  cases hexec
  cases happlied with
  | current hle hnone => exact ⟨hv, .inl ⟨rfl, rfl⟩⟩
  | done hle hsome hran =>
      refine ⟨hv, .inr ?_⟩
      obtain ⟨last, hlast, hlastEq⟩ := newest_mem hsome
      obtain ⟨hmem, habove⟩ := mem_pending.mp hlast
      have hold : v.toNat < (newest ms).toNat := Nat.lt_of_lt_of_le habove (le_newest hmem)
      refine ⟨UInt32.lt_iff_toNat_lt.mpr hold, newest (pending v ms), ?_, ?_⟩
      · refine recorded_runPending (fun m hm => hapart m (mem_pending.mp hm).1) hran hsome ?_
        intro row hrow
        have hle := hv.le row hrow
        rw [← hlastEq]
        omega
      · rw [← hlastEq]
        exact habove

/-- A build opens a database of its own version as it is. -/
theorem applySet_current (hvalid : Ascending ms) (hv : Recorded db v) (hzero : v ≠ 0)
    (hnewest : newest ms = v) :
    (applySet execute ms appliedAt).exec db = (.ok ⟨v, v, []⟩, db) := by
  have hnone : pending v ms = [] := by
    apply List.filter_eq_nil_iff.mpr
    intro m hm
    have hle := le_newest hm
    rw [hnewest] at hle
    rw [decide_eq_true_iff, UInt32.lt_iff_toNat_lt, Nat.not_lt]
    exact hle
  obtain ⟨r, db', hexec, happlied⟩ := applySet_cases execute appliedAt hvalid hv
  cases happlied with
  | refused hnewer =>
      rw [hnewest] at hnewer
      exact absurd hnewer (Nat.lt_irrefl _)
  | current hle _ => rw [hexec, ensured_of_recorded hv hzero]
  | failed _ hsome _ => exact absurd hnone hsome
  | done _ hsome _ => exact absurd hnone hsome

/-! ### One step -/

/-- What looking for a due copy can do. -/
theorem backUp_cases (s : Disk σ) (build : List Migration) (folds : Bool) :
    (backUp s build folds = ({ s with live := ensured s.live, opening := .idle }, .failed)) ∨
    ∃ v, Recorded s.live v ∧
      ((v = 0 ∨ newest build ≤ v) ∧ backUp s build folds =
          ({ s with live := ensured s.live, opening := .backedUp build }, .silent) ∨
        v ≠ 0 ∧ backUp s build folds =
          ({ file := if folds then ensured s.live else s.file
             live := ensured s.live
             copies := update s.copies v .torn
             opening := .copying build v }, .silent)) := by
  unfold backUp
  rcases exec_currentVersion s.live with ⟨hexec, -⟩ | ⟨v, hexec, hv⟩
  · rw [hexec]
    exact .inl rfl
  · rw [hexec]
    refine .inr ⟨v, hv, ?_⟩
    by_cases hdue : v = 0 ∨ newest build ≤ v
    · exact .inl ⟨hdue, if_pos hdue⟩
    · exact .inr ⟨fun hzero => hdue (.inl hzero), if_neg hdue⟩

variable (execute) in
/-- What migrating can do. -/
theorem apply_cases (s : Disk σ) (build : List Migration) (appliedAt : Int) :
    (∃ live, (live = s.live ∨ live = ensured s.live) ∧
      apply execute s build appliedAt = ({ s with live, opening := .idle }, .failed)) ∨
    ∃ report live, (applySet execute build appliedAt).exec s.live = (.ok report, live) ∧
      apply execute s build appliedAt = ({ s with live, opening := .idle }, .opened report) := by
  unfold apply
  rcases hexec : (applySet execute build appliedAt).exec s.live with ⟨r, live⟩
  cases r with
  | error err => exact .inl ⟨live, applySet_failed hexec, rfl⟩
  | ok report => exact .inr ⟨report, live, rfl, rfl⟩

/-- **One step** keeps what holds while a build opens the store. -/
theorem Ready.step (h : Ready builds s) (hok : Alone builds trace s e)
    (hstep : Backups.step execute s e = some (t, o)) : Ready builds t := by
  cases e with
  | write contents =>
      cases hstep
      have hidle : s.opening = .idle := hok
      unfold Ready
      rw [hidle]
      trivial
  | checkpoint =>
      cases hstep
      unfold Ready at h ⊢
      cases hopening : s.opening with
      | copying build fromVersion =>
          rw [hopening] at h
          exact ⟨h.1, rfl, h.2.2⟩
      | _ =>
          rw [hopening] at h
          exact h
  | «open» build =>
      simp only [Backups.step] at hstep
      split at hstep
      · cases hstep
        exact hok
      · cases hstep
  | backUp folds =>
      simp only [Backups.step] at hstep
      split at hstep
      next build hopening =>
        unfold Ready at h
        rw [hopening] at h
        obtain rfl : folds = true := hok
        rw [Option.some.injEq] at hstep
        rcases backUp_cases s build true with hfailed | ⟨v, hv, ⟨hdue, hcopy⟩ | ⟨hzero, hcopy⟩⟩
        · rw [hfailed] at hstep
          cases hstep
          trivial
        · rw [hcopy] at hstep
          cases hstep
          refine ⟨h, fun w hw => ?_⟩
          obtain rfl := recorded_unique hw hv
          exact hdue.imp_right .inl
        · rw [hcopy] at hstep
          cases hstep
          exact ⟨h, rfl, hv⟩
      · cases hstep
  | copied =>
      simp only [Backups.step] at hstep
      split at hstep
      next build fromVersion hopening =>
        unfold Ready at h
        rw [hopening] at h
        obtain ⟨hbuild, hfile, hv⟩ := h
        cases hstep
        refine ⟨hbuild, fun w hw => .inr (.inr ?_)⟩
        obtain rfl := recorded_unique hw hv
        rw [← hfile]
        exact Function.update_self ..
      · cases hstep
  | copyFails =>
      simp only [Backups.step] at hstep
      split at hstep
      · cases hstep
        trivial
      · cases hstep
  | apply appliedAt =>
      simp only [Backups.step] at hstep
      split at hstep
      next build hopening =>
        rw [Option.some.injEq] at hstep
        rcases apply_cases execute s build appliedAt with
          ⟨live, -, happly⟩ | ⟨report, live, -, happly⟩
        · rw [happly] at hstep
          cases hstep
          trivial
        · rw [happly] at hstep
          cases hstep
          trivial
      · cases hstep
  | kill =>
      cases hstep
      trivial

/-- **A copy stays** as it is once the database in use is newer. -/
theorem Kept.step (hapart : ∀ build ∈ builds, ∀ m ∈ build, Apart execute m.sql)
    (hready : Ready builds s) (h : Kept v db s)
    (hstep : Backups.step execute s e = some (t, o)) : Kept v db t := by
  obtain ⟨w, hw, hlt⟩ := h.newer
  have hother : ∀ u, Recorded s.live u → ∀ copy, update s.copies u copy v = .whole db := by
    intro u hu copy
    obtain rfl := recorded_unique hu hw
    rw [Function.update_of_ne (fun heq => Nat.lt_irrefl _ (heq ▸ hlt)), h.copy]
  cases e with
  | write contents =>
      cases hstep
      exact ⟨h.copy, w, hw, hlt⟩
  | checkpoint =>
      cases hstep
      exact ⟨h.copy, w, hw, hlt⟩
  | «open» build =>
      simp only [Backups.step] at hstep
      split at hstep
      · cases hstep
        exact ⟨h.copy, w, hw, hlt⟩
      · cases hstep
  | backUp folds =>
      simp only [Backups.step] at hstep
      split at hstep
      next build hopening =>
        rw [Option.some.injEq] at hstep
        rcases backUp_cases s build folds with hfailed | ⟨u, hu, ⟨-, hcopy⟩ | ⟨-, hcopy⟩⟩
        · rw [hfailed] at hstep
          cases hstep
          exact ⟨h.copy, w, hw, hlt⟩
        · rw [hcopy] at hstep
          cases hstep
          exact ⟨h.copy, w, hw, hlt⟩
        · rw [hcopy] at hstep
          cases hstep
          exact ⟨hother u hu .torn, w, hw, hlt⟩
      · cases hstep
  | copied =>
      simp only [Backups.step] at hstep
      split at hstep
      next build fromVersion hopening =>
        unfold Ready at hready
        rw [hopening] at hready
        cases hstep
        exact ⟨hother fromVersion hready.2.2 _, w, hw, hlt⟩
      · cases hstep
  | copyFails =>
      simp only [Backups.step] at hstep
      split at hstep
      · cases hstep
        exact ⟨h.copy, w, hw, hlt⟩
      · cases hstep
  | apply appliedAt =>
      simp only [Backups.step] at hstep
      split at hstep
      next build hopening =>
        unfold Ready at hready
        rw [hopening] at hready
        rw [Option.some.injEq] at hstep
        rcases apply_cases execute s build appliedAt with
          ⟨live, hlive, happly⟩ | ⟨report, live, hexec, happly⟩
        · rw [happly] at hstep
          cases hstep
          rcases hlive with rfl | rfl
          · exact ⟨h.copy, w, hw, hlt⟩
          · exact ⟨h.copy, w, hw, hlt⟩
        · rw [happly] at hstep
          cases hstep
          obtain ⟨hfrom, hcase⟩ := applySet_upgrades (hapart build hready.1) hexec
          obtain rfl := recorded_unique hfrom hw
          rcases hcase with ⟨-, rfl⟩ | ⟨-, u, hu, hnewer⟩
          · exact ⟨h.copy, _, hw, hlt⟩
          · exact ⟨h.copy, u, hu, Nat.lt_trans hlt hnewer⟩
      · cases hstep
  | kill =>
      cases hstep
      exact ⟨h.copy, w, hw, hlt⟩

/-! ### Runs -/

variable {init : Disk σ}

/-- A build that migrates a database of a version has copied it. -/
theorem Ready.upgraded (hapart : ∀ build ∈ builds, ∀ m ∈ build, Apart execute m.sql)
    (h : Ready builds s)
    (hstep : Backups.step execute s (.apply appliedAt) = some (t, .opened report))
    (happlied : report.applied ≠ []) (hzero : report.fromVersion ≠ 0) :
    Recorded s.live report.fromVersion ∧ Kept report.fromVersion s.live t := by
  simp only [Backups.step] at hstep
  split at hstep
  next build hopening =>
    unfold Ready at h
    rw [hopening] at h
    rw [Option.some.injEq] at hstep
    rcases apply_cases execute s build appliedAt with
      ⟨live, -, happly⟩ | ⟨report', live, hexec, happly⟩
    · rw [happly] at hstep
      cases hstep
    · rw [happly] at hstep
      cases hstep
      obtain ⟨hfrom, hcase⟩ := applySet_upgrades (hapart build h.1) hexec
      refine ⟨hfrom, ?_⟩
      rcases hcase with ⟨hnone, -⟩ | ⟨hnewer, hgrows⟩
      · exact absurd hnone happlied
      · rcases h.2 _ hfrom with hv | hle | hcopy
        · exact absurd hv hzero
        · rw [UInt32.le_iff_toNat_le] at hle
          rw [UInt32.lt_iff_toNat_lt] at hnewer
          omega
        · exact ⟨hcopy, hgrows⟩
  · cases hstep

theorem run_ready (hinit : init.opening = .idle)
    (hrun : Transition.Run (Backups.step execute) (Alone builds) init trace s) :
    Ready builds s := by
  refine hrun.invariant (fun _ s => Ready builds s) ?_ ?_
  · unfold Ready
    rw [hinit]
    trivial
  · intro trace s e t o h hok hstep
    exact h.step hok hstep

/-- What was copied before the end of a run is kept to its end. -/
theorem run_kept (hapart : ∀ build ∈ builds, ∀ m ∈ build, Apart execute m.sql)
    (hinit : init.opening = .idle)
    (hrun : Transition.Run (Backups.step execute) (Alone builds) init trace s)
    {before after : List (Event σ × Outcome)}
    (htrace : trace = before ++ (.apply appliedAt, .opened report) :: after)
    (happlied : report.applied ≠ []) (hzero : report.fromVersion ≠ 0) :
    ∃ t, Transition.Run (Backups.step execute) (Alone builds) init before t ∧
      Recorded t.live report.fromVersion ∧ Kept report.fromVersion t.live s := by
  induction hrun generalizing after with
  | nil => simp at htrace
  | @snoc trace s s' e o run guard taken ih =>
      rcases List.eq_nil_or_concat after with rfl | ⟨after', last, rfl⟩
      · obtain ⟨rfl, hlast⟩ := List.append_inj' htrace rfl
        cases hlast
        obtain ⟨hv, hkept⟩ := (run_ready hinit run).upgraded hapart taken happlied hzero
        exact ⟨s, run, hv, hkept⟩
      · rw [List.concat_eq_append, ← List.cons_append, ← List.append_assoc] at htrace
        obtain ⟨t, hbefore, hv, hkept⟩ := ih (List.append_inj' htrace rfl).1
        exact ⟨t, hbefore, hv, hkept.step hapart (run_ready hinit run) taken⟩

/-- **Rollback**: whichever builds opened the store, failed or were killed on the way,
the copy named after a version is, from the migration that left that version on, the
database as it was migrated, and any build of that version opens it as it is. -/
theorem rollback (hapart : ∀ build ∈ builds, ∀ m ∈ build, Apart execute m.sql)
    (hinit : init.opening = .idle) {before after : List (Event σ × Outcome)}
    (hrun : Transition.Run (Backups.step execute) (Alone builds) init
      (before ++ (.apply appliedAt, .opened report) :: after) s)
    (happlied : report.applied ≠ []) (hzero : report.fromVersion ≠ 0) :
    ∃ t, Transition.Run (Backups.step execute) (Alone builds) init before t ∧
      s.copies report.fromVersion = .whole t.live ∧
      ∀ build now, validate 0 build = .ok () → newest build = report.fromVersion →
        (applySet execute build now).exec t.live =
          (.ok ⟨report.fromVersion, report.fromVersion, []⟩, t.live) := by
  obtain ⟨t, hbefore, hv, hkept⟩ := run_kept hapart hinit hrun rfl happlied hzero
  refine ⟨t, hbefore, hkept.copy, fun build now hvalid hnewest => ?_⟩
  exact applySet_current (validate_iff.mp hvalid) hv hzero hnewest

end Proofs

/-- A store of one table, with a row in the log. -/
def oneTable : Disk (List String) where
  file := ⟨["one"], some [⟨1, "one", 5⟩]⟩
  live := ⟨["one", "row"], some [⟨1, "one", 5⟩]⟩
  copies _ := .absent
  opening := .idle

/-- The build of three tables is killed in the copy, comes back, and migrates. -/
def upgrade : List (Event (List String)) :=
  [.open tables, .backUp true, .kill, .open tables, .backUp true, .copied, .apply 7, .write []]

/-- The copy has the row that was in the log, and the build of one table opens it. -/
theorem rollback_sample : ∃ s db, db.contents = ["one", "row"] ∧
    (∃ trace, Transition.Run (step created) (Alone [tables]) oneTable trace s ∧
      trace.map Prod.fst = upgrade) ∧
    s.copies 1 = .whole db ∧
    (applySet created (tables.take 1) 8).exec db = (.ok ⟨1, 1, []⟩, db) := by
  have hapart : ∀ build ∈ [tables], ∀ m ∈ build, Apart created m.sql := by
    intro build hbuild
    rw [List.mem_singleton] at hbuild
    rw [hbuild]
    exact tables_apart
  have hexec : Transition.exec (step created) (Alone [tables]) upgrade [] oneTable =
      some ([(.open tables, .silent), (.backUp true, .silent), (.kill, .silent),
        (.open tables, .silent), (.backUp true, .silent), (.copied, .silent)] ++
        (.apply 7, .opened ⟨1, 3, [2, 3]⟩) :: [(.write [], .silent)], _) := rfl
  have hrun := Transition.run_of_exec upgrade hexec
  obtain ⟨t, hbefore, hcopy, hopens⟩ := rollback hapart rfl hrun (by decide) (by decide)
  have hwhole : .whole ⟨["one", "row"], some [⟨1, "one", 5⟩]⟩ = Copy.whole t.live := hcopy
  have hcontents : t.live.contents = ["one", "row"] := by
    rw [← Copy.whole.inj hwhole]
  exact ⟨_, t.live, hcontents, ⟨_, hrun, Transition.events_of_exec hexec⟩, hcopy,
    hopens (tables.take 1) 8 rfl rfl⟩

end Store.Backups
