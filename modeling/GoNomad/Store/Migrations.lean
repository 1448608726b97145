import Mathlib.Data.List.Sort
import GoNomad.Lib.Transaction
import GoNomad.Store.Error

/-!
# Migrations

Numbered scripts are run in ascending order, all that are pending in one
transaction, and each is recorded in a table of its own.  What a script does is
the engine's: `execute` stands for it.

* `applySet_cases` — everything that applying a set can do;
* `applied_in_parts` — a set applied in parts is the set applied at once.
-/

namespace Store

/-- The engine rejected a statement. -/
inductive DatabaseError
  | rejected
  deriving DecidableEq

/-- One numbered schema change. -/
structure Migration where
  version : UInt32
  name : String
  sql : String
  deriving DecidableEq

/-- What applying a set did. -/
structure MigrationReport where
  fromVersion : UInt32
  toVersion : UInt32
  applied : List UInt32
  deriving DecidableEq

/-- A row of `schema_version`. -/
structure VersionRow where
  version : Int
  name : String
  appliedAt : Int
  deriving DecidableEq

/-- A database: the schema and rows of every other table, and the table
`schema_version` where it exists. -/
structure Database (σ : Type) where
  contents : σ
  versions : Option (List VersionRow)
  deriving DecidableEq

namespace Migrations

variable {σ : Type} (execute : String → Program (Database σ) DatabaseError Unit)

/-- The recorded migrations. -/
def history (db : Database σ) : List VersionRow := db.versions.getD []

/-- Creates the bookkeeping table if it is absent. -/
def ensureVersionTable : Program (Database σ) StoreError Unit :=
  modify fun db => { db with versions := some (history db) }

/-- The highest recorded version, or 0. -/
def maxVersion (rows : List VersionRow) : Int := ((rows.map VersionRow.version).max?).getD 0

/-- The highest applied schema version, or 0 for a fresh database. -/
def currentVersion : Program (Database σ) StoreError UInt32 := do
  ensureVersionTable
  let db ← get
  let version := maxVersion (history db)
  if 0 ≤ version ∧ version < 2 ^ 32 then
    pure (UInt32.ofNat version.toNat)
  else
    throw (.corruptRow "schema_version" (.invalidVersion version))

/-- Rejects a migration set that is unordered, duplicated, or starts below 1. -/
def validate : UInt32 → List Migration → Except StoreError Unit
  | _, [] => .ok ()
  | previous, migration :: migrations =>
      if migration.version = 0 then
        .error (.invalidMigrationSet "version 0 is reserved for an unmigrated database")
      else if migration.version ≤ previous then
        .error (.invalidMigrationSet ("version " ++ toString migration.version ++ " follows " ++
          toString previous ++ "; migrations must ascend and be unique"))
      else validate migration.version migrations

/-- Records a migration; a version that is there already violates the primary key. -/
def record (migration : Migration) (appliedAt : Int) : Program (Database σ) DatabaseError Unit := do
  let db ← get
  let row : VersionRow := ⟨migration.version.toNat, migration.name, appliedAt⟩
  if (history db).any fun other => other.version = row.version then throw .rejected
  else set { db with versions := some (history db ++ [row]) }

/-- Runs one script and records it. -/
def runOne (migration : Migration) (appliedAt : Int) : Program (Database σ) DatabaseError Unit := do
  execute migration.sql
  record migration appliedAt

/-- Runs the pending scripts one after the other. -/
def runPending (fromVersion : UInt32) (appliedAt : Int) :
    List Migration → Program (Database σ) StoreError Unit
  | [] => pure ()
  | migration :: pending => do
      (runOne execute migration appliedAt).withError fun _ =>
        .migration migration.version migration.name fromVersion
      runPending fromVersion appliedAt pending

/-- The newest version of a set, or 0. -/
def newest : List Migration → UInt32
  | [] => 0
  | migration :: migrations => max migration.version (newest migrations)

/-- The migrations of a set that are not applied at a version. -/
def pending (fromVersion : UInt32) (migrations : List Migration) : List Migration :=
  migrations.filter fun migration => fromVersion < migration.version

/-- Applies every pending migration of a set in one transaction. -/
def applySet (migrations : List Migration) (appliedAt : Int) :
    Program (Database σ) StoreError MigrationReport := do
  (validate 0 migrations : Except StoreError Unit)
  let fromVersion ← currentVersion
  if newest migrations < fromVersion then
    throw (.schemaTooNew fromVersion (newest migrations))
  else if pending fromVersion migrations = [] then
    pure ⟨fromVersion, fromVersion, []⟩
  else do
    (runPending execute fromVersion appliedAt (pending fromVersion migrations)).transaction
    pure ⟨fromVersion, newest (pending fromVersion migrations),
      (pending fromVersion migrations).map Migration.version⟩

variable {execute} {db db' : Database σ} {ms : List Migration} {v : UInt32} {t : Int}

/-! ### Sets and versions -/

/-- Strictly ascending from 1 upwards. -/
def Ascending (ms : List Migration) : Prop :=
  (∀ m ∈ ms, 0 < m.version.toNat) ∧ ms.Pairwise fun a b => a.version.toNat < b.version.toNat

theorem validate_above {previous : UInt32} : validate previous ms = .ok () ↔
    (∀ m ∈ ms, previous.toNat < m.version.toNat) ∧
      ms.Pairwise fun a b => a.version.toNat < b.version.toNat := by
  induction ms generalizing previous with
  | nil => simp [validate]
  | cons m ms ih =>
      rw [List.forall_mem_cons, List.pairwise_cons]
      unfold validate
      by_cases hzero : m.version = 0
      · rw [if_pos hzero, hzero]
        simp
      rw [if_neg hzero]
      by_cases hle : m.version ≤ previous
      · rw [if_pos hle]
        rw [UInt32.le_iff_toNat_le] at hle
        constructor
        · intro h
          cases h
        · rintro ⟨⟨hlt, -⟩, -⟩
          omega
      · rw [if_neg hle, ih]
        rw [UInt32.le_iff_toNat_le] at hle
        constructor
        · rintro ⟨hall, hpairs⟩
          refine ⟨⟨by omega, fun m' hm' => ?_⟩, hall, hpairs⟩
          have hlt := hall m' hm'
          omega
        · rintro ⟨-, hall, hpairs⟩
          exact ⟨hall, hpairs⟩

/-- **What is accepted** is strictly ascending from 1 upwards. -/
theorem validate_iff : validate 0 ms = .ok () ↔ Ascending ms := validate_above

theorem Ascending.part {ps : List Migration} (h : Ascending ms) (hp : ps <+: ms) : Ascending ps :=
  ⟨fun m hm => h.1 m (hp.subset hm), h.2.sublist hp.sublist⟩

theorem le_newest {m : Migration} (hm : m ∈ ms) : m.version.toNat ≤ (newest ms).toNat := by
  induction ms with
  | nil => cases hm
  | cons m' ms ih =>
      unfold newest
      rw [UInt32.toNat_max]
      rcases List.mem_cons.mp hm with rfl | hm
      · exact Nat.le_max_left _ _
      · exact (ih hm).trans (Nat.le_max_right _ _)

theorem newest_le {bound : Nat} (h : ∀ m ∈ ms, m.version.toNat ≤ bound) :
    (newest ms).toNat ≤ bound := by
  induction ms with
  | nil => exact Nat.zero_le _
  | cons m ms ih =>
      rw [List.forall_mem_cons] at h
      unfold newest
      rw [UInt32.toNat_max]
      exact Nat.max_le.mpr ⟨h.1, ih h.2⟩

theorem newest_mem (h : ms ≠ []) : ∃ m ∈ ms, m.version = newest ms := by
  induction ms with
  | nil => exact absurd rfl h
  | cons m ms ih =>
      by_cases hle : m.version.toNat ≤ (newest ms).toNat
      · have hmax : newest (m :: ms) = newest ms := by
          apply UInt32.toNat_inj.mp
          show (max m.version (newest ms)).toNat = _
          rw [UInt32.toNat_max, Nat.max_eq_right hle]
        by_cases hms : ms = []
        · subst hms
          refine ⟨m, List.mem_singleton_self m, UInt32.toNat_inj.mp ?_⟩
          have hzero : (newest ([] : List Migration)).toNat = 0 := rfl
          rw [hmax]
          omega
        · obtain ⟨m', hm', heq⟩ := ih hms
          exact ⟨m', List.mem_cons_of_mem _ hm', heq.trans hmax.symm⟩
      · refine ⟨m, List.mem_cons_self, UInt32.toNat_inj.mp ?_⟩
        show _ = (max m.version (newest ms)).toNat
        rw [UInt32.toNat_max]
        omega

theorem mem_pending {m : Migration} :
    m ∈ pending v ms ↔ m ∈ ms ∧ v.toNat < m.version.toNat := by
  unfold pending
  rw [List.mem_filter, decide_eq_true_iff, UInt32.lt_iff_toNat_lt]

/-- **What is pending** after a part of the set is what the part left out. -/
theorem pending_append {ps rest : List Migration} (h : Ascending (ps ++ rest))
    (hsome : pending v ps ≠ []) :
    pending v (ps ++ rest) =
      pending v ps ++ pending (newest (pending v ps)) (ps ++ rest) := by
  obtain ⟨last, hlast, hlastEq⟩ := newest_mem hsome
  obtain ⟨hlastMem, hlastAbove⟩ := mem_pending.mp hlast
  have habove := (List.pairwise_append.mp h.2).2.2
  have hrest : ∀ w : UInt32, w.toNat ≤ last.version.toNat → pending w rest = rest := by
    intro w hw
    apply List.filter_eq_self.mpr
    intro m hm
    have hlt := habove last hlastMem m hm
    rw [decide_eq_true_iff, UInt32.lt_iff_toNat_lt]
    omega
  have hnone : pending (newest (pending v ps)) ps = [] := by
    apply List.filter_eq_nil_iff.mpr
    intro m hm
    rw [decide_eq_true_iff, UInt32.lt_iff_toNat_lt, Nat.not_lt]
    by_cases hold : v.toNat < m.version.toNat
    · exact le_newest (mem_pending.mpr ⟨hm, hold⟩)
    · have hle := le_newest hlast
      omega
  have hsplit : ∀ w : UInt32, pending w (ps ++ rest) = pending w ps ++ pending w rest :=
    fun w => List.filter_append ..
  rw [hsplit, hsplit, hrest v (by omega), hrest _ (by rw [hlastEq]), hnone, List.nil_append]

/-! ### What one call can do -/

/-- The database with the bookkeeping table. -/
def ensured (db : Database σ) : Database σ := { db with versions := some (history db) }

/-- The recorded version of a database. -/
def Recorded (db : Database σ) (v : UInt32) : Prop := maxVersion (history db) = v.toNat

theorem exec_currentVersion (db : Database σ) :
    (currentVersion.exec db = (.error (.corruptRow "schema_version"
        (.invalidVersion (maxVersion (history db)))), ensured db) ∧ ∀ v, ¬Recorded db v) ∨
      ∃ v, currentVersion.exec db = (.ok v, ensured db) ∧ Recorded db v := by
  have hexec : currentVersion.exec db =
      (if 0 ≤ maxVersion (history db) ∧ maxVersion (history db) < 2 ^ 32 then
        (pure (UInt32.ofNat (maxVersion (history db)).toNat) : Program (Database σ) StoreError UInt32)
      else throw (.corruptRow "schema_version" (.invalidVersion (maxVersion (history db))))).exec
        (ensured db) := rfl
  rw [hexec]
  split_ifs with hrange
  · refine .inr ⟨_, rfl, ?_⟩
    unfold Recorded
    rw [UInt32.toNat_ofNat']
    omega
  · refine .inl ⟨rfl, fun v hv => hrange ?_⟩
    unfold Recorded at hv
    have hlt := v.toNat_lt
    omega

theorem Recorded.exec (h : Recorded db v) : currentVersion.exec db = (.ok v, ensured db) := by
  rcases exec_currentVersion db with ⟨-, hnone⟩ | ⟨w, hexec, hw⟩
  · exact absurd h (hnone v)
  · have heq : w = v := by
      apply UInt32.toNat_inj.mp
      unfold Recorded at h hw
      omega
    rw [hexec, heq]

/-- What a call with a valid set does at a recorded version. -/
inductive Applied (execute : String → Program (Database σ) DatabaseError Unit) (v : UInt32)
    (ms : List Migration) (t : Int) (db : Database σ) :
    Except StoreError MigrationReport → Database σ → Prop
  | refused (hnewer : (newest ms).toNat < v.toNat) :
      Applied execute v ms t db (.error (.schemaTooNew v (newest ms))) (ensured db)
  | current (hle : v.toNat ≤ (newest ms).toNat) (hnone : pending v ms = []) :
      Applied execute v ms t db (.ok ⟨v, v, []⟩) (ensured db)
  | failed {err : StoreError} {reached : Database σ} (hle : v.toNat ≤ (newest ms).toNat)
      (hsome : pending v ms ≠ [])
      (hrun : (runPending execute v t (pending v ms)).exec (ensured db) = (.error err, reached)) :
      Applied execute v ms t db (.error err) (ensured db)
  | done {db' : Database σ} (hle : v.toNat ≤ (newest ms).toNat) (hsome : pending v ms ≠ [])
      (hrun : (runPending execute v t (pending v ms)).exec (ensured db) = (.ok (), db')) :
      Applied execute v ms t db (.ok ⟨v, newest (pending v ms), (pending v ms).map Migration.version⟩)
        db'

/-- **Everything that applying a set can do.** -/
theorem applySet_cases (execute : String → Program (Database σ) DatabaseError Unit) (t : Int)
    (hvalid : Ascending ms) (hv : Recorded db v) :
    ∃ r db', (applySet execute ms t).exec db = (r, db') ∧ Applied execute v ms t db r db' := by
  have hchecked : (liftM (validate 0 ms) : Program (Database σ) StoreError Unit).exec db =
      (.ok (), db) := by
    rw [Program.exec_check, validate_iff.mpr hvalid]
  unfold applySet
  rw [Program.exec_bind_ok hchecked, Program.exec_bind_ok hv.exec]
  by_cases hnewer : newest ms < v
  · rw [if_pos hnewer]
    exact ⟨_, _, rfl, .refused (UInt32.lt_iff_toNat_lt.mp hnewer)⟩
  rw [if_neg hnewer]
  rw [UInt32.lt_iff_toNat_lt, Nat.not_lt] at hnewer
  by_cases hnone : pending v ms = []
  · rw [if_pos hnone]
    exact ⟨_, _, rfl, .current hnewer hnone⟩
  rw [if_neg hnone]
  rcases hrun : (runPending execute v t (pending v ms)).exec (ensured db) with ⟨r, reached⟩
  cases r with
  | ok u =>
      refine ⟨_, reached, ?_, .done hnewer hnone hrun⟩
      rw [Program.exec_bind_ok (Program.exec_transaction_ok.mpr hrun)]
      rfl
  | error err =>
      refine ⟨_, _, ?_, .failed hnewer hnone hrun⟩
      exact Program.exec_bind_error (Program.exec_transaction_error.mpr ⟨rfl, reached, hrun⟩)

/-- A set that is not strictly ascending from 1 upwards is refused. -/
theorem applySet_invalid (execute : String → Program (Database σ) DatabaseError Unit)
    (db : Database σ) (t : Int) (hinvalid : ¬Ascending ms) :
    ∃ err, (applySet execute ms t).exec db = (.error err, db) := by
  cases hcheck : validate 0 ms with
  | ok u => exact absurd (validate_iff.mp hcheck) hinvalid
  | error err =>
      refine ⟨err, ?_⟩
      have hchecked : (liftM (validate 0 ms) : Program (Database σ) StoreError Unit).exec db =
          (.error err, db) := by
        rw [Program.exec_check, hcheck]
      exact Program.exec_bind_error hchecked

/-- A recorded version that no build writes is an error. -/
theorem applySet_unreadable (execute : String → Program (Database σ) DatabaseError Unit) (t : Int)
    (hvalid : Ascending ms) (hnone : ∀ v, ¬Recorded db v) :
    ∃ err, (applySet execute ms t).exec db = (.error err, ensured db) := by
  have hchecked : (liftM (validate 0 ms) : Program (Database σ) StoreError Unit).exec db =
      (.ok (), db) := by
    rw [Program.exec_check, validate_iff.mpr hvalid]
  rcases exec_currentVersion db with ⟨hexec, -⟩ | ⟨v, -, hv⟩
  · refine ⟨.corruptRow "schema_version" (.invalidVersion (maxVersion (history db))), ?_⟩
    unfold applySet
    rw [Program.exec_bind_ok hchecked]
    exact Program.exec_bind_error hexec
  · exact absurd hv (hnone v)

/-! ### What the scripts do to the bookkeeping -/

/-- A script that neither reads nor writes the bookkeeping table. -/
def Apart (execute : String → Program (Database σ) DatabaseError Unit) (sql : String) : Prop :=
  ∃ f : σ → Except DatabaseError Unit × σ, ∀ db : Database σ,
    (execute sql).exec db = ((f db.contents).1, { db with contents := (f db.contents).2 })

/-- The same schema and rows, and the same versions and names recorded. -/
structure Same (db db' : Database σ) : Prop where
  contents : db'.contents = db.contents
  log : (history db').map (fun row => (row.version, row.name)) =
    (history db).map fun row => (row.version, row.name)

theorem Same.refl (db : Database σ) : Same db db := ⟨rfl, rfl⟩

theorem Same.symm (h : Same db db') : Same db' db := ⟨h.contents.symm, h.log.symm⟩

theorem Same.trans {db'' : Database σ} (h : Same db db') (h' : Same db' db'') : Same db db'' :=
  ⟨h'.contents.trans h.contents, h'.log.trans h.log⟩

theorem same_ensured (db : Database σ) : Same db (ensured db) := ⟨rfl, rfl⟩

theorem Same.versions (h : Same db db') :
    (history db').map VersionRow.version = (history db).map VersionRow.version := by
  have hfst := congrArg (List.map Prod.fst) h.log
  rw [List.map_map, List.map_map] at hfst
  exact hfst

theorem Same.recorded (h : Same db db') : Recorded db' v ↔ Recorded db v := by
  unfold Recorded maxVersion
  rw [h.versions]

/-- Recording on one of two databases that are the same. -/
theorem same_record {m : Migration} (t t' : Int) (h : Same db db') :
    ((∃ d, (record m t).exec db = (.error .rejected, d)) ∧
        ∃ d', (record m t').exec db' = (.error .rejected, d')) ∨
      ∃ d d', (record m t).exec db = (.ok (), d) ∧ (record m t').exec db' = (.ok (), d') ∧
        Same d d' ∧ history d = history db ++ [⟨m.version.toNat, m.name, t⟩] := by
  have hany : ∀ rows : List VersionRow,
      (rows.any fun other => other.version = (m.version.toNat : Int)) =
        (rows.map VersionRow.version).any fun version => version = (m.version.toNat : Int) :=
    fun rows => by
      rw [List.any_map]
      rfl
  have hexec : ∀ (at' : Int) (d : Database σ), (record m at').exec d =
      (if (history d).any fun other => other.version = (m.version.toNat : Int) then
        (throw .rejected : Program (Database σ) DatabaseError Unit)
      else set (⟨d.contents, some (history d ++ [⟨m.version.toNat, m.name, at'⟩])⟩ : Database σ)).exec
        d :=
    fun _ _ => rfl
  rw [hexec, hexec, hany, hany, h.versions]
  split_ifs
  · exact .inl ⟨⟨_, rfl⟩, _, rfl⟩
  · refine .inr ⟨_, _, rfl, rfl, ⟨h.contents, ?_⟩, rfl⟩
    show ((history db' ++ _).map _) = (history db ++ _).map _
    rw [List.map_append, List.map_append, h.log]
    rfl

/-- A script and its record on one of two databases that are the same. -/
theorem same_runOne {m : Migration} (t t' : Int) (h : Same db db') (hapart : Apart execute m.sql) :
    ((∃ err d, (runOne execute m t).exec db = (.error err, d)) ∧
        ∃ err d', (runOne execute m t').exec db' = (.error err, d')) ∨
      ∃ d d', (runOne execute m t).exec db = (.ok (), d) ∧
        (runOne execute m t').exec db' = (.ok (), d') ∧ Same d d' ∧
        history d = history db ++ [⟨m.version.toNat, m.name, t⟩] := by
  obtain ⟨f, hf⟩ := hapart
  have hf' := hf db'
  have hf := hf db
  rw [h.contents] at hf'
  rcases hr : f db.contents with ⟨r, after⟩
  rw [hr] at hf hf'
  cases r with
  | error err =>
      exact .inl ⟨⟨_, _, Program.exec_bind_error hf⟩, _, _, Program.exec_bind_error hf'⟩
  | ok u =>
      unfold runOne
      rw [Program.exec_bind_ok hf, Program.exec_bind_ok hf']
      have hafter : Same { db with contents := after } { db' with contents := after } := ⟨rfl, h.log⟩
      rcases same_record t t' hafter with ⟨⟨d, hd⟩, d', hd'⟩ | ⟨d, d', hd, hd', hsame, hlog⟩
      · exact .inl ⟨⟨_, d, hd⟩, _, d', hd'⟩
      · exact .inr ⟨d, d', hd, hd', hsame, hlog⟩

theorem exec_runPending_cons {m : Migration} {d : Database σ} :
    (runPending execute v t (m :: ms)).exec db = (.ok (), d) ↔
      ∃ e, (runOne execute m t).exec db = (.ok (), e) ∧
        (runPending execute v t ms).exec e = (.ok (), d) := by
  have hcons : runPending execute v t (m :: ms) =
      ((runOne execute m t).withError fun _ => .migration m.version m.name v) >>= fun _ =>
        runPending execute v t ms := rfl
  rw [hcons, Program.exec_bind_eq_ok]
  constructor
  · rintro ⟨u, e, hone, hrest⟩
    rw [Program.exec_withError] at hone
    rcases hexec : (runOne execute m t).exec db with ⟨r, e'⟩
    rw [hexec] at hone
    cases r with
    | ok u =>
        cases hone
        exact ⟨_, rfl, hrest⟩
    | error err => cases hone
  · rintro ⟨e, hone, hrest⟩
    refine ⟨(), e, ?_, hrest⟩
    rw [Program.exec_withError, hone]
    rfl

theorem exec_runPending_append {ms' : List Migration} {d : Database σ} :
    (runPending execute v t (ms ++ ms')).exec db = (.ok (), d) ↔
      ∃ e, (runPending execute v t ms).exec db = (.ok (), e) ∧
        (runPending execute v t ms').exec e = (.ok (), d) := by
  induction ms generalizing db with
  | nil =>
      constructor
      · intro h
        exact ⟨db, rfl, h⟩
      · rintro ⟨e, he, h⟩
        cases he
        exact h
  | cons m ms ih =>
      rw [List.cons_append, exec_runPending_cons]
      constructor
      · rintro ⟨e, hone, hrest⟩
        obtain ⟨e', hms, hms'⟩ := ih.mp hrest
        exact ⟨e', exec_runPending_cons.mpr ⟨e, hone, hms⟩, hms'⟩
      · rintro ⟨e', hcons, hms'⟩
        obtain ⟨e, hone, hms⟩ := exec_runPending_cons.mp hcons
        exact ⟨e, hone, ih.mpr ⟨e', hms, hms'⟩⟩

/-- **Scripts that stand apart** do the same to databases that are the same,
whenever they run. -/
theorem same_runPending (v' : UInt32) (t' : Int) {d : Database σ} (h : Same db db')
    (hapart : ∀ m ∈ ms, Apart execute m.sql)
    (hrun : (runPending execute v t ms).exec db = (.ok (), d)) :
    ∃ d', (runPending execute v' t' ms).exec db' = (.ok (), d') ∧ Same d d' := by
  induction ms generalizing db db' with
  | nil =>
      cases hrun
      exact ⟨db', rfl, h⟩
  | cons m ms ih =>
      rw [List.forall_mem_cons] at hapart
      obtain ⟨e, hone, hrest⟩ := exec_runPending_cons.mp hrun
      rcases same_runOne t t' h hapart.1 with
        ⟨⟨err, e', hfails⟩, -⟩ | ⟨e₁, e', hone', hother, hsame, -⟩
      · rw [hone] at hfails
        cases hfails
      · rw [hone] at hone'
        cases hone'
        obtain ⟨d', hrun', hd⟩ := ih hsame hapart.2 hrest
        exact ⟨d', exec_runPending_cons.mpr ⟨e', hother, hrun'⟩, hd⟩

/-- What a run records. -/
theorem history_runPending {d : Database σ} (hapart : ∀ m ∈ ms, Apart execute m.sql)
    (hrun : (runPending execute v t ms).exec db = (.ok (), d)) :
    history d = history db ++ ms.map fun m => ⟨m.version.toNat, m.name, t⟩ := by
  induction ms generalizing db with
  | nil =>
      cases hrun
      exact (List.append_nil _).symm
  | cons m ms ih =>
      rw [List.forall_mem_cons] at hapart
      obtain ⟨e, hone, hrest⟩ := exec_runPending_cons.mp hrun
      rcases same_runOne t t (Same.refl db) hapart.1 with
        ⟨⟨err, e', hfails⟩, -⟩ | ⟨e₁, e', hone', -, -, hlog⟩
      · rw [hone] at hfails
        cases hfails
      · rw [hone] at hone'
        cases hone'
        rw [ih hapart.2 hrest, hlog, List.append_assoc]
        rfl

/-- **The version after a run** is the newest that ran. -/
theorem recorded_runPending {d : Database σ} (hapart : ∀ m ∈ ms, Apart execute m.sql)
    (hrun : (runPending execute v t ms).exec db = (.ok (), d)) (hsome : ms ≠ [])
    (hold : ∀ row ∈ history db, row.version ≤ (newest ms).toNat) : Recorded d (newest ms) := by
  have hlog := history_runPending hapart hrun
  obtain ⟨last, hlast, hlastEq⟩ := newest_mem hsome
  have hmax : ((history d).map VersionRow.version).max? = some ((newest ms).toNat : Int) := by
    rw [List.max?_eq_some_iff, hlog, List.map_append, List.map_map]
    constructor
    · refine List.mem_append_right _ (List.mem_map.mpr ⟨last, hlast, ?_⟩)
      show (last.version.toNat : Int) = _
      rw [hlastEq]
    · intro version hversion
      rcases List.mem_append.mp hversion with hversion | hversion
      · obtain ⟨row, hrow, rfl⟩ := List.mem_map.mp hversion
        exact hold row hrow
      · obtain ⟨m, hm, rfl⟩ := List.mem_map.mp hversion
        have hle := le_newest hm
        show (m.version.toNat : Int) ≤ _
        omega
  unfold Recorded maxVersion
  rw [hmax]
  rfl

/-- No row is above the recorded version. -/
theorem Recorded.le (h : Recorded db v) : ∀ row ∈ history db, row.version ≤ v.toNat := by
  intro row hrow
  unfold Recorded maxVersion at h
  cases hmax : ((history db).map VersionRow.version).max? with
  | none =>
      rw [List.max?_eq_none_iff, List.map_eq_nil_iff] at hmax
      rw [hmax] at hrow
      cases hrow
  | some top =>
      rw [hmax] at h
      have hle := (List.max?_eq_some_iff.mp hmax).2 _ (List.mem_map_of_mem hrow)
      have htop : top = v.toNat := h
      omega

/-! ### A set in parts -/

/-- Applying parts one after the other, whatever each call returns. -/
def applyParts (execute : String → Program (Database σ) DatabaseError Unit)
    (parts : List (List Migration × Int)) (db : Database σ) : Database σ :=
  parts.foldl (fun db part => ((applySet execute part.1 part.2).exec db).2) db

/-- From here applying the whole set ends in the same database as `d`. -/
def Reaches (execute : String → Program (Database σ) DatabaseError Unit) (ms : List Migration)
    (db d : Database σ) : Prop :=
  ∀ t, ∃ r db', (applySet execute ms t).exec db = (.ok r, db') ∧ Same d db'

/-- A call that goes through found a version, and nothing newer than the set. -/
theorem applied_of_ok {r : MigrationReport} {d : Database σ} (hvalid : Ascending ms)
    (hrun : (applySet execute ms t).exec db = (.ok r, d)) :
    ∃ v, Recorded db v ∧ v.toNat ≤ (newest ms).toNat ∧
      r.applied = (pending v ms).map Migration.version ∧ (pending v ms = [] ∧ d = ensured db ∨
      pending v ms ≠ [] ∧ (runPending execute v t (pending v ms)).exec (ensured db) = (.ok (), d)) := by
  have hrecorded : ∃ v, Recorded db v := by
    by_contra hnone
    obtain ⟨err, herr⟩ := applySet_unreadable execute t hvalid
      (fun v hv => hnone ⟨v, hv⟩)
    rw [hrun] at herr
    cases herr
  obtain ⟨v, hv⟩ := hrecorded
  obtain ⟨r', d', hexec, happlied⟩ := applySet_cases execute t hvalid hv
  rw [hrun] at hexec
  cases hexec
  cases happlied with
  | current hle hnone => exact ⟨v, hv, hle, by rw [hnone]; rfl, .inl ⟨hnone, rfl⟩⟩
  | done hle hsome hrun => exact ⟨v, hv, hle, rfl, .inr ⟨hsome, hrun⟩⟩

/-- What went through once goes through at any time, from any database that is
the same. -/
theorem reaches_of_ok {r : MigrationReport} {d : Database σ} (hvalid : Ascending ms)
    (hapart : ∀ m ∈ ms, Apart execute m.sql) (hsame : Same db db')
    (hrun : (applySet execute ms t).exec db = (.ok r, d)) : Reaches execute ms db' d := by
  intro t'
  obtain ⟨v, hv, hnewest, -, hcase⟩ := applied_of_ok hvalid hrun
  obtain ⟨r', d', hexec, happlied⟩ :=
    applySet_cases execute t' hvalid (hsame.recorded.mpr hv)
  have hpending : ∀ m ∈ pending v ms, Apart execute m.sql :=
    fun m hm => hapart m (mem_pending.mp hm).1
  have hensured : Same (ensured db) (ensured db') := ⟨hsame.contents, hsame.log⟩
  cases happlied with
  | refused hnewer => omega
  | current _ hnone =>
      rcases hcase with ⟨-, rfl⟩ | ⟨hsome, -⟩
      · exact ⟨_, _, hexec, hensured⟩
      · exact absurd hnone hsome
  | failed _ hsome hfails =>
      rcases hcase with ⟨hnone, -⟩ | ⟨-, hran⟩
      · exact absurd hnone hsome
      · obtain ⟨e, hran', -⟩ := same_runPending v t' hensured hpending hran
        rw [hran'] at hfails
        cases hfails
  | done _ hsome hran' =>
      rcases hcase with ⟨hnone, -⟩ | ⟨-, hran⟩
      · exact absurd hnone hsome
      · obtain ⟨e, hran'', he⟩ := same_runPending v t' hensured hpending hran
        rw [hran'] at hran''
        cases hran''
        exact ⟨_, _, hexec, he⟩

/-- **One part** leaves the rest of the set to be applied. -/
theorem Reaches.part {ps : List Migration} {d : Database σ} (h : Reaches execute ms db d)
    (hvalid : Ascending ms) (hapart : ∀ m ∈ ms, Apart execute m.sql) (hp : ps <+: ms) :
    Reaches execute ms ((applySet execute ps t).exec db).2 d := by
  obtain ⟨rest, rfl⟩ := hp
  obtain ⟨r, d₁, hfull, hd⟩ := h t
  obtain ⟨v, hv, hnewest, -, hcase⟩ := applied_of_ok hvalid hfull
  have hps : ps <+: ps ++ rest := List.prefix_append ps rest
  obtain ⟨r', db', hexec, happlied⟩ :=
    applySet_cases execute t (hvalid.part hps) hv
  rw [hexec]
  have hkept : Reaches execute (ps ++ rest) (ensured db) d := by
    intro t'
    obtain ⟨r'', d'', hexec'', hd''⟩ := reaches_of_ok hvalid hapart (same_ensured db) hfull t'
    exact ⟨r'', d'', hexec'', hd.trans hd''⟩
  have hpending : ∀ m ∈ pending v ps, Apart execute m.sql :=
    fun m hm => hapart m (List.mem_append_left _ (mem_pending.mp hm).1)
  have hsplit : pending v ps ≠ [] → ∃ e, (runPending execute v t (pending v ps)).exec (ensured db) =
      (.ok (), e) ∧
        (runPending execute v t (pending (newest (pending v ps)) (ps ++ rest))).exec e = (.ok (), d₁) := by
    intro hsome
    have happend : pending v (ps ++ rest) = _ := pending_append hvalid hsome
    rcases hcase with ⟨hnone, -⟩ | ⟨-, hran⟩
    · rw [happend, List.append_eq_nil_iff] at hnone
      exact absurd hnone.1 hsome
    · rw [happend] at hran
      exact exec_runPending_append.mp hran
  cases happlied with
  | refused hnewer => exact hkept
  | current _ hnone => exact hkept
  | failed _ hsome hfails =>
      obtain ⟨e, he, -⟩ := hsplit hsome
      rw [he] at hfails
      cases hfails
  | done _ hsome hran =>
      obtain ⟨e, he, hrest⟩ := hsplit hsome
      rw [hran] at he
      cases he
      set w := newest (pending v ps) with hw
      obtain ⟨last, hlast, hlastEq⟩ := newest_mem hsome
      obtain ⟨hlastMem, hlastAbove⟩ := mem_pending.mp hlast
      rw [← hw] at hlastEq
      have hrecorded : Recorded db' w := by
        refine recorded_runPending hpending hran hsome fun row hrow => ?_
        have hle := hv.le row hrow
        rw [← hw, ← hlastEq]
        omega
      intro t'
      obtain ⟨r'', d'', hexec'', happlied⟩ :=
        applySet_cases execute t' hvalid hrecorded
      have hleft : ∀ m ∈ pending w (ps ++ rest), Apart execute m.sql :=
        fun m hm => hapart m (mem_pending.mp hm).1
      cases happlied with
      | refused hnewer =>
          have hle := le_newest (List.mem_append_left rest hlastMem)
          rw [hlastEq] at hle
          omega
      | current _ hnone =>
          rw [hnone] at hrest
          cases hrest
          exact ⟨_, _, hexec'', hd.trans (same_ensured _)⟩
      | failed _ _ hfails =>
          obtain ⟨e, he, -⟩ :=
            same_runPending w t' (same_ensured db') hleft hrest
          rw [he] at hfails
          cases hfails
      | done _ _ hran' =>
          obtain ⟨e, he, hsame⟩ :=
            same_runPending w t' (same_ensured db') hleft hrest
          rw [hran'] at he
          cases he
          exact ⟨_, _, hexec'', hd.trans hsame⟩

/-- **A set applied in parts** is the set applied at once. -/
theorem Reaches.parts {parts : List (List Migration × Int)} {d : Database σ}
    (h : Reaches execute ms db d) (hvalid : Ascending ms)
    (hapart : ∀ m ∈ ms, Apart execute m.sql) (hparts : ∀ part ∈ parts, part.1 <+: ms) :
    Reaches execute ms (applyParts execute parts db) d := by
  induction parts generalizing db with
  | nil => exact h
  | cons part parts ih =>
      rw [List.forall_mem_cons] at hparts
      exact ih (h.part hvalid hapart hparts.1) hparts.2

/-! ### What a set of migrations promises -/

theorem ensured_eq (h : db.versions ≠ none) : ensured db = db := by
  obtain ⟨contents, versions⟩ := db
  cases versions with
  | none => exact absurd rfl h
  | some rows => rfl

theorem versions_runPending {d : Database σ} (hapart : ∀ m ∈ ms, Apart execute m.sql)
    (hrun : (runPending execute v t ms).exec db = (.ok (), d)) (h : db.versions ≠ none) :
    d.versions ≠ none := by
  induction ms generalizing db with
  | nil =>
      cases hrun
      exact h
  | cons m ms ih =>
      rw [List.forall_mem_cons] at hapart
      obtain ⟨e, hone, hrest⟩ := exec_runPending_cons.mp hrun
      refine ih hapart.2 hrest ?_
      rcases same_runOne t t (Same.refl db) hapart.1 with
        ⟨⟨err, e', hfails⟩, -⟩ | ⟨e₁, e', hone', -, -, hlog⟩
      · rw [hone] at hfails
        cases hfails
      · rw [hone] at hone'
        cases hone'
        intro hnone
        unfold history at hlog
        rw [hnone, Option.getD_none] at hlog
        simp at hlog

/-- A set that went through has nothing left to do. -/
theorem applySet_again {r : MigrationReport} {d : Database σ} (hvalid : Ascending ms)
    (hapart : ∀ m ∈ ms, Apart execute m.sql)
    (hrun : (applySet execute ms t).exec db = (.ok r, d)) (t' : Int) :
    ∃ w, (applySet execute ms t').exec d = (.ok ⟨w, w, []⟩, d) := by
  obtain ⟨v, hv, hnewest, -, hcase⟩ := applied_of_ok hvalid hrun
  have hdone : ∃ w, Recorded d w ∧ w.toNat ≤ (newest ms).toNat ∧ pending w ms = [] ∧
      d.versions ≠ none := by
    rcases hcase with ⟨hnone, rfl⟩ | ⟨hsome, hran⟩
    · exact ⟨v, hv, hnewest, hnone, Option.some_ne_none _⟩
    · have hpending : ∀ m ∈ pending v ms, Apart execute m.sql :=
        fun m hm => hapart m (mem_pending.mp hm).1
      obtain ⟨last, hlast, hlastEq⟩ := newest_mem hsome
      obtain ⟨hlastMem, hlastAbove⟩ := mem_pending.mp hlast
      refine ⟨newest (pending v ms), recorded_runPending hpending hran hsome fun row hrow => ?_,
        newest_le fun m hm => le_newest (mem_pending.mp hm).1, ?_,
        versions_runPending hpending hran (Option.some_ne_none _)⟩
      · have hle := hv.le row hrow
        rw [← hlastEq]
        omega
      · have hvalid' : Ascending (ms ++ []) := by rwa [List.append_nil]
        have happend := pending_append hvalid' hsome
        rw [List.append_nil, List.self_eq_append_right] at happend
        exact happend
  obtain ⟨w, hw, hle, hnone, hsome⟩ := hdone
  obtain ⟨r', d', hexec, happlied⟩ := applySet_cases execute t' hvalid hw
  cases happlied with
  | refused hnewer => omega
  | current _ _ =>
      rw [ensured_eq hsome] at hexec
      exact ⟨w, hexec⟩
  | failed _ hpending _ => exact absurd hnone hpending
  | done _ hpending _ => exact absurd hnone hpending

/-- **A call that fails** leaves schema, rows and record as they were, up to an
empty bookkeeping table. -/
theorem applySet_failed {err : StoreError}
    (hrun : (applySet execute ms t).exec db = (.error err, db')) :
    db' = db ∨ db' = ensured db := by
  by_cases hvalid : Ascending ms
  · by_cases hrecorded : ∃ v, Recorded db v
    · obtain ⟨v, hv⟩ := hrecorded
      obtain ⟨r', d', hexec, happlied⟩ := applySet_cases execute t hvalid hv
      rw [hrun] at hexec
      cases hexec
      cases happlied with
      | refused _ => exact .inr rfl
      | failed _ _ _ => exact .inr rfl
    · obtain ⟨err', herr⟩ :=
        applySet_unreadable execute t hvalid (fun v hv => hrecorded ⟨v, hv⟩)
      rw [hrun] at herr
      cases herr
      exact .inr rfl
  · obtain ⟨err', herr⟩ := applySet_invalid execute db t hvalid
    rw [hrun] at herr
    cases herr
    exact .inl rfl

/-- The empty bookkeeping table makes no difference to a later call. -/
theorem applySet_ensured (hvalid : Ascending ms) :
    (applySet execute ms t).exec (ensured db) = (applySet execute ms t).exec db := by
  have hchecked : ∀ d, (liftM (validate 0 ms) : Program (Database σ) StoreError Unit).exec d =
      (.ok (), d) := by
    intro d
    rw [Program.exec_check, validate_iff.mpr hvalid]
  unfold applySet
  rw [Program.exec_bind_ok (hchecked _), Program.exec_bind_ok (hchecked _), Program.exec_bind,
    Program.exec_bind]
  rfl

/-- What upgrading promises of a set. -/
structure Upgrades (execute : String → Program (Database σ) DatabaseError Unit)
    (ms : List Migration) : Prop where
  /-- Parts one after the other and then the whole set, or the whole set at once. -/
  parts : validate 0 ms = .ok () → (∀ m ∈ ms, Apart execute m.sql) →
    ∀ db t r d, (applySet execute ms t).exec db = (.ok r, d) →
      ∀ parts : List (List Migration × Int), (∀ part ∈ parts, part.1 <+: ms) → ∀ t', ∃ r' d',
        (applySet execute ms t').exec (applyParts execute parts db) = (.ok r', d') ∧ Same d d'
  /-- The set once more. -/
  again : validate 0 ms = .ok () → (∀ m ∈ ms, Apart execute m.sql) →
    ∀ db t r d, (applySet execute ms t).exec db = (.ok r, d) →
      ∀ t', ∃ w, (applySet execute ms t').exec d = (.ok ⟨w, w, []⟩, d)
  /-- A call that fails, and the call after it. -/
  failed : ∀ db t err db', (applySet execute ms t).exec db = (.error err, db') →
    db'.contents = db.contents ∧ history db' = history db ∧ (db.versions ≠ none → db' = db) ∧
      ∀ fixed t', validate 0 fixed = .ok () →
        (applySet execute fixed t').exec db' = (applySet execute fixed t').exec db
  /-- A database of a newer build. -/
  newer : validate 0 ms = .ok () → ∀ db t v, Recorded db v → newest ms < v →
    (applySet execute ms t).exec db = (.error (.schemaTooNew v (newest ms)), db)
  /-- A set that is not strictly ascending from 1 upwards. -/
  invalid : ¬Ascending ms → ∀ db t, ∃ err, (applySet execute ms t).exec db = (.error err, db)

/-- **Migrations compose and are atomic.** -/
theorem upgrades (execute : String → Program (Database σ) DatabaseError Unit)
    (ms : List Migration) : Upgrades execute ms where
  parts := by
    intro hcheck hapart db t r d hrun parts hparts t'
    have hvalid := validate_iff.mp hcheck
    exact (reaches_of_ok hvalid hapart (Same.refl db) hrun).parts hvalid hapart hparts t'
  again := by
    intro hcheck hapart db t r d hrun t'
    exact applySet_again (validate_iff.mp hcheck) hapart hrun t'
  failed := by
    intro db t err db' hrun
    rcases applySet_failed hrun with rfl | rfl
    · exact ⟨rfl, rfl, fun _ => rfl, fun _ _ _ => rfl⟩
    · exact ⟨rfl, rfl, ensured_eq, fun fixed t' hcheck => applySet_ensured (validate_iff.mp hcheck)⟩
  newer := by
    intro hcheck db t v hv hnewer
    rw [UInt32.lt_iff_toNat_lt] at hnewer
    have hsome : db.versions ≠ none := by
      intro hnone
      unfold Recorded history at hv
      rw [hnone] at hv
      have hzero : (0 : Int) = v.toNat := hv
      omega
    obtain ⟨r', d', hexec, happlied⟩ := applySet_cases execute t (validate_iff.mp hcheck) hv
    cases happlied with
    | refused _ => rw [hexec, ensured_eq hsome]
    | current hle _ => omega
    | failed hle _ _ => omega
    | done hle _ _ => omega
  invalid := by
    intro hinvalid db t
    exact applySet_invalid execute db t hinvalid

/-! ### Scripts that fail, and scripts that write the bookkeeping table -/

/-- An engine that keeps the tables that were created. -/
def created (sql : String) : Program (Database (List String)) DatabaseError Unit := do
  let db ← get
  if sql = "THIS IS NOT SQL;" then throw .rejected
  else if sql = "INSERT INTO schema_version VALUES (5, 'five', 0);" then
    set (⟨db.contents, some (history db ++ [⟨5, "five", 0⟩])⟩ : Database (List String))
  else if sql ∈ db.contents then throw .rejected
  else set (⟨db.contents ++ [sql], db.versions⟩ : Database (List String))

/-- Three tables, one after the other. -/
def tables : List Migration :=
  [⟨1, "one", "CREATE TABLE one (x INTEGER) STRICT;"⟩,
    ⟨2, "two", "CREATE TABLE two (x INTEGER) STRICT;"⟩,
    ⟨3, "three", "CREATE TABLE three (x INTEGER) STRICT;"⟩]

theorem tables_apart : ∀ m ∈ tables, Apart created m.sql := by
  have hone : ∀ sql, sql ≠ "THIS IS NOT SQL;" →
      sql ≠ "INSERT INTO schema_version VALUES (5, 'five', 0);" → Apart created sql := by
    intro sql hnot hfive
    refine ⟨fun contents => if sql ∈ contents then (.error .rejected, contents)
      else (.ok (), contents ++ [sql]), fun db => ?_⟩
    have hexec : (created sql).exec db =
        (if sql ∈ db.contents then (throw .rejected : Program (Database (List String)) DatabaseError Unit)
        else set (⟨db.contents ++ [sql], db.versions⟩ : Database (List String))).exec db := by
      unfold created
      simp only [if_neg hnot, if_neg hfive]
      rfl
    rw [hexec]
    dsimp only
    split_ifs
    · rfl
    · rfl
  intro m hm
  unfold tables at hm
  rw [List.mem_cons, List.mem_cons, List.mem_singleton] at hm
  rcases hm with rfl | rfl | rfl
  · exact hone _ (by decide) (by decide)
  · exact hone _ (by decide) (by decide)
  · exact hone _ (by decide) (by decide)

/-- The first table alone, and then all three. -/
theorem upgrades_tables : ∃ r d, (applySet created tables 7).exec
      (applyParts created [([⟨1, "one", "CREATE TABLE one (x INTEGER) STRICT;"⟩], 5)] ⟨[], none⟩) =
        (.ok r, d) ∧ d.contents = tables.map Migration.sql := by
  obtain ⟨r, d, hexec, hsame⟩ := (upgrades created tables).parts rfl tables_apart ⟨[], none⟩ 6 _ _ rfl
    [([⟨1, "one", "CREATE TABLE one (x INTEGER) STRICT;"⟩], 5)] (by decide) 7
  exact ⟨r, d, hexec, hsame.contents⟩

/-- A set whose second script fails. -/
def broken : List Migration :=
  [⟨1, "one", "CREATE TABLE one (x INTEGER) STRICT;"⟩, ⟨2, "two", "THIS IS NOT SQL;"⟩]

/-- A set whose first script records a version of its own. -/
def straying : List Migration :=
  [⟨1, "five", "INSERT INTO schema_version VALUES (5, 'five', 0);"⟩,
    ⟨2, "two", "CREATE TABLE two (x INTEGER) STRICT;"⟩]

/-- Where the last script fails, the parts before it stay; a fresh database is
left with a bookkeeping table; and a script that records a version of its own
stops the rest of its set. -/
theorem parts_differ : validate 0 broken = .ok () ∧ validate 0 straying = .ok () ∧
    ((applySet created broken 0).exec ⟨[], none⟩).2 = ⟨[], some []⟩ ∧
    ((applySet created broken 0).exec (applyParts created [(broken.take 1, 0)] ⟨[], none⟩)).2 =
      ⟨["CREATE TABLE one (x INTEGER) STRICT;"], some [⟨1, "one", 0⟩]⟩ ∧
    ((applySet created straying 0).exec ⟨[], none⟩).2.contents =
      ["CREATE TABLE two (x INTEGER) STRICT;"] ∧
    ((applySet created straying 0).exec
      (applyParts created [(straying.take 1, 0)] ⟨[], none⟩)).2.contents = [] :=
  ⟨rfl, rfl, rfl, rfl, rfl, rfl⟩

end Migrations

end Store
