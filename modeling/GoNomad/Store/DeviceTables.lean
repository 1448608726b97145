import GoNomad.Lib.Run
import GoNomad.Lib.Transaction
import GoNomad.Store.Devices

/-!
# The tables of devices

The rows as the engine keeps them, with identifiers and keys as hex text, and
the operations statement by statement.  Any statement may be rejected by the
engine; where several belong together they run in a transaction.

* `perform_atomic` — an operation that fails changes nothing;
* `perform_refines` — an operation that goes through does what `Devices.apply`
  says;
* `tables_lawful` — what holds after any operations in any order.
-/

namespace Store

open Proto

/-- A row of `devices`. -/
structure RawDevice where
  id : Str
  pubkey : Str
  name : String
  model : Option String
  pairedAt : Int
  lastSeen : Option Int
  revokedAt : Option Int
  deriving DecidableEq

/-- A row of `grants`. -/
structure RawGrant where
  deviceId : Str
  capability : String
  grantedAt : Int
  grantedBy : Option Str
  deriving DecidableEq

/-- A row of `workspace_roots`. -/
structure RawRoot where
  deviceId : Str
  path : String
  addedAt : Int
  deriving DecidableEq

/-- The three tables. -/
structure Tables where
  deviceRows : List RawDevice
  grantRows : List RawGrant
  rootRows : List RawRoot
  deriving DecidableEq

/-- The hex text of an identifier. -/
def hex {kind : IdKind} (x : Id kind) : Str := ⟨x.toHex, length_utf8_toHex x⟩

/-- Decodes a row; its identifier must be that of its key. -/
def RawDevice.decode (raw : RawDevice) : Except StoreError Device := do
  let key ← publicKey "devices" "pubkey" raw.pubkey
  let id ← deviceId "devices" "id" raw.id
  if h : id = fromPublicKey key then
    .ok { id, publicKey := key, name := raw.name, model := raw.model, pairedAtMs := raw.pairedAt,
          lastSeenMs := raw.lastSeen, revokedAtMs := raw.revokedAt, id_eq := h }
  else .error (.corruptRow "devices" (.notKeyHash id))

namespace Tables

/-- The statements of the operations. -/
inductive Statement
  | begin
  | commit
  | selectByKey
  | selectById
  | selectActive
  | existsById
  | insertDevice
  | updateDevice
  | deleteGrants
  | insertGrant (capability : Capability)
  | selectGrants
  | selectRoots
  | insertRoot
  | deleteRoot
  deriving DecidableEq

/-- The statements that the engine rejects. -/
abbrev Faults := Statement → Bool

variable {α : Type}

/-- A statement, unless the engine rejects it. -/
def statement (faults : Faults) (label : Statement) (p : Program Tables StoreError α) :
    Program Tables StoreError α :=
  if faults label then throw .database else p

variable (faults : Faults)

/-! ### Statements -/

/-- Inserts a device; identifier and key are unique. -/
def insertDevice (row : RawDevice) : Program Tables StoreError Unit := do
  let t ← get
  if t.deviceRows.any fun other => other.id = row.id ∨ other.pubkey = row.pubkey then throw .database
  else set ({ t with deviceRows := row :: t.deviceRows } : Tables)

/-- Inserts a grant; device and capability are unique, and the device exists. -/
def insertGrant (row : RawGrant) : Program Tables StoreError Unit := do
  let t ← get
  if t.grantRows.any fun other =>
      other.deviceId = row.deviceId ∧ other.capability = row.capability then throw .database
  else if t.deviceRows.any fun device => device.id = row.deviceId then
    set ({ t with grantRows := t.grantRows ++ [row] } : Tables)
  else throw .database

/-- Inserts a workspace root unless it is there, and how many rows were added;
the device exists. -/
def insertRoot (row : RawRoot) : Program Tables StoreError Nat := do
  let t ← get
  if t.rootRows.any fun other => other.deviceId = row.deviceId ∧ other.path = row.path then pure 0
  else if t.deviceRows.any fun device => device.id = row.deviceId then do
    set ({ t with rootRows := t.rootRows ++ [row] } : Tables)
    pure 1
  else throw .database

/-- Updates devices, and how many rows there were. -/
def updateDevices (p : RawDevice → Bool) (f : RawDevice → RawDevice) :
    Program Tables StoreError Nat := do
  let t ← get
  set ({ t with deviceRows := t.deviceRows.map fun row => if p row then f row else row } : Tables)
  pure (t.deviceRows.countP p)

/-! ### Operations -/

/-- Looks a device up by its credential. -/
def findByPublicKey (key : PublicKey) : Program Tables StoreError (Option Device) := do
  let t ← statement faults .selectByKey get
  match t.deviceRows.find? fun row => row.pubkey = hex key with
  | none => pure none
  | some raw => do
      let device ← raw.decode
      pure (some device)

/-- Looks a device up by its identifier. -/
def get (id : DeviceId) : Program Tables StoreError (Option Device) := do
  let t ← statement faults .selectById MonadState.get
  match t.deviceRows.find? fun row => row.id = hex id with
  | none => pure none
  | some raw => do
      let device ← raw.decode
      pure (some device)

/-- Devices that may currently authenticate, newest first. -/
def listActive : Program Tables StoreError (List Device) := do
  let t ← statement faults .selectActive MonadState.get
  let rows := (t.deviceRows.filter fun row => row.revokedAt.isNone).insertionSort
    fun a b => b.pairedAt ≤ a.pairedAt
  (rows.mapM RawDevice.decode : Except StoreError (List Device))

/-- Whether a device is there. -/
def existsWithin (id : DeviceId) : Program Tables StoreError Bool := do
  let t ← statement faults .existsById MonadState.get
  pure (t.deviceRows.any fun row => row.id = hex id)

/-- Replaces the grant rows of one device. -/
def writeGrants (id : DeviceId) (grants : CapabilitySet) (grantedBy : Option DeviceId) (now : Int) :
    Program Tables StoreError Unit := do
  statement faults .deleteGrants (modify fun t : Tables =>
    { t with grantRows := t.grantRows.filter fun row => row.deviceId ≠ hex id })
  insertGrants grants.iter
where
  insertGrants : List Capability → Program Tables StoreError Unit
    | [] => pure ()
    | capability :: rest => do
        statement faults (.insertGrant capability)
          (insertGrant ⟨hex id, capability.asStr, now, grantedBy.map hex⟩)
        insertGrants rest

/-- Registers a newly paired device together with its initial grant. -/
def pair (key : PublicKey) (name : String) (model : Option String) (grants : CapabilitySet)
    (now : Int) : Program Tables StoreError Device :=
  Program.transaction do
    statement faults .begin (pure ())
    match ← findByPublicKey faults key with
    | some existing => throw (.alreadyPaired existing.id)
    | none => do
        let id := fromPublicKey key
        statement faults .insertDevice (insertDevice ⟨hex id, hex key, name, model, now, none, none⟩)
        writeGrants faults id grants none now
        statement faults .commit (pure ())
        pure { id, publicKey := key, name, model, pairedAtMs := now, lastSeenMs := none,
               revokedAtMs := none, id_eq := rfl }

/-- Changes a device's display name. -/
def rename (id : DeviceId) (name : String) : Program Tables StoreError Unit := do
  let changed ← statement faults .updateDevice
    (updateDevices (fun row => row.id = hex id) fun row => { row with name })
  if changed = 0 then throw (Devices.missing id) else pure ()

/-- Records that a device just authenticated. -/
def touchLastSeen (id : DeviceId) (now : Int) : Program Tables StoreError Unit := do
  let changed ← statement faults .updateDevice
    (updateDevices (fun row => row.id = hex id) fun row => { row with lastSeen := some now })
  if changed = 0 then throw (Devices.missing id) else pure ()

/-- Revokes a device, and whether it was not revoked already. -/
def revoke (id : DeviceId) (now : Int) : Program Tables StoreError Bool := do
  let changed ← statement faults .updateDevice
    (updateDevices (fun row => row.id = hex id ∧ row.revokedAt = none)
      fun row => { row with revokedAt := some now })
  if 0 < changed then pure true
  else do
    match ← get faults id with
    | none => throw (Devices.missing id)
    | some _ => pure false

/-- The capabilities a device may currently exercise. -/
def grants (id : DeviceId) : Program Tables StoreError CapabilitySet := do
  match ← get faults id with
  | none => pure .empty
  | some device =>
      if device.isRevoked then pure .empty
      else do
        let t ← statement faults .selectGrants MonadState.get
        -- A name that this build does not know is skipped.
        pure (.ofList (((t.grantRows.filter fun row => row.deviceId = hex id).map
          RawGrant.capability).filterMap Capability.fromStr))

/-- Replaces a device's grant wholesale. -/
def setGrants (id : DeviceId) (grants : CapabilitySet) (grantedBy : Option DeviceId) (now : Int) :
    Program Tables StoreError Unit :=
  Program.transaction do
    statement faults .begin (pure ())
    if ← existsWithin faults id then do
      writeGrants faults id grants grantedBy now
      statement faults .commit (pure ())
    else throw (Devices.missing id)

/-- The workspace roots a device may reach, sorted. -/
def workspaceRoots (id : DeviceId) : Program Tables StoreError (List String) := do
  let t ← statement faults .selectRoots MonadState.get
  pure (((t.rootRows.filter fun row => row.deviceId = hex id).map RawRoot.path).insertionSort (· ≤ ·))

/-- Grants a device access to a workspace root. -/
def addWorkspaceRoot (id : DeviceId) (path : String) (now : Int) :
    Program Tables StoreError Bool := do
  if ← existsWithin faults id then do
    let changed ← statement faults .insertRoot (insertRoot ⟨hex id, path, now⟩)
    pure (0 < changed)
  else throw (Devices.missing id)

/-- Withdraws a workspace root. -/
def removeWorkspaceRoot (id : DeviceId) (path : String) : Program Tables StoreError Bool := do
  let t ← statement faults .deleteRoot MonadState.get
  let gone := fun row : RawRoot => decide (row.deviceId = hex id ∧ row.path = path)
  set ({ t with rootRows := t.rootRows.filter fun row => !gone row } : Tables)
  pure (0 < t.rootRows.countP gone)

/-! ### What is done to the tables -/

/-- One operation that writes. -/
inductive Op
  | pair (key : PublicKey) (name : String) (model : Option String) (grants : CapabilitySet)
      (now : Int)
  | rename (id : DeviceId) (name : String)
  | touchLastSeen (id : DeviceId) (now : Int)
  | revoke (id : DeviceId) (now : Int)
  | setGrants (id : DeviceId) (grants : CapabilitySet) (grantedBy : Option DeviceId) (now : Int)
  | addWorkspaceRoot (id : DeviceId) (path : String) (now : Int)
  | removeWorkspaceRoot (id : DeviceId) (path : String)

/-- The device an operation is on. -/
def Op.target : Op → DeviceId
  | .pair key .. => fromPublicKey key
  | .rename id _ | .touchLastSeen id _ | .revoke id _ | .setGrants id .. | .addWorkspaceRoot id ..
  | .removeWorkspaceRoot id _ => id

/-- An operation, without its result. -/
def perform : Op → Program Tables StoreError Unit
  | .pair key name model grants now => pair faults key name model grants now >>= fun _ => pure ()
  | .rename id name => rename faults id name
  | .touchLastSeen id now => touchLastSeen faults id now
  | .revoke id now => revoke faults id now >>= fun _ => pure ()
  | .setGrants id grants grantedBy now => setGrants faults id grants grantedBy now
  | .addWorkspaceRoot id path now => addWorkspaceRoot faults id path now >>= fun _ => pure ()
  | .removeWorkspaceRoot id path => removeWorkspaceRoot faults id path >>= fun _ => pure ()

/-- One operation under some faults, with its result. -/
def step (t : Tables) (event : Op × Faults) : Option (Tables × Except StoreError Unit) :=
  some (((perform event.2 event.1).exec t).2, ((perform event.2 event.1).exec t).1)

open Program

variable {faults} {t t' : Tables} {β : Type}

/-! ### An operation that fails changes nothing -/

theorem reads_statement {label : Statement} {p : Program Tables StoreError α} (h : Reads p) :
    Reads (statement faults label p) := by
  unfold statement
  split_ifs
  · exact reads_throw _
  · exact h

theorem atomic_statement {label : Statement} {p : Program Tables StoreError α} (h : Atomic p) :
    Atomic (statement faults label p) := by
  unfold statement
  split_ifs
  · exact (reads_throw _).atomic
  · exact h

theorem reads_get (id : DeviceId) : Reads (get faults id) := by
  refine (reads_statement Program.reads_get).bind fun t => ?_
  split
  · exact reads_pure _
  · exact (reads_check _).bind fun device => reads_pure _

theorem reads_existsWithin (id : DeviceId) : Reads (existsWithin faults id) :=
  (reads_statement Program.reads_get).bind fun _ => reads_pure _

/-- The tables after an update of devices. -/
def updated (t : Tables) (p : RawDevice → Bool) (f : RawDevice → RawDevice) : Tables :=
  { t with deviceRows := t.deviceRows.map fun row => if p row then f row else row }

theorem exec_updateDevices (p : RawDevice → Bool) (f : RawDevice → RawDevice) (t : Tables) :
    (updateDevices p f).exec t = (.ok (t.deviceRows.countP p), updated t p f) := rfl

theorem updated_none {p : RawDevice → Bool} {f : RawDevice → RawDevice}
    (h : t.deviceRows.countP p = 0) : updated t p f = t := by
  have hmap : (t.deviceRows.map fun row => if p row then f row else row) = t.deviceRows := by
    refine (List.map_congr_left fun row hrow => ?_).trans (List.map_id _)
    rw [if_neg (List.countP_eq_zero.mp h row hrow), id]
  unfold updated
  rw [hmap]

/-- An update is followed by a look at how many rows there were. -/
theorem atomic_updated {label : Statement} {p : RawDevice → Bool} {f : RawDevice → RawDevice}
    {q : Nat → Program Tables StoreError β} (hzero : Reads (q 0))
    (hsome : ∀ n, 0 < n → ∃ b, q n = pure b) :
    Atomic (statement faults label (updateDevices p f) >>= q) := by
  intro s e s' h
  unfold statement at h
  split_ifs at h
  · cases h
    rfl
  · rw [exec_bind_ok (exec_updateDevices p f s)] at h
    by_cases hcount : s.deviceRows.countP p = 0
    · rw [hcount, updated_none hcount] at h
      exact hzero.atomic _ _ _ h
    · obtain ⟨b, hb⟩ := hsome _ (Nat.pos_of_ne_zero hcount)
      rw [hb] at h
      cases h

theorem atomic_insertRoot (row : RawRoot) : Atomic (insertRoot row) := by
  refine Atomic.after Program.reads_get fun t => ?_
  split_ifs
  · exact (reads_pure _).atomic
  · exact (atomic_set _).before fun _ => 1
  · exact (reads_throw _).atomic

/-- **An operation that fails** changes nothing. -/
theorem perform_atomic (faults : Faults) (op : Op) : Atomic (perform faults op) := by
  cases op with
  | pair key name model grants now => exact (Atomic.transaction _).before fun _ => ()
  | rename id name =>
      refine atomic_updated (reads_throw _) fun n hn => ⟨(), ?_⟩
      rw [if_neg (Nat.pos_iff_ne_zero.mp hn)]
  | touchLastSeen id now =>
      refine atomic_updated (reads_throw _) fun n hn => ⟨(), ?_⟩
      rw [if_neg (Nat.pos_iff_ne_zero.mp hn)]
  | revoke id now =>
      refine Atomic.before ?_ fun _ => ()
      refine atomic_updated ?_ fun n hn => ⟨true, ?_⟩
      · rw [if_neg (Nat.lt_irrefl 0)]
        refine (reads_get id).bind fun device => ?_
        cases device with
        | none => exact reads_throw _
        | some device => exact reads_pure _
      · rw [if_pos hn]
  | setGrants id grants grantedBy now => exact Atomic.transaction _
  | addWorkspaceRoot id path now =>
      refine Atomic.before ?_ fun _ => ()
      refine Atomic.after (reads_existsWithin id) fun found => ?_
      split_ifs
      · exact (atomic_statement (atomic_insertRoot _)).before fun changed => decide (0 < changed)
      · exact (reads_throw _).atomic
  | removeWorkspaceRoot id path =>
      refine Atomic.before ?_ fun _ => ()
      refine Atomic.after (reads_statement Program.reads_get) fun t => ?_
      exact (atomic_set _).before fun _ => _

/-! ### The tables of a store -/

theorem hex_injective {kind : IdKind} {x y : Id kind} (h : hex x = hex y) : x = y := by
  have hx := Id.fromHex_toHex x
  have htext : x.toHex = y.toHex := congrArg Str.text h
  rw [htext, Id.fromHex_toHex] at hx
  exact (Except.ok.inj hx).symm

@[simp] theorem hex_inj {kind : IdKind} {x y : Id kind} : hex x = hex y ↔ x = y :=
  ⟨hex_injective, congrArg hex⟩

end Tables

/-- The row of a device. -/
def Device.raw (device : Device) : RawDevice :=
  ⟨hex device.id, hex device.publicKey, device.name, device.model, device.pairedAtMs,
    device.lastSeenMs, device.revokedAtMs⟩

/-- The row of a grant. -/
def GrantRow.raw (row : GrantRow) : RawGrant :=
  ⟨hex row.deviceId, row.capability.asStr, row.grantedAtMs, row.grantedBy.map hex⟩

/-- The tables of a store and some roots. -/
def Devices.encode (db : Devices) (roots : List RawRoot) : Tables :=
  ⟨db.rows.map Device.raw, db.grantRows.map GrantRow.raw, roots⟩

/-- A device is read back from its row. -/
theorem RawDevice.decode_raw (device : Device) : device.raw.decode = .ok device := by
  have hkey : publicKey "devices" "pubkey" device.raw.pubkey = .ok device.publicKey :=
    publicKey_toHex ..
  have hid : deviceId "devices" "id" device.raw.id = .ok device.id := deviceId_toHex ..
  unfold RawDevice.decode
  rw [hkey, Except.ok_bind, hid, Except.ok_bind, dif_pos device.id_eq]
  rfl

namespace Tables

open Program

variable {faults : Faults} {α β : Type} {t t' : Tables} {db db' : Devices} {roots : List RawRoot}

/-- A statement that the engine rejects, or not. -/
theorem exec_statement (faults : Faults) (label : Statement) (p : Program Tables StoreError α) :
    (statement faults label p).exec t = if faults label then (.error .database, t) else p.exec t := by
  unfold statement
  split_ifs
  · rfl
  · rfl

theorem statement_ok {label : Statement} {p : Program Tables StoreError α} {a : α}
    (h : (statement faults label p).exec t = (.ok a, t')) : p.exec t = (.ok a, t') := by
  rw [exec_statement] at h
  split_ifs at h
  · cases h
  · exact h

theorem mapM_raw (devices : List Device) :
    (devices.map Device.raw).mapM RawDevice.decode = (.ok devices : Except StoreError _) := by
  induction devices with
  | nil => rfl
  | cons device devices ih =>
      rw [List.map_cons, List.mapM_cons, RawDevice.decode_raw, Except.ok_bind, ih, Except.ok_bind]
      rfl

/-- **A lookup by identifier** is that of the store. -/
theorem exec_get (faults : Faults) (id : DeviceId) :
    (get faults id).exec (db.encode roots) =
      (if faults .selectById then .error .database else .ok (db.get id), db.encode roots) := by
  have hfind : (db.encode roots).deviceRows.find? (fun row => row.id = hex id) =
      (db.get id).map Device.raw := by
    unfold Devices.encode Devices.get
    rw [List.find?_map]
    congr 2
    funext row
    simp [Device.raw]
  unfold get
  rw [exec_bind, exec_statement]
  split_ifs
  · rfl
  · dsimp only [Program.exec_get]
    rw [hfind]
    cases db.get id with
    | none => rfl
    | some device =>
        dsimp only [Option.map_some]
        rw [RawDevice.decode_raw]
        rfl

/-- **A lookup by credential** is that of the store. -/
theorem exec_findByPublicKey (faults : Faults) (key : PublicKey) :
    (findByPublicKey faults key).exec (db.encode roots) =
      (if faults .selectByKey then .error .database else .ok (db.findByPublicKey key),
        db.encode roots) := by
  have hfind : (db.encode roots).deviceRows.find? (fun row => row.pubkey = hex key) =
      (db.findByPublicKey key).map Device.raw := by
    unfold Devices.encode Devices.findByPublicKey
    rw [List.find?_map]
    congr 2
    funext row
    simp [Device.raw]
  unfold findByPublicKey
  rw [exec_bind, exec_statement]
  split_ifs
  · rfl
  · dsimp only [Program.exec_get]
    rw [hfind]
    cases db.findByPublicKey key with
    | none => rfl
    | some device =>
        dsimp only [Option.map_some]
        rw [RawDevice.decode_raw]
        rfl

/-- **The devices listed** are those of the store. -/
theorem exec_listActive (faults : Faults) :
    (listActive faults).exec (db.encode roots) =
      (if faults .selectActive then .error .database else .ok db.listActive, db.encode roots) := by
  have hrows : (((db.encode roots).deviceRows.filter fun row => row.revokedAt.isNone).insertionSort
      fun a b => b.pairedAt ≤ a.pairedAt) = db.listActive.map Device.raw := by
    unfold Devices.encode Devices.listActive
    rw [List.filter_map]
    exact (List.map_insertionSort (fun a b : Device => b.pairedAtMs ≤ a.pairedAtMs)
      (fun a b : RawDevice => b.pairedAt ≤ a.pairedAt) Device.raw _ fun _ _ _ _ => Iff.rfl).symm
  unfold listActive
  rw [exec_bind, exec_statement]
  split_ifs
  · rfl
  · dsimp only [Program.exec_get]
    rw [hrows, mapM_raw]
    rfl

theorem capabilities_raw (rows : List GrantRow) (id : DeviceId) :
    (((rows.map GrantRow.raw).filter fun row => row.deviceId = hex id).map
        RawGrant.capability).filterMap Capability.fromStr =
      (rows.filter fun row => row.deviceId = id).map GrantRow.capability := by
  induction rows with
  | nil => rfl
  | cons row rows ih =>
      rw [List.map_cons]
      by_cases hid : row.deviceId = id
      · have hname : Capability.fromStr row.raw.capability = some row.capability :=
          Capability.fromStr_asStr row.capability
        rw [List.filter_cons_of_pos (by simp [GrantRow.raw, hid]),
          List.filter_cons_of_pos (by simp [hid]), List.map_cons, List.map_cons,
          List.filterMap_cons_some hname, ih]
      · rw [List.filter_cons_of_neg (by simp [GrantRow.raw, hid]),
          List.filter_cons_of_neg (by simp [hid]), ih]

/-- **The capabilities of a device** are those of the store. -/
theorem exec_grants (faults : Faults) (id : DeviceId) :
    (grants faults id).exec (db.encode roots) = (.ok (db.grants id), db.encode roots) ∨
      (faults .selectById ∨ faults .selectGrants) ∧
        (grants faults id).exec (db.encode roots) = (.error .database, db.encode roots) := by
  unfold grants Devices.grants
  rw [exec_bind, exec_get]
  by_cases hid : faults .selectById
  · rw [if_pos hid]
    exact .inr ⟨.inl hid, rfl⟩
  · rw [if_neg hid]
    cases db.get id with
    | none => exact .inl rfl
    | some device =>
        dsimp only
        split_ifs
        · exact .inl rfl
        · rw [exec_bind, exec_statement]
          split_ifs with hgrants
          · exact .inr ⟨.inr hgrants, rfl⟩
          · left
            dsimp only [Program.exec_get, Devices.encode]
            rw [capabilities_raw]
            rfl

/-! ### What an operation that goes through does -/

theorem insertDevice_ok {row : RawDevice} (h : (insertDevice row).exec t = (.ok (), t')) :
    (∀ other ∈ t.deviceRows, other.id ≠ row.id) ∧
      t' = { t with deviceRows := row :: t.deviceRows } := by
  unfold insertDevice at h
  rw [exec_bind, Program.exec_get] at h
  dsimp only at h
  split_ifs at h with hunique
  · cases h
  · cases h
    refine ⟨fun other hother heq => hunique ?_, rfl⟩
    exact List.any_eq_true.mpr ⟨other, hother, decide_eq_true (.inl heq)⟩

theorem insertGrant_ok {row : RawGrant} (h : (insertGrant row).exec t = (.ok (), t')) :
    t' = { t with grantRows := t.grantRows ++ [row] } := by
  unfold insertGrant at h
  rw [exec_bind, Program.exec_get] at h
  dsimp only at h
  split_ifs at h
  · cases h
  · cases h
    rfl
  · cases h

theorem insertRoot_ok {row : RawRoot} {n : Nat} (h : (insertRoot row).exec t = (.ok n, t')) :
    t' = t ∨ t' = { t with rootRows := t.rootRows ++ [row] } := by
  unfold insertRoot at h
  rw [exec_bind, Program.exec_get] at h
  dsimp only at h
  split_ifs at h
  · cases h
    exact .inl rfl
  · cases h
    exact .inr rfl
  · cases h

theorem insertGrants_ok {id : DeviceId} {grantedBy : Option DeviceId} {now : Int} :
    ∀ {capabilities : List Capability} {t : Tables},
      (writeGrants.insertGrants faults id grantedBy now capabilities).exec t = (.ok (), t') →
      t' = { t with grantRows := t.grantRows ++ capabilities.map fun capability =>
        ⟨hex id, capability.asStr, now, grantedBy.map hex⟩ } := by
  intro capabilities
  induction capabilities with
  | nil =>
      intro t h
      cases h
      rw [List.map_nil, List.append_nil]
  | cons capability rest ih =>
      intro t h
      obtain ⟨_, s, hinsert, hrest⟩ := exec_bind_eq_ok.mp h
      rw [insertGrant_ok (statement_ok hinsert)] at hrest
      rw [ih hrest, List.map_cons, List.append_assoc, List.singleton_append]

theorem writeGrants_ok {id : DeviceId} {grants : CapabilitySet} {grantedBy : Option DeviceId}
    {now : Int} (h : (writeGrants faults id grants grantedBy now).exec t = (.ok (), t')) :
    t' = { t with grantRows := (t.grantRows.filter fun row => row.deviceId ≠ hex id) ++
      grants.iter.map fun capability => ⟨hex id, capability.asStr, now, grantedBy.map hex⟩ } := by
  obtain ⟨_, s, hdelete, hinsert⟩ := exec_bind_eq_ok.mp h
  cases statement_ok hdelete
  exact insertGrants_ok hinsert

/-- The rows of grants that replace those of one device. -/
theorem writeGrants_raw (rows : List GrantRow) (id : DeviceId) (grants : CapabilitySet)
    (grantedBy : Option DeviceId) (now : Int) :
    (((rows.map GrantRow.raw).filter fun row => row.deviceId ≠ hex id) ++
        grants.iter.map fun capability =>
          (⟨hex id, capability.asStr, now, grantedBy.map hex⟩ : RawGrant)) =
      (Devices.writeGrants rows id grants grantedBy now).map GrantRow.raw := by
  unfold Devices.writeGrants
  rw [List.map_append, List.map_map, List.filter_map]
  congr 2
  apply List.filter_congr
  intro row _
  simp [GrantRow.raw]

/-- What `pair` does. -/
theorem pair_ok {key : PublicKey} {name : String} {model : Option String} {grants : CapabilitySet}
    {now : Int} {device : Device}
    (h : (pair faults key name model grants now).exec (db.encode roots) = (.ok device, t')) :
    ∃ db', db.pair key name model grants now = .ok (db', device) ∧ t' = db'.encode roots := by
  obtain ⟨_, s, hbegin, h⟩ := exec_bind_eq_ok.mp (exec_transaction_ok.mp h)
  cases statement_ok hbegin
  obtain ⟨found, s, hfind, h⟩ := exec_bind_eq_ok.mp h
  rw [exec_findByPublicKey] at hfind
  split_ifs at hfind
  · cases hfind
  · obtain ⟨hfound, rfl⟩ := Prod.mk.inj hfind
    obtain rfl := Except.ok.inj hfound
    cases hkey : db.findByPublicKey key with
    | some existing =>
        rw [hkey] at h
        cases h
    | none =>
        rw [hkey] at h
        obtain ⟨_, s, hinsert, h⟩ := exec_bind_eq_ok.mp h
        obtain ⟨hunique, rfl⟩ := insertDevice_ok (statement_ok hinsert)
        obtain ⟨_, s, hwrite, h⟩ := exec_bind_eq_ok.mp h
        obtain rfl := writeGrants_ok hwrite
        obtain ⟨_, s, hcommit, h⟩ := exec_bind_eq_ok.mp h
        cases statement_ok hcommit
        cases h
        have hfresh : fromPublicKey key ∉ db.rows.map Device.id := by
          intro hmem
          obtain ⟨row, hrow, hid⟩ := List.mem_map.mp hmem
          exact hunique row.raw (List.mem_map_of_mem hrow) (congrArg hex hid)
        unfold Devices.pair
        split
        · next hsome =>
            rw [hkey] at hsome
            cases hsome
        · refine ⟨_, dif_neg hfresh, ?_⟩
          unfold Devices.encode
          dsimp only
          rw [← writeGrants_raw]
          rfl

/-- An update of rows is an update of devices. -/
theorem updated_raw {p : RawDevice → Bool} {f : RawDevice → RawDevice} {g : Device → Device}
    {hid : ∀ row, (g row).id = row.id} {hkey : ∀ row, (g row).publicKey = row.publicKey}
    (h : ∀ row : Device, (if p row.raw then f row.raw else row.raw) = (g row).raw) :
    updated (db.encode roots) p f = (db.update g hid hkey).encode roots := by
  unfold updated Devices.encode Devices.update
  dsimp only
  rw [List.map_map, List.map_map]
  congr 2
  funext row
  exact h row

/-- An update that finds a row finds a device. -/
theorem get_of_countP {p : RawDevice → Bool} {id : DeviceId}
    (hp : ∀ row : Device, p row.raw → row.id = id)
    (h : 0 < (db.encode roots).deviceRows.countP p) : (db.get id).isNone = false := by
  obtain ⟨raw, hraw, hpraw⟩ := List.countP_pos_iff.mp h
  obtain ⟨row, hrow, rfl⟩ := List.mem_map.mp hraw
  rw [← hp row hpraw, Devices.get_of_mem hrow]
  rfl

/-- What an update that fails without a row does. -/
theorem update_ok {p : RawDevice → Bool} {f : RawDevice → RawDevice} {e : StoreError}
    (h : Program.exec (do
      let changed ← statement faults .updateDevice (updateDevices p f)
      if changed = 0 then throw e else pure ()) t = (.ok (), t')) :
    0 < t.deviceRows.countP p ∧ t' = updated t p f := by
  obtain ⟨changed, s, hupdate, h⟩ := exec_bind_eq_ok.mp h
  have hexec := statement_ok hupdate
  rw [exec_updateDevices] at hexec
  cases hexec
  split_ifs at h with hzero
  · cases h
  · cases h
    exact ⟨Nat.pos_of_ne_zero hzero, rfl⟩

/-- A device that is there is found. -/
theorem existsWithin_ok {id : DeviceId} {found : Bool}
    (h : (existsWithin faults id).exec (db.encode roots) = (.ok found, t')) :
    t' = db.encode roots ∧ found = (db.get id).isSome := by
  obtain ⟨s, s', hselect, h⟩ := exec_bind_eq_ok.mp h
  cases statement_ok hselect
  cases h
  refine ⟨rfl, ?_⟩
  unfold Devices.encode Devices.get
  rw [List.isSome_find?, List.any_map]
  congr 1
  funext row
  simp [Device.raw]

/-- What `setGrants` does. -/
theorem setGrants_ok {id : DeviceId} {grants : CapabilitySet} {grantedBy : Option DeviceId}
    {now : Int}
    (h : (setGrants faults id grants grantedBy now).exec (db.encode roots) = (.ok (), t')) :
    ∃ db', db.setGrants id grants grantedBy now = .ok db' ∧ t' = db'.encode roots := by
  obtain ⟨_, s, hbegin, h⟩ := exec_bind_eq_ok.mp (exec_transaction_ok.mp h)
  cases statement_ok hbegin
  obtain ⟨found, s, hfound, h⟩ := exec_bind_eq_ok.mp h
  obtain ⟨rfl, hget⟩ := existsWithin_ok hfound
  split_ifs at h with hthere
  · obtain ⟨_, s, hwrite, h⟩ := exec_bind_eq_ok.mp h
    obtain rfl := writeGrants_ok hwrite
    cases statement_ok h
    unfold Devices.setGrants
    rw [Option.isNone_eq_false_iff.mpr (hget ▸ hthere)]
    refine ⟨_, if_neg Bool.false_ne_true, ?_⟩
    unfold Devices.encode
    dsimp only
    rw [writeGrants_raw]
  · cases h

/-- What an update of one device's row does. -/
theorem update_raw_ok {id : DeviceId} {f : RawDevice → RawDevice} {g : Device → Device}
    (hraw : ∀ row : Device, f row.raw = (g row).raw)
    (h : Program.exec (do
      let changed ← statement faults .updateDevice (updateDevices (fun row => row.id = hex id) f)
      if changed = 0 then throw (Devices.missing id) else pure ()) (db.encode roots) =
        (.ok (), t')) :
    (db.get id).isNone = false ∧ ∀ hid hkey,
      t' = (db.update (fun row => if row.id = id then g row else row) hid hkey).encode roots := by
  obtain ⟨hcount, rfl⟩ := update_ok h
  refine ⟨get_of_countP (fun row hrow => ?_) hcount, fun _ _ => updated_raw fun row => ?_⟩
  · exact hex_injective (of_decide_eq_true hrow)
  · by_cases hrow : row.id = id
    · have hraw' : decide (row.raw.id = hex id) = true := decide_eq_true (congrArg hex hrow)
      rw [if_pos hrow, if_pos hraw', hraw]
    · have hraw' : ¬decide (row.raw.id = hex id) = true := fun heq =>
        hrow (hex_injective (of_decide_eq_true heq))
      rw [if_neg hrow, if_neg hraw']

/-- What `revoke` does. -/
theorem revoke_ok {id : DeviceId} {now : Int} {first : Bool}
    (h : (revoke faults id now).exec (db.encode roots) = (.ok first, t')) :
    ∃ db', db.revoke id now = .ok (db', first) ∧ t' = db'.encode roots := by
  obtain ⟨changed, s, hupdate, h⟩ := exec_bind_eq_ok.mp h
  have hexec := statement_ok hupdate
  rw [exec_updateDevices] at hexec
  cases hexec
  have hany : (db.rows.any fun row => Devices.revocable id row) = true ↔
      0 < (db.encode roots).deviceRows.countP
        fun row => row.id = hex id ∧ row.revokedAt = none := by
    unfold Devices.encode
    rw [List.countP_map, List.countP_pos_iff, List.any_eq_true]
    refine exists_congr fun row => and_congr_right fun _ => ?_
    rw [Function.comp_apply, decide_eq_true_iff, decide_eq_true_iff]
    exact and_congr_left' hex_inj.symm
  unfold Devices.revoke
  split_ifs at h with hchanged
  · cases h
    refine ⟨_, if_pos (hany.mpr hchanged), ?_⟩
    apply updated_raw
    intro row
    by_cases hrow : Devices.revocable id row
    · rw [if_pos hrow, if_pos (decide_eq_true ⟨congrArg hex hrow.1, hrow.2⟩)]
      rfl
    · rw [if_neg hrow, if_neg]
      intro heq
      obtain ⟨hid, hlive⟩ := of_decide_eq_true heq
      exact hrow ⟨hex_injective hid, hlive⟩
  · rw [if_neg fun hrow => hchanged (hany.mp hrow)]
    rw [updated_none (Nat.eq_zero_of_not_pos hchanged)] at h
    obtain ⟨found, s, hget, h⟩ := exec_bind_eq_ok.mp h
    rw [exec_get] at hget
    split_ifs at hget
    · cases hget
    · obtain ⟨hfound, rfl⟩ := Prod.mk.inj hget
      obtain rfl := Except.ok.inj hfound
      cases hdevice : db.get id with
      | none =>
          rw [hdevice] at h
          cases h
      | some device =>
          rw [hdevice] at h
          cases h
          exact ⟨db, rfl, rfl⟩

/-! ### What is done to the tables is done to the store -/

/-- An operation on devices or grants. -/
def Op.devices : Op → Option Devices.Op
  | .pair key name model grants now => some (.pair key name model grants now)
  | .rename id name => some (.rename id name)
  | .touchLastSeen id now => some (.touchLastSeen id now)
  | .revoke id now => some (.revoke id now)
  | .setGrants id grants grantedBy now => some (.setGrants id grants grantedBy now)
  | .addWorkspaceRoot .. | .removeWorkspaceRoot .. => none

/-- The roots of one device. -/
def rootsOf (roots : List RawRoot) (id : DeviceId) : List RawRoot :=
  roots.filter fun row => row.deviceId = hex id

/-- **An operation that goes through** does to the tables what it does to the
store, and to the roots of its device only. -/
theorem perform_refines {op : Op}
    (h : (perform faults op).exec (db.encode roots) = (.ok (), t')) :
    ∃ (db' : Devices) (roots' : List RawRoot), t' = db'.encode roots' ∧
      (∀ o, op.devices = some o → db.apply o = .ok db') ∧ (op.devices = none → db' = db) ∧
      ∀ id, id ≠ op.target → rootsOf roots' id = rootsOf roots id := by
  cases op with
  | pair key name model grants now =>
      obtain ⟨device, s, hpair, h⟩ := exec_bind_eq_ok.mp h
      obtain ⟨db', happly, rfl⟩ := pair_ok hpair
      cases h
      refine ⟨db', roots, rfl, fun o ho => ?_, (nomatch ·), fun _ _ => rfl⟩
      cases ho
      unfold Devices.apply
      dsimp only
      rw [happly]
      rfl
  | rename id name =>
      obtain ⟨hget, ht⟩ := update_raw_ok (g := fun row => { row with name }) (fun _ => rfl) h
      refine ⟨_, roots, ht (fun row => by split <;> rfl) (fun row => by split <;> rfl),
        fun o ho => ?_, (nomatch ·), fun _ _ => rfl⟩
      cases ho
      exact if_neg (by rw [hget]; exact Bool.false_ne_true)
  | touchLastSeen id now =>
      obtain ⟨hget, ht⟩ :=
        update_raw_ok (g := fun row => { row with lastSeenMs := some now }) (fun _ => rfl) h
      refine ⟨_, roots, ht (fun row => by split <;> rfl) (fun row => by split <;> rfl),
        fun o ho => ?_, (nomatch ·), fun _ _ => rfl⟩
      cases ho
      exact if_neg (by rw [hget]; exact Bool.false_ne_true)
  | revoke id now =>
      obtain ⟨first, s, hrevoke, h⟩ := exec_bind_eq_ok.mp h
      obtain ⟨db', happly, rfl⟩ := revoke_ok hrevoke
      cases h
      refine ⟨db', roots, rfl, fun o ho => ?_, (nomatch ·), fun _ _ => rfl⟩
      cases ho
      unfold Devices.apply
      dsimp only
      rw [happly]
      rfl
  | setGrants id grants grantedBy now =>
      obtain ⟨db', happly, rfl⟩ := setGrants_ok h
      refine ⟨db', roots, rfl, fun o ho => ?_, (nomatch ·), fun _ _ => rfl⟩
      cases ho
      exact happly
  | addWorkspaceRoot id path now =>
      obtain ⟨added, s, hadd, h⟩ := exec_bind_eq_ok.mp h
      cases h
      obtain ⟨found, s, hfound, h⟩ := exec_bind_eq_ok.mp hadd
      obtain ⟨rfl, -⟩ := existsWithin_ok hfound
      split_ifs at h
      · obtain ⟨changed, s, hinsert, h⟩ := exec_bind_eq_ok.mp h
        cases h
        rcases insertRoot_ok (statement_ok hinsert) with rfl | rfl
        · exact ⟨db, roots, rfl, fun o ho => (nomatch ho), fun _ => rfl, fun _ _ => rfl⟩
        · refine ⟨db, _, rfl, fun o ho => (nomatch ho), fun _ => rfl, fun other hother => ?_⟩
          unfold rootsOf
          rw [List.filter_append, List.filter_cons_of_neg, List.filter_nil, List.append_nil]
          · rfl
          · exact fun heq => hother (hex_injective (of_decide_eq_true heq)).symm
      · cases h
  | removeWorkspaceRoot id path =>
      obtain ⟨removed, s, hremove, h⟩ := exec_bind_eq_ok.mp h
      cases h
      obtain ⟨s, s', hselect, h⟩ := exec_bind_eq_ok.mp hremove
      cases statement_ok hselect
      cases h
      refine ⟨db, _, rfl, fun o ho => (nomatch ho), fun _ => rfl, fun other hother => ?_⟩
      unfold rootsOf
      rw [List.filter_filter]
      apply List.filter_congr
      intro row _
      by_cases hrow : row.deviceId = hex other
      · have hkeep : ¬(row.deviceId = hex id ∧ row.path = path) := fun heq =>
          hother (hex_injective (hrow.symm.trans heq.1))
        dsimp only
        rw [decide_eq_false hkeep, Bool.not_false, Bool.and_true]
      · simp [hrow]

/-- **An operation, also one that fails,** takes the tables of a store to the
tables of a store, in which nothing else has changed. -/
theorem step_refines {op : Op} {result : Except StoreError Unit}
    (h : (perform faults op).exec (db.encode roots) = (result, t')) :
    ∃ (db' : Devices) (roots' : List RawRoot), t' = db'.encode roots' ∧
      (∀ id time, db.RevokedAt id time → db'.RevokedAt id time) ∧
      ∀ id, id ≠ op.target → db'.rowsOf id = db.rowsOf id ∧ db'.grantsOf id = db.grantsOf id ∧
        rootsOf roots' id = rootsOf roots id := by
  cases result with
  | error e =>
      obtain rfl := perform_atomic faults op _ e t' h
      exact ⟨db, roots, rfl, fun _ _ hrevoked => hrevoked, fun _ _ => ⟨rfl, rfl, rfl⟩⟩
  | ok _ =>
      obtain ⟨db', roots', rfl, hsome, hnone, hroots⟩ := perform_refines h
      cases hop : op.devices with
      | none =>
          obtain rfl := hnone hop
          exact ⟨_, roots', rfl, fun _ _ hrevoked => hrevoked,
            fun id hid => ⟨rfl, rfl, hroots id hid⟩⟩
      | some o =>
          have happly := hsome o hop
          have htarget : o.target = op.target := by
            cases op with
            | addWorkspaceRoot id path now => cases hop
            | removeWorkspaceRoot id path => cases hop
            | _ => cases hop; rfl
          refine ⟨db', roots', rfl, fun id time hrevoked => Devices.apply_revokedAt hrevoked happly,
            fun id hid => ?_⟩
          obtain ⟨hrows, hgrants⟩ := Devices.apply_frame happly (htarget ▸ hid)
          exact ⟨hrows, hgrants, hroots id hid⟩

/-- **Any operations in any order** take the tables of a store to the tables of
a store, in which what was revoked still is. -/
theorem run_refines {trace : List ((Op × Faults) × Except StoreError Unit)}
    (hrun : Transition.Run step Transition.unguarded (db.encode roots) trace t) :
    ∃ (db' : Devices) (roots' : List RawRoot), t = db'.encode roots' ∧
      ∀ id time, db.RevokedAt id time → db'.RevokedAt id time := by
  apply hrun.invariant fun _ s => ∃ (db' : Devices) (roots' : List RawRoot),
    s = db'.encode roots' ∧
    ∀ id time, db.RevokedAt id time → db'.RevokedAt id time
  · exact ⟨db, roots, rfl, fun _ _ hrevoked => hrevoked⟩
  · rintro _ _ ⟨op, faults⟩ s' result ⟨db', roots', rfl, hkept⟩ _ hstep
    have hexec : (perform faults op).exec (db'.encode roots') = (result, s') := by
      cases hstep
      rfl
    obtain ⟨db'', roots'', hs, hrevoked, -⟩ := step_refines hexec
    exact ⟨db'', roots'', hs, fun id time h => hrevoked id time (hkept id time h)⟩

/-! ### The law of the tables -/

/-- The rows of one device. -/
def rowsOf (t : Tables) (id : DeviceId) : List RawDevice × List RawGrant × List RawRoot :=
  (t.deviceRows.filter fun row => row.id = hex id,
    t.grantRows.filter fun row => row.deviceId = hex id, rootsOf t.rootRows id)

/-- A device that was revoked then. -/
def RevokedAt (t : Tables) (id : DeviceId) (time : Int) : Prop :=
  ∃ row ∈ t.deviceRows, row.id = hex id ∧ row.revokedAt = some time

/-- A device that is not revoked. -/
def Live (t : Tables) (id : DeviceId) : Prop :=
  ∃ row ∈ t.deviceRows, row.id = hex id ∧ row.revokedAt = none

/-- What it means that a device was revoked then: whatever the engine rejects,
it is not listed, may do nothing and is not paired again. -/
structure CutOff (t : Tables) (id : DeviceId) (time : Int) : Prop where
  revoked : t.RevokedAt id time
  time_eq : ∀ row ∈ t.deviceRows, row.id = hex id → row.revokedAt = some time
  listed : ∃ devices, (∀ device ∈ devices, device.id ≠ id) ∧ ∀ faults,
    (listActive faults).exec t = (if faults .selectActive then .error .database else .ok devices, t)
  granted : ∀ faults, (grants faults id).exec t = (.ok .empty, t) ∨
    (faults .selectById ∨ faults .selectGrants) ∧ (grants faults id).exec t = (.error .database, t)
  refused : ∀ faults key name model set now, (∃ row ∈ t.deviceRows, row.id = hex id ∧
    row.pubkey = hex key) →
    (pair faults key name model set now).exec t = (.error (.alreadyPaired id), t) ∨
      (faults .begin ∨ faults .selectByKey) ∧
        (pair faults key name model set now).exec t = (.error .database, t)

theorem revokedAt_encode {id : DeviceId} {time : Int} :
    (db.encode roots).RevokedAt id time ↔ db.RevokedAt id time := by
  constructor
  · rintro ⟨raw, hraw, hid, htime⟩
    obtain ⟨row, hrow, rfl⟩ := List.mem_map.mp hraw
    exact ⟨row, hrow, hex_injective hid, htime⟩
  · rintro ⟨row, hrow, hid, htime⟩
    exact ⟨row.raw, List.mem_map_of_mem hrow, congrArg hex hid, htime⟩

theorem rowsOf_encode (id : DeviceId) :
    (db.encode roots).rowsOf id =
      ((db.rowsOf id).map Device.raw, (db.grantsOf id).map GrantRow.raw, rootsOf roots id) := by
  unfold rowsOf Devices.encode Devices.rowsOf Devices.grantsOf
  dsimp only
  rw [List.filter_map, List.filter_map]
  congr 2
  · congr 2
    funext row
    simp [Device.raw]
  · congr 3
    funext row
    simp [GrantRow.raw]

/-- **A revoked device is cut off.** -/
theorem cutOff_encode {id : DeviceId} {time : Int} (h : db.RevokedAt id time) :
    (db.encode roots).CutOff id time where
  revoked := revokedAt_encode.mpr h
  time_eq := by
    intro raw hraw hid
    obtain ⟨row, hrow, rfl⟩ := List.mem_map.mp hraw
    obtain ⟨other, hother, hotherId, htime⟩ := h
    obtain rfl : other = row :=
      List.inj_on_of_nodup_map db.ids_nodup hother hrow (hotherId.trans (hex_injective hid).symm)
    exact htime
  listed := by
    refine ⟨db.listActive, fun device hdevice => ?_, fun faults => exec_listActive faults⟩
    exact Devices.not_active_of_revoked (Devices.revoked_iff.mpr ⟨time, h⟩) hdevice
  granted := by
    intro faults
    rw [← Devices.grants_of_revokedAt h]
    exact exec_grants faults id
  refused := by
    rintro faults key name model set now ⟨raw, hraw, hid, hkey⟩
    obtain ⟨row, hrow, rfl⟩ := List.mem_map.mp hraw
    have hfound : db.findByPublicKey key = some row := by
      rw [← hex_injective hkey]
      exact Devices.findByPublicKey_of_mem hrow
    unfold pair
    rw [exec_transaction, exec_bind, exec_statement]
    by_cases hbegin : faults .begin
    · rw [if_pos hbegin]
      exact .inr ⟨.inl hbegin, rfl⟩
    · rw [if_neg hbegin]
      dsimp only [exec_pure]
      rw [exec_bind, exec_findByPublicKey]
      by_cases hselect : faults .selectByKey
      · rw [if_pos hselect]
        exact .inr ⟨.inr hselect, rfl⟩
      · rw [if_neg hselect, hfound]
        left
        dsimp only [exec_throw]
        rw [hex_injective hid]

/-- **The tables are lawful**: whatever is done to new tables, in any order and
whatever the engine rejects. -/
theorem tables_lawful {trace : List ((Op × Faults) × Except StoreError Unit)}
    (hrun : Transition.Run step Transition.unguarded ⟨[], [], []⟩ trace t) :
    -- Every identifier is that of the key next to it.
    (∀ row ∈ t.deviceRows, ∃ key, row.pubkey = hex key ∧ row.id = hex (fromPublicKey key)) ∧
    -- A device that was revoked stays cut off, and since when.
    (∀ id time, t.RevokedAt id time → ∀ trace' t',
      Transition.Run step Transition.unguarded t trace' t' → t'.CutOff id time) ∧
    -- A live device holds what was set, and nothing else.
    (∀ id set grantedBy now faults t', t.Live id →
      (setGrants faults id set grantedBy now).exec t = (.ok (), t') →
      ∃ held : CapabilitySet, (∀ cap, held.contains cap = set.contains cap) ∧
        (∀ caps, set = .ofList caps → held = set) ∧
        ∀ faults, (grants faults id).exec t' = (.ok held, t') ∨
          (faults .selectById ∨ faults .selectGrants) ∧
            (grants faults id).exec t' = (.error .database, t')) ∧
    -- What fails changes nothing.
    (∀ op faults e t', (perform faults op).exec t = (.error e, t') → t' = t) ∧
    -- What is done to one device changes no row of another.
    (∀ op faults result t', (perform faults op).exec t = (result, t') →
      ∀ id, id ≠ op.target → t'.rowsOf id = t.rowsOf id) := by
  have hrun' : Transition.Run step Transition.unguarded (Devices.empty.encode []) trace t := hrun
  obtain ⟨db, roots, rfl, -⟩ := run_refines hrun'
  refine ⟨fun raw hraw => ?_, fun id time htime trace' t' hrun' => ?_,
    fun id set grantedBy now faults t' hlive hset => ?_,
    fun op faults e t' h => perform_atomic faults op _ e t' h,
    fun op faults result t' h id hid => ?_⟩
  · obtain ⟨row, -, rfl⟩ := List.mem_map.mp hraw
    exact ⟨row.publicKey, rfl, congrArg hex row.id_eq⟩
  · obtain ⟨db', roots', rfl, hkept⟩ := run_refines hrun'
    exact cutOff_encode (hkept id time (revokedAt_encode.mp htime))
  · obtain ⟨db', happly, rfl⟩ := setGrants_ok hset
    obtain ⟨raw, hraw, hrawId, hrevoked⟩ := hlive
    obtain ⟨row, hrow, rfl⟩ := List.mem_map.mp hraw
    have hheld := Devices.grants_of_setGrants happly hrow (hex_injective hrawId) hrevoked
    refine ⟨db'.grants id, fun cap => ?_, fun caps hcaps => ?_, fun faults => exec_grants faults id⟩
    · rw [hheld, Bool.eq_iff_iff, CapabilitySet.contains_ofList, CapabilitySet.mem_iter]
    · rw [hheld, hcaps, CapabilitySet.ofList_iter]
  · obtain ⟨db', roots', rfl, -, hframe⟩ := step_refines h
    obtain ⟨hrows, hgrants, hroots⟩ := hframe id hid
    rw [rowsOf_encode, rowsOf_encode, hrows, hgrants, hroots]

/-- A device that was paired and then revoked is cut off. -/
theorem tables_lawful_revoked :
    ∃ t, Transition.Run step Transition.unguarded ⟨[], [], []⟩
      [((.pair (.replicate 7) "phone" none .empty 3, fun _ => false), .ok ()),
        ((.revoke (fromPublicKey (.replicate 7)) 5, fun _ => false), .ok ())] t ∧
      t.CutOff (fromPublicKey (.replicate 7)) 5 := by
  have hpair : step ⟨[], [], []⟩ (.pair (.replicate 7) "phone" none .empty 3, fun _ => false) =
      some (⟨[⟨hex (fromPublicKey (.replicate 7)), hex (.replicate 7), "phone", none, 3, none,
        none⟩], [], []⟩, .ok ()) := rfl
  have hrevoke : ∀ row : RawDevice, row.id = hex (fromPublicKey (.replicate 7)) →
      row.revokedAt = none →
      step ⟨[row], [], []⟩ (.revoke (fromPublicKey (.replicate 7)) 5, fun _ => false) =
        some (⟨[{ row with revokedAt := some 5 }], [], []⟩, .ok ()) := by
    intro row hid hlive
    simp [step, perform, revoke, exec_bind, exec_statement, exec_updateDevices, updated, hid, hlive]
  have hpaired : Transition.Run step Transition.unguarded _ _ _ :=
    Transition.Run.nil.snoc trivial hpair
  have hrun := hpaired.snoc trivial (hrevoke _ rfl rfl)
  exact ⟨_, hrun, (tables_lawful hrun).2.1 _ 5 ⟨_, List.mem_singleton_self _, rfl, rfl⟩ [] _ .nil⟩

end Tables

end Store
