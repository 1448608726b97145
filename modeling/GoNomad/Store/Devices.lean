import GoNomad.Proto.Capability
import GoNomad.Store.Error
import Mathlib.Data.List.Sort

/-!
# Paired devices

The device table is the allowlist: one row for each key ever paired, with the
time it was revoked.  Rows are written by `pair` only, so the identifier of a
row is that of its key, and neither an identifier nor a key occurs twice: the
types carry both.

* `apply_revoked` — a revoked key stays revoked whatever is done to the table;
* `revoke_revoked` — a revocation that goes through revokes;
* `not_active_of_revoked` — neither the key nor the identifier of a revoked
  device is among the active ones.
-/

namespace Store

open Proto

/-- The identifier of the device with a key. -/
@[irreducible] def fromPublicKey (key : PublicKey) : DeviceId := .of key.bytes

/-- A paired device. -/
structure Device where
  id : DeviceId
  publicKey : PublicKey
  name : String
  model : Option String
  pairedAtMs : Int
  lastSeenMs : Option Int
  revokedAtMs : Option Int
  id_eq : id = fromPublicKey publicKey
  deriving DecidableEq

def Device.isRevoked (device : Device) : Bool := device.revokedAtMs.isSome

/-- One capability of one device. -/
structure GrantRow where
  deviceId : DeviceId
  capability : Capability
  grantedAtMs : Int
  grantedBy : Option DeviceId
  deriving DecidableEq

/-- The tables of devices and grants. -/
structure Devices where
  rows : List Device
  grantRows : List GrantRow
  ids_nodup : (rows.map Device.id).Nodup
  keys_nodup : (rows.map Device.publicKey).Nodup

namespace Devices

/-- A new store. -/
def empty : Devices := ⟨[], [], .nil, .nil⟩

/-- The device not found. -/
def missing (id : DeviceId) : StoreError := .notFound "device" id.toHex

/-- Looks a device up by its identifier, revoked or not. -/
def get (db : Devices) (id : DeviceId) : Option Device := db.rows.find? fun row => row.id = id

/-- Looks a device up by its credential, revoked or not. -/
def findByPublicKey (db : Devices) (key : PublicKey) : Option Device :=
  db.rows.find? fun row => row.publicKey = key

/-- Devices that may currently authenticate, newest first. -/
def listActive (db : Devices) : List Device :=
  (db.rows.filter fun row => row.revokedAtMs.isNone).insertionSort
    fun a b => b.pairedAtMs ≤ a.pairedAtMs

/-- The grant rows with those of one device replaced. -/
def writeGrants (rows : List GrantRow) (id : DeviceId) (grants : CapabilitySet)
    (grantedBy : Option DeviceId) (now : Int) : List GrantRow :=
  (rows.filter fun row => row.deviceId ≠ id) ++
    grants.iter.map fun capability => ⟨id, capability, now, grantedBy⟩

theorem not_mem_of_find_none {db : Devices} {key : PublicKey}
    (h : db.findByPublicKey key = none) : key ∉ db.rows.map Device.publicKey := by
  intro hmem
  obtain ⟨row, hrow, hkey⟩ := List.mem_map.mp hmem
  have hnone := List.find?_eq_none.mp h row hrow
  simp [hkey] at hnone

/-- Registers a newly paired device together with its initial grant. -/
def pair (db : Devices) (key : PublicKey) (name : String) (model : Option String)
    (grants : CapabilitySet) (now : Int) : Except StoreError (Devices × Device) :=
  match h : db.findByPublicKey key with
  | some existing => .error (.alreadyPaired existing.id)
  | none =>
      let device : Device :=
        { id := fromPublicKey key, publicKey := key, name, model, pairedAtMs := now,
          lastSeenMs := none, revokedAtMs := none, id_eq := rfl }
      -- Another key with this identifier violates the primary key.
      if hfresh : fromPublicKey key ∈ db.rows.map Device.id then .error .database
      else
        .ok ({ rows := device :: db.rows
               grantRows := writeGrants db.grantRows device.id grants none now
               ids_nodup := List.nodup_cons.mpr ⟨hfresh, db.ids_nodup⟩
               keys_nodup := List.nodup_cons.mpr ⟨not_mem_of_find_none h, db.keys_nodup⟩ }, device)

/-- The table after an update that leaves identifiers and keys alone. -/
def update (db : Devices) (f : Device → Device) (hid : ∀ row, (f row).id = row.id)
    (hkey : ∀ row, (f row).publicKey = row.publicKey) : Devices where
  rows := db.rows.map f
  grantRows := db.grantRows
  ids_nodup := by
    have hids : (db.rows.map f).map Device.id = db.rows.map Device.id := by
      rw [List.map_map]
      exact List.map_congr_left fun row _ => hid row
    rw [hids]
    exact db.ids_nodup
  keys_nodup := by
    have hkeys : (db.rows.map f).map Device.publicKey = db.rows.map Device.publicKey := by
      rw [List.map_map]
      exact List.map_congr_left fun row _ => hkey row
    rw [hkeys]
    exact db.keys_nodup

/-- Changes a device's display name. -/
def rename (db : Devices) (id : DeviceId) (name : String) : Except StoreError Devices :=
  if (db.get id).isNone then .error (missing id)
  else
    .ok (db.update (fun row => if row.id = id then { row with name } else row)
      (fun row => by split <;> rfl) fun row => by split <;> rfl)

/-- Records that a device just authenticated. -/
def touchLastSeen (db : Devices) (id : DeviceId) (now : Int) : Except StoreError Devices :=
  if (db.get id).isNone then .error (missing id)
  else
    .ok (db.update (fun row => if row.id = id then { row with lastSeenMs := some now } else row)
      (fun row => by split <;> rfl) fun row => by split <;> rfl)

/-- The rows that `revoke` changes. -/
def revocable (id : DeviceId) (row : Device) : Prop := row.id = id ∧ row.revokedAtMs = none

instance (id : DeviceId) (row : Device) : Decidable (revocable id row) :=
  inferInstanceAs (Decidable (_ ∧ _))

/-- Revokes a device, and whether it was not revoked already; the first time is
kept. -/
def revoke (db : Devices) (id : DeviceId) (now : Int) : Except StoreError (Devices × Bool) :=
  if db.rows.any fun row => revocable id row then
    .ok (db.update (fun row => if revocable id row then { row with revokedAtMs := some now } else row)
      (fun row => by split <;> rfl) (fun row => by split <;> rfl), true)
  else if (db.get id).isNone then .error (missing id)
  else .ok (db, false)

/-- The capabilities a device may currently exercise: none for an unknown or
revoked one. -/
def grants (db : Devices) (id : DeviceId) : CapabilitySet :=
  match db.get id with
  | none => .empty
  | some device =>
      if device.isRevoked then .empty
      else .ofList ((db.grantRows.filter fun row => row.deviceId = id).map GrantRow.capability)

/-- Replaces a device's grant wholesale. -/
def setGrants (db : Devices) (id : DeviceId) (grants : CapabilitySet)
    (grantedBy : Option DeviceId) (now : Int) : Except StoreError Devices :=
  if (db.get id).isNone then .error (missing id)
  else .ok { db with grantRows := writeGrants db.grantRows id grants grantedBy now }

/-! ### What is done to the table -/

/-- One operation on the table. -/
inductive Op
  | pair (key : PublicKey) (name : String) (model : Option String) (grants : CapabilitySet)
      (now : Int)
  | rename (id : DeviceId) (name : String)
  | touchLastSeen (id : DeviceId) (now : Int)
  | revoke (id : DeviceId) (now : Int)
  | setGrants (id : DeviceId) (grants : CapabilitySet) (grantedBy : Option DeviceId) (now : Int)

/-- The table after an operation that goes through. -/
def apply (db : Devices) : Op → Except StoreError Devices
  | .pair key name model grants now => (db.pair key name model grants now).map Prod.fst
  | .rename id name => db.rename id name
  | .touchLastSeen id now => db.touchLastSeen id now
  | .revoke id now => (db.revoke id now).map Prod.fst
  | .setGrants id grants grantedBy now => db.setGrants id grants grantedBy now

/-- A row of the device with this identifier says that it was revoked then. -/
def RevokedAt (db : Devices) (id : DeviceId) (time : Int) : Prop :=
  ∃ row ∈ db.rows, row.id = id ∧ row.revokedAtMs = some time

/-- A row of the device with this identifier says that it is revoked. -/
def Revoked (db : Devices) (id : DeviceId) : Prop :=
  ∃ row ∈ db.rows, row.id = id ∧ row.revokedAtMs ≠ none

variable {db db' : Devices} {id : DeviceId} {time : Int}

theorem revoked_iff : db.Revoked id ↔ ∃ time, db.RevokedAt id time := by
  constructor
  · rintro ⟨row, hrow, hrowId, hrevoked⟩
    obtain ⟨time, htime⟩ := Option.ne_none_iff_exists'.mp hrevoked
    exact ⟨time, row, hrow, hrowId, htime⟩
  · rintro ⟨time, row, hrow, hrowId, htime⟩
    exact ⟨row, hrow, hrowId, htime ▸ Option.some_ne_none time⟩

/-- An update that changes no revocation keeps a device revoked. -/
theorem RevokedAt.update (h : db.RevokedAt id time) {f : Device → Device}
    {hid : ∀ row, (f row).id = row.id} {hkey : ∀ row, (f row).publicKey = row.publicKey}
    (hrevoked : ∀ row, row.revokedAtMs = some time → (f row).revokedAtMs = some time) :
    (db.update f hid hkey).RevokedAt id time := by
  obtain ⟨row, hrow, hrowId, hrowRevoked⟩ := h
  exact ⟨f row, List.mem_map_of_mem hrow, (hid row).trans hrowId, hrevoked row hrowRevoked⟩

/-- **The time of a revocation is final**: whatever is done to the table. -/
theorem apply_revokedAt {op : Op} (h : db.RevokedAt id time) (happly : db.apply op = .ok db') :
    db'.RevokedAt id time := by
  cases op with
  | pair key name model grants now =>
      unfold apply pair at happly
      dsimp only at happly
      split at happly
      · cases happly
      · split at happly
        · cases happly
        · cases happly
          obtain ⟨row, hrow, hrest⟩ := h
          exact ⟨row, .tail _ hrow, hrest⟩
  | rename other name =>
      unfold apply rename at happly
      dsimp only at happly
      split at happly
      · cases happly
      · cases happly
        refine h.update fun row hrow => ?_
        split <;> exact hrow
  | touchLastSeen other now =>
      unfold apply touchLastSeen at happly
      dsimp only at happly
      split at happly
      · cases happly
      · cases happly
        refine h.update fun row hrow => ?_
        split <;> exact hrow
  | revoke other now =>
      unfold apply revoke at happly
      dsimp only at happly
      split at happly
      · cases happly
        dsimp only
        refine h.update fun row hrow => ?_
        split
        · next hlive =>
            rw [hlive.2] at hrow
            cases hrow
        · exact hrow
      · split at happly
        · cases happly
        · cases happly
          exact h
  | setGrants other grants grantedBy now =>
      unfold apply setGrants at happly
      dsimp only at happly
      split at happly
      · cases happly
      · cases happly
        exact h

/-- **Revocation is final**: whatever is done to the table. -/
theorem apply_revoked {op : Op} (h : db.Revoked id) (happly : db.apply op = .ok db') :
    db'.Revoked id := by
  obtain ⟨time, htime⟩ := revoked_iff.mp h
  exact revoked_iff.mpr ⟨time, apply_revokedAt htime happly⟩

/-- The device an operation is on. -/
def Op.target : Op → DeviceId
  | .pair key .. => fromPublicKey key
  | .rename id _ | .touchLastSeen id _ | .revoke id _ | .setGrants id .. => id

/-- The rows of one device. -/
def rowsOf (db : Devices) (id : DeviceId) : List Device := db.rows.filter fun row => row.id = id

/-- The grants of one device. -/
def grantsOf (db : Devices) (id : DeviceId) : List GrantRow :=
  db.grantRows.filter fun row => row.deviceId = id

/-- Grants that are replaced are one device's. -/
theorem filter_writeGrants {rows : List GrantRow} {other : DeviceId} {grants : CapabilitySet}
    {grantedBy : Option DeviceId} {now : Int} (h : other ≠ id) :
    (writeGrants rows id grants grantedBy now).filter (fun row => row.deviceId = other) =
      rows.filter fun row => row.deviceId = other := by
  unfold writeGrants
  rw [List.filter_append, List.filter_filter, List.filter_map]
  have hnone : (grants.iter.filter
      ((fun row : GrantRow => decide (row.deviceId = other)) ∘
        fun capability => ⟨id, capability, now, grantedBy⟩)) = [] := by
    apply List.filter_eq_nil_iff.mpr
    intro capability _
    simp [Ne.symm h]
  rw [hnone, List.map_nil, List.append_nil]
  apply List.filter_congr
  intro row _
  by_cases hrow : row.deviceId = other
  · simp [hrow, h]
  · simp [hrow]

/-- Devices that an update leaves alone. -/
theorem rowsOf_update {f : Device → Device} {hid : ∀ row, (f row).id = row.id}
    {hkey : ∀ row, (f row).publicKey = row.publicKey} (h : ∀ row, row.id = id → f row = row) :
    (db.update f hid hkey).rowsOf id = db.rowsOf id := by
  unfold rowsOf update
  rw [List.filter_map]
  have hsame : db.rows.filter ((fun row => decide (row.id = id)) ∘ f) =
      db.rows.filter fun row => row.id = id := by
    apply List.filter_congr
    intro row _
    dsimp only [Function.comp_apply]
    rw [hid]
  rw [hsame]
  refine (List.map_congr_left fun row hrow => ?_).trans (List.map_id _)
  exact h row (of_decide_eq_true (List.mem_filter.mp hrow).2)

/-- **An operation on one device** leaves the rows of the others alone. -/
theorem apply_frame {op : Op} (happly : db.apply op = .ok db') (h : id ≠ op.target) :
    db'.rowsOf id = db.rowsOf id ∧ db'.grantsOf id = db.grantsOf id := by
  cases op with
  | pair key name model grants now =>
      unfold apply pair at happly
      dsimp only at happly
      split at happly
      · cases happly
      · split at happly
        · cases happly
        · cases happly
          refine ⟨?_, filter_writeGrants h⟩
          exact List.filter_cons_of_neg fun heq => h (of_decide_eq_true heq).symm
  | rename other name =>
      unfold apply rename at happly
      dsimp only at happly
      split at happly
      · cases happly
      · cases happly
        refine ⟨rowsOf_update fun row hrow => ?_, rfl⟩
        rw [if_neg (hrow ▸ h)]
  | touchLastSeen other now =>
      unfold apply touchLastSeen at happly
      dsimp only at happly
      split at happly
      · cases happly
      · cases happly
        refine ⟨rowsOf_update fun row hrow => ?_, rfl⟩
        rw [if_neg (hrow ▸ h)]
  | revoke other now =>
      unfold apply revoke at happly
      dsimp only at happly
      split at happly
      · cases happly
        dsimp only
        refine ⟨rowsOf_update fun row hrow => ?_, rfl⟩
        rw [if_neg fun hrevocable => h (hrow ▸ hrevocable.1)]
      · split at happly
        · cases happly
        · cases happly
          exact ⟨rfl, rfl⟩
  | setGrants other grants grantedBy now =>
      unfold apply setGrants at happly
      dsimp only at happly
      split at happly
      · cases happly
      · cases happly
        exact ⟨rfl, filter_writeGrants h⟩

/-- A row is found under its identifier. -/
theorem get_of_mem {row : Device} (h : row ∈ db.rows) : db.get row.id = some row := by
  cases hget : db.get row.id with
  | none => exact absurd (decide_eq_true rfl) (List.find?_eq_none.mp hget row h)
  | some found =>
      have hid : found.id = row.id := by simpa using List.find?_some hget
      rw [List.inj_on_of_nodup_map db.ids_nodup (List.mem_of_find?_eq_some hget) h hid]

/-- A key is found in its row. -/
theorem findByPublicKey_of_mem {row : Device} (h : row ∈ db.rows) :
    db.findByPublicKey row.publicKey = some row := by
  cases hfind : db.findByPublicKey row.publicKey with
  | none => exact absurd (List.mem_map_of_mem h) (not_mem_of_find_none hfind)
  | some found =>
      have hkey : found.publicKey = row.publicKey := by simpa using List.find?_some hfind
      rw [List.inj_on_of_nodup_map db.keys_nodup (List.mem_of_find?_eq_some hfind) h hkey]

/-- A revoked device may do nothing. -/
theorem grants_of_revokedAt (h : db.RevokedAt id time) : db.grants id = .empty := by
  obtain ⟨row, hrow, rfl, hrevoked⟩ := h
  have hflag : row.isRevoked = true := by
    unfold Device.isRevoked
    rw [hrevoked, Option.isSome_some]
  unfold grants
  rw [get_of_mem hrow]
  exact if_pos hflag

/-- Grants that are replaced are those that were written. -/
theorem filter_writeGrants_self (rows : List GrantRow) (id : DeviceId) (grants : CapabilitySet)
    (grantedBy : Option DeviceId) (now : Int) :
    (writeGrants rows id grants grantedBy now).filter (fun row => row.deviceId = id) =
      grants.iter.map fun capability => ⟨id, capability, now, grantedBy⟩ := by
  unfold writeGrants
  rw [List.filter_append, List.filter_filter]
  have hnone : (rows.filter fun row =>
      decide (row.deviceId = id) && decide (row.deviceId ≠ id)) = [] := by
    apply List.filter_eq_nil_iff.mpr
    intro row _
    simp
  rw [hnone, List.nil_append]
  apply List.filter_eq_self.mpr
  intro row hrow
  obtain ⟨capability, -, rfl⟩ := List.mem_map.mp hrow
  exact decide_eq_true rfl

/-- **The grants of a live device** are those that were set. -/
theorem grants_of_setGrants {grants : CapabilitySet} {grantedBy : Option DeviceId} {now : Int}
    (happly : db.apply (.setGrants id grants grantedBy now) = .ok db')
    {row : Device} (hrow : row ∈ db.rows) (hid : row.id = id) (hlive : row.revokedAtMs = none) :
    db'.grants id = .ofList grants.iter := by
  unfold apply setGrants at happly
  dsimp only at happly
  split at happly
  · cases happly
  · cases happly
    subst hid
    have hflag : row.isRevoked = false := by
      unfold Device.isRevoked
      rw [hlive, Option.isSome_none]
    have hget : db.rows.find? (fun other => other.id = row.id) = some row := get_of_mem hrow
    unfold Devices.grants get
    dsimp only
    rw [hget]
    dsimp only
    rw [hflag, filter_writeGrants_self, List.map_map]
    exact congrArg CapabilitySet.ofList (List.map_id _)

/-- **The row of a device that was paired**, and its grants. -/
theorem pair_row {key : PublicKey} {name : String} {model : Option String} {grants : CapabilitySet}
    {now : Int} {device : Device} (hpair : db.pair key name model grants now = .ok (db', device)) :
    db'.findByPublicKey key = some device ∧ device.publicKey = key ∧ device.revokedAtMs = none ∧
      db'.grants device.id = .ofList grants.iter := by
  have hwritten : db'.rows = device :: db.rows ∧ device.publicKey = key ∧
      device.revokedAtMs = none ∧
      db'.grantRows = writeGrants db.grantRows device.id grants none now := by
    unfold pair at hpair
    split at hpair
    · cases hpair
    · dsimp only at hpair
      split_ifs at hpair
      · cases hpair
        exact ⟨rfl, rfl, rfl, rfl⟩
  obtain ⟨hrows, rfl, hlive, hgrants⟩ := hwritten
  have hmem : device ∈ db'.rows := by
    rw [hrows]
    exact .head _
  have hflag : device.isRevoked = false := by
    unfold Device.isRevoked
    rw [hlive, Option.isSome_none]
  refine ⟨findByPublicKey_of_mem hmem, rfl, hlive, ?_⟩
  unfold Devices.grants
  rw [get_of_mem hmem]
  dsimp only
  rw [hflag, hgrants, filter_writeGrants_self, List.map_map]
  exact congrArg CapabilitySet.ofList (List.map_id _)

/-- A revocation that goes through revokes. -/
theorem revoke_revoked {now : Int} (happly : db.apply (.revoke id now) = .ok db') :
    db'.Revoked id := by
  unfold apply revoke at happly
  dsimp only at happly
  split at happly
  · next hany =>
      cases happly
      obtain ⟨row, hrow, hrevocable⟩ := List.any_eq_true.mp hany
      have hrevocable := of_decide_eq_true hrevocable
      refine ⟨_, List.mem_map_of_mem hrow, ?_⟩
      rw [if_pos hrevocable]
      exact ⟨hrevocable.1, Option.some_ne_none now⟩
  · next hnone =>
      split at happly
      · cases happly
      · next hfound =>
          cases happly
          cases hget : db.get id with
          | none => simp [hget] at hfound
          | some row =>
              have hrow := List.mem_of_find?_eq_some hget
              have hrowId : row.id = id := by simpa using List.find?_some hget
              refine ⟨row, hrow, hrowId, fun hlive => hnone ?_⟩
              exact List.any_eq_true.mpr ⟨row, hrow, decide_eq_true ⟨hrowId, hlive⟩⟩

theorem mem_listActive {device : Device} :
    device ∈ db.listActive ↔ device ∈ db.rows ∧ device.revokedAtMs = none := by
  unfold listActive
  rw [List.mem_insertionSort, List.mem_filter, Option.isNone_iff_eq_none]

/-- **No active device has the identifier of a revoked one.** -/
theorem not_active_of_revoked (h : db.Revoked id) {device : Device}
    (hdevice : device ∈ db.listActive) : device.id ≠ id := by
  intro heq
  obtain ⟨row, hrow, hrowId, hrevoked⟩ := h
  obtain ⟨hmem, hlive⟩ := mem_listActive.mp hdevice
  obtain rfl : row = device :=
    List.inj_on_of_nodup_map db.ids_nodup hrow hmem (hrowId.trans heq.symm)
  exact hrevoked hlive

end Devices

end Store
