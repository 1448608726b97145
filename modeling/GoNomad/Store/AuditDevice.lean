import GoNomad.Store.AuditTamper

/-!
# The entries of one device

The view of a device selects rows by the text of their device column, and what
is verified is what the rows decode to.  A device has one text that is written
and others that are read as well.

* `forDevice_stored` — what the view shows where every device is spelled as it
  is written;
* `Log.device_view_iff` — when the view of an approved table is that of the
  honest log;
* `Log.device_view_hides` — an approved table that hides an entry.
-/

namespace Store

open Proto

/-- The newest `limit` entries attributed to one device. -/
def AuditDb.forDevice (db : AuditDb) (device : DeviceId) (limit : UInt32) :
    Except StoreError (List AuditEntry) :=
  ((db.audit.rows.filter fun row => row.deviceId = some (utf8 device.toHex)).reverse.take
    limit.toNat).mapM AuditRow.entry

/-- A row that decodes to an entry of a device. -/
def AuditRow.attributed (device : DeviceId) (row : AuditRow) : Bool :=
  match row.entry with
  | .ok e => e.deviceId = some device
  | .error _ => false

/-- A row whose device column holds the text of the device. -/
def AuditRow.names (device : DeviceId) (row : AuditRow) : Bool :=
  row.deviceId = some (utf8 device.toHex)

namespace AuditDb

/-- The rows of a device, newest first. -/
def attributed (db : AuditDb) (device : DeviceId) : List AuditRow :=
  (db.audit.rows.filter (AuditRow.attributed device)).reverse

/-- The newest rows of every device name it by its text, as many of them as can
be asked for. -/
def Spelled (db : AuditDb) : Prop :=
  ∀ device, ∀ row ∈ (db.attributed device).take (2 ^ 32 - 1), row.names device

variable {db : AuditDb} {rows : List AuditRow} {es : List AuditEntry} {device : DeviceId}
variable {row : AuditRow} {e : AuditEntry}

/-- A row that names a device and decodes is attributed to it. -/
theorem attributed_of_names (he : row.entry = .ok e) (hnames : row.names device) :
    row.attributed device := by
  obtain ⟨dev, res, hdev, -, -, -, -, -, hdevice, -⟩ := AuditEntry.columns_of_entry he
  unfold AuditRow.names at hnames
  rw [of_decide_eq_true hnames] at hdev
  dsimp only [nullable] at hdev
  rw [text_utf8 (length_utf8_toHex device)] at hdev
  cases hdev
  dsimp only [nullable] at hdevice
  rw [deviceId_toHex] at hdevice
  unfold AuditRow.attributed
  rw [he]
  exact decide_eq_true (Except.ok.inj hdevice).symm

/-- The stored row of an entry names its device. -/
theorem names_stored (h : e.Fits) (hattributed : e.stored.attributed device) :
    e.stored.names device := by
  unfold AuditRow.attributed at hattributed
  rw [AuditEntry.entry_stored h] at hattributed
  have hdevice : e.deviceId = some device := of_decide_eq_true hattributed
  unfold AuditRow.names AuditEntry.stored
  dsimp only
  rw [hdevice]
  exact decide_eq_true rfl

theorem mapM_entry (h : Decodes rows es) : rows.mapM AuditRow.entry = .ok es := by
  induction h with
  | nil => rfl
  | cons hrow _ ih =>
      rw [List.mapM_cons, hrow, Except.ok_bind, ih]
      rfl

theorem decodes_filter (h : Decodes rows es) :
    Decodes (rows.filter (AuditRow.attributed device))
      (es.filter fun e => e.deviceId = some device) := by
  induction h with
  | nil => exact .nil
  | @cons row e rows es hrow _ ih =>
      have hsame : row.attributed device = decide (e.deviceId = some device) := by
        unfold AuditRow.attributed
        rw [hrow]
      rw [List.filter_cons, List.filter_cons, hsame]
      split_ifs
      · exact .cons hrow ih
      · exact ih

/-- Rows that decode one after the other decode to what they were collected as. -/
theorem decodes_of_mapM (h : rows.mapM AuditRow.entry = .ok es) : Decodes rows es := by
  induction rows generalizing es with
  | nil =>
      cases h
      exact .nil
  | cons row rows ih =>
      rw [List.mapM_cons] at h
      obtain ⟨e, he, h⟩ := Except.bind_eq_ok.mp h
      obtain ⟨rest, hrest, h⟩ := Except.bind_eq_ok.mp h
      cases h
      exact .cons he (ih hrest)

theorem entry_of_decodes (h : Decodes rows es) (hrow : row ∈ rows) :
    ∃ e ∈ es, row.entry = .ok e := by
  induction h with
  | nil => cases hrow
  | cons hfirst _ ih =>
      rcases List.mem_cons.mp hrow with rfl | hrow
      · exact ⟨_, .head _, hfirst⟩
      · obtain ⟨e, hmem, he⟩ := ih hrow
        exact ⟨e, .tail _ hmem, he⟩

/-- Rows of one table that decode to the same entry are one row. -/
theorem row_eq_of_entry {row' : AuditRow} (hrow : row ∈ db.audit.rows)
    (hrow' : row' ∈ db.audit.rows) (he : row.entry = .ok e) (he' : row'.entry = .ok e) :
    row = row' := by
  have hkey : row.seq.toInt = row'.seq.toInt := by
    rw [(AuditEntry.fits_of_entry he).2, (AuditEntry.fits_of_entry he').2]
  have hfind := Table.find_of_mem hrow
  rw [hkey, Table.find_of_mem hrow'] at hfind
  exact (Option.some.inj hfind).symm

/-- Where the first elements pass, filtering leaves the first elements. -/
theorem take_filter {α : Type} {p : α → Bool} {most limit : Nat} (hle : limit ≤ most)
    {xs : List α} (h : ∀ x ∈ xs.take most, p x) : (xs.filter p).take limit = xs.take limit := by
  induction xs generalizing most limit with
  | nil => rfl
  | cons x xs ih =>
      cases limit with
      | zero => rfl
      | succ limit =>
          obtain ⟨most, rfl⟩ : ∃ m, most = m + 1 := ⟨most - 1, by omega⟩
          have hx : p x := h x (.head _)
          rw [List.filter_cons_of_pos hx, List.take_succ_cons, List.take_succ_cons,
            @ih most limit (by omega) fun y hy => h y (.tail _ hy)]

/-! ### The view of a table that decodes -/

/-- The entries of a device, newest first. -/
def entriesOf (es : List AuditEntry) (device : DeviceId) : List AuditEntry :=
  (es.filter fun e => e.deviceId = some device).reverse

theorem mem_of_attributed (hrow : row ∈ db.attributed device) : row ∈ db.audit.rows :=
  List.mem_of_mem_filter (List.mem_reverse.mp hrow)

variable (hdec : Decodes db.audit.rows es)
include hdec

theorem decodes_attributed : Decodes (db.attributed device) (entriesOf es device) :=
  List.rel_reverse (decodes_filter hdec)

/-- The view looks at the rows of the device that name it. -/
theorem forDevice_eq (device : DeviceId) (limit : UInt32) : db.forDevice device limit =
    (((db.attributed device).filter (AuditRow.names device)).take limit.toNat).mapM
      AuditRow.entry := by
  have hfilter : db.audit.rows.filter (AuditRow.names device) =
      (db.audit.rows.filter (AuditRow.attributed device)).filter (AuditRow.names device) := by
    rw [List.filter_filter]
    refine List.filter_congr fun row hrow => ?_
    obtain ⟨e, -, he⟩ := entry_of_decodes hdec hrow
    cases hnames : row.names device with
    | false => rfl
    | true => rw [attributed_of_names he hnames]; rfl
  unfold forDevice attributed
  show ((db.audit.rows.filter (AuditRow.names device)).reverse.take limit.toNat).mapM _ = _
  rw [hfilter, List.filter_reverse]

/-- Where every device is spelled as it is written, the view shows its newest
entries. -/
theorem forDevice_of_spelled (h : db.Spelled) (device : DeviceId) (limit : UInt32) :
    db.forDevice device limit = .ok ((entriesOf es device).take limit.toNat) := by
  have hlimit : limit.toNat ≤ 2 ^ 32 - 1 := Nat.le_pred_of_lt limit.toNat_lt
  rw [forDevice_eq hdec, take_filter hlimit (h device)]
  exact mapM_entry (List.forall₂_take _ (decodes_attributed hdec))

/-- **The view shows every entry of every device exactly where each is spelled as
it is written.** -/
theorem forDevice_iff : (∀ device limit, db.forDevice device limit =
    .ok ((entriesOf es device).take limit.toNat)) ↔ db.Spelled := by
  constructor
  · intro h device row hrow
    have hview := h device (UInt32.ofNat (2 ^ 32 - 1))
    have hmost : (UInt32.ofNat (2 ^ 32 - 1)).toNat = 2 ^ 32 - 1 := rfl
    rw [forDevice_eq hdec, hmost] at hview
    -- The entry of the row is shown, so a row that names the device has it.
    obtain ⟨e, hmem, he⟩ := entry_of_decodes
      (List.forall₂_take (2 ^ 32 - 1) (decodes_attributed hdec)) hrow
    obtain ⟨row', hrow', he'⟩ := row_of_decodes (decodes_of_mapM hview) hmem
    obtain ⟨hattributed', hnames'⟩ := List.mem_filter.mp (List.mem_of_mem_take hrow')
    rw [row_eq_of_entry (mem_of_attributed (List.mem_of_mem_take hrow))
      (mem_of_attributed hattributed') he he']
    exact hnames'
  · exact forDevice_of_spelled hdec

end AuditDb

/-! ### An approved table and the honest log -/

namespace AuditDb

variable {blake3 : List UInt8 → Digest} {db : AuditDb} {hist es : List AuditEntry} {cut : Nat}

/-- A log that is what is left of its history spells every device as it is written. -/
theorem Chained.spelled (h : db.Chained blake3 hist cut) : db.Spelled := by
  intro device row hrow
  have hmem := List.mem_of_mem_take hrow
  obtain ⟨hrows, hattributed⟩ := List.mem_filter.mp (List.mem_reverse.mp hmem)
  rw [h.rows] at hrows
  obtain ⟨e, he, rfl⟩ := List.mem_map.mp hrows
  exact names_stored (h.fits e (List.mem_of_mem_drop he)) hattributed

/-- A table that decodes to the entries of an intact one verifies as it does. -/
theorem Intact.verifyWithAnchor_of_decodes {start : UInt64} {prev anchor : Digest}
    {audit : Table AuditRow fun row => row.seq.toInt} {e : AuditEntry}
    (h : db.Intact blake3 start prev (es ++ [e])) (hdec : Decodes audit.rows (es ++ [e]))
    (hanchor : e.hash = anchor) :
    ∃ entries, (db.withRows audit).verifyWithAnchor blake3 anchor =
      .ok (.intact entries (some e.seq) (some anchor)) := by
  have hstart : (db.withRows audit).startWithin = .ok (start, prev) := h.startWithin
  obtain ⟨n, -, hverify⟩ := verifyWithin_intact hstart hdec h.linked
  rw [headAfter_snoc] at hverify
  refine ⟨n, ?_⟩
  unfold verifyWithAnchor
  rw [hverify, Except.ok_bind, ← hanchor]
  exact if_pos rfl

end AuditDb

namespace Log

open Transition

variable {blake3 : List UInt8 → Digest}

/-- **What verification approves and the device view.**  Let another audit table
verify against the head hash of an honest log.  Its view of every device is that
of the honest log exactly where its rows spell every device as it is written. -/
theorem device_view_iff {trace : List (AuditEvent × AuditObs)} {s : Log} {headSeq : UInt64}
    {anchor : Digest} (hrun : Run (step blake3) unguarded empty trace s)
    (hhead : s.db.head = .ok (some (headSeq, anchor)))
    {audit : Table AuditRow fun row => row.seq.toInt}
    (hno : NoCollision blake3 s.db.audit.rows audit.rows) {entries : UInt64}
    {headSeq' : Option UInt64} {headHash : Option Digest}
    (hverify : (s.db.withRows audit).verifyWithAnchor blake3 anchor =
      .ok (.intact entries headSeq' headHash)) :
    (∀ device limit,
      (s.db.withRows audit).forDevice device limit = s.db.forDevice device limit) ↔
    (s.db.withRows audit).Spelled := by
  obtain ⟨start, h⟩ := (chained hrun).intact
  obtain ⟨init, last, tail, hlast, htail, hanchor⟩ := AuditDb.last_of_head hhead
  obtain ⟨htip, hne⟩ := h.tip_eq hlast htail
  rw [hanchor] at htip
  have hdec : Decodes (s.db.withRows audit).audit.rows _ := h.eq_of_intact hne htip hno hverify
  rw [← AuditDb.forDevice_iff hdec]
  have hhonest := AuditDb.forDevice_of_spelled h.decodes (chained hrun).spelled
  simp only [hhonest]

/-! ### A row that hides from the view -/

/-- A device, and what it does. -/
def sampleDevice : DeviceId := .replicate 0xab

def deviceRecord : AuditRecord := { sampleRecord .ok with deviceId := some sampleDevice }

def deviceEntry : AuditEntry :=
  AuditDb.newEntry Id.of (1, genesisPrevHash, 0) deviceRecord 1000 5

/-- The text of the device in upper case. -/
def upperHex : List Char := (Hex.encode sampleDevice.bytes).map Char.toUpper

/-- The row with the device spelled in upper case. -/
def respelledRow : AuditRow :=
  { deviceEntry.stored with deviceId := some (utf8 (String.ofList upperHex)) }

theorem respelled_entry : respelledRow.entry = .ok deviceEntry := by
  have hlen : (utf8 (String.ofList upperHex)).length < 2 ^ 63 := by
    have hle := length_utf8_ofList upperHex
    have hupper : upperHex.length = 64 := by decide +kernel
    omega
  have hread : Id.fromHex (String.ofList upperHex) = .ok sampleDevice := by
    unfold Id.fromHex
    rw [String.toList_ofList]
    decide +kernel
  have hstored := AuditEntry.entry_stored (e := deviceEntry) ⟨by decide +kernel, by decide +kernel⟩
  refine @AuditEntry.entry_with_device _ _ _ (some ⟨_, hlen⟩) hstored ?_ ?_
  · dsimp only [nullable]
    rw [text_utf8 hlen]
    rfl
  · dsimp only [nullable]
    unfold deviceId
    rw [hread]
    rfl

theorem respelled_names : respelledRow.names sampleDevice = false := by
  refine decide_eq_false fun h => ?_
  have hchars := congrArg String.toList (utf8_injective (Option.some.inj h))
  rw [Id.toHex, String.toList_ofList, String.toList_ofList] at hchars
  revert hchars
  decide +kernel

/-- The honest log of one entry, and the table with the respelled row. -/
theorem respelled_approved :
    ∃ trace s headSeq anchor, ∃ audit : Table AuditRow fun row => row.seq.toInt,
      ∃ entries headSeq' headHash, Run (step Id.of) unguarded empty trace s ∧
        s.db.head = .ok (some (headSeq, anchor)) ∧ NoCollision Id.of s.db.audit.rows audit.rows ∧
        (s.db.withRows audit).verifyWithAnchor Id.of anchor =
          .ok (.intact entries headSeq' headHash) ∧
        s.db.forDevice sampleDevice 1 = .ok [deviceEntry] ∧
        (s.db.withRows audit).forDevice sampleDevice 1 = .ok [] := by
  have hexec : ((exec (step Id.of) unguarded [.begin 0 (.append deviceRecord 1000 5), .finish 0]
      [] empty).map fun r => r.2.db.audit.rows) = some [deviceEntry.stored] := by
    decide +kernel
  obtain ⟨⟨trace, s⟩, hexec, hrows⟩ := Option.map_eq_some_iff.mp hexec
  have hrun := run_of_exec _ hexec
  change s.db.audit.rows = _ at hrows
  have hfits : deviceEntry.Fits := ⟨by decide +kernel, by decide +kernel⟩
  have hentry := AuditEntry.entry_stored hfits
  have hdec : Decodes s.db.audit.rows ([] ++ [deviceEntry]) := hrows ▸ .cons hentry .nil
  have hdec' : Decodes [respelledRow] ([] ++ [deviceEntry]) := .cons respelled_entry .nil
  have hhead : s.db.head = .ok (some (deviceEntry.seq, deviceEntry.hash)) := by
    unfold AuditDb.head AuditDb.tailEntry Table.last
    rw [hrows]
    show (nullable AuditRow.entry (some deviceEntry.stored) >>= _) = _
    dsimp only [nullable]
    rw [hentry]
    rfl
  obtain ⟨start, h⟩ := (chained hrun).intact
  have hes := map_entry_of_decodes h.decodes
  rw [map_entry_of_decodes hdec, List.map_inj_right fun _ _ => Except.ok.inj] at hes
  rw [← hes] at h
  let audit : Table AuditRow fun row => row.seq.toInt :=
    ⟨[respelledRow], List.pairwise_singleton _ _⟩
  obtain ⟨entries, hverify⟩ := @AuditDb.Intact.verifyWithAnchor_of_decodes Id.of s.db [] start _ _
    audit deviceEntry h hdec' rfl
  refine ⟨trace, s, deviceEntry.seq, deviceEntry.hash, audit, entries, _, _, hrun, hhead, ?_,
    hverify, ?_, ?_⟩
  · refine noCollision_of_decodes hdec hdec' fun e he e' he' _ => ?_
    rw [List.mem_singleton.mp he, List.mem_singleton.mp he']
  · rw [AuditDb.forDevice_of_spelled hdec (chained hrun).spelled]
    decide +kernel
  · unfold AuditDb.forDevice
    show ((List.filter (AuditRow.names sampleDevice) [respelledRow]).reverse.take _).mapM _ = _
    rw [List.filter_cons_of_neg (by rw [respelled_names]; exact Bool.false_ne_true)]
    rfl

/-- **A respelled row hides from the view**: the table is approved, and the device
did nothing. -/
theorem device_view_hides :
    ¬ ∀ (trace : List (AuditEvent × AuditObs)) (s : Log) (headSeq : UInt64) (anchor : Digest)
      (audit : Table AuditRow fun row => row.seq.toInt) (entries : UInt64)
      (headSeq' : Option UInt64) (headHash : Option Digest),
      Run (step Id.of) unguarded empty trace s → s.db.head = .ok (some (headSeq, anchor)) →
      NoCollision Id.of s.db.audit.rows audit.rows →
      (s.db.withRows audit).verifyWithAnchor Id.of anchor =
        .ok (.intact entries headSeq' headHash) →
      ∀ device limit,
        (s.db.withRows audit).forDevice device limit = s.db.forDevice device limit := by
  intro h
  obtain ⟨trace, s, headSeq, anchor, audit, entries, headSeq', headHash, hrun, hhead, hno, hverify,
    hhonest, hhidden⟩ := respelled_approved
  have hsame := h trace s headSeq anchor audit entries headSeq' headHash hrun hhead hno hverify
    sampleDevice 1
  rw [hhonest, hhidden] at hsame
  cases hsame

/-- The approved table does not spell its device as it is written. -/
theorem device_view_iff_respelled :
    ∃ trace s, ∃ audit : Table AuditRow fun row => row.seq.toInt,
      Run (step Id.of) unguarded empty trace s ∧ ¬ (s.db.withRows audit).Spelled := by
  obtain ⟨trace, s, headSeq, anchor, audit, entries, headSeq', headHash, hrun, hhead, hno, hverify,
    hhonest, hhidden⟩ := respelled_approved
  refine ⟨trace, s, audit, hrun, fun hspelled => ?_⟩
  have hsame := (device_view_iff hrun hhead hno hverify).mpr hspelled sampleDevice 1
  rw [hhonest, hhidden] at hsame
  cases hsame

end Log

end Store
