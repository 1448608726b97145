import GoNomad.Client.Inner
import GoNomad.Lib.AtomicFile
import GoNomad.Proto.RoundTrip

/-!
# The record of the paired daemon on disk

The record is a map of its fields, written to `daemon.cbor.tmp` and renamed to
`daemon.cbor`.  Three of its fields came later, and a record without them is read
with their defaults.

* `codes_pairedDaemon` — a record of any version is read back;
* `Storage.loads_what_was_saved` — what is loaded, with the app killed at any time.
-/

namespace Client

open Proto Cbor

/-! ### The record as bytes -/

/-- The fields that a record has beside those of the first version. -/
structure Layout where
  nodeId : Bool
  registeredDeviceId : Bool
  lastSeenMs : Bool
  deriving DecidableEq

/-- The fields that are written now. -/
def Layout.current : Layout := ⟨true, true, true⟩

/-- The record as it is read from a layout. -/
def PairedDaemon.since (layout : Layout) (daemon : PairedDaemon) : PairedDaemon :=
  { daemon with
    nodeId := if layout.nodeId then daemon.nodeId else none
    registeredDeviceId := if layout.registeredDeviceId then daemon.registeredDeviceId else ""
    lastSeenMs := if layout.lastSeenMs then daemon.lastSeenMs else none }

/-- A field of the layouts that have it. -/
def present (has : Bool) (name : String) (bytes : List UInt8) : List (String × List UInt8) :=
  if has then [(name, bytes)] else []

def writeI64 (v : Int) : List UInt8 := (Item.int (Int64.ofInt v)).encode

def writePairedDaemon (layout : Layout) (daemon : PairedDaemon) : List UInt8 :=
  MethodCbor.struct ([("noise_key", MethodCbor.id daemon.noiseKey)] ++
    present layout.nodeId "node_id" (MethodCbor.nullable MethodCbor.id daemon.nodeId) ++
    [("device_id", MethodCbor.text daemon.deviceId)] ++
    present layout.registeredDeviceId "registered_device_id"
      (MethodCbor.text daemon.registeredDeviceId) ++
    [("name", MethodCbor.text daemon.name),
      ("addr_hints", MethodCbor.array (daemon.addrHints.map MethodCbor.text)),
      ("paired_at_ms", writeI64 daemon.pairedAtMs)] ++
    present layout.lastSeenMs "last_seen_ms" (MethodCbor.nullable writeI64 daemon.lastSeenMs))

def readI64 (t : Tree) : Option Int := (toI64 t).map Int64.toInt

def readPairedDaemon : Tree → Option PairedDaemon := record fun fields => do
  let noiseKey ← field "noise_key" Decode.id fields
  let nodeId ← optionalField "node_id" Decode.id fields
  let deviceId ← field "device_id" toText fields
  let registeredDeviceId ← defaulted "registered_device_id" "" toText fields
  let name ← field "name" toText fields
  let addrHints ← field "addr_hints" (toList toText) fields
  let pairedAtMs ← field "paired_at_ms" readI64 fields
  let lastSeenMs ← optionalField "last_seen_ms" readI64 fields
  return { noiseKey, nodeId, deviceId, registeredDeviceId, name, addrHints, pairedAtMs, lastSeenMs }

/-- Times are of 64 bits. -/
def IsI64 (v : Int) : Prop := -2 ^ 63 ≤ v ∧ v < 2 ^ 63

instance (v : Int) : Decidable (IsI64 v) := inferInstanceAs (Decidable (_ ∧ _))

theorem codes_writeI64 {v : Int} (hv : IsI64 v) (depth : Nat) :
    Codes depth readI64 (writeI64 v) v := by
  obtain ⟨t, hreads, ht⟩ := codes_i64 depth (Int64.ofInt v)
  refine ⟨t, hreads, ?_⟩
  rw [readI64, ht, Option.map_some, Int64.toInt_ofInt_of_le hv.1 hv.2]

/-- A field that some layouts lack. -/
theorem slot_present {α : Type} {depth : Nat} {read : Tree → Option α} {bytes : List UInt8} {a : α}
    (h : Codes depth read bytes a) (has : Bool) (name : String) (absent : α) :
    Slot depth name (atMostOne absent read) (present has name bytes) (if has then a else absent) := by
  cases has with
  | false => exact slot_absent name read absent
  | true => exact h.slot name absent

/-- A record as it can be held in memory. -/
structure PairedDaemon.Storable (daemon : PairedDaemon) : Prop where
  pairedAtMs : IsI64 daemon.pairedAtMs
  lastSeenMs : ∀ v, daemon.lastSeenMs = some v → IsI64 v
  length : ∀ layout, (writePairedDaemon layout daemon).length ≤ u64Max

theorem codes_lastSeenMs {daemon : PairedDaemon} (h : daemon.Storable) (depth : Nat) :
    Codes depth (nullable readI64) (MethodCbor.nullable writeI64 daemon.lastSeenMs)
      daemon.lastSeenMs := by
  cases hlast : daemon.lastSeenMs with
  | none => exact codes_none depth
  | some v => exact (codes_writeI64 (h.lastSeenMs v hlast) depth).nullable rfl

/-- **A record of any version is read back**, with defaults for what it lacks. -/
theorem codes_pairedDaemon {daemon : PairedDaemon} (h : daemon.Storable) (layout : Layout)
    (depth : Nat) :
    Codes (depth + 2) readPairedDaemon (writePairedDaemon layout daemon) (daemon.since layout) := by
  obtain ⟨t₁, hr₁, ht₁⟩ := Decode.codes_id (depth + 1) daemon.noiseKey
  obtain ⟨ts₂, hr₂, ht₂⟩ := slot_present (Decode.codes_nullable rfl (Decode.codes_id (depth + 1))
    daemon.nodeId) layout.nodeId "node_id" none
  obtain ⟨t₃, hr₃, ht₃⟩ := codes_text (depth + 1) daemon.deviceId
  obtain ⟨ts₄, hr₄, ht₄⟩ := slot_present (codes_text (depth + 1) daemon.registeredDeviceId)
    layout.registeredDeviceId "registered_device_id" ""
  obtain ⟨t₅, hr₅, ht₅⟩ := codes_text (depth + 1) daemon.name
  obtain ⟨t₆, hr₆, ht₆⟩ := Decode.codes_list (codes_text depth) daemon.addrHints
  obtain ⟨t₇, hr₇, ht₇⟩ := codes_writeI64 h.pairedAtMs (depth + 1)
  obtain ⟨ts₈, hr₈, ht₈⟩ := slot_present (codes_lastSeenMs h (depth + 1)) layout.lastSeenMs
    "last_seen_ms" none
  refine codes_record (List.rel_append (List.rel_append (List.rel_append (List.rel_append
    (List.rel_append (.cons (hr₁.field _) .nil) hr₂) (.cons (hr₃.field _) .nil)) hr₄)
    (.cons (hr₅.field _) (.cons (hr₆.field _) (.cons (hr₇.field _) .nil)))) hr₈) fun t ht => ?_
  simp [readPairedDaemon, record, ht, field, optionalField, defaulted, one, PairedDaemon.since,
    ht₁, ht₂, ht₃, ht₄, ht₅, ht₆, ht₇, ht₈]

/-! ### The files -/

namespace Storage

open AtomicFile (Event Answer)

/-- A record of the daemon, as the client holds one. -/
abbrev Record := {daemon : PairedDaemon // daemon.Storable}

def encode (r : Record) : List UInt8 := writePairedDaemon .current r.val

/-- Reads the record; what stands behind it is left alone. -/
def decode (bytes : List UInt8) : Option PairedDaemon := Decode.fromReader readPairedDaemon bytes

/-- `save_daemon`, `load_daemon` and `forget_daemon`, on any number of threads. -/
abbrev step {threads : Nat} := @AtomicFile.step Record PairedDaemon threads encode decode

theorem decode_layout (layout : Layout) (r : Record) :
    decode (writePairedDaemon layout r.val) = some (r.val.since layout) := by
  have hread := Decode.fromReader_of_codes (codes_pairedDaemon r.property layout _)
    (r.property.length layout) []
  rwa [List.append_nil] at hread

theorem decode_encode (r : Record) : decode (encode r) = some r.val := by
  rw [encode, decode_layout]
  rfl

/-- The files that an app of some version has left: its record, and perhaps a part of
one that it did not get to rename. -/
structure Left {threads : Nat} (layout : Layout) (first : Option Record)
    (s : AtomicFile.State Record threads) : Prop where
  idle : ∀ p, s.task p = .idle
  target : match first with
    | none => s.target = none
    | some r => ∃ i, s.target = some i ∧ s.data i = writePairedDaemon layout r.val
  below : ∀ i, s.temp = some i ∨ s.target = some i → i < s.fresh
  apart : ∀ i, s.temp = some i → s.target ≠ some i

theorem Left.holds {threads : Nat} {layout : Layout} {first : Option Record}
    {s : AtomicFile.State Record threads} (h : Left layout first s) :
    AtomicFile.Holds encode decode (first.map fun r => r.val.since layout) s := by
  refine ⟨?_, h.below, h.apart, fun p q hp => ?_, fun p i offset r hp => ?_⟩
  · have htarget := h.target
    unfold AtomicFile.State.answer
    cases first with
    | none =>
        rw [htarget]
        rfl
    | some r =>
        obtain ⟨i, hi, hdata⟩ := htarget
        simp only [hi, hdata, decode_layout]
        rfl
  · rw [h.idle p] at hp
    cases hp
  · rw [h.idle p] at hp
    cases hp

/-- **The pairing survives on disk**: whatever the threads of the app do, wherever they
fail or are killed, and whichever version of the app left the first record, each load
answers the record that was renamed in last, or that there is none where that was
removed; it never finds a record that it cannot read. -/
theorem loads_what_was_saved {threads : Nat} {layout : Layout} {first : Option Record}
    {init s : AtomicFile.State Record threads} (hinit : Left layout first init)
    {before after : List (Event Record threads × AtomicFile.Outcome Record PairedDaemon)}
    {answer : Answer PairedDaemon}
    (hrun : Transition.Run step AtomicFile.Apart init
      (before ++ (.load, .loaded answer) :: after) s) :
    answer = .of (AtomicFile.lastSaved Subtype.val
      (first.map fun r => r.val.since layout) before) :=
  AtomicFile.load_answers decode_encode hinit.holds hrun

/-- The record of an app that knew none of the later fields. -/
def older : PairedDaemon :=
  { noiseKey := ⟨.replicate 32 0xab, rfl⟩
    nodeId := none
    deviceId := "ab"
    registeredDeviceId := "cd"
    name := "DESKTOP-ABC"
    addrHints := ["192.168.1.4:41234"]
    pairedAtMs := 1700000000000
    lastSeenMs := some 5 }

def olderRecord : Record := ⟨older, by decide, by decide, by
  rintro ⟨nodeId, registered, lastSeen⟩
  cases nodeId <;> cases registered <;> cases lastSeen <;> decide +kernel⟩

/-- The files that it left, with a part of a record beside. -/
def phone : AtomicFile.State Record 2 where
  data i := if i = 0 then writePairedDaemon ⟨false, false, false⟩ older else [0xa8, 0x69]
  fresh := 2
  temp := some 1
  target := some 0
  task _ := .idle

/-- The app is killed five bytes into a save: the older record is loaded. -/
theorem loads_what_was_saved_sample :
    ∃ t, Transition.Run step AtomicFile.Apart phone
        [(.create 0 olderRecord, .silent), (.write 0 5, .silent), (.kill, .silent)] t ∧
      t.answer decode = .holds { older with registeredDeviceId := "", lastSeenMs := none } := by
  have hleft : Left ⟨false, false, false⟩ (some olderRecord) phone := by
    refine ⟨fun _ => rfl, ⟨0, rfl, rfl⟩, ?_, ?_⟩
    · rintro i (hi | hi) <;> cases hi <;> decide
    · rintro i hi hi'
      cases hi
      cases hi'
  have hcreate : Transition.Run step AtomicFile.Apart phone
      [(.create 0 olderRecord, .silent)] (phone.open.1.goto 0 (.writing 1 0 olderRecord)) :=
    .snoc .nil (fun _ => rfl) rfl
  have hwrite := hcreate.snoc (e := Event.write 0 5) trivial rfl
  have hkill := hwrite.snoc (e := Event.kill) trivial rfl
  exact ⟨_, hkill, loads_what_was_saved hleft (hkill.snoc (e := Event.load) trivial rfl)⟩

end Storage

end Client
