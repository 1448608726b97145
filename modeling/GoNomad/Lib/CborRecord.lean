import GoNomad.Lib.CborTree
import Mathlib.Data.List.Forall2

/-!
# Records written as maps

A record is a map from field names to items.  Its fields may come in any order and
among others that nobody asks for; a field that is asked for may not come twice.

* `Codes` — some bytes are read back as one value;
* `codes_array`, `codes_record` — from the parts to the whole.
-/

namespace Cbor

/-! ### Reading a record -/

/-- The fields of a record. -/
abbrev Fields := List (String × Tree)

/-- The entries of a map whose keys are all text. -/
def named : List (Tree × Tree) → Option Fields
  | [] => some []
  | (.text name, value) :: entries => (named entries).map ((name, value) :: ·)
  | _ :: _ => none

def fieldsOf : Tree → Option Fields
  | .map entries => named entries
  | _ => none

/-- What stands under a name. -/
def valuesOf (name : String) (fields : Fields) : List Tree :=
  fields.filterMap fun f => if f.1 = name then some f.2 else none

section Readers

variable {α : Type}

/-- The one value there has to be. -/
def one (read : Tree → Option α) : List Tree → Option α
  | [value] => read value
  | _ => none

/-- The one value there may be. -/
def atMostOne (absent : α) (read : Tree → Option α) : List Tree → Option α
  | [] => some absent
  | [value] => read value
  | _ => none

/-- A field that has to be there. -/
def field (name : String) (read : Tree → Option α) (fields : Fields) : Option α :=
  one read (valuesOf name fields)

/-- A field that has a value where it is absent. -/
def defaulted (name : String) (absent : α) (read : Tree → Option α) (fields : Fields) : Option α :=
  atMostOne absent read (valuesOf name fields)

/-- A value, or that there is none. -/
def nullable (read : Tree → Option α) : Tree → Option (Option α)
  | .null => some none
  | t => (read t).map some

/-- A field of a value that may not be there. -/
def optionalField (name : String) (read : Tree → Option α) (fields : Fields) : Option (Option α) :=
  defaulted name none (nullable read) fields

/-- All of some items. -/
def readAll (read : Tree → Option α) : List Tree → Option (List α)
  | [] => some []
  | t :: ts => do
      let a ← read t
      let as ← readAll read ts
      return a :: as

def toList (read : Tree → Option α) : Tree → Option (List α)
  | .array items => readAll read items
  | _ => none

/-- A record as its fields are read. -/
def record (read : Fields → Option α) (t : Tree) : Option α := do
  let fields ← fieldsOf t
  read fields

/-- A record with a field that tells its kind, which no kind has a field of its own
for; the kind decides how the fields are read. -/
def taggedBy (tag : String) (read : String → Fields → Option α) : Tree → Option α :=
  record fun fields => do
    let kind ← field tag (fun | .text s => some s | _ => none) fields
    read kind fields

end Readers

/-- An integer from zero up to a limit. -/
def toNatBelow (limit : Nat) : Tree → Option Nat
  | .int v => if 0 ≤ v ∧ v < limit then some v.toNat else none
  | _ => none

def toU8 (t : Tree) : Option UInt8 := (toNatBelow (2 ^ 8) t).map UInt8.ofNat

def toU16 (t : Tree) : Option UInt16 := (toNatBelow (2 ^ 16) t).map UInt16.ofNat

def toU32 (t : Tree) : Option UInt32 := (toNatBelow (2 ^ 32) t).map UInt32.ofNat

def toU64 (t : Tree) : Option UInt64 := (toNatBelow (2 ^ 64) t).map UInt64.ofNat

def toI64 : Tree → Option Int64
  | .int v => if -2 ^ 63 ≤ v ∧ v < 2 ^ 63 then some (Int64.ofInt v) else none
  | _ => none

def toText : Tree → Option String
  | .text s => some s
  | _ => none

def toBool : Tree → Option Bool
  | .bool b => some b
  | _ => none

/-! ### Reading back what was written -/

/-- Some bytes are read back as one value. -/
def Codes {α : Type} (depth : Nat) (read : Tree → Option α) (bytes : List UInt8) (a : α) : Prop :=
  ∃ t, Reads depth bytes t ∧ read t = some a

section Scalars

variable (depth : Nat)

theorem codes_u64 (v : UInt64) : Codes depth toU64 (Item.uint v).encode v := by
  have hv := v.toNat_lt
  refine ⟨_, reads_uint depth v, ?_⟩
  rw [toU64, toNatBelow, if_pos (by omega)]
  simp

theorem codes_u32 (v : UInt32) : Codes depth toU32 (Item.uint v.toUInt64).encode v := by
  have hv := v.toNat_lt
  refine ⟨_, reads_uint depth v.toUInt64, ?_⟩
  rw [toU32, toNatBelow, UInt32.toNat_toUInt64, if_pos (by omega)]
  simp

theorem codes_u16 (v : UInt16) : Codes depth toU16 (Item.uint v.toUInt64).encode v := by
  have hv := v.toNat_lt
  refine ⟨_, reads_uint depth v.toUInt64, ?_⟩
  rw [toU16, toNatBelow, UInt16.toNat_toUInt64, if_pos (by omega)]
  simp

theorem codes_i64 (v : Int64) : Codes depth toI64 (Item.int v).encode v := by
  have hlow := v.le_toInt
  have hhigh := v.toInt_lt
  refine ⟨_, reads_int depth v, ?_⟩
  rw [toI64, if_pos ⟨hlow, hhigh⟩, Int64.ofInt_toInt]

theorem codes_text (s : String) : Codes depth toText (Item.text s).encode s :=
  ⟨_, reads_text depth s, rfl⟩

theorem codes_bool (b : Bool) : Codes depth toBool [if b then 0xf5 else 0xf4] b :=
  ⟨_, reads_bool depth b, rfl⟩

end Scalars

section Containers

variable {α : Type} {depth : Nat}

/-- **A list is read back** if its elements are. -/
theorem codes_array {read : Tree → Option α} {write : α → List UInt8} {as : List α}
    (h : ∀ a ∈ as, Codes depth read (write a) a) :
    Codes (depth + 1) (toList read)
      (length 4 (as.map write).length ++ (as.map write).flatten) as := by
  have hitems : ∃ items, List.Forall₂ (Reads depth) (as.map write) items ∧
      readAll read items = some as := by
    induction as with
    | nil => exact ⟨[], .nil, rfl⟩
    | cons a as ih =>
        obtain ⟨t, hreads, ht⟩ := h a (.head _)
        obtain ⟨ts, hall, hts⟩ := ih fun b hb => h b (.tail _ hb)
        refine ⟨t :: ts, .cons hreads hall, ?_⟩
        simp [readAll, ht, hts]
  obtain ⟨items, hall, hread⟩ := hitems
  exact ⟨.array items, reads_array hall, hread⟩

/-- A field as it is written, and as it is read back. -/
def FieldReads (depth : Nat) (written : String × List UInt8) (f : String × Tree) : Prop :=
  written.1 = f.1 ∧ Reads depth written.2 f.2

theorem Reads.field {bytes : List UInt8} {t : Tree} (h : Reads depth bytes t) (name : String) :
    FieldReads depth (name, bytes) (name, t) :=
  ⟨rfl, h⟩

@[simp] theorem valuesOf_nil (name : String) : valuesOf name [] = [] := rfl

@[simp] theorem valuesOf_cons (name : String) (f : String × Tree) (fields : Fields) :
    valuesOf name (f :: fields) =
      if f.1 = name then f.2 :: valuesOf name fields else valuesOf name fields := by
  unfold valuesOf
  by_cases hname : f.1 = name <;> simp [hname]

@[simp] theorem valuesOf_append (name : String) (fields more : Fields) :
    valuesOf name (fields ++ more) = valuesOf name fields ++ valuesOf name more :=
  List.filterMap_append

/-- The fields of one name. -/
@[simp] theorem valuesOf_map (name other : String) (ts : List Tree) :
    valuesOf name (ts.map fun t => (other, t)) = if other = name then ts else [] := by
  induction ts with
  | nil => simp
  | cons t ts ih =>
      rw [List.map_cons, valuesOf_cons, ih]
      split <;> rfl

/-- Some fields of one name are read back as what `get` makes of their values. -/
def Slot (depth : Nat) (name : String) (get : List Tree → Option α)
    (written : List (String × List UInt8)) (a : α) : Prop :=
  ∃ ts, List.Forall₂ (FieldReads depth) written (ts.map fun t => (name, t)) ∧ get ts = some a

theorem slot_absent (name : String) (read : Tree → Option α) (absent : α) :
    Slot depth name (atMostOne absent read) [] absent :=
  ⟨[], .nil, rfl⟩

theorem Codes.slot {read : Tree → Option α} {bytes : List UInt8} {a : α}
    (h : Codes depth read bytes a) (name : String) (absent : α) :
    Slot depth name (atMostOne absent read) [(name, bytes)] a := by
  obtain ⟨t, hreads, ht⟩ := h
  exact ⟨[t], .cons (hreads.field name) .nil, ht⟩

/-- A value that is there is not read as if there were none. -/
theorem Codes.nullable {read : Tree → Option α} {bytes : List UInt8} {a : α}
    (hnull : read .null = none) (h : Codes depth read bytes a) :
    Codes depth (nullable read) bytes (some a) := by
  obtain ⟨t, hreads, ht⟩ := h
  refine ⟨t, hreads, ?_⟩
  cases t with
  | null => rw [hnull] at ht; cases ht
  | _ => simp [Cbor.nullable, ht]

theorem codes_none {read : Tree → Option α} (depth : Nat) :
    Codes depth (Cbor.nullable read) Item.null.encode none :=
  ⟨.null, reads_null depth, rfl⟩

/-- The fields of what was written. -/
theorem named_map (fields : Fields) :
    named (fields.map fun f => (.text f.1, f.2)) = some fields := by
  induction fields with
  | nil => rfl
  | cons f fields ih => simp [named, ih]

/-- **A record is read back** if its fields are. -/
theorem codes_record {read : Tree → Option α} {a : α} {written : List (String × List UInt8)}
    {fields : Fields} (h : List.Forall₂ (FieldReads depth) written fields)
    (hread : ∀ t, fieldsOf t = some fields → read t = some a) :
    Codes (depth + 1) read
      (length 5 written.length ++ written.flatMap fun f => (Item.text f.1).encode ++ f.2) a := by
  have hpairs : List.Forall₂ (ReadBack (readPair (readTree depth) (readTree depth)))
      (written.map fun f => (Item.text f.1).encode ++ f.2)
      (fields.map fun f => (.text f.1, f.2)) := by
    rw [List.forall₂_map_left_iff, List.forall₂_map_right_iff]
    refine h.imp fun f g hfg => ?_
    rw [hfg.1]
    exact (reads_text depth g.1).pair hfg.2
  have hmap := reads_map hpairs
  rw [List.length_map, ← List.flatMap_def] at hmap
  exact ⟨_, hmap, hread _ (named_map fields)⟩

end Containers

end Cbor
