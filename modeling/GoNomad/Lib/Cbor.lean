import GoNomad.Lib.BigEndian
import GoNomad.Lib.Text

/-!
# A deterministic subset of CBOR

Heads in their shortest form, and items that are integers, byte strings, text
or null.  `read_encode` reads an item back from the front of any bytes, so the
items are self-delimiting: what was encoded, and what follows it, can be told
apart in one way only (`encode_append_inj`).
-/

namespace Cbor

/-- The head of an item: the major type and the shortest form that holds the
argument.  The bits of the two never overlap. -/
def head (major : Nat) (arg : UInt64) : List UInt8 :=
  if arg.toNat < 24 then
    [UInt8.ofNat (32 * major + arg.toNat)]
  else if arg.toNat < 2 ^ 8 then
    [UInt8.ofNat (32 * major + 24), UInt8.ofNat arg.toNat]
  else if arg.toNat < 2 ^ 16 then
    UInt8.ofNat (32 * major + 25) :: BigEndian.ofU16 (UInt16.ofNat arg.toNat)
  else if arg.toNat < 2 ^ 32 then
    UInt8.ofNat (32 * major + 26) :: BigEndian.ofU32 (UInt32.ofNat arg.toNat)
  else
    UInt8.ofNat (32 * major + 27) :: BigEndian.ofU64 arg

/-- The head at the front of some bytes: major type, argument, and the rest. -/
def readHead : List UInt8 → Option (Nat × Nat × List UInt8)
  | [] => none
  | first :: rest =>
      let major := first.toNat / 32
      let info := first.toNat % 32
      if info < 24 then
        some (major, info, rest)
      else
        match info, rest with
        | 24, a :: rest => some (major, a.toNat, rest)
        | 25, a :: b :: rest => some (major, (BigEndian.toU16 a b).toNat, rest)
        | 26, a :: b :: c :: d :: rest => some (major, (BigEndian.toU32 a b c d).toNat, rest)
        | 27, a :: b :: c :: d :: e :: f :: g :: h :: rest =>
            some (major, (BigEndian.toU64 a b c d e f g h).toNat, rest)
        | _, _ => none

/-- **Heads are read back** from the front of any bytes. -/
theorem readHead_head {major : Nat} (hmajor : major < 8) (arg : UInt64) (rest : List UInt8) :
    readHead (head major arg ++ rest) = some (major, arg.toNat, rest) := by
  have hfirst : ∀ info, info < 32 → (UInt8.ofNat (32 * major + info)).toNat / 32 = major ∧
      (UInt8.ofNat (32 * major + info)).toNat % 32 = info := by
    intro info hinfo
    rw [UInt8.toNat_ofNat']
    omega
  unfold head
  split_ifs with h1 h2 h3 h4
  · obtain ⟨hdiv, hmod⟩ := hfirst arg.toNat (by omega)
    simp only [List.cons_append, List.nil_append, readHead, hdiv, hmod, if_pos h1]
  · obtain ⟨hdiv, hmod⟩ := hfirst 24 (by omega)
    have harg : (UInt8.ofNat arg.toNat).toNat = arg.toNat := by
      rw [UInt8.toNat_ofNat']
      omega
    simp only [List.cons_append, List.nil_append, readHead, hdiv, hmod, harg]
    rfl
  · obtain ⟨hdiv, hmod⟩ := hfirst 25 (by omega)
    have harg : (UInt16.ofNat arg.toNat).toNat = arg.toNat := by
      rw [UInt16.toNat_ofNat']
      omega
    have hword := BigEndian.toU16_ofU16 (UInt16.ofNat arg.toNat)
    rw [harg] at hword
    simp only [List.cons_append, readHead, hdiv, hmod, BigEndian.ofU16, List.nil_append, harg,
      hword]
    rfl
  · obtain ⟨hdiv, hmod⟩ := hfirst 26 (by omega)
    have harg : (UInt32.ofNat arg.toNat).toNat = arg.toNat := by
      rw [UInt32.toNat_ofNat']
      omega
    have hword := BigEndian.toU32_ofU32 (UInt32.ofNat arg.toNat)
    rw [harg] at hword
    simp only [List.cons_append, readHead, hdiv, hmod, BigEndian.ofU32, List.nil_append, harg,
      hword]
    rfl
  · obtain ⟨hdiv, hmod⟩ := hfirst 27 (by omega)
    obtain ⟨a, b, c, d, e, f, g, h, hbytes, hword⟩ := BigEndian.ofU64_eq arg
    simp only [List.cons_append, readHead, hdiv, hmod, hbytes, List.nil_append, hword]
    rfl

/-- How long a head is. -/
def headLen (arg : Nat) : Nat :=
  if arg < 24 then 1
  else if arg < 2 ^ 8 then 2
  else if arg < 2 ^ 16 then 3
  else if arg < 2 ^ 32 then 5
  else 9

theorem length_head (major : Nat) (arg : UInt64) :
    (head major arg).length = headLen arg.toNat := by
  obtain ⟨a, b, c, d, e, f, g, h, hbytes, -⟩ := BigEndian.ofU64_eq arg
  unfold head headLen
  split_ifs <;> simp [BigEndian.ofU16, BigEndian.ofU32, hbytes]

/-- **No form of a head is shorter**: whatever bytes a head is read from, writing
its argument takes no more of them. -/
theorem headLen_le_of_readHead {bytes rest : List UInt8} {major arg : Nat}
    (h : readHead bytes = some (major, arg, rest)) :
    headLen arg + rest.length ≤ bytes.length := by
  have hu16 := fun a b => (BigEndian.toU16 a b).toNat_lt
  have hu32 := fun a b c d => (BigEndian.toU32 a b c d).toNat_lt
  have hu8 := fun a : UInt8 => a.toNat_lt
  have hlen : headLen arg ≤ 9 := by
    unfold headLen
    split_ifs <;> omega
  cases bytes with
  | nil => cases h
  | cons first bytes =>
      unfold readHead at h
      dsimp only at h
      split_ifs at h with hinfo
      · cases h
        rw [headLen, if_pos hinfo, List.length_cons]
        omega
      · split at h
        all_goals cases h
        all_goals simp only [List.length_cons]
        · have := hu8 ‹UInt8›
          grind [headLen]
        · grind [headLen]
        · grind [headLen]
        · omega

/-- Largest value of a 64-bit word. -/
def u64Max : Nat := 2 ^ 64 - 1

/-- The head of a length. -/
def length (major : Nat) (len : Nat) : List UInt8 := head major (UInt64.ofNat (min len u64Max))

/-- A value the encoder writes. -/
inductive Item
  | uint (v : UInt64)
  | int (v : Int64)
  | bytes (b : List UInt8)
  | text (s : String)
  | null

/-- What an item says: signed and unsigned integers are one kind. -/
inductive Value
  | int (v : Int)
  | bytes (b : List UInt8)
  | text (s : List UInt8)
  | null
  deriving DecidableEq

namespace Item

def encode : Item → List UInt8
  | uint v => head 0 v
  | int v =>
      -- A negative integer is written as the distance below minus one.
      if v.toInt < 0 then head 1 (UInt64.ofNat (-(v.toInt + 1)).toNat)
      else head 0 (UInt64.ofNat v.toInt.toNat)
  | bytes b => length 2 b.length ++ b
  | text s => length 3 (utf8 s).length ++ utf8 s
  | null => [0xf6]

def value : Item → Value
  | uint v => .int v.toNat
  | int v => .int v.toInt
  | bytes b => .bytes b
  | text s => .text (utf8 s)
  | null => .null

/-- A string of an item is shorter than a length can say. -/
def Bounded : Item → Prop
  | bytes b => b.length ≤ u64Max
  | text s => (utf8 s).length ≤ u64Max
  | _ => True

instance : DecidablePred Bounded
  | uint _ => .isTrue trivial
  | int _ => .isTrue trivial
  | bytes b => inferInstanceAs (Decidable (b.length ≤ u64Max))
  | text s => inferInstanceAs (Decidable ((utf8 s).length ≤ u64Max))
  | null => .isTrue trivial

end Item

/-- The item at the front of some bytes, and the rest. -/
def read (bytes : List UInt8) : Option (Value × List UInt8) :=
  match readHead bytes with
  | some (0, arg, rest) => some (.int arg, rest)
  | some (1, arg, rest) => some (.int (-(arg : Int) - 1), rest)
  | some (2, arg, rest) => if arg ≤ rest.length then some (.bytes (rest.take arg), rest.drop arg) else none
  | some (3, arg, rest) => if arg ≤ rest.length then some (.text (rest.take arg), rest.drop arg) else none
  | some (7, 22, rest) => some (.null, rest)
  | _ => none

theorem toNat_length {len : Nat} (h : len ≤ u64Max) :
    (UInt64.ofNat (min len u64Max)).toNat = len := by
  rw [Nat.min_eq_left h, UInt64.toNat_ofNat']
  unfold u64Max at h
  omega

theorem readHead_length {major len : Nat} (hmajor : major < 8) (hlen : len ≤ u64Max)
    (rest : List UInt8) : readHead (length major len ++ rest) = some (major, len, rest) := by
  rw [length, readHead_head hmajor, toNat_length hlen]

/-- A signed integer has the sign and the distance that its head holds. -/
theorem encode_int (v : Int64) : ∃ arg : UInt64,
    (Item.int v).encode = head (if v.toInt < 0 then 1 else 0) arg ∧
      (arg.toNat : Int) = if v.toInt < 0 then -(v.toInt + 1) else v.toInt := by
  have hlow := v.le_toInt
  have hhigh := v.toInt_lt
  by_cases hneg : v.toInt < 0
  · refine ⟨UInt64.ofNat (-(v.toInt + 1)).toNat, by rw [Item.encode, if_pos hneg, if_pos hneg], ?_⟩
    rw [UInt64.toNat_ofNat', if_pos hneg]
    omega
  · refine ⟨UInt64.ofNat v.toInt.toNat, by rw [Item.encode, if_neg hneg, if_neg hneg], ?_⟩
    rw [UInt64.toNat_ofNat', if_neg hneg]
    omega

/-- The distance of a negative integer below minus one is computed without
overflow, also that of the smallest. -/
theorem encode_negative {v : Int64} (h : v < 0) : (v + 1).toInt = v.toInt + 1 ∧
    (-(v + 1)).toInt = -(v.toInt + 1) ∧ 0 ≤ (-(v + 1)).toInt ∧
      (Item.int v).encode = head 1 (UInt64.ofNat (-(v + 1)).toInt.toNat) := by
  have hneg : v.toInt < 0 := Int64.lt_iff_toInt_lt.mp h
  have hlow := v.le_toInt
  have hone : (1 : Int64).toInt = 1 := rfl
  have hadd : (v + 1).toInt = v.toInt + 1 := by
    rw [Int64.toInt_add, hone]
    exact Int.bmod_eq_of_le (by norm_num; omega) (by norm_num; omega)
  have hsub : (-(v + 1)).toInt = -(v.toInt + 1) := by
    rw [Int64.toInt_neg, hadd]
    exact Int.bmod_eq_of_le (by norm_num; omega) (by norm_num; omega)
  refine ⟨hadd, hsub, by omega, ?_⟩
  rw [hsub, Item.encode, if_pos hneg]

/-- **Items are read back** from the front of any bytes. -/
theorem read_encode {i : Item} (h : i.Bounded) (rest : List UInt8) :
    read (i.encode ++ rest) = some (i.value, rest) := by
  cases i with
  | uint v =>
      unfold read Item.encode
      rw [readHead_head (by decide)]
      rfl
  | int v =>
      obtain ⟨arg, hencode, harg⟩ := encode_int v
      rw [hencode, Item.value]
      by_cases hneg : v.toInt < 0
      · rw [if_pos hneg] at harg
        rw [if_pos hneg, read, readHead_head (by decide)]
        simp only [Option.some.injEq, Prod.mk.injEq, Value.int.injEq, and_true]
        omega
      · rw [if_neg hneg] at harg
        rw [if_neg hneg, read, readHead_head (by decide)]
        simp only [harg]
  | bytes b =>
      unfold read Item.encode
      rw [List.append_assoc, readHead_length (by decide) h]
      simp [Item.value]
  | text s =>
      unfold read Item.encode
      rw [List.append_assoc, readHead_length (by decide) h]
      simp [Item.value]
  | null => rfl

/-- Items of one value are written alike, signed or not. -/
theorem encode_eq_of_value {i j : Item} (h : i.value = j.value) : i.encode = j.encode := by
  have hmixed : ∀ (u : UInt64) (v : Int64), (u.toNat : Int) = v.toInt →
      (Item.uint u).encode = (Item.int v).encode := by
    intro u v huv
    obtain ⟨arg, hencode, harg⟩ := encode_int v
    rw [if_neg (by omega)] at harg hencode
    rw [hencode, Item.encode, UInt64.toNat_inj.mp (by omega : u.toNat = arg.toNat)]
  cases i <;> cases j <;> simp only [Item.value, Value.int.injEq, Value.bytes.injEq,
    Value.text.injEq, reduceCtorEq] at h
  · rw [UInt64.toNat_inj.mp (Int.ofNat.inj h)]
  · exact hmixed _ _ h
  · exact (hmixed _ _ h.symm).symm
  · rw [Int64.toInt_inj.mp h]
  · rw [h]
  · rw [utf8_injective h]
  · rfl
/-! ### No encoding is shorter -/

/-- How long the encoding of a value is. -/
def Value.size : Value → Nat
  | int v => headLen (if v < 0 then -(v + 1) else v).toNat
  | bytes b => headLen b.length + b.length
  | text s => headLen s.length + s.length
  | null => 1

theorem Item.length_encode {i : Item} (h : i.Bounded) : i.encode.length = i.value.size := by
  cases i with
  | uint v => rw [encode, length_head, value, Value.size, if_neg (by omega), Int.toNat_natCast]
  | int v =>
      obtain ⟨arg, hencode, harg⟩ := encode_int v
      rw [hencode, length_head, value, Value.size, ← harg, Int.toNat_natCast]
  | bytes b => rw [encode, List.length_append, length, length_head, toNat_length h]; rfl
  | text s => rw [encode, List.length_append, length, length_head, toNat_length h]; rfl
  | null => rfl

/-- **No encoding of a value is shorter.** -/
theorem size_le_of_read {bytes rest : List UInt8} {v : Value} (h : read bytes = some (v, rest)) :
    v.size + rest.length ≤ bytes.length := by
  unfold read at h
  split at h
  next arg rest hread =>
    cases h
    rw [Value.size, if_neg (by omega), Int.toNat_natCast]
    exact headLen_le_of_readHead hread
  next arg rest hread =>
    cases h
    have harg : (-(-(arg : Int) - 1 + 1)).toNat = arg := by omega
    rw [Value.size, if_pos (by omega), harg]
    exact headLen_le_of_readHead hread
  next arg rest hread =>
    split_ifs at h with hlen
    cases h
    have hhead := headLen_le_of_readHead hread
    rw [Value.size, List.length_take, List.length_drop, Nat.min_eq_left hlen]
    omega
  next arg rest hread =>
    split_ifs at h with hlen
    cases h
    have hhead := headLen_le_of_readHead hread
    rw [Value.size, List.length_take, List.length_drop, Nat.min_eq_left hlen]
    omega
  next rest hread =>
    cases h
    exact headLen_le_of_readHead hread
  next => cases h

/-! ### Encodings are told apart -/

theorem encode_ne_nil {i : Item} (h : i.Bounded) : i.encode ≠ [] := by
  intro hnil
  have hread := read_encode h []
  rw [hnil] at hread
  cases hread

/-- **Encoded items are told apart**, and so is what follows them. -/
theorem encode_append_inj {i j : Item} (hi : i.Bounded) (hj : j.Bounded) {s t : List UInt8}
    (h : i.encode ++ s = j.encode ++ t) : i.value = j.value ∧ s = t := by
  have hread := read_encode hi s
  rw [h, read_encode hj, Option.some.injEq, Prod.mk.injEq] at hread
  exact ⟨hread.1.symm, hread.2.symm⟩

/-- **Sequences of encoded items are told apart.** -/
theorem flatMap_encode_inj {is js : List Item} (his : ∀ i ∈ is, i.Bounded)
    (hjs : ∀ j ∈ js, j.Bounded) (h : is.flatMap Item.encode = js.flatMap Item.encode) :
    is.map Item.value = js.map Item.value := by
  induction is generalizing js with
  | nil =>
      cases js with
      | nil => rfl
      | cons j js =>
          rw [List.flatMap_nil, List.flatMap_cons] at h
          exact absurd (List.append_eq_nil_iff.mp h.symm).1 (encode_ne_nil (hjs j (.head _)))
  | cons i is ih =>
      cases js with
      | nil =>
          rw [List.flatMap_nil, List.flatMap_cons] at h
          exact absurd (List.append_eq_nil_iff.mp h).1 (encode_ne_nil (his i (.head _)))
      | cons j js =>
          rw [List.flatMap_cons, List.flatMap_cons] at h
          obtain ⟨hvalue, hrest⟩ := encode_append_inj (his i (.head _)) (hjs j (.head _)) h
          have htail := ih (fun a ha => his a (.tail _ ha)) (fun a ha => hjs a (.tail _ ha)) hrest
          rw [List.map_cons, List.map_cons, hvalue, htail]

end Cbor
