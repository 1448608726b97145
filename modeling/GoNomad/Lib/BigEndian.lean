import Mathlib.Data.List.Basic
import Mathlib.Tactic.Ring

/-!
# Big-endian words and fixed-size chunks

Byte-level helpers shared by every wire format: a fixed-width word is written
most significant byte first and read back from the same bytes, and a byte
string is cut into consecutive chunks of one size.  Nothing here knows what the
bytes mean.
-/

namespace BigEndian

/-- The two bytes of a 16-bit word, most significant first. -/
def ofU16 (x : UInt16) : List UInt8 :=
  [UInt8.ofNat (x.toNat / 2 ^ 8), UInt8.ofNat x.toNat]

/-- The 16-bit word whose bytes are `a b`. -/
def toU16 (a b : UInt8) : UInt16 :=
  UInt16.ofNat (2 ^ 8 * a.toNat + b.toNat)

/-- The four bytes of a 32-bit word, most significant first. -/
def ofU32 (x : UInt32) : List UInt8 :=
  [UInt8.ofNat (x.toNat / 2 ^ 24), UInt8.ofNat (x.toNat / 2 ^ 16),
    UInt8.ofNat (x.toNat / 2 ^ 8), UInt8.ofNat x.toNat]

/-- The 32-bit word whose bytes are `a b c d`. -/
def toU32 (a b c d : UInt8) : UInt32 :=
  UInt32.ofNat (2 ^ 24 * a.toNat + 2 ^ 16 * b.toNat + 2 ^ 8 * c.toNat + d.toNat)

/-- The eight bytes of a 64-bit word, most significant first. -/
def ofU64 (x : UInt64) : List UInt8 :=
  ofU32 (UInt32.ofNat (x.toNat / 2 ^ 32)) ++ ofU32 (UInt32.ofNat x.toNat)

/-- The 64-bit word whose bytes are `a b c d e f g h`. -/
def toU64 (a b c d e f g h : UInt8) : UInt64 :=
  UInt64.ofNat (2 ^ 32 * (toU32 a b c d).toNat + (toU32 e f g h).toNat)

@[simp] theorem length_ofU16 (x : UInt16) : (ofU16 x).length = 2 := rfl

@[simp] theorem length_ofU32 (x : UInt32) : (ofU32 x).length = 4 := rfl

/-- Reading back a written 16-bit word gives that word. -/
theorem toU16_ofU16 (x : UInt16) :
    toU16 (UInt8.ofNat (x.toNat / 2 ^ 8)) (UInt8.ofNat x.toNat) = x := by
  apply UInt16.toNat_inj.mp
  have hx := x.toNat_lt
  simp only [toU16, UInt16.toNat_ofNat', UInt8.toNat_ofNat']
  omega

/-- A 16-bit word is spelled by the bytes it was read from. -/
theorem ofU16_toU16 (a b : UInt8) : ofU16 (toU16 a b) = [a, b] := by
  have ha := a.toNat_lt
  have hb := b.toNat_lt
  unfold ofU16 toU16
  congr 1
  · apply UInt8.toNat_inj.mp
    simp
    omega
  · congr 1
    apply UInt8.toNat_inj.mp
    simp

/-- Reading back a written 32-bit word gives that word. -/
theorem toU32_ofU32 (x : UInt32) :
    toU32 (UInt8.ofNat (x.toNat / 2 ^ 24)) (UInt8.ofNat (x.toNat / 2 ^ 16))
      (UInt8.ofNat (x.toNat / 2 ^ 8)) (UInt8.ofNat x.toNat) = x := by
  apply UInt32.toNat_inj.mp
  have hx := x.toNat_lt
  simp only [toU32, UInt32.toNat_ofNat', UInt8.toNat_ofNat']
  omega

/-- Reading back a written 64-bit word gives that word. -/
theorem ofU64_eq (x : UInt64) :
    ∃ a b c d e f g h, ofU64 x = [a, b, c, d, e, f, g, h] ∧ toU64 a b c d e f g h = x := by
  refine ⟨_, _, _, _, _, _, _, _, rfl, ?_⟩
  apply UInt64.toNat_inj.mp
  have hx := x.toNat_lt
  rw [toU64, toU32_ofU32, toU32_ofU32, UInt64.toNat_ofNat', UInt32.toNat_ofNat',
    UInt32.toNat_ofNat']
  omega

/-- Writing back four read bytes gives those bytes: the encoding loses nothing
in either direction. -/
theorem ofU32_toU32 (a b c d : UInt8) : ofU32 (toU32 a b c d) = [a, b, c, d] := by
  have ha := a.toNat_lt
  have hb := b.toNat_lt
  have hc := c.toNat_lt
  have hd := d.toNat_lt
  have hword : (toU32 a b c d).toNat =
      2 ^ 24 * a.toNat + 2 ^ 16 * b.toNat + 2 ^ 8 * c.toNat + d.toNat := by
    simp only [toU32, UInt32.toNat_ofNat']
    omega
  simp only [ofU32, hword, List.cons.injEq, and_true]
  refine ⟨?_, ?_, ?_, ?_⟩ <;> apply UInt8.toNat_inj.mp <;>
    simp only [UInt8.toNat_ofNat'] <;> omega

/-- Cut a string into consecutive chunks of `n` elements, the last one possibly
shorter.  `fuel` bounds the number of chunks; the length of the string is
always enough. -/
def chunksAux {α : Type*} (n : Nat) : Nat → List α → List (List α)
  | 0, _ => []
  | _ + 1, [] => []
  | fuel + 1, a :: l => (a :: l).take n :: chunksAux n fuel ((a :: l).drop n)

/-- The chunks of a string, as `slice::chunks` produces them. -/
def chunks {α : Type*} (n : Nat) (l : List α) : List (List α) :=
  chunksAux n l.length l

theorem flatten_chunksAux {α : Type*} {n : Nat} (hn : 0 < n) :
    ∀ (fuel : Nat) (l : List α), l.length ≤ fuel → (chunksAux n fuel l).flatten = l
  | 0, l, h => by simp [chunksAux, List.eq_nil_of_length_eq_zero (Nat.le_zero.mp h)]
  | fuel + 1, [], _ => by simp [chunksAux]
  | fuel + 1, a :: l, h => by
      have hdrop : ((a :: l).drop n).length ≤ fuel := by
        simp only [List.length_drop, List.length_cons] at h ⊢
        omega
      rw [chunksAux, List.flatten_cons, flatten_chunksAux hn fuel _ hdrop,
        List.take_append_drop]

/-- Chunking only cuts: the chunks in order are the original string. -/
theorem flatten_chunks {α : Type*} {n : Nat} (hn : 0 < n) (l : List α) :
    (chunks n l).flatten = l :=
  flatten_chunksAux hn l.length l (Nat.le_refl _)

/-- Every chunk is nonempty and at most `n` long. -/
theorem mem_chunksAux {α : Type*} {n : Nat} (hn : 0 < n) {c : List α} :
    ∀ (fuel : Nat) (l : List α), c ∈ chunksAux n fuel l → c ≠ [] ∧ c.length ≤ n
  | 0, l, h => by simp [chunksAux] at h
  | fuel + 1, [], h => by simp [chunksAux] at h
  | fuel + 1, a :: l, h => by
      rcases List.mem_cons.mp h with rfl | h
      · refine ⟨?_, List.length_take_le _ _⟩
        obtain ⟨m, rfl⟩ := Nat.exists_eq_add_one_of_ne_zero (Nat.ne_of_gt hn)
        simp
      · exact mem_chunksAux hn fuel _ h

theorem mem_chunks {α : Type*} {n : Nat} (hn : 0 < n) {l c : List α}
    (h : c ∈ chunks n l) : c ≠ [] ∧ c.length ≤ n :=
  mem_chunksAux hn l.length l h

/-- A string of a full chunk and a bit. -/
theorem chunks_two {α : Type*} {n : Nat} {l m : List α} (hl : l.length = n) (hn : 0 < n)
    (hm : m ≠ []) (hle : m.length ≤ n) : chunks n (l ++ m) = [l, m] := by
  obtain ⟨a, l, rfl⟩ := List.exists_cons_of_length_pos (hl ▸ hn)
  obtain ⟨b, m, rfl⟩ := List.exists_cons_of_ne_nil hm
  have hrest : ∀ fuel, chunksAux n fuel ([] : List α) = [] := fun fuel => by cases fuel <;> rfl
  unfold chunks
  rw [List.length_append, List.length_cons, List.length_cons, ← Nat.add_assoc, List.cons_append,
    chunksAux, ← List.cons_append, List.take_left' hl, List.drop_left' hl,
    Nat.add_right_comm, chunksAux, List.take_of_length_le hle, List.drop_of_length_le hle, hrest]

example : chunks 2 [1, 2, 3, 4, 5] = [[1, 2], [3, 4], [5]] := by decide

end BigEndian
