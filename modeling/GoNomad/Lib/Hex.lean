import Mathlib.Data.List.Basic
import Mathlib.Tactic.SplitIfs

/-!
# Hexadecimal text

Two digits for each byte, most significant first; lower case is written, either
case is read.  `decode_encode` is the round trip.
-/

namespace Hex

/-- The digit of a nibble. -/
def digit (n : Nat) : Char :=
  if n < 10 then Char.ofNat ('0'.toNat + n) else Char.ofNat ('a'.toNat + (n - 10))

/-- The nibble of a digit. -/
def value (c : Char) : Option Nat :=
  if '0' ≤ c ∧ c ≤ '9' then some (c.toNat - '0'.toNat)
  else if 'a' ≤ c ∧ c ≤ 'f' then some (c.toNat - 'a'.toNat + 10)
  else if 'A' ≤ c ∧ c ≤ 'F' then some (c.toNat - 'A'.toNat + 10)
  else none

def encode : List UInt8 → List Char
  | [] => []
  | b :: bytes => digit (b.toNat / 16) :: digit (b.toNat % 16) :: encode bytes

/-- Reads pairs of digits; `none` for an odd number of characters or one that
is no digit. -/
def decode : List Char → Option (List UInt8)
  | [] => some []
  | [_] => none
  | a :: b :: text => do
      let hi ← value a
      let lo ← value b
      let bytes ← decode text
      return UInt8.ofNat (16 * hi + lo) :: bytes

theorem value_digit {n : Nat} (h : n < 16) : value (digit n) = some n := by
  have hall : ∀ m : Fin 16, value (digit m.val) = some m.val := by decide
  exact hall ⟨n, h⟩

/-- **Reading back what was written.** -/
theorem decode_encode (bytes : List UInt8) : decode (encode bytes) = some bytes := by
  induction bytes with
  | nil => rfl
  | cons b bytes ih =>
      have hb := b.toNat_lt
      have hhi : value (digit (b.toNat / 16)) = some (b.toNat / 16) := value_digit (by omega)
      have hlo : value (digit (b.toNat % 16)) = some (b.toNat % 16) := value_digit (by omega)
      have hbyte : UInt8.ofNat (16 * (b.toNat / 16) + b.toNat % 16) = b := by
        rw [Nat.div_add_mod, UInt8.ofNat_toNat]
      simp only [encode, decode, hhi, hlo, ih, Option.bind_eq_bind, Option.bind_some, hbyte]
      rfl

theorem length_encode (bytes : List UInt8) : (encode bytes).length = 2 * bytes.length := by
  induction bytes with
  | nil => rfl
  | cons b bytes ih =>
      rw [encode, List.length_cons, List.length_cons, List.length_cons, ih]
      omega

end Hex
