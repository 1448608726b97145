import Mathlib.Tactic.Ring

/-!
# The digits that are compared

Six digits that both sides of a pairing derive from the handshake.

* `isDigit_of_mem` — they are shown as digits;
* `digits_injective` — what is shown says what was derived.
-/

namespace Core

/-- How many digits there are. -/
def SAS_DIGITS : Nat := 6

/-- The number of different values, one for each row of digits. -/
def SAS_MODULUS : Nat := 1000000

/-- A short authentication string. -/
structure Sas where
  value : Nat
  bounded : value < SAS_MODULUS
  deriving DecidableEq

namespace Sas

/-- The digits of a value, the last one first. -/
def reversed (value : Nat) : Nat → List Char
  | 0 => []
  | width + 1 => Nat.digitChar (value % 10) :: reversed (value / 10) width

/-- The digits, with leading zeros. -/
def digits (sas : Sas) : String := String.ofList (reversed sas.value SAS_DIGITS).reverse

theorem digitChar_isDigit (value : Nat) :
    '0' ≤ Nat.digitChar (value % 10) ∧ Nat.digitChar (value % 10) ≤ '9' := by
  have hall : ∀ d : Fin 10, '0' ≤ Nat.digitChar d.val ∧ Nat.digitChar d.val ≤ '9' := by decide
  exact hall ⟨value % 10, Nat.mod_lt value (by decide)⟩

theorem digitChar_injective {v w : Nat}
    (h : Nat.digitChar (v % 10) = Nat.digitChar (w % 10)) : v % 10 = w % 10 := by
  have hall : ∀ c d : Fin 10, Nat.digitChar c.val = Nat.digitChar d.val → c = d := by decide
  have heq := hall ⟨v % 10, Nat.mod_lt v (by decide)⟩ ⟨w % 10, Nat.mod_lt w (by decide)⟩ h
  exact congrArg Fin.val heq

theorem isDigit_of_reversed (value width : Nat) :
    ∀ c ∈ reversed value width, '0' ≤ c ∧ c ≤ '9' := by
  induction width generalizing value with
  | zero => exact fun c hc => absurd hc List.not_mem_nil
  | succ width ih =>
      intro c hc
      rcases List.mem_cons.mp hc with rfl | hc
      · exact digitChar_isDigit value
      · exact ih (value / 10) c hc

/-- **They are digits**, all of them. -/
theorem isDigit_of_mem (sas : Sas) : ∀ c ∈ sas.digits.toList, '0' ≤ c ∧ c ≤ '9' := by
  intro c hc
  rw [digits, String.toList_ofList, List.mem_reverse] at hc
  exact isDigit_of_reversed sas.value SAS_DIGITS c hc

/-- As many digits as there are say the value. -/
theorem reversed_injective {v w width : Nat} (hv : v < 10 ^ width) (hw : w < 10 ^ width)
    (h : reversed v width = reversed w width) : v = w := by
  induction width generalizing v w with
  | zero => omega
  | succ width ih =>
      obtain ⟨hdigit, hrest⟩ := List.cons.inj h
      have hlast := digitChar_injective hdigit
      have hquot : v / 10 = w / 10 := by
        rw [Nat.pow_succ] at hv hw
        exact ih (by omega) (by omega) hrest
      omega

/-- **What is shown says what was derived.** -/
theorem digits_injective {a b : Sas} (h : a.digits = b.digits) : a = b := by
  have hlist := congrArg String.toList h
  rw [digits, digits, String.toList_ofList, String.toList_ofList] at hlist
  have hvalue := reversed_injective a.bounded b.bounded (List.reverse_inj.mp hlist)
  cases a
  cases b
  cases hvalue
  rfl

end Sas

end Core
