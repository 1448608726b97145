import Mathlib.Data.Bool.AllAny
import GoNomad.Core.TicketReader

/-!
# The manual code

The typed fallback of the QR code: eight symbols of Crockford base 32.  What is
typed is stripped of white space and dashes, set in capitals and read symbol by
symbol, so that many spellings are one code.

* `parse_iff` — which texts are read, and as which code;
* `parse_of_spells` — every spelling of a code is read as that code;
* `manual_code` — the two, and the code as it is displayed.
-/

namespace Core

open Proto

/-! ### Characters -/

/-- White space of Unicode. -/
def isWhitespace (c : Char) : Bool :=
  (0x9 ≤ c.toNat && c.toNat ≤ 0xd) || (0x2000 ≤ c.toNat && c.toNat ≤ 0x200a) ||
    [0x20, 0x85, 0xa0, 0x1680, 0x2028, 0x2029, 0x202f, 0x205f, 0x3000].contains c.toNat

/-- An upper-case mapping of Unicode, which may turn one character into several.
What is fixed in every version: ASCII is mapped within ASCII, and nothing is mapped to
a lower-case letter of ASCII. -/
structure UpperCase where
  toUppercase : Char → List Char
  ascii : ∀ c, c.toNat < 128 → toUppercase c = [c.toUpper]
  no_lower : ∀ c, ∀ d ∈ toUppercase c, d.isLower = false

/-- The mapping of Latin text: two of its small letters have capitals in ASCII, and one
has two of them. -/
def UpperCase.latin : UpperCase where
  toUppercase c := if c = 'ß' then ['S', 'S'] else if c = 'ı' then ['I'] else [c.toUpper]
  ascii c h := by
    have hascii : ∀ n < 128, Char.ofNat n ≠ 'ß' ∧ Char.ofNat n ≠ 'ı' := by decide
    have hne := hascii c.toNat h
    rw [Char.ofNat_toNat] at hne
    rw [if_neg hne.1, if_neg hne.2]
  no_lower c := by
    have hupper : c.toUpper.isLower = false := by
      rcases Nat.lt_or_ge c.toNat 128 with hascii | hhigh
      · have hsmall : ∀ n < 128, (Char.ofNat n).toUpper.isLower = false := by decide +kernel
        rw [← Char.ofNat_toNat c]
        exact hsmall _ hascii
      · have hnot : ¬ c.val ≤ 'z'.val := by
          rw [UInt32.le_iff_toNat_le]
          exact Nat.not_le.mpr (Nat.lt_of_lt_of_le (by decide) hhigh)
        have hself : c.toUpper = c := dif_neg fun h => hnot h.2
        rw [hself]
        exact Bool.eq_false_iff.mpr fun h =>
          hnot (of_decide_eq_true (Bool.and_eq_true_iff.mp h).2)
    split_ifs
    · exact List.all_iff_forall_prop.mp (by decide)
    · exact List.all_iff_forall_prop.mp (by decide)
    · exact List.forall_mem_singleton.mpr hupper

/-! ### Codes -/

/-- Characters of a code, the dash left out. -/
def manualCodeChars : Nat := 8

/-- The symbols a code is displayed in. -/
def codeSymbols : List Char := "0123456789ABCDEFGHJKMNPQRSTVWXYZ".toList

/-- What may be typed for a symbol, in capitals. -/
def typedSymbols : List Char := codeSymbols ++ ['O', 'I', 'L']

/-- The symbol a typed character stands for. -/
def symbolOf (c : Char) : Char :=
  if c = 'O' then '0' else if c = 'I' ∨ c = 'L' then '1' else c

/-- Eight symbols. -/
structure ManualCode where
  code : String
  length_eq : code.toList.length = manualCodeChars
  symbols : ∀ c ∈ code.toList, c ∈ codeSymbols
  deriving DecidableEq

/-- The character of a value. -/
def symbolChar (v : Nat) : Char := Char.ofNat (crockfordAlphabet.symbol v).toNat

/-- Five bytes are written in eight symbols. -/
theorem encode_five {bytes : List UInt8} (h : bytes.length = 5) :
    (crockford.encode bytes).toList.length = manualCodeChars ∧
      ∀ c ∈ (crockford.encode bytes).toList, c ∈ codeSymbols := by
  have hlength := crockfordAlphabet.length_encode bytes
  rw [h] at hlength
  have hsymbol : ∀ v < 32, symbolChar v ∈ codeSymbols := by decide +kernel
  refine ⟨?_, fun c hc => ?_⟩
  · show (crockfordAlphabet.encode bytes).toList.length = 8
    rw [String.length_toList]
    omega
  · have htext : (crockford.encode bytes).toList =
        (Base32.groups (Base32.byteBits bytes)).map symbolChar :=
      String.toList_ofList
    rw [htext] at hc
    obtain ⟨v, hv, rfl⟩ := List.mem_map.mp hc
    exact hsymbol v (Base32.groups_lt _ v hv)

/-- Eight characters are read as five bytes. -/
theorem length_of_decode {text bytes : List UInt8} (hlength : text.length = manualCodeChars)
    (h : crockford.decode text = some bytes) : bytes.length = 5 := by
  obtain ⟨values, hvalues, hbits⟩ : ∃ values, text.mapM crockfordAlphabet.valueOf = some values ∧
      Base32.bytes (values.flatMap (Base32.bits 5)) = some bytes := by
    have hdecode : crockfordAlphabet.decode text = some bytes := h
    unfold Base32.Alphabet.decode at hdecode
    split at hdecode
    · exact ⟨_, ‹_›, hdecode⟩
    · cases hdecode
  have hfits := Base32.length_bytes hbits
  rw [Base32.length_flatMap_bits, crockfordAlphabet.length_of_mapM hvalues, hlength] at hfits
  unfold manualCodeChars at hfits
  omega

namespace ManualCode

/-- The code of five bytes. -/
def ofBytes (bytes : List UInt8) (h : bytes.length = 5) : ManualCode where
  code := String.ofList ((crockford.encode bytes).toList.take manualCodeChars)
  length_eq := by
    rw [String.toList_ofList, List.length_take, (encode_five h).1, Nat.min_self]
  symbols := by
    rw [String.toList_ofList]
    exact fun c hc => (encode_five h).2 c (List.mem_of_mem_take hc)

theorem toList_ofBytes {bytes : List UInt8} (h : bytes.length = 5) :
    (ofBytes bytes h).code.toList = (crockford.encode bytes).toList := by
  show (String.ofList _).toList = _
  rw [String.toList_ofList, List.take_of_length_le (encode_five h).1.le]

/-- Derives the displayable code from a pairing secret. -/
def fromSecret (secret : PairingSecret) : ManualCode :=
  ofBytes ((Blake3.hash secret.bytes).take 5) (by
    rw [List.length_take, Blake3.length_hash]
    rfl)

/-- A typed character that stands for nothing. -/
def isDecoration (c : Char) : Bool := isWhitespace c || c == '-' || c == '_'

/-- What is left of the typed characters, in capitals. -/
def clean (upper : UpperCase) (input : List Char) : List Char :=
  (input.filter fun c => !isDecoration c).flatMap upper.toUppercase

/-- Parses user input, tolerating case, dashes and spaces. -/
def parse (upper : UpperCase) (input : String) : Except PairingError ManualCode :=
  let cleaned := String.ofList (clean upper input.toList)
  if hlength : (utf8 cleaned).length = manualCodeChars then
    match hbytes : crockford.decode (utf8 cleaned) with
    | none => .error .notBase32
    | some bytes => .ok (ofBytes bytes (length_of_decode hlength hbytes))
  else .error .badCodeLength

/-- The code grouped for display. -/
def grouped (code : ManualCode) : String :=
  String.ofList (code.code.toList.take 4 ++ '-' :: code.code.toList.drop 4)

theorem ext_toList {code code' : ManualCode} (h : code.code.toList = code'.code.toList) :
    code = code' := by
  cases code
  cases code'
  obtain rfl := String.toList_injective h
  rfl

/-! ### Reading -/

/-- What an ASCII character that is no small letter is read as. -/
theorem valueOf_ascii : ∀ n < 128, (Char.ofNat n).isLower = false →
    (crockfordAlphabet.valueOf (UInt8.ofNat n)).map symbolChar =
      if Char.ofNat n ∈ typedSymbols then some (symbolOf (Char.ofNat n)) else none := by
  decide +kernel

/-- No other byte is read. -/
theorem valueOf_high : ∀ n < 256, 128 ≤ n → crockfordAlphabet.valueOf (UInt8.ofNat n) = none := by
  decide +kernel

theorem typed_ascii : ∀ c ∈ typedSymbols, c.toNat < 128 :=
  List.all_iff_forall_prop.mp (by decide)

/-- What a character that is no small letter is read as, if it is read. -/
theorem mapM_valueOf_char {c : Char} (h : c.isLower = false) :
    ((String.utf8EncodeChar c).mapM crockfordAlphabet.valueOf).map (·.map symbolChar) =
      if c ∈ typedSymbols then some [symbolOf c] else none := by
  rcases Nat.lt_or_ge c.toNat 128 with hascii | hhigh
  · have hchar : Char.ofNat c.toNat = c := Char.ofNat_toNat c
    have hvalue := valueOf_ascii c.toNat hascii (by rw [hchar]; exact h)
    rw [hchar] at hvalue
    rw [utf8EncodeChar_ascii hascii, List.mapM_cons]
    cases hread : crockfordAlphabet.valueOf (UInt8.ofNat c.toNat) with
    | none =>
        rw [hread] at hvalue
        split_ifs at hvalue ⊢
        · cases hvalue
        · rfl
    | some v =>
        rw [hread] at hvalue
        split_ifs at hvalue ⊢
        · exact congrArg (Option.map fun d => [d]) hvalue
        · cases hvalue
  · obtain ⟨b, rest, hencode⟩ := List.exists_cons_of_ne_nil (String.utf8EncodeChar_ne_nil (c := c))
    have hb := utf8EncodeChar_high hhigh b (by rw [hencode]; exact .head _)
    have hnone : crockfordAlphabet.valueOf b = none := by
      have := valueOf_high b.toNat b.toNat_lt hb
      rwa [UInt8.ofNat_toNat] at this
    rw [hencode, List.mapM_cons, hnone, if_neg fun hmem => by
      have := typed_ascii c hmem
      omega]
    rfl

/-- What is read from two texts, one behind the other. -/
theorem mapM_valueOf_append (front back : List UInt8) :
    ((front ++ back).mapM crockfordAlphabet.valueOf).map (·.map symbolChar) =
      ((front.mapM crockfordAlphabet.valueOf).map (·.map symbolChar)).bind fun symbols =>
        ((back.mapM crockfordAlphabet.valueOf).map (·.map symbolChar)).map (symbols ++ ·) := by
  rw [List.mapM_append]
  cases front.mapM crockfordAlphabet.valueOf with
  | none => rfl
  | some values =>
      cases back.mapM crockfordAlphabet.valueOf with
      | none => rfl
      | some values' => exact congrArg some List.map_append

/-- **A text without small letters** is read if it consists of what may be typed, and
as the symbols that stands for. -/
theorem mapM_valueOf {cs : List Char} (h : ∀ c ∈ cs, c.isLower = false) :
    ((utf8 (String.ofList cs)).mapM crockfordAlphabet.valueOf).map (·.map symbolChar) =
      if (cs.all fun c => decide (c ∈ typedSymbols)) = true then some (cs.map symbolOf)
      else none := by
  rw [utf8_ofList]
  induction cs with
  | nil => rfl
  | cons c cs ih =>
      have hrest := ih fun d hd => h d (.tail _ hd)
      rw [List.flatMap_cons, mapM_valueOf_append, mapM_valueOf_char (h c (.head _)), hrest,
        List.all_cons]
      by_cases hc : c ∈ typedSymbols
      · rw [if_pos hc, decide_eq_true hc, Bool.true_and, Option.bind_some]
        split_ifs
        · rfl
        · rfl
      · rw [if_neg hc, decide_eq_false hc]
        rfl

/-- Nothing that is left has small letters of ASCII. -/
theorem isLower_clean (upper : UpperCase) {input : List Char} :
    ∀ c ∈ clean upper input, c.isLower = false := by
  intro c hc
  obtain ⟨d, -, hd⟩ := List.mem_flatMap.mp hc
  exact upper.no_lower d c hd

theorem decode_of_unread {text : List UInt8}
    (h : text.mapM crockfordAlphabet.valueOf = none) : crockford.decode text = none := by
  show crockfordAlphabet.decode text = _
  unfold Base32.Alphabet.decode
  rw [h]

/-- Eight characters are enough bits for five bytes. -/
theorem decode_of_mapM {text : List UInt8} {values : List Nat}
    (h : text.mapM crockfordAlphabet.valueOf = some values)
    (hlength : text.length = manualCodeChars) : ∃ bytes, crockford.decode text = some bytes := by
  have hbits : (values.flatMap (Base32.bits 5)).length = 40 := by
    rw [Base32.length_flatMap_bits, crockfordAlphabet.length_of_mapM h, hlength]
    rfl
  obtain ⟨bytes, hbytes⟩ := @Base32.bytes_of_whole 5 _ hbits
  refine ⟨bytes, ?_⟩
  show crockfordAlphabet.decode text = _
  unfold Base32.Alphabet.decode
  rw [h]
  exact hbytes

/-- A text is read as the code of five bytes. -/
theorem parse_eq_ok {upper : UpperCase} {input : String} {code : ManualCode} :
    parse upper input = .ok code ↔
      (utf8 (String.ofList (clean upper input.toList))).length = manualCodeChars ∧
        ∃ bytes h, crockford.decode (utf8 (String.ofList (clean upper input.toList))) = some bytes ∧
          ofBytes bytes h = code := by
  unfold parse
  dsimp only
  split_ifs with hlength
  · split
    · rename_i hnone
      rw [hnone]
      exact iff_of_false (fun h => (nomatch h)) fun ⟨_, _, _, h, _⟩ => (nomatch h)
    · rename_i bytes hbytes
      constructor
      · exact fun h => ⟨hlength, bytes, _, hbytes, Except.ok.inj h⟩
      · rintro ⟨-, _, _, hsome, h⟩
        obtain rfl := Option.some.inj (hbytes.symm.trans hsome)
        exact congrArg Except.ok h
  · exact iff_of_false (fun h => (nomatch h)) fun h => hlength h.1

/-- What was read is written in the symbols of what was typed. -/
theorem toList_of_decode {text bytes : List UInt8} {values : List Nat}
    (hvalues : text.mapM crockfordAlphabet.valueOf = some values)
    (hbytes : crockford.decode text = some bytes) (h : bytes.length = 5) :
    (ofBytes bytes h).code.toList = values.map symbolChar := by
  rw [toList_ofBytes]
  show (crockfordAlphabet.encode bytes).toList = _
  rw [crockfordAlphabet.encode_of_decode hvalues hbytes, String.toList_ofList]
  rfl

/-- **Which texts are read**, and as which code: what is left is eight characters that
may be typed, and the code is the symbols they stand for. -/
theorem parse_iff {upper : UpperCase} {input : String} {code : ManualCode} :
    parse upper input = .ok code ↔
      (clean upper input.toList).length = manualCodeChars ∧
        (∀ c ∈ clean upper input.toList, c ∈ typedSymbols) ∧
        code.code.toList = (clean upper input.toList).map symbolOf := by
  have hread := mapM_valueOf (@isLower_clean upper input.toList)
  simp only [List.all_eq_true, decide_eq_true_iff] at hread
  rw [parse_eq_ok]
  generalize clean upper input.toList = cs at hread
  cases hvalues : (utf8 (String.ofList cs)).mapM crockfordAlphabet.valueOf with
  | none =>
      rw [hvalues] at hread
      split_ifs at hread with htyped
      · cases hread
      · rw [decode_of_unread hvalues]
        exact iff_of_false (fun ⟨_, _, _, h, _⟩ => (nomatch h)) fun h => htyped h.2.1
  | some values =>
      rw [hvalues] at hread
      split_ifs at hread with htyped
      swap
      · cases hread
      have hsymbols : values.map symbolChar = cs.map symbolOf := Option.some.inj hread
      have hcount : (utf8 (String.ofList cs)).length = cs.length := by
        have hlengths := congrArg List.length hsymbols
        rwa [List.length_map, List.length_map, crockfordAlphabet.length_of_mapM hvalues] at hlengths
      rw [hcount]
      constructor
      · rintro ⟨hlength, bytes, hfive, hbytes, rfl⟩
        exact ⟨hlength, htyped, (toList_of_decode hvalues hbytes hfive).trans hsymbols⟩
      · rintro ⟨hlength, -, hcode⟩
        obtain ⟨bytes, hbytes⟩ := decode_of_mapM hvalues (hcount.trans hlength)
        refine ⟨hlength, bytes, length_of_decode (hcount.trans hlength) hbytes, hbytes, ?_⟩
        exact ext_toList ((toList_of_decode hvalues hbytes _).trans (hsymbols.trans hcode.symm))

/-! ### Spellings -/

/-- A character that is typed for a symbol: the symbol in either case, O for zero, I or L
for one. -/
def TypedFor (c s : Char) : Prop :=
  c.toUpper = s ∨ c.toUpper = 'O' ∧ s = '0' ∨ (c.toUpper = 'I' ∨ c.toUpper = 'L') ∧ s = '1'

/-- The decorated spellings of some symbols. -/
inductive Spells : List Char → List Char → Prop
  | nil : Spells [] []
  | decoration {c : Char} {input code : List Char} (h : isDecoration c = true)
      (rest : Spells input code) : Spells (c :: input) code
  | symbol {c s : Char} {input code : List Char} (h : TypedFor c s)
      (rest : Spells input code) : Spells (c :: input) (s :: code)

/-- What is typed for a symbol is kept, set in capitals and read as the symbol. -/
theorem typed_of_typedFor {c s : Char} (h : TypedFor c s) (hs : s ∈ codeSymbols) :
    isDecoration c = false ∧ c.toNat < 128 ∧ c.toUpper ∈ typedSymbols ∧
      symbolOf c.toUpper = s := by
  have hself : ∀ s ∈ codeSymbols, s ∈ typedSymbols ∧ symbolOf s = s :=
    List.all_iff_forall_prop.mp (by decide)
  have hupper : c.toUpper ∈ typedSymbols ∧ symbolOf c.toUpper = s := by
    rcases h with rfl | ⟨hO, rfl⟩ | ⟨hI | hL, rfl⟩
    · exact hself _ hs
    · rw [hO]; decide
    · rw [hI]; decide
    · rw [hL]; decide
  have hascii : c.toNat < 128 := by
    have hsmall := typed_ascii _ hupper.1
    unfold Char.toUpper at hsmall
    split_ifs at hsmall with hlower
    · exact Nat.lt_of_le_of_lt (UInt32.le_iff_toNat_le.mp hlower.2) (by decide)
    · exact hsmall
  refine ⟨?_, hascii, hupper⟩
  have hkept : ∀ n < 128, (Char.ofNat n).toUpper ∈ typedSymbols →
      isDecoration (Char.ofNat n) = false := by
    decide +kernel
  have := hkept c.toNat hascii
  rw [Char.ofNat_toNat] at this
  exact this hupper.1

theorem clean_cons_decoration (upper : UpperCase) {c : Char} {input : List Char}
    (h : isDecoration c = true) : clean upper (c :: input) = clean upper input := by
  unfold clean
  rw [List.filter_cons_of_neg (by rw [h]; simp)]

theorem clean_cons_ascii (upper : UpperCase) {c : Char} {input : List Char}
    (h : isDecoration c = false) (hascii : c.toNat < 128) :
    clean upper (c :: input) = c.toUpper :: clean upper input := by
  unfold clean
  rw [List.filter_cons_of_pos (by rw [h]; rfl), List.flatMap_cons, upper.ascii c hascii]
  rfl

/-- A spelling of some symbols is cleaned to what may be typed for them. -/
theorem clean_of_spells (upper : UpperCase) {input code : List Char} (h : Spells input code)
    (hcode : ∀ s ∈ code, s ∈ codeSymbols) :
    (∀ c ∈ clean upper input, c ∈ typedSymbols) ∧
      code = (clean upper input).map symbolOf := by
  induction h with
  | nil => exact ⟨by simp [clean], rfl⟩
  | decoration hdecoration rest ih =>
      rw [clean_cons_decoration upper hdecoration]
      exact ih hcode
  | symbol hsymbol rest ih =>
      obtain ⟨htyped, hrest⟩ := ih fun s hs => hcode s (.tail _ hs)
      obtain ⟨hkept, hascii, hmem, hread⟩ := typed_of_typedFor hsymbol (hcode _ (.head _))
      rw [clean_cons_ascii upper hkept hascii, List.map_cons, hread, ← hrest]
      exact ⟨List.forall_mem_cons.mpr ⟨hmem, htyped⟩, rfl⟩

/-- **Every spelling of a code** is read as that code. -/
theorem parse_of_spells (upper : UpperCase) {input : String} {code : ManualCode}
    (h : Spells input.toList code.code.toList) : parse upper input = .ok code := by
  obtain ⟨htyped, hcode⟩ := clean_of_spells upper h code.symbols
  refine parse_iff.mpr ⟨?_, htyped, hcode⟩
  have hlength := congrArg List.length hcode
  rw [List.length_map, code.length_eq] at hlength
  exact hlength.symm

/-- Symbols spell themselves. -/
theorem spells_self {code : List Char} (h : ∀ s ∈ code, s ∈ codeSymbols) : Spells code code := by
  have hupper : ∀ s ∈ codeSymbols, s.toUpper = s :=
    List.all_iff_forall_prop.mp (by decide)
  induction code with
  | nil => exact .nil
  | cons s code ih =>
      exact .symbol (.inl (hupper s (h s (.head _)))) (ih fun t ht => h t (.tail _ ht))

/-- Spellings of symbols are put together. -/
theorem Spells.append {input input' code code' : List Char} (h : Spells input code)
    (h' : Spells input' code') : Spells (input ++ input') (code ++ code') := by
  induction h with
  | nil => exact h'
  | decoration hdecoration _ ih => exact .decoration hdecoration ih
  | symbol hsymbol _ ih => exact .symbol hsymbol ih

/-- A code as it is displayed is a spelling of it. -/
theorem spells_grouped (code : ManualCode) : Spells code.grouped.toList code.code.toList := by
  have hfront : ∀ s ∈ code.code.toList.take 4, s ∈ codeSymbols :=
    fun s hs => code.symbols s (List.mem_of_mem_take hs)
  have hback : ∀ s ∈ code.code.toList.drop 4, s ∈ codeSymbols :=
    fun s hs => code.symbols s (List.mem_of_mem_drop hs)
  have hdash : isDecoration '-' = true := by decide
  have hspells := (spells_self hfront).append (.decoration hdash (spells_self hback))
  rw [List.take_append_drop] at hspells
  rw [grouped, String.toList_ofList]
  exact hspells

/-- **The manual code.**  Every decorated spelling of a code derived from a secret is
read as that code.  A text is read if and only if what is left of it in capitals is
eight characters that may be typed.  And a code as it is displayed is read as itself. -/
theorem manual_code (upper : UpperCase) :
    (∀ secret input, Spells input.toList (fromSecret secret).code.toList →
      parse upper input = .ok (fromSecret secret)) ∧
    (∀ input, (∃ code, parse upper input = .ok code) ↔
      (clean upper input.toList).length = manualCodeChars ∧
        ∀ c ∈ clean upper input.toList, c ∈ typedSymbols) ∧
    ∀ code, parse upper (grouped code) = .ok code := by
  refine ⟨fun _ _ h => parse_of_spells upper h, fun input => ⟨?_, ?_⟩,
    fun code => parse_of_spells upper (spells_grouped code)⟩
  · rintro ⟨code, h⟩
    obtain ⟨hlength, htyped, -⟩ := parse_iff.mp h
    exact ⟨hlength, htyped⟩
  · rintro ⟨hlength, htyped⟩
    have hsymbol : ∀ c ∈ typedSymbols, symbolOf c ∈ codeSymbols :=
      List.all_iff_forall_prop.mp (by decide)
    refine ⟨⟨String.ofList ((clean upper input.toList).map symbolOf), ?_, ?_⟩,
      parse_iff.mpr ⟨hlength, htyped, String.toList_ofList⟩⟩
    · rw [String.toList_ofList, List.length_map, hlength]
    · rw [String.toList_ofList]
      intro s hs
      obtain ⟨c, hc, rfl⟩ := List.mem_map.mp hs
      exact hsymbol c (htyped c hc)

example : (parse .latin " oIß-m2\u00a0qı ").toOption.map code = some "01SSM2Q1" := by
  decide +kernel

end ManualCode

end Core
