import Mathlib.Tactic.Ring

/-!
# Text as bytes

The UTF-8 bytes of a string and the string some bytes spell, if they do; where
the bytes of a text may be cut; texts as they live in memory, where no allocation
exceeds half the address space; and the text of bytes that may be none, which is
cut at the same characters of ASCII.
-/

/-- The characters of the Unicode property `White_Space`. -/
def isWhiteSpace (c : Char) : Bool :=
  let n := c.toNat
  (0x9 ≤ n && n ≤ 0xd) || n == 0x20 || n == 0x85 || n == 0xa0 || n == 0x1680 ||
    (0x2000 ≤ n && n ≤ 0x200a) || n == 0x2028 || n == 0x2029 || n == 0x202f || n == 0x205f ||
    n == 0x3000

/-- The bytes of a string. -/
def utf8 (s : String) : List UInt8 := s.toByteArray.data.toList

/-- The string some bytes spell. -/
def ofUtf8 (bytes : List UInt8) : Option String := String.fromUTF8? bytes.toByteArray

theorem toByteArray_utf8 (s : String) : (utf8 s).toByteArray = s.toByteArray := by
  apply ByteArray.ext
  rw [utf8, List.data_toByteArray, Array.toArray_toList]

theorem ofUtf8_utf8 (s : String) : ofUtf8 (utf8 s) = some s := by
  unfold ofUtf8 String.fromUTF8?
  rw [toByteArray_utf8, dif_pos s.isValidUTF8]
  rfl

theorem utf8_of_ofUtf8 {bytes : List UInt8} {s : String} (h : ofUtf8 bytes = some s) :
    utf8 s = bytes := by
  unfold ofUtf8 String.fromUTF8? at h
  split_ifs at h
  cases h
  exact List.toList_data_toByteArray

theorem utf8_injective {s t : String} (h : utf8 s = utf8 t) : s = t := by
  have hsome := ofUtf8_utf8 s
  rw [h, ofUtf8_utf8] at hsome
  exact (Option.some.inj hsome).symm

theorem utf8_append (s t : String) : utf8 (s ++ t) = utf8 s ++ utf8 t := by
  simp [utf8, String.toByteArray_append]

theorem utf8_ofList (cs : List Char) :
    utf8 (String.ofList cs) = cs.flatMap String.utf8EncodeChar := by
  rw [utf8, String.toByteArray_ofList, List.utf8Encode]
  exact List.toList_data_toByteArray

/-- A character takes at most four bytes. -/
theorem length_utf8_ofList (cs : List Char) :
    (utf8 (String.ofList cs)).length ≤ 4 * cs.length := by
  rw [utf8_ofList]
  induction cs with
  | nil => simp
  | cons c cs ih =>
      have hsize := c.utf8Size_le_four
      rw [List.flatMap_cons, List.length_append, String.length_utf8EncodeChar, List.length_cons]
      omega

/-! ### Cutting a text -/

theorem length_utf8 (s : String) : (utf8 s).length = s.utf8ByteSize := by
  rw [utf8, Array.length_toList, ← String.size_toByteArray]
  rfl

/-- A text may be cut after so many bytes: at its end, or where a byte behind the
cut starts a character. -/
theorem exists_append_iff {s : String} {n : Nat} :
    (∃ t u, s = t ++ u ∧ (utf8 t).length = n) ↔
      n ≤ (utf8 s).length ∧ ∀ b, (utf8 s)[n]? = some b → b.IsUTF8FirstByte := by
  have hvalid := @String.Pos.Raw.isValid_iff_exists_append s ⟨n⟩
  rw [String.Pos.Raw.isValid_iff_isUTF8FirstByte] at hvalid
  have hcut : (∃ t u, s = t ++ u ∧ (utf8 t).length = n) ↔
      ∃ t u, s = t ++ u ∧ (⟨n⟩ : String.Pos.Raw) = t.rawEndPos := by
    simp only [length_utf8, String.rawEndPos, String.Pos.Raw.mk.injEq, eq_comm]
  rw [hcut, ← hvalid, length_utf8]
  simp only [String.rawEndPos, String.Pos.Raw.mk.injEq, String.Pos.Raw.lt_iff, String.getUTF8Byte]
  constructor
  · rintro (rfl | ⟨hlt, hbyte⟩)
    · refine ⟨Nat.le_refl _, fun b hb => ?_⟩
      rw [← length_utf8, List.getElem?_eq_none (Nat.le_refl _)] at hb
      cases hb
    · refine ⟨hlt.le, fun b hb => ?_⟩
      obtain ⟨_, hb⟩ := List.getElem?_eq_some_iff.mp hb
      rw [← hb]
      exact hbyte
  · rintro ⟨hle, hbyte⟩
    rcases Nat.eq_or_lt_of_le hle with heq | hlt
    · exact .inl heq
    · refine .inr ⟨hlt, hbyte _ ?_⟩
      rw [← length_utf8] at hlt
      rw [List.getElem?_eq_getElem hlt]
      rfl

/-- The front of a text is text exactly where the text may be cut. -/
theorem ofUtf8_take_iff {s t : String} {n : Nat} (hn : n ≤ (utf8 s).length) :
    ofUtf8 ((utf8 s).take n) = some t ↔ ∃ u, s = t ++ u ∧ (utf8 t).length = n := by
  constructor
  · intro h
    have htake := utf8_of_ofUtf8 h
    have hlength : (utf8 t).length = n := by
      rw [htake, List.length_take, Nat.min_eq_left hn]
    have hcut : (⟨n⟩ : String.Pos.Raw).IsValid s := by
      rw [String.Pos.Raw.isValid_iff_isValidUTF8_extract_zero]
      refine ⟨?_, ?_⟩
      · rw [String.Pos.Raw.le_iff, String.byteIdx_rawEndPos, ← length_utf8]
        exact hn
      · have hbytes : s.toByteArray.extract 0 n = t.toByteArray := by
          rw [← toByteArray_utf8 t, htake]
          apply ByteArray.ext
          apply Array.toList_inj.mp
          simp [utf8]
        rw [hbytes]
        exact t.isValidUTF8
    obtain ⟨t', u, rfl, hend⟩ := String.Pos.Raw.isValid_iff_exists_append.mp hcut
    have hn' : n = (utf8 t').length := by
      rw [length_utf8]
      exact congrArg String.Pos.Raw.byteIdx hend
    rw [utf8_append, hn', List.take_left] at htake
    rw [utf8_injective htake]
    exact ⟨u, rfl, hn'.symm⟩
  · rintro ⟨u, rfl, rfl⟩
    rw [utf8_append, List.take_left, ofUtf8_utf8]

/-! ### Texts in memory -/

/-- A string small enough to be in memory. -/
structure Str where
  text : String
  bounded : (utf8 text).length < 2 ^ 63
  deriving DecidableEq

namespace Str

/-- The bytes of a text. -/
def bytes (s : Str) : List UInt8 := utf8 s.text

/-- The text some bytes spell; bytes that are not UTF-8 spell none. -/
def ofBytes (bytes : List UInt8) : Option Str :=
  match ofUtf8 bytes with
  | none => none
  | some text => if h : (utf8 text).length < 2 ^ 63 then some ⟨text, h⟩ else none

theorem ofBytes_bytes (s : Str) : ofBytes s.bytes = some s := by
  unfold ofBytes bytes
  rw [ofUtf8_utf8]
  dsimp only
  rw [dif_pos s.bounded]

theorem bytes_injective {s t : Str} (h : s.bytes = t.bytes) : s = t := by
  have hsome := ofBytes_bytes s
  rw [h, ofBytes_bytes] at hsome
  exact (Option.some.inj hsome).symm

end Str

example : utf8 "aé" = [0x61, 0xc3, 0xa9] := by decide

/-! ### Characters of ASCII -/

theorem utf8EncodeChar_ascii {c : Char} (h : c.toNat < 128) :
    String.utf8EncodeChar c = [UInt8.ofNat c.toNat] := by
  unfold String.utf8EncodeChar
  exact if_pos (Nat.le_of_lt_succ h)

/-- A character beyond ASCII is written without bytes of ASCII. -/
theorem utf8EncodeChar_high {c : Char} (h : 128 ≤ c.toNat) :
    ∀ b ∈ String.utf8EncodeChar c, 128 ≤ b.toNat := by
  have hval : c.val.toNat = c.toNat := rfl
  have hbyte : ∀ n < 128, 128 ≤ (UInt8.ofNat (n + 0x80)).toNat := by decide
  have hcontinuation : ∀ n, 128 ≤ (UInt8.ofNat (n % 0x40 + 0x80)).toNat :=
    fun n => hbyte _ (by omega)
  have htwo : ∀ n, 128 ≤ (UInt8.ofNat (n % 0x20 + 0xc0)).toNat :=
    fun n => hbyte (n % 0x20 + 0x40) (by omega)
  have hthree : ∀ n, 128 ≤ (UInt8.ofNat (n % 0x10 + 0xe0)).toNat :=
    fun n => hbyte (n % 0x10 + 0x60) (by omega)
  have hfour : ∀ n, 128 ≤ (UInt8.ofNat (n % 0x08 + 0xf0)).toNat :=
    fun n => hbyte (n % 0x08 + 0x70) (by omega)
  unfold String.utf8EncodeChar
  dsimp only
  rw [hval, if_neg (by omega)]
  split_ifs
  · simp only [List.forall_mem_cons]
    exact ⟨htwo _, hcontinuation _, by simp⟩
  · simp only [List.forall_mem_cons]
    exact ⟨hthree _, hcontinuation _, hcontinuation _, by simp⟩
  · simp only [List.forall_mem_cons]
    exact ⟨hfour _, hcontinuation _, hcontinuation _, hcontinuation _, by simp⟩

/-- A character of ASCII is in a text where its byte is. -/
theorem mem_utf8_iff {cs : List Char} {c : Char} (h : c.toNat < 128) :
    UInt8.ofNat c.toNat ∈ utf8 (String.ofList cs) ↔ c ∈ cs := by
  rw [utf8_ofList, List.mem_flatMap]
  constructor
  · rintro ⟨d, hd, hmem⟩
    have hsmall : (UInt8.ofNat c.toNat).toNat = c.toNat := by
      rw [UInt8.toNat_ofNat']
      omega
    rcases Nat.lt_or_ge d.toNat 128 with hascii | hhigh
    · rw [utf8EncodeChar_ascii hascii, List.mem_singleton] at hmem
      have heq := congrArg UInt8.toNat hmem
      rw [hsmall, UInt8.toNat_ofNat', Nat.mod_eq_of_lt (by omega)] at heq
      rwa [Char.toNat_inj.mp heq]
    · have hle := utf8EncodeChar_high hhigh _ hmem
      omega
  · intro hmem
    exact ⟨c, hmem, by rw [utf8EncodeChar_ascii h]; exact .head _⟩

/-! ### Bytes that may not be text -/

/-- How many bytes a character takes whose first byte is this one; none where
no character starts so. -/
def utf8Width (first : UInt8) : Nat :=
  if first < 0x80 then 1
  else if 0xc2 ≤ first ∧ first ≤ 0xdf then 2
  else if 0xe0 ≤ first ∧ first ≤ 0xef then 3
  else if 0xf0 ≤ first ∧ first ≤ 0xf4 then 4
  else 0

/-- The bytes that may follow the first one: overlong forms, surrogates and what
lies past the last character are cut off here. -/
def utf8Second (first second : UInt8) : Bool :=
  if first = 0xe0 then 0xa0 ≤ second && second ≤ 0xbf
  else if first = 0xed then 0x80 ≤ second && second ≤ 0x9f
  else if first = 0xf0 then 0x90 ≤ second && second ≤ 0xbf
  else if first = 0xf4 then 0x80 ≤ second && second ≤ 0x8f
  else 0x80 ≤ second && second ≤ 0xbf

def isContinuation (b : UInt8) : Bool := 0x80 ≤ b && b ≤ 0xbf

/-- How many of the bytes after the first belong to its character, up to what
its width asks for. -/
def utf8Tail (first : UInt8) (rest : List UInt8) : Nat :=
  match rest with
  | [] => 0
  | second :: rest =>
      if utf8Width first < 2 ∨ utf8Second first second = false then 0
      else 1 + ((rest.take (utf8Width first - 2)).takeWhile isContinuation).length

/-- The text of some bytes, where each longest broken start of a character is
replaced by one replacement character. -/
def lossyChars : Nat → List UInt8 → List Char
  | 0, _ => []
  | _ + 1, [] => []
  | fuel + 1, first :: rest =>
      let tail := utf8Tail first rest
      let whole := 0 < utf8Width first && tail + 1 = utf8Width first
      (if whole then ((ofUtf8 (first :: rest.take tail)).getD "").toList else ['\ufffd']) ++
        lossyChars fuel (rest.drop tail)

/-- The text of some bytes, broken characters replaced. -/
def lossyUtf8 (bytes : List UInt8) : String := String.ofList (lossyChars bytes.length bytes)

example : lossyUtf8 [0x61, 0xc3, 0xa9, 0xe2, 0x82, 0x62, 0xff] = "aé\ufffdb\ufffd" := by decide

/-! ### Broken text between characters of ASCII -/

theorem isContinuation_ascii {c : UInt8} (h : c.toNat < 128) : isContinuation c = false := by
  unfold isContinuation
  rw [Bool.and_eq_false_iff]
  refine .inl (decide_eq_false fun hle => ?_)
  have hle := UInt8.le_iff_toNat_le.mp hle
  have : (0x80 : UInt8).toNat = 128 := rfl
  omega

/-- What belongs to a character ends before one of ASCII. -/
theorem utf8Tail_append {first c : UInt8} (h : c.toNat < 128) (a b : List UInt8) :
    utf8Tail first (a ++ c :: b) = utf8Tail first a := by
  have hsecond : utf8Second first c = false := by
    have hlow : ∀ b : UInt8, 128 ≤ b.toNat → decide (b ≤ c) = false := by
      intro b hb
      rw [decide_eq_false_iff_not, UInt8.le_iff_toNat_le]
      omega
    unfold utf8Second
    split_ifs <;> rw [hlow _ (by decide), Bool.false_and]
  have htake : ∀ (a : List UInt8) w, ((a ++ c :: b).take w).takeWhile isContinuation =
      (a.take w).takeWhile isContinuation := by
    intro a
    induction a with
    | nil =>
        intro w
        cases w with
        | zero => rfl
        | succ w =>
            rw [List.nil_append, List.take_succ_cons, List.takeWhile_cons_of_neg]
            · rfl
            · rw [isContinuation_ascii h]
              exact Bool.false_ne_true
    | cons x a ih =>
        intro w
        cases w with
        | zero => rfl
        | succ w =>
            rw [List.cons_append, List.take_succ_cons, List.take_succ_cons, List.takeWhile_cons,
              List.takeWhile_cons, ih]
  cases a with
  | nil =>
      unfold utf8Tail
      dsimp only [List.nil_append]
      rw [if_pos (.inr hsecond)]
  | cons x a =>
      unfold utf8Tail
      dsimp only [List.cons_append]
      rw [htake]

theorem utf8Tail_le (first : UInt8) (rest : List UInt8) : utf8Tail first rest ≤ rest.length := by
  cases rest with
  | nil => exact Nat.le_refl _
  | cons second rest =>
      unfold utf8Tail
      dsimp only
      split_ifs
      · exact Nat.zero_le _
      · have hle := (List.takeWhile_prefix isContinuation
          (l := rest.take (utf8Width first - 2))).length_le
        rw [List.length_take] at hle
        rw [List.length_cons]
        omega

/-- Fuel for every byte is enough. -/
theorem lossyChars_fuel {fuel : Nat} {bytes : List UInt8} (h : bytes.length ≤ fuel) :
    lossyChars fuel bytes = lossyChars bytes.length bytes := by
  induction fuel using Nat.strongRecOn generalizing bytes with
  | ind fuel ih =>
      cases bytes with
      | nil => cases fuel <;> rfl
      | cons first rest =>
          cases fuel with
          | zero => simp at h
          | succ fuel =>
              have hdrop : (rest.drop (utf8Tail first rest)).length ≤ rest.length := by
                rw [List.length_drop]
                omega
              rw [List.length_cons] at h
              rw [List.length_cons, lossyChars, lossyChars, ih fuel (by omega) (by omega),
                ih rest.length (by omega) hdrop]

/-- The characters of some bytes, broken ones replaced. -/
theorem lossyChars_cons (first : UInt8) (rest : List UInt8) :
    lossyChars (first :: rest).length (first :: rest) =
      (if 0 < utf8Width first ∧ utf8Tail first rest + 1 = utf8Width first then
        ((ofUtf8 (first :: rest.take (utf8Tail first rest))).getD "").toList else ['\ufffd']) ++
      lossyChars (rest.drop (utf8Tail first rest)).length (rest.drop (utf8Tail first rest)) := by
  rw [List.length_cons, lossyChars, @lossyChars_fuel rest.length]
  · simp
  · rw [List.length_drop]
    omega

/-- **Text is cut at a character of ASCII**, broken or not. -/
theorem lossyUtf8_append {c : UInt8} (h : c.toNat < 128) (a b : List UInt8) :
    (lossyUtf8 (a ++ c :: b)).toList =
      (lossyUtf8 a).toList ++ Char.ofNat c.toNat :: (lossyUtf8 b).toList := by
  simp only [lossyUtf8, String.toList_ofList]
  induction hn : a.length using Nat.strongRecOn generalizing a with
  | ind n ih =>
      subst hn
      cases a with
      | nil =>
          have hwidth : utf8Width c = 1 := by
            unfold utf8Width
            exact if_pos (UInt8.lt_iff_toNat_lt.mpr h)
          have htail : utf8Tail c b = 0 := by
            cases b with
            | nil => rfl
            | cons second b =>
                unfold utf8Tail
                exact if_pos (.inl (by omega))
          have hone : utf8 (String.ofList [Char.ofNat c.toNat]) = [c] := by
            have hchar : ∀ n < 128, (Char.ofNat n).toNat = n := by decide
            rw [utf8_ofList, List.flatMap_singleton, utf8EncodeChar_ascii (by rw [hchar _ h]; exact h),
              hchar _ h, UInt8.ofNat_toNat]
          rw [List.nil_append, lossyChars_cons, hwidth, htail, if_pos ⟨Nat.one_pos, rfl⟩,
            List.take_zero, List.drop_zero, ← hone, ofUtf8_utf8, Option.getD_some,
            String.toList_ofList]
          rfl
      | cons first a =>
          have hle := utf8Tail_le first a
          rw [List.cons_append, lossyChars_cons, lossyChars_cons, utf8Tail_append h,
            List.take_append_of_le_length hle, List.drop_append_of_le_length hle, List.append_assoc,
            ih (a.drop (utf8Tail first a)).length ?_ _ rfl]
          rw [List.length_drop, List.length_cons]
          omega

/-- A character of ASCII in a text is one of the bytes. -/
theorem mem_of_mem_lossyUtf8 {bytes : List UInt8} {c : Char} (h : c.toNat < 128)
    (hmem : c ∈ (lossyUtf8 bytes).toList) : UInt8.ofNat c.toNat ∈ bytes := by
  rw [lossyUtf8, String.toList_ofList] at hmem
  induction hn : bytes.length using Nat.strongRecOn generalizing bytes with
  | ind n ih =>
      cases bytes with
      | nil => cases hmem
      | cons first rest =>
          rw [lossyChars_cons, List.mem_append] at hmem
          rcases hmem with hmem | hmem
          · split_ifs at hmem with hwhole
            · cases htext : ofUtf8 (first :: rest.take (utf8Tail first rest)) with
              | none =>
                  rw [htext] at hmem
                  cases hmem
              | some text =>
                  rw [htext, Option.getD_some] at hmem
                  have hbyte := (mem_utf8_iff h).mpr hmem
                  rw [String.ofList_toList, utf8_of_ofUtf8 htext] at hbyte
                  exact (List.mem_cons.mp hbyte).elim (fun h => h ▸ .head _)
                    fun h => .tail _ (List.mem_of_mem_take h)
            · obtain rfl := List.mem_singleton.mp hmem
              exact absurd h (by decide)
          · refine .tail _ (List.mem_of_mem_drop (ih _ ?_ hmem rfl))
            rw [List.length_drop, ← hn, List.length_cons]
            omega
