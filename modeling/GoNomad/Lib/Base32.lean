import Mathlib.Data.List.GetD
import Mathlib.Data.List.Nodup
import Mathlib.Tactic.Ring
import GoNomad.Lib.Text

/-!
# Base 32 without padding

Bytes are written five bits at a time, most significant bit first, the last
group filled up with zeroes; what is left over after the last whole byte must be
such zeroes and fewer than a symbol's worth.

* `flatMap_bits_groups` — cutting into groups of five only adds zeroes at the end;
* `bytes_bits` — bytes are read back from their bits and such zeroes;
* `Alphabet.decode_encode` — bytes are read back from their text;
* `Alphabet.decode_append` — the front of a text decodes to the front of its bytes;
* `Alphabet.encode_of_decode` — a text that was decoded is written anew with the
  symbols of its characters.
-/

/-- A text form of bytes from which they are read back. -/
structure Encoding where
  encode : List UInt8 → String
  decode : List UInt8 → Option (List UInt8)
  decode_encode : ∀ bytes, decode (utf8 (encode bytes)) = some bytes

namespace Base32

/-! ### Bits -/

/-- The low `w` bits of a number, most significant first. -/
def bits : Nat → Nat → List Bool
  | 0, _ => []
  | w + 1, x => x.testBit w :: bits w x

/-- The number some bits spell. -/
def value (bs : List Bool) : Nat := bs.foldl (fun acc b => 2 * acc + b.toNat) 0

theorem foldl_bits (w x acc : Nat) :
    (bits w x).foldl (fun acc b => 2 * acc + b.toNat) acc = acc * 2 ^ w + x % 2 ^ w := by
  induction w generalizing acc with
  | zero => simp [bits, Nat.mod_one]
  | succ w ih =>
      rw [bits, List.foldl_cons, ih, Nat.mod_pow_succ, Nat.toNat_testBit]
      ring

theorem value_bits (w x : Nat) : value (bits w x) = x % 2 ^ w := by
  rw [value, foldl_bits, Nat.zero_mul, Nat.zero_add]

theorem bits_value_five (a b c d e : Bool) :
    bits 5 (value [a, b, c, d, e]) = [a, b, c, d, e] := by
  revert a b c d e
  decide

/-- The bits of some bytes. -/
def byteBits (bytes : List UInt8) : List Bool := bytes.flatMap fun b => bits 8 b.toNat

/-- Cuts bits into groups of five, the last one filled up with zeroes. -/
def groups : List Bool → List Nat
  | a :: b :: c :: d :: e :: rest => value [a, b, c, d, e] :: groups rest
  | [] => []
  | [a] => [value [a, false, false, false, false]]
  | [a, b] => [value [a, b, false, false, false]]
  | [a, b, c] => [value [a, b, c, false, false]]
  | [a, b, c, d] => [value [a, b, c, d, false]]

/-- The bytes some bits spell; what is left over must be a few zeroes. -/
def bytes : List Bool → Option (List UInt8)
  | a :: b :: c :: d :: e :: f :: g :: h :: rest =>
      (bytes rest).map (UInt8.ofNat (value [a, b, c, d, e, f, g, h]) :: ·)
  | rest => if rest.length < 5 && rest.all (!·) then some [] else none

/-- Grouping adds fewer than five zeroes. -/
theorem flatMap_bits_groups (bs : List Bool) :
    ∃ k < 5, (groups bs).flatMap (bits 5) = bs ++ List.replicate k false := by
  fun_induction groups bs with
  | case1 a b c d e rest ih =>
      obtain ⟨k, hk, hrest⟩ := ih
      refine ⟨k, hk, ?_⟩
      rw [List.flatMap_cons, hrest, bits_value_five]
      rfl
  | case2 => exact ⟨0, by omega, rfl⟩
  | case3 a => exact ⟨4, by omega, by simp [bits_value_five]⟩
  | case4 a b => exact ⟨3, by omega, by simp [bits_value_five]⟩
  | case5 a b c => exact ⟨2, by omega, by simp [bits_value_five]⟩
  | case6 a b c d => exact ⟨1, by omega, by simp [bits_value_five]⟩

theorem groups_lt (bs : List Bool) : ∀ v ∈ groups bs, v < 32 := by
  have hsmall : ∀ a b c d e : Bool, value [a, b, c, d, e] < 32 := by decide
  fun_induction groups bs with
  | case1 a b c d e rest ih =>
      intro v hv
      rcases List.mem_cons.mp hv with rfl | hv
      · exact hsmall a b c d e
      · exact ih v hv
  | case2 => simp
  | _ => simp [hsmall]

/-- Bytes are read back from their bits, whatever zeroes follow. -/
theorem bytes_bits (bs : List UInt8) {k : Nat} (hk : k < 5) :
    bytes (byteBits bs ++ List.replicate k false) = some bs := by
  induction bs with
  | nil =>
      have hcases : ∀ n < 5, bytes (List.replicate n false) = some [] := by decide
      exact hcases k hk
  | cons b bs ih =>
      have hbyte : UInt8.ofNat (value (bits 8 b.toNat)) = b := by
        rw [value_bits, Nat.mod_eq_of_lt b.toNat_lt, UInt8.ofNat_toNat]
      show (bytes (byteBits bs ++ List.replicate k false)).map
        (UInt8.ofNat (value (bits 8 b.toNat)) :: ·) = _
      rw [ih, hbyte]
      rfl

theorem length_flatMap_bits (w : Nat) (values : List Nat) :
    (values.flatMap (bits w)).length = w * values.length := by
  have hbits : ∀ w x, (bits w x).length = w := by
    intro w x
    induction w with
    | zero => rfl
    | succ w ih => rw [bits, List.length_cons, ih]
  induction values with
  | nil => rfl
  | cons v values ih =>
      rw [List.flatMap_cons, List.length_append, ih, hbits, List.length_cons]
      ring

/-- Some bits spell as many bytes as fit whole, with less than a symbol left over. -/
theorem length_bytes {bs : List Bool} {out : List UInt8} (h : bytes bs = some out) :
    8 * out.length ≤ bs.length ∧ bs.length < 8 * out.length + 5 := by
  fun_induction bytes bs generalizing out with
  | case1 a b c d e f g h' rest ih =>
      obtain ⟨tail, htail, rfl⟩ := Option.map_eq_some_iff.mp h
      have hlength := ih htail
      simp only [List.length_cons]
      omega
  | case2 rest _ hspare =>
      obtain rfl := Option.some.inj h
      have hshort : rest.length < 5 := by simp_all
      simp only [List.length_nil]
      omega
  | case3 => cases h

/-- The bytes at the front of some bits are at the front of their bytes. -/
theorem bytes_append {bs more : List Bool} {out out' : List UInt8}
    (h : bytes (bs ++ more) = some out) (h' : bytes bs = some out') : out' <+: out := by
  fun_induction bytes bs generalizing out out' with
  | case1 a b c d e f g h'' rest ih =>
      obtain ⟨tail', htail', rfl⟩ := Option.map_eq_some_iff.mp h'
      obtain ⟨tail, htail, rfl⟩ := Option.map_eq_some_iff.mp h
      exact List.prefix_cons_inj _ |>.mpr (ih htail htail')
  | case2 rest _ hspare =>
      obtain rfl := Option.some.inj h'
      exact List.nil_prefix
  | case3 => cases h'

/-- Whole bytes are read, whatever their bits. -/
theorem bytes_of_whole {n : Nat} {bs : List Bool} (h : bs.length = 8 * n) :
    ∃ out, bytes bs = some out := by
  induction n generalizing bs with
  | zero =>
      obtain rfl := List.length_eq_zero_iff.mp h
      exact ⟨[], rfl⟩
  | succ n ih =>
      match bs, h with
      | a :: b :: c :: d :: e :: f :: g :: i :: rest, h =>
          obtain ⟨out, hout⟩ := @ih rest (by simp only [List.length_cons] at h; omega)
          exact ⟨_, by rw [bytes, hout]; rfl⟩

theorem byteBits_value (a b c d e f g h : Bool) :
    bits 8 (UInt8.ofNat (value [a, b, c, d, e, f, g, h])).toNat = [a, b, c, d, e, f, g, h] := by
  revert a b c d e f g h
  decide +kernel

/-- The bits some bytes were read from are theirs, and a few zeroes. -/
theorem eq_of_bytes {bs : List Bool} {out : List UInt8} (h : bytes bs = some out) :
    ∃ k < 5, bs = byteBits out ++ List.replicate k false := by
  fun_induction bytes bs generalizing out with
  | case1 a b c d e f g h' rest ih =>
      obtain ⟨tail, htail, rfl⟩ := Option.map_eq_some_iff.mp h
      obtain ⟨k, hk, hrest⟩ := ih htail
      refine ⟨k, hk, ?_⟩
      rw [byteBits, List.flatMap_cons, byteBits_value, hrest]
      rfl
  | case2 rest _ hspare =>
      obtain rfl := Option.some.inj h
      rw [Bool.and_eq_true, decide_eq_true_eq, List.all_eq_true] at hspare
      refine ⟨rest.length, hspare.1, List.eq_replicate_iff.mpr ⟨rfl, fun b hb => ?_⟩⟩
      simpa using hspare.2 b hb
  | case3 => cases h

/-- Groups are cut at their own bounds. -/
theorem groups_flatMap_bits {values : List Nat} (h : ∀ v ∈ values, v < 32) :
    groups (values.flatMap (bits 5)) = values := by
  induction values with
  | nil => rfl
  | cons v values ih =>
      have hv : value (bits 5 v) = v := by
        rw [value_bits]
        exact Nat.mod_eq_of_lt (h v (.head _))
      calc groups ((v :: values).flatMap (bits 5))
          = value (bits 5 v) :: groups (values.flatMap (bits 5)) := rfl
        _ = v :: values := by rw [hv, ih fun w hw => h w (.tail _ hw)]

/-- The groups of bytes that were read from values are those values. -/
theorem groups_of_bytes {values : List Nat} {out : List UInt8} (hlt : ∀ v ∈ values, v < 32)
    (h : bytes (values.flatMap (bits 5)) = some out) : groups (byteBits out) = values := by
  obtain ⟨k, hk, hvalues⟩ := eq_of_bytes h
  obtain ⟨k', hk', hgroups⟩ := flatMap_bits_groups (byteBits out)
  have hlength := congrArg List.length hvalues
  have hlength' := congrArg List.length hgroups
  rw [length_flatMap_bits, List.length_append, List.length_replicate] at hlength hlength'
  -- Both are whole groups, so the same zeroes were added.
  obtain rfl : k = k' := by omega
  rw [← hvalues] at hgroups
  calc groups (byteBits out)
      = groups ((groups (byteBits out)).flatMap (bits 5)) :=
        (groups_flatMap_bits (groups_lt _)).symm
    _ = values := by rw [hgroups, groups_flatMap_bits hlt]

/-! ### Alphabets -/

/-- 32 symbols, and further characters read as one of them. -/
structure Alphabet where
  symbols : List UInt8
  translate : List (UInt8 × UInt8)
  length_symbols : symbols.length = 32
  nodup : symbols.Nodup
  ascii : ∀ s ∈ symbols, s < 0x80

namespace Alphabet

variable (alphabet : Alphabet)

def symbol (v : Nat) : UInt8 := alphabet.symbols.getD v 0

/-- The value of a character. -/
def valueOf (c : UInt8) : Option Nat :=
  match alphabet.symbols.findIdx? (· = c) with
  | some v => some v
  | none =>
      match alphabet.translate.lookup c with
      | some s => alphabet.symbols.findIdx? (· = s)
      | none => none

def encode (bs : List UInt8) : String :=
  String.ofList ((groups (byteBits bs)).map fun v => Char.ofNat (alphabet.symbol v).toNat)

def decode (text : List UInt8) : Option (List UInt8) :=
  match text.mapM alphabet.valueOf with
  | some values => bytes (values.flatMap (bits 5))
  | none => none

theorem valueOf_symbol {v : Nat} (hv : v < 32) :
    alphabet.valueOf (alphabet.symbol v) = some v := by
  have hlen : v < alphabet.symbols.length := by
    rw [alphabet.length_symbols]
    exact hv
  have hindex : alphabet.symbols.findIdx? (· = alphabet.symbol v) = some v := by
    rw [List.findIdx?_eq_some_iff_getElem]
    have hget : alphabet.symbols[v] = alphabet.symbol v := by
      rw [symbol, List.getD_eq_getElem _ _ hlen]
    refine ⟨hlen, by simpa using hget, fun j hj => ?_⟩
    have hne : alphabet.symbols[j] ≠ alphabet.symbols[v] := by
      intro heq
      have := alphabet.nodup.getElem_inj_iff.mp heq
      omega
    rw [hget] at hne
    simpa using hne
  rw [valueOf, hindex]

/-- A symbol is one byte of text. -/
theorem utf8EncodeChar_symbol {v : Nat} (hv : v < 32) :
    String.utf8EncodeChar (Char.ofNat (alphabet.symbol v).toNat) = [alphabet.symbol v] := by
  have hascii : ∀ n < 128, String.utf8EncodeChar (Char.ofNat n) = [UInt8.ofNat n] := by decide
  have hmem : alphabet.symbol v ∈ alphabet.symbols := by
    have hlen : v < alphabet.symbols.length := by
      rw [alphabet.length_symbols]
      exact hv
    rw [symbol, List.getD_eq_getElem _ _ hlen]
    exact List.getElem_mem hlen
  have hlt := UInt8.lt_iff_toNat_lt.mp (alphabet.ascii _ hmem)
  rw [hascii _ hlt, UInt8.ofNat_toNat]

theorem utf8_symbols {vs : List Nat} (h : ∀ v ∈ vs, v < 32) :
    utf8 (String.ofList (vs.map fun v => Char.ofNat (alphabet.symbol v).toNat)) =
      vs.map alphabet.symbol := by
  rw [utf8_ofList]
  induction vs with
  | nil => rfl
  | cons v vs ih =>
      rw [List.map_cons, List.flatMap_cons, alphabet.utf8EncodeChar_symbol (h v (.head _)),
        ih fun w hw => h w (.tail _ hw)]
      rfl

theorem mapM_valueOf_symbol {vs : List Nat} (h : ∀ v ∈ vs, v < 32) :
    (vs.map alphabet.symbol).mapM alphabet.valueOf = some vs := by
  induction vs with
  | nil => rfl
  | cons v vs ih =>
      rw [List.map_cons, List.mapM_cons, alphabet.valueOf_symbol (h v (.head _)),
        ih fun w hw => h w (.tail _ hw)]
      rfl

/-- **Bytes are read back from their text.** -/
theorem decode_encode (bs : List UInt8) : alphabet.decode (utf8 (alphabet.encode bs)) = some bs := by
  have hlt := groups_lt (byteBits bs)
  obtain ⟨k, hk, hgroups⟩ := flatMap_bits_groups (byteBits bs)
  rw [encode, alphabet.utf8_symbols hlt, decode, alphabet.mapM_valueOf_symbol hlt]
  dsimp only
  rw [hgroups, bytes_bits bs hk]

/-- The values of a text, one of each character. -/
theorem mapM_valueOf_append {text more : List UInt8} {values : List Nat}
    (h : (text ++ more).mapM alphabet.valueOf = some values) :
    ∃ front rest, text.mapM alphabet.valueOf = some front ∧ front.length = text.length ∧
      more.mapM alphabet.valueOf = some rest ∧ values = front ++ rest := by
  induction text generalizing values with
  | nil => exact ⟨[], values, rfl, rfl, h, rfl⟩
  | cons c text ih =>
      rw [List.cons_append, List.mapM_cons, Option.bind_eq_bind, Option.bind_eq_some_iff] at h
      obtain ⟨v, hv, h⟩ := h
      obtain ⟨tail, htail, hvalues⟩ := Option.bind_eq_some_iff.mp h
      obtain ⟨front, rest, hfront, hlength, hrest, rfl⟩ := ih htail
      refine ⟨v :: front, rest, ?_, by rw [List.length_cons, hlength]; rfl, hrest, ?_⟩
      · rw [List.mapM_cons, hv, hfront]
        rfl
      · exact (Option.some.inj hvalues).symm

theorem length_of_mapM {text : List UInt8} {values : List Nat}
    (h : text.mapM alphabet.valueOf = some values) : values.length = text.length := by
  rw [← List.append_nil text] at h
  obtain ⟨front, rest, -, hlength, hrest, rfl⟩ := alphabet.mapM_valueOf_append h
  obtain rfl := Option.some.inj hrest
  simpa using hlength

/-- **The front of a text decodes to the front of its bytes**, if at all, and to fewer
than all of them. -/
theorem decode_append {text more : List UInt8} {out out' : List UInt8} (hmore : more ≠ [])
    (h : alphabet.decode (text ++ more) = some out) (h' : alphabet.decode text = some out') :
    out' <+: out ∧ out'.length < out.length := by
  unfold decode at h h'
  split at h
  case h_2 => cases h
  rename_i values hvalues
  obtain ⟨front, rest, hfront, hlength, hrest, rfl⟩ := alphabet.mapM_valueOf_append hvalues
  have hrestLength := alphabet.length_of_mapM hrest
  rw [hfront] at h'
  dsimp only at h'
  rw [List.flatMap_append] at h
  have hfits := length_bytes h
  have hfits' := length_bytes h'
  rw [List.length_append, length_flatMap_bits, length_flatMap_bits] at hfits
  rw [length_flatMap_bits] at hfits'
  have hpos := List.length_pos_of_ne_nil hmore
  have hfront := bytes_append h h'
  exact ⟨hfront, by have := hfront.length_le; omega⟩

theorem valueOf_lt {c : UInt8} {v : Nat} (h : alphabet.valueOf c = some v) : v < 32 := by
  have hindex : ∀ s v, alphabet.symbols.findIdx? (· = s) = some v → v < 32 := by
    intro s v hv
    obtain ⟨hlt, -⟩ := List.findIdx?_eq_some_iff_getElem.mp hv
    rwa [alphabet.length_symbols] at hlt
  unfold valueOf at h
  split at h
  · rename_i hfound
    exact hindex _ _ (h ▸ hfound)
  · split at h
    · exact hindex _ _ h
    · cases h

/-- The values of a text are those of its characters. -/
theorem lt_of_mapM {text : List UInt8} {values : List Nat}
    (h : text.mapM alphabet.valueOf = some values) : ∀ v ∈ values, v < 32 := by
  induction text generalizing values with
  | nil =>
      obtain rfl := Option.some.inj h
      simp
  | cons c text ih =>
      obtain ⟨front, rest, hfront, -, hrest, rfl⟩ := @mapM_valueOf_append alphabet [c] text values h
      intro v hv
      rw [List.mapM_cons, Option.bind_eq_bind, Option.bind_eq_some_iff] at hfront
      obtain ⟨w, hw, hfront⟩ := hfront
      obtain rfl := Option.some.inj hfront
      rcases List.mem_cons.mp hv with rfl | hv
      · exact alphabet.valueOf_lt hw
      · exact ih hrest v hv

/-- **A text is written anew** with the symbols of its characters. -/
theorem encode_of_decode {text : List UInt8} {values : List Nat} {out : List UInt8}
    (hvalues : text.mapM alphabet.valueOf = some values) (h : alphabet.decode text = some out) :
    alphabet.encode out =
      String.ofList (values.map fun v => Char.ofNat (alphabet.symbol v).toNat) := by
  have hlt := alphabet.lt_of_mapM hvalues
  unfold decode at h
  rw [hvalues] at h
  rw [encode, groups_of_bytes hlt h]

/-- Bytes are written in as many symbols as they need. -/
theorem length_encode (bs : List UInt8) :
    8 * bs.length ≤ 5 * (alphabet.encode bs).length ∧
      5 * (alphabet.encode bs).length < 8 * bs.length + 5 := by
  obtain ⟨k, hk, hgroups⟩ := flatMap_bits_groups (byteBits bs)
  have hlength := congrArg List.length hgroups
  have hbits : (byteBits bs).length = 8 * bs.length := by
    have hmap : byteBits bs = (bs.map UInt8.toNat).flatMap (bits 8) := by
      rw [byteBits, List.flatMap_map]
    rw [hmap, length_flatMap_bits, List.length_map]
  rw [length_flatMap_bits, List.length_append, List.length_replicate, hbits] at hlength
  rw [encode, String.length_ofList, List.length_map]
  omega

/-- The encoding of an alphabet. -/
def encoding : Encoding := ⟨alphabet.encode, alphabet.decode, alphabet.decode_encode⟩

end Alphabet

end Base32
