import Mathlib.Data.List.Forall2
import Mathlib.Tactic.SplitIfs
import GoNomad.Lib.Text

/-!
# Globs with literal separators

A glob is read into tokens, each of which takes a piece of a path; a star stays
within a name, two stars take whole names.  Letters of ASCII are taken in either
case.  Classes, alternatives and escapes are not read.

* `matchTokens_append` — a path is matched piece by piece;
* `Pattern.matchTokens_iff` — a glob with two stars at its front, and none or two at
  its end, matches a path by its last names.
-/

namespace Glob

def separator : UInt8 := 0x2f

/-- Letters of ASCII in small. -/
def lower (b : UInt8) : UInt8 := if 0x41 ≤ b ∧ b ≤ 0x5a then b + 0x20 else b

/-- What a glob consists of. -/
inductive Token
  | literal (b : UInt8)
  /-- `?` -/
  | any
  /-- `*` -/
  | zeroOrMore
  /-- `**` at the front. -/
  | recursivePrefix
  /-- `/**` at the end. -/
  | recursiveSuffix
  /-- `/**/` -/
  | recursiveZeroOrMore
  deriving DecidableEq

/-! ### Reading a glob -/

/-- Two stars behind a separator, which they replace. -/
def endWith (token : Token) : List Token → List Token
  | .recursivePrefix :: tokens => .recursivePrefix :: tokens
  | .recursiveSuffix :: tokens => .recursiveSuffix :: tokens
  | _ :: tokens => token :: tokens
  | [] => [token]

/-- Reads on behind a star: the tokens so far, the last character read and what is
left. -/
def parseStar (tokens : List Token) (previous : Option Char) :
    List Char → List Token × Char × List Char
  | '*' :: rest =>
      if tokens = [] then
        match rest with
        | [] => ([.recursivePrefix], '*', [])
        | '/' :: rest => ([.recursivePrefix], '/', rest)
        | rest => ([.zeroOrMore, .zeroOrMore], '*', rest)
      else if previous ≠ some '/' then (.zeroOrMore :: .zeroOrMore :: tokens, '*', rest)
      else
        match rest with
        | [] => (endWith .recursiveSuffix tokens, '*', [])
        | '/' :: rest => (endWith .recursiveZeroOrMore tokens, '/', rest)
        | rest => (.zeroOrMore :: .zeroOrMore :: tokens, '*', rest)
  | rest => (.zeroOrMore :: tokens, '*', rest)

/-- Reads what is left of a glob, behind tokens in reverse and the character before. -/
def parseFrom : Nat → List Token → Option Char → List Char → Option (List Token)
  | _, tokens, _, [] => some tokens.reverse
  | 0, _, _, _ => none
  | fuel + 1, tokens, previous, c :: rest =>
      if c = '*' then
        let (tokens, previous, rest) := parseStar tokens previous rest
        parseFrom fuel tokens (some previous) rest
      else if c = '?' then parseFrom fuel (.any :: tokens) (some c) rest
      else if ['[', '{', '}', '\\'].contains c then none
      else
        parseFrom fuel (((String.utf8EncodeChar c).map Token.literal).reverse ++ tokens) (some c) rest

def parse (glob : String) : Option (List Token) :=
  parseFrom glob.toList.length [] none glob.toList

/-! ### Matching -/

/-- A token takes a piece of a path. -/
def Token.takes : Token → List UInt8 → Bool
  | literal b, piece => piece.map lower = [lower b]
  | any, piece => piece.length = 1 && !piece.contains separator
  | zeroOrMore, piece => !piece.contains separator
  | recursivePrefix, piece => piece = [] || piece.getLast? = some separator
  | recursiveSuffix, piece => piece.head? = some separator
  | recursiveZeroOrMore, piece =>
      piece.head? = some separator && piece.getLast? = some separator

/-- The two parts of a list cut anywhere. -/
def cuts {α : Type} : List α → List (List α × List α)
  | [] => [([], [])]
  | x :: xs => ([], x :: xs) :: (cuts xs).map fun cut => (x :: cut.1, cut.2)

/-- Tokens take the pieces of a path, one after the other. -/
def matchTokens : List Token → List UInt8 → Bool
  | [], path => path.isEmpty
  | token :: tokens, path =>
      (cuts path).any fun cut => token.takes cut.1 && matchTokens tokens cut.2

/-- Two stars alone match anything. -/
def isMatch (tokens : List Token) (path : List UInt8) : Bool :=
  tokens = [.recursivePrefix] || matchTokens tokens path

theorem mem_cuts {α : Type} {xs a b : List α} : (a, b) ∈ cuts xs ↔ xs = a ++ b := by
  induction xs generalizing a with
  | nil => simp [cuts]
  | cons x xs ih =>
      rw [cuts, List.mem_cons, List.mem_map]
      constructor
      · rintro (h | ⟨⟨c, d⟩, hcut, h⟩)
        · obtain ⟨rfl, rfl⟩ := Prod.mk.inj h
          rfl
        · obtain ⟨rfl, rfl⟩ := Prod.mk.inj h
          rw [ih.mp hcut]
          rfl
      · intro h
        cases a with
        | nil => exact .inl (by rw [h]; rfl)
        | cons y a =>
            obtain ⟨rfl, rfl⟩ := List.cons.inj h
            exact .inr ⟨(a, b), ih.mpr rfl, rfl⟩

@[simp] theorem matchTokens_nil {path : List UInt8} : matchTokens [] path = true ↔ path = [] := by
  rw [matchTokens, List.isEmpty_iff]

theorem matchTokens_cons {token : Token} {tokens : List Token} {path : List UInt8} :
    matchTokens (token :: tokens) path = true ↔
      ∃ a b, path = a ++ b ∧ token.takes a = true ∧ matchTokens tokens b = true := by
  simp only [matchTokens, List.any_eq_true, Prod.exists, mem_cuts, Bool.and_eq_true]

/-- **A path is matched piece by piece.** -/
theorem matchTokens_append {front back : List Token} {path : List UInt8} :
    matchTokens (front ++ back) path = true ↔
      ∃ a b, path = a ++ b ∧ matchTokens front a = true ∧ matchTokens back b = true := by
  induction front generalizing path with
  | nil => simp
  | cons token front ih =>
      rw [List.cons_append, matchTokens_cons]
      constructor
      · rintro ⟨a, b, rfl, htakes, hrest⟩
        obtain ⟨c, d, rfl, hfront, hback⟩ := ih.mp hrest
        exact ⟨a ++ c, d, (List.append_assoc ..).symm, matchTokens_cons.mpr
          ⟨a, c, rfl, htakes, hfront⟩, hback⟩
      · rintro ⟨a, b, rfl, hfront, hback⟩
        obtain ⟨c, d, rfl, htakes, hrest⟩ := matchTokens_cons.mp hfront
        exact ⟨c, d ++ b, List.append_assoc .., htakes, ih.mpr ⟨d, b, rfl, hrest, hback⟩⟩

/-! ### Names -/

/-- The names of a path. -/
def names (path : List UInt8) : List (List UInt8) := path.splitOn separator

theorem names_ne_nil (path : List UInt8) : names path ≠ [] := List.splitOn_ne_nil _ _

theorem names_append (a b : List UInt8) : names (a ++ separator :: b) = names a ++ names b :=
  List.splitOn_append_cons_self a b

theorem names_of_notMem {a : List UInt8} (h : separator ∉ a) : names a = [a] :=
  List.splitOn_eq_singleton h

/-- The first name of a path, and the others. -/
theorem names_eq_cons {path n : List UInt8} {more : List (List UInt8)} (h : names path = n :: more) :
    separator ∉ n ∧ (more = [] ∧ path = n ∨ ∃ rest, path = n ++ separator :: rest ∧
      more = names rest) := by
  by_cases hmem : separator ∈ path
  · obtain ⟨a, rest, rfl, ha⟩ := List.eq_append_cons_of_mem hmem
    rw [names_append, names_of_notMem ha] at h
    obtain ⟨rfl, rfl⟩ := List.cons.inj h
    exact ⟨ha, .inr ⟨rest, rfl, rfl⟩⟩
  · rw [names_of_notMem hmem] at h
    obtain ⟨rfl, rfl⟩ := List.cons.inj h
    exact ⟨hmem, .inl ⟨rfl, rfl⟩⟩

theorem notMem_of_mem_names {path n : List UInt8} (h : n ∈ names path) : separator ∉ n := by
  induction hns : names path generalizing path with
  | nil => exact absurd hns (names_ne_nil path)
  | cons m more ih =>
      obtain ⟨hm, hrest⟩ := names_eq_cons hns
      rw [hns] at h
      rcases List.mem_cons.mp h with rfl | h
      · exact hm
      · obtain ⟨rfl, -⟩ | ⟨rest, -, rfl⟩ := hrest
        · cases h
        · exact ih h rfl

/-- The end of a path within a name. -/
theorem names_append_of_notMem (a : List UInt8) {b : List UInt8} (h : separator ∉ b) :
    ∃ front n, names (a ++ b) = front ++ [n ++ b] := by
  induction hns : names a generalizing a with
  | nil => exact absurd hns (names_ne_nil a)
  | cons m more ih =>
      obtain ⟨hm, ⟨-, rfl⟩ | ⟨rest, rfl, rfl⟩⟩ := names_eq_cons hns
      · exact ⟨[], a, names_of_notMem (by simp [hm, h])⟩
      · obtain ⟨front, n, hn⟩ := ih rest rfl
        refine ⟨m :: front, n, ?_⟩
        rw [List.append_assoc, List.cons_append, names_append, names_of_notMem hm, hn]
        rfl

/-- A path is cut before any of its names. -/
theorem exists_append_of_names {path : List UInt8} {front back : List (List UInt8)}
    (h : names path = front ++ back) (hback : back ≠ []) :
    ∃ a b, path = a ++ b ∧ (a = [] ∨ a.getLast? = some separator) ∧ names b = back := by
  induction front generalizing path with
  | nil => exact ⟨[], path, rfl, .inl rfl, h⟩
  | cons n front ih =>
      obtain ⟨hn, ⟨hnil, -⟩ | ⟨rest, rfl, hrest⟩⟩ := names_eq_cons h
      · exact absurd (List.append_eq_nil_iff.mp hnil).2 hback
      · obtain ⟨a, b, rfl, ha, hb⟩ := ih hrest.symm
        refine ⟨n ++ separator :: a, b, by simp, .inr ?_, hb⟩
        rcases ha with rfl | ha
        · exact List.getLast?_concat
        · rw [List.getLast?_append, List.getLast?_cons, ha]
          rfl

/-! ### Names with a star -/

/-- Bytes as they stand in a glob. -/
def exactly (word : List UInt8) : List Token := word.map .literal

/-- What begins with some bytes. -/
def beginning (word : List UInt8) : List Token := exactly word ++ [.zeroOrMore]

/-- What ends with some bytes. -/
def ending (word : List UInt8) : List Token := .zeroOrMore :: exactly word

theorem matchTokens_exactly {word path : List UInt8} :
    matchTokens (exactly word) path = true ↔ path.map lower = word.map lower := by
  induction word generalizing path with
  | nil => simp [exactly]
  | cons b word ih =>
      rw [exactly, List.map_cons, matchTokens_cons]
      constructor
      · rintro ⟨a, c, rfl, htakes, hrest⟩
        rw [List.map_append, of_decide_eq_true htakes, ih.mp hrest]
        rfl
      · intro h
        obtain ⟨x, rest, rfl, hx, hrest⟩ := List.map_eq_cons_iff.mp h
        exact ⟨[x], rest, rfl, decide_eq_true (by rw [List.map_singleton, hx]), ih.mpr hrest⟩

theorem matchTokens_beginning {word n : List UInt8} (h : separator ∉ n) :
    matchTokens (beginning word) n = true ↔ word.map lower <+: n.map lower := by
  rw [beginning, matchTokens_append]
  constructor
  · rintro ⟨a, b, rfl, hword, -⟩
    rw [List.map_append, matchTokens_exactly.mp hword]
    exact List.prefix_append _ _
  · rintro ⟨rest, hrest⟩
    obtain ⟨a, b, rfl, ha, -⟩ := List.map_eq_append_iff.mp hrest.symm
    refine ⟨a, b, rfl, matchTokens_exactly.mpr ha, matchTokens_cons.mpr ⟨b, [], by simp, ?_, rfl⟩⟩
    simpa [Token.takes] using fun hb => h (List.mem_append_right _ hb)

theorem matchTokens_ending {word n : List UInt8} (h : separator ∉ n) :
    matchTokens (ending word) n = true ↔ word.map lower <:+ n.map lower := by
  rw [ending, matchTokens_cons]
  constructor
  · rintro ⟨a, b, rfl, -, hword⟩
    rw [List.map_append, matchTokens_exactly.mp hword]
    exact List.suffix_append _ _
  · rintro ⟨front, hfront⟩
    obtain ⟨a, b, rfl, -, hb⟩ := List.map_eq_append_iff.mp hfront.symm
    refine ⟨a, b, rfl, ?_, matchTokens_exactly.mpr hb⟩
    simpa [Token.takes] using fun ha => h (List.mem_append_left _ ha)

/-! ### Patterns of names -/

/-- A token takes nothing beyond a name. -/
def Token.Within : Token → Prop
  | literal b => b ≠ separator
  | any | zeroOrMore => True
  | _ => False

instance : DecidablePred Token.Within := fun token => by
  cases token <;> unfold Token.Within <;> infer_instance

theorem lower_eq_separator : ∀ n < 256, lower (.ofNat n) = separator → n = separator.toNat := by
  decide +kernel

/-- The separator has no case. -/
theorem eq_separator_of_lower {b : UInt8} (h : lower b = separator) : b = separator := by
  rw [← UInt8.ofNat_toNat (x := b)] at h
  exact UInt8.toNat_inj.mp (lower_eq_separator _ b.toNat_lt h)

theorem Token.notMem_of_takes {token : Token} {a : List UInt8} (h : token.Within)
    (htakes : token.takes a = true) : separator ∉ a := by
  cases token with
  | literal b =>
      intro hmem
      have hsingle := of_decide_eq_true htakes
      have hlower := List.mem_map_of_mem (f := lower) hmem
      rw [hsingle, List.mem_singleton] at hlower
      exact h (eq_separator_of_lower (hlower.symm.trans rfl))
  | any => simp_all [takes]
  | zeroOrMore => simp_all [takes]
  | recursivePrefix => exact absurd h id
  | recursiveSuffix => exact absurd h id
  | recursiveZeroOrMore => exact absurd h id

/-- What such tokens match is one name. -/
theorem notMem_of_matchTokens {tokens : List Token} {a : List UInt8}
    (h : ∀ token ∈ tokens, token.Within) (hmatch : matchTokens tokens a = true) :
    separator ∉ a := by
  induction tokens generalizing a with
  | nil =>
      rw [matchTokens_nil.mp hmatch]
      exact List.not_mem_nil
  | cons token tokens ih =>
      obtain ⟨b, c, rfl, htakes, hrest⟩ := matchTokens_cons.mp hmatch
      rw [List.mem_append, not_or]
      exact ⟨Token.notMem_of_takes (h token (.head _)) htakes, ih (fun t ht => h t (.tail _ ht)) hrest⟩

/-- A glob that is matched by the last names of a path, or by names that something is
below. -/
structure Pattern where
  segments : List (List Token)
  below : Bool
  deriving DecidableEq

/-- Segments with separators between them. -/
def joinTokens : List (List Token) → List Token
  | [] => []
  | [segment] => segment
  | segment :: segments => segment ++ .literal separator :: joinTokens segments

namespace Pattern

def tokens (pattern : Pattern) : List Token :=
  .recursivePrefix ::
    (joinTokens pattern.segments ++ if pattern.below then [.recursiveSuffix] else [])

/-- There is a segment, and each stays within a name. -/
def Proper (pattern : Pattern) : Prop :=
  pattern.segments ≠ [] ∧ ∀ segment ∈ pattern.segments, ∀ token ∈ segment, token.Within

instance (pattern : Pattern) : Decidable pattern.Proper :=
  inferInstanceAs (Decidable (_ ∧ _))

/-- Names in a row match the segments, and what is behind them is as it should be. -/
def Matches (pattern : Pattern) (names : List (List UInt8)) : Prop :=
  ∃ front found more, names = front ++ found ++ more ∧
    List.Forall₂ (fun segment n => matchTokens segment n = true) pattern.segments found ∧
    (pattern.below = true ↔ more ≠ [])

end Pattern

theorem matchTokens_slash {tokens : List Token} {path : List UInt8} :
    matchTokens (.literal separator :: tokens) path = true ↔
      ∃ rest, path = separator :: rest ∧ matchTokens tokens rest = true := by
  rw [matchTokens_cons]
  constructor
  · rintro ⟨a, b, rfl, htakes, hrest⟩
    have hsingle := of_decide_eq_true htakes
    obtain ⟨x, rfl, hx⟩ := List.map_eq_singleton_iff.mp hsingle
    exact ⟨b, by rw [eq_separator_of_lower (hx.trans rfl)]; rfl, hrest⟩
  · rintro ⟨rest, rfl, hrest⟩
    exact ⟨[separator], rest, rfl, rfl, hrest⟩

/-- The end of a glob: nothing, or something below. -/
theorem matchTokens_end {below : Bool} {path : List UInt8} :
    matchTokens (if below then [.recursiveSuffix] else []) path = true ↔
      if below then ∃ rest, path = separator :: rest else path = [] := by
  cases below with
  | false => exact matchTokens_nil
  | true =>
      show matchTokens [.recursiveSuffix] path = true ↔ ∃ rest, path = separator :: rest
      rw [matchTokens_cons]
      constructor
      · rintro ⟨a, b, rfl, htakes, hnil⟩
        obtain rfl := matchTokens_nil.mp hnil
        have hhead := of_decide_eq_true htakes
        rw [List.append_nil]
        exact List.head?_eq_some_iff.mp hhead
      · rintro ⟨rest, rfl⟩
        exact ⟨separator :: rest, [], (List.append_nil _).symm, rfl, rfl⟩

/-- Segments match the first names of what they match. -/
theorem matchTokens_join {segments : List (List Token)} {below : Bool} {path : List UInt8}
    (hne : segments ≠ []) (h : ∀ segment ∈ segments, ∀ token ∈ segment, token.Within) :
    matchTokens (joinTokens segments ++ if below then [.recursiveSuffix] else []) path = true ↔
      ∃ found more, names path = found ++ more ∧
        List.Forall₂ (fun segment n => matchTokens segment n = true) segments found ∧
        (below = true ↔ more ≠ []) := by
  induction segments generalizing path with
  | nil => exact absurd rfl hne
  | cons segment segments ih =>
      have hwithin := h segment (.head _)
      cases segments with
      | nil =>
          rw [joinTokens, matchTokens_append]
          constructor
          · rintro ⟨a, b, rfl, hsegment, hend⟩
            have ha := notMem_of_matchTokens hwithin hsegment
            rw [matchTokens_end] at hend
            cases below with
            | false =>
                obtain rfl : b = [] := hend
                rw [List.append_nil, names_of_notMem ha]
                exact ⟨[a], [], rfl, .cons hsegment .nil, by simp⟩
            | true =>
                obtain ⟨rest, rfl⟩ := hend
                rw [names_append, names_of_notMem ha]
                exact ⟨[a], names rest, rfl, .cons hsegment .nil, by simp [names_ne_nil]⟩
          · rintro ⟨found, more, hnames, hfound, hmore⟩
            obtain ⟨n, ns, hsegment, hnil, rfl⟩ := List.forall₂_cons_left_iff.mp hfound
            obtain rfl := List.forall₂_nil_left_iff.mp hnil
            obtain ⟨-, ⟨rfl, rfl⟩ | ⟨rest, rfl, rfl⟩⟩ := names_eq_cons hnames
            · refine ⟨path, [], (List.append_nil _).symm, hsegment, ?_⟩
              cases below with
              | false => rfl
              | true => exact absurd rfl (hmore.mp rfl)
            · refine ⟨n, separator :: rest, rfl, hsegment, matchTokens_end.mpr ?_⟩
              rw [if_pos (hmore.mpr (names_ne_nil rest))]
              exact ⟨rest, rfl⟩
      | cons segment' segments =>
          have hrest := fun path => @ih path (by simp) fun s hs => h s (.tail _ hs)
          rw [joinTokens, List.append_assoc, List.cons_append, matchTokens_append]
          · constructor
            · rintro ⟨a, b, rfl, hsegment, hback⟩
              obtain ⟨rest, rfl, hback'⟩ := matchTokens_slash.mp hback
              obtain ⟨found, more, hnames, hfound, hmore⟩ := (hrest rest).mp hback'
              have ha := notMem_of_matchTokens hwithin hsegment
              rw [names_append, names_of_notMem ha, hnames]
              exact ⟨a :: found, more, rfl, .cons hsegment hfound, hmore⟩
            · rintro ⟨found, more, hnames, hfound, hmore⟩
              obtain ⟨n, ns, hsegment, hothers, rfl⟩ := List.forall₂_cons_left_iff.mp hfound
              obtain ⟨-, ⟨hnil, -⟩ | ⟨rest, rfl, hrestNames⟩⟩ := names_eq_cons hnames
              · obtain ⟨m, ms, -, -, rfl⟩ := List.forall₂_cons_left_iff.mp hothers
                exact absurd hnil (by simp)
              · exact ⟨n, separator :: rest, rfl, hsegment, matchTokens_slash.mpr
                  ⟨rest, rfl, (hrest rest).mpr ⟨ns, more, hrestNames.symm, hothers, hmore⟩⟩⟩
          · simp

/-- **A pattern matches a path by its names.** -/
theorem Pattern.matchTokens_iff {pattern : Pattern} (h : pattern.Proper) {path : List UInt8} :
    matchTokens pattern.tokens path = true ↔ pattern.Matches (names path) := by
  unfold Pattern.tokens Pattern.Matches
  rw [matchTokens_cons]
  constructor
  · rintro ⟨a, b, rfl, htakes, hback⟩
    obtain ⟨found, more, hnames, hfound, hmore⟩ := (matchTokens_join h.1 h.2).mp hback
    rcases Bool.or_eq_true_iff.mp htakes with hnil | hlast
    · obtain rfl := of_decide_eq_true hnil
      exact ⟨[], found, more, hnames, hfound, hmore⟩
    · obtain ⟨c, rfl⟩ := List.getLast?_eq_some_iff.mp (of_decide_eq_true hlast)
      refine ⟨names c, found, more, ?_, hfound, hmore⟩
      rw [List.append_assoc, List.singleton_append, names_append, hnames, List.append_assoc]
  · rintro ⟨front, found, more, hnames, hfound, hmore⟩
    have hne : found ++ more ≠ [] := by
      obtain ⟨segment, segments, hsegments⟩ := List.exists_cons_of_ne_nil h.1
      rw [hsegments] at hfound
      obtain ⟨n, ns, -, -, rfl⟩ := List.forall₂_cons_left_iff.mp hfound
      simp
    rw [List.append_assoc] at hnames
    obtain ⟨a, b, rfl, ha, hb⟩ := exists_append_of_names hnames hne
    refine ⟨a, b, rfl, ?_, (matchTokens_join h.1 h.2).mpr ⟨found, more, hb, hfound, hmore⟩⟩
    show (decide (a = []) || decide (a.getLast? = some separator)) = true
    rw [Bool.or_eq_true, decide_eq_true_eq, decide_eq_true_eq]
    exact ha

example : parse "**/.config/gcloud/**" =
    some ([.recursivePrefix] ++ (utf8 ".config/gcloud").map .literal ++ [.recursiveSuffix]) := by
  decide +kernel

end Glob
