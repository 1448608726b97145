import GoNomad.Lib.Glob
import GoNomad.Policy.Denylist

/-!
# The default denylist

The globs of the default denylist, and what they are for: some names of directories
and some names of files are secret, with everything below the directories.  A path is
matched after its backslashes have become slashes, so that a name with a backslash is
read as several names.

* `secretNames_iff` — the globs match a path by its names;
* `isSecret_withDefaults` — what the compiled denylist hides;
* `hidden_iff` — when a path that a glob matches as written stays hidden.
-/

namespace Policy

open Proto UnixFs Glob

/-! ### The globs -/

/-- The patterns applied unless the user changes them. -/
def defaultPatterns : List String :=
  [ -- SSH keys.
    "**/.ssh", "**/.ssh/**", "**/id_rsa*", "**/id_ed25519*",
    -- Credentials of cloud providers.
    "**/.aws", "**/.aws/**", "**/.kube/config", "**/.config/gcloud", "**/.config/gcloud/**",
    -- Secrets of applications.
    "**/.env*", "**/*.pem", "**/*.key", "**/*.p12",
    -- Credentials of package registries and of the network.
    "**/.netrc", "**/.npmrc", "**/.pypirc", "**/.docker/config.json", "**/.git-credentials",
    -- Signing keys.
    "**/.gnupg", "**/.gnupg/**",
    -- Configuration of AI tools.
    "**/.claude", "**/.claude/**", "**/.cursor", "**/.cursor/**"]

/-- Compiles one pattern, with literal separators and in either case. -/
def compile (pattern : String) : Option (List Token) := Glob.parse pattern

/-- A pattern matches a path as it is written. -/
def MatchesAsWritten (pattern : String) (path : OsPath) : Prop :=
  ∃ tokens, compile pattern = some tokens ∧ Glob.isMatch tokens path = true

/-- Compiles the default patterns. -/
def SecretDenylist.withDefaults : SecretDenylist where
  isMatch text :=
    defaultPatterns.any fun pattern =>
      (compile pattern).any fun tokens => Glob.isMatch tokens (utf8 text)

/-! ### The names they are for -/

/-- Directories that are secret with everything below. -/
def secretDirs : List String := [".ssh", ".aws", ".gnupg", ".claude", ".cursor"]

/-- Files that are secret wherever they are. -/
def secretFiles : List String := [".netrc", ".npmrc", ".pypirc", ".git-credentials"]

/-- What the names of secret files begin with. -/
def secretStems : List String := ["id_rsa", "id_ed25519", ".env"]

/-- What the names of secret files end with. -/
def secretEndings : List String := [".pem", ".key", ".p12"]

/-- Files that are secret in one directory. -/
def secretPairs : List (String × String) := [(".kube", "config"), (".docker", "config.json")]

/-- A name is a word, in either case. -/
def Named (word : String) (n : List UInt8) : Prop := n.map lower = utf8 word

def Begins (stem : String) (n : List UInt8) : Prop := utf8 stem <+: n.map lower

def Ends (ending : String) (n : List UInt8) : Prop := utf8 ending <:+ n.map lower

/-- A directory among some names is secret. -/
def SecretDirs (ns : List (List UInt8)) : Prop :=
  (∃ word ∈ secretDirs, ∃ n ∈ ns, Named word n) ∨
    ∃ front a b more, ns = front ++ a :: b :: more ∧ Named ".config" a ∧ Named "gcloud" b

/-- The last of some names is that of a secret file. -/
def SecretFile (ns : List (List UInt8)) : Prop :=
  (∃ front n, ns = front ++ [n] ∧
    ((∃ word ∈ secretFiles, Named word n) ∨ (∃ stem ∈ secretStems, Begins stem n) ∨
      ∃ ending ∈ secretEndings, Ends ending n)) ∨
    ∃ front a b, ns = front ++ [a, b] ∧ ∃ pair ∈ secretPairs, Named pair.1 a ∧ Named pair.2 b

/-- **The secret names**: a directory is secret, or the file is. -/
def SecretNames (ns : List (List UInt8)) : Prop := SecretDirs ns ∨ SecretFile ns

/-! ### The globs are about names -/

/-- The default patterns by the names they match. -/
def namePatterns : List Pattern :=
  (secretDirs.flatMap fun word =>
    [⟨[exactly (utf8 word)], false⟩, ⟨[exactly (utf8 word)], true⟩]) ++
  ([false, true].map fun below =>
    ⟨[exactly (utf8 ".config"), exactly (utf8 "gcloud")], below⟩) ++
  (secretFiles.map fun word => ⟨[exactly (utf8 word)], false⟩) ++
  (secretStems.map fun stem => ⟨[beginning (utf8 stem)], false⟩) ++
  (secretEndings.map fun last => ⟨[ending (utf8 last)], false⟩) ++
  secretPairs.map fun pair => ⟨[exactly (utf8 pair.1), exactly (utf8 pair.2)], false⟩

theorem compile_defaultPatterns :
    (∀ pattern ∈ defaultPatterns, ∃ p ∈ namePatterns, compile pattern = some p.tokens) ∧
      ∀ p ∈ namePatterns, ∃ pattern ∈ defaultPatterns, compile pattern = some p.tokens := by
  decide +kernel

theorem namePatterns_proper : ∀ p ∈ namePatterns, p.Proper ∧ p.tokens ≠ [.recursivePrefix] := by
  decide +kernel

/-- Some default pattern matches a path if and only if one does by its names. -/
theorem matchesAsWritten_iff {path : OsPath} :
    (∃ pattern ∈ defaultPatterns, MatchesAsWritten pattern path) ↔
      ∃ p ∈ namePatterns, p.Matches (names path) := by
  have hmatch : ∀ p ∈ namePatterns, Glob.isMatch p.tokens path = true ↔ p.Matches (names path) := by
    intro p hp
    obtain ⟨hproper, hne⟩ := namePatterns_proper p hp
    rw [Glob.isMatch, decide_eq_false hne, Bool.false_or, Pattern.matchTokens_iff hproper]
  constructor
  · rintro ⟨pattern, hpattern, tokens, hcompile, hpath⟩
    obtain ⟨p, hp, hp'⟩ := compile_defaultPatterns.1 pattern hpattern
    obtain rfl := Option.some.inj (hp'.symm.trans hcompile)
    exact ⟨p, hp, (hmatch p hp).mp hpath⟩
  · rintro ⟨p, hp, hpath⟩
    obtain ⟨pattern, hpattern, hcompile⟩ := compile_defaultPatterns.2 p hp
    exact ⟨pattern, hpattern, p.tokens, hcompile, (hmatch p hp).mpr hpath⟩

variable {ns : List (List UInt8)}

/-- A pattern of last names. -/
theorem matches_last {segments : List (List Token)} :
    (⟨segments, false⟩ : Pattern).Matches ns ↔ ∃ front found, ns = front ++ found ∧
      List.Forall₂ (fun segment n => matchTokens segment n = true) segments found := by
  constructor
  · rintro ⟨front, found, more, rfl, hfound, hmore⟩
    obtain rfl : more = [] := by
      by_contra hne
      exact absurd (hmore.mpr hne) Bool.false_ne_true
    exact ⟨front, found, List.append_nil _, hfound⟩
  · rintro ⟨front, found, rfl, hfound⟩
    exact ⟨front, found, [], (List.append_nil _).symm, hfound, by simp⟩

/-- A pattern of last names, or of names that something is below. -/
theorem matches_either {segments : List (List Token)} :
    ((⟨segments, false⟩ : Pattern).Matches ns ∨ (⟨segments, true⟩ : Pattern).Matches ns) ↔
      ∃ front found more, ns = front ++ found ++ more ∧
        List.Forall₂ (fun segment n => matchTokens segment n = true) segments found := by
  constructor
  · rintro (⟨front, found, more, hns, hfound, -⟩ | ⟨front, found, more, hns, hfound, -⟩) <;>
      exact ⟨front, found, more, hns, hfound⟩
  · rintro ⟨front, found, more, hns, hfound⟩
    by_cases hmore : more = []
    · exact .inl ⟨front, found, more, hns, hfound, by simp [hmore]⟩
    · exact .inr ⟨front, found, more, hns, hfound, by simp [hmore]⟩

theorem forall₂_one {segment : List Token} {found : List (List UInt8)} :
    List.Forall₂ (fun segment n => matchTokens segment n = true) [segment] found ↔
      ∃ n, found = [n] ∧ matchTokens segment n = true := by
  constructor
  · intro h
    obtain ⟨n, _, hn, hnil, rfl⟩ := List.forall₂_cons_left_iff.mp h
    obtain rfl := List.forall₂_nil_left_iff.mp hnil
    exact ⟨n, rfl, hn⟩
  · rintro ⟨n, rfl, hn⟩
    exact .cons hn .nil

theorem forall₂_two {segment segment' : List Token} {found : List (List UInt8)} :
    List.Forall₂ (fun segment n => matchTokens segment n = true) [segment, segment'] found ↔
      ∃ a b, found = [a, b] ∧ matchTokens segment a = true ∧ matchTokens segment' b = true := by
  constructor
  · intro h
    obtain ⟨a, _, ha, hrest, rfl⟩ := List.forall₂_cons_left_iff.mp h
    obtain ⟨b, rfl, hb⟩ := forall₂_one.mp hrest
    exact ⟨a, b, rfl, ha, hb⟩
  · rintro ⟨a, b, rfl, ha, hb⟩
    exact .cons ha (.cons hb .nil)

/-- Words that are written in small. -/
theorem words_small :
    (∀ word ∈ secretDirs, (utf8 word).map lower = utf8 word) ∧
    (∀ word ∈ secretFiles, (utf8 word).map lower = utf8 word) ∧
    (∀ word ∈ secretStems, (utf8 word).map lower = utf8 word) ∧
    (∀ word ∈ secretEndings, (utf8 word).map lower = utf8 word) ∧
    (∀ pair ∈ (".config", "gcloud") :: secretPairs,
      (utf8 pair.1).map lower = utf8 pair.1 ∧ (utf8 pair.2).map lower = utf8 pair.2) := by
  decide +kernel

theorem named_iff {word : String} (h : (utf8 word).map lower = utf8 word) {n : List UInt8} :
    matchTokens (exactly (utf8 word)) n = true ↔ Named word n := by
  rw [matchTokens_exactly, h]
  rfl

/-- A directory, alone or with something below. -/
theorem matches_dir {word : String} (h : (utf8 word).map lower = utf8 word) :
    ((⟨[exactly (utf8 word)], false⟩ : Pattern).Matches ns ∨
        (⟨[exactly (utf8 word)], true⟩ : Pattern).Matches ns) ↔ ∃ n ∈ ns, Named word n := by
  rw [matches_either]
  constructor
  · rintro ⟨front, found, more, rfl, hfound⟩
    obtain ⟨n, rfl, hn⟩ := forall₂_one.mp hfound
    exact ⟨n, by simp, (named_iff h).mp hn⟩
  · rintro ⟨n, hmem, hn⟩
    obtain ⟨front, more, rfl⟩ := List.append_of_mem hmem
    exact ⟨front, [n], more, by simp, forall₂_one.mpr ⟨n, rfl, (named_iff h).mpr hn⟩⟩

/-- A directory in a directory, alone or with something below. -/
theorem matches_dirs {pair : String × String} (h : (utf8 pair.1).map lower = utf8 pair.1 ∧
      (utf8 pair.2).map lower = utf8 pair.2) :
    ((⟨[exactly (utf8 pair.1), exactly (utf8 pair.2)], false⟩ : Pattern).Matches ns ∨
        (⟨[exactly (utf8 pair.1), exactly (utf8 pair.2)], true⟩ : Pattern).Matches ns) ↔
      ∃ front a b more, ns = front ++ a :: b :: more ∧ Named pair.1 a ∧ Named pair.2 b := by
  rw [matches_either]
  constructor
  · rintro ⟨front, found, more, rfl, hfound⟩
    obtain ⟨a, b, rfl, ha, hb⟩ := forall₂_two.mp hfound
    exact ⟨front, a, b, more, by simp, (named_iff h.1).mp ha, (named_iff h.2).mp hb⟩
  · rintro ⟨front, a, b, more, rfl, ha, hb⟩
    exact ⟨front, [a, b], more, by simp,
      forall₂_two.mpr ⟨a, b, rfl, (named_iff h.1).mpr ha, (named_iff h.2).mpr hb⟩⟩

/-- A file, by what its name is, begins with or ends with. -/
theorem matches_file {segment : List Token} :
    (⟨[segment], false⟩ : Pattern).Matches ns ↔
      ∃ front n, ns = front ++ [n] ∧ matchTokens segment n = true := by
  rw [matches_last]
  constructor
  · rintro ⟨front, found, rfl, hfound⟩
    obtain ⟨n, rfl, hn⟩ := forall₂_one.mp hfound
    exact ⟨front, n, rfl, hn⟩
  · rintro ⟨front, n, rfl, hn⟩
    exact ⟨front, [n], rfl, forall₂_one.mpr ⟨n, rfl, hn⟩⟩

/-- A file in a directory. -/
theorem matches_pair {pair : String × String} (h : (utf8 pair.1).map lower = utf8 pair.1 ∧
      (utf8 pair.2).map lower = utf8 pair.2) :
    (⟨[exactly (utf8 pair.1), exactly (utf8 pair.2)], false⟩ : Pattern).Matches ns ↔
      ∃ front a b, ns = front ++ [a, b] ∧ Named pair.1 a ∧ Named pair.2 b := by
  rw [matches_last]
  constructor
  · rintro ⟨front, found, rfl, hfound⟩
    obtain ⟨a, b, rfl, ha, hb⟩ := forall₂_two.mp hfound
    exact ⟨front, a, b, rfl, (named_iff h.1).mp ha, (named_iff h.2).mp hb⟩
  · rintro ⟨front, a, b, rfl, ha, hb⟩
    exact ⟨front, [a, b], rfl,
      forall₂_two.mpr ⟨a, b, rfl, (named_iff h.1).mpr ha, (named_iff h.2).mpr hb⟩⟩

/-- **The globs are about names**: some default pattern matches names if and only if
they are secret. -/
theorem secretNames_iff (hns : ∀ n ∈ ns, separator ∉ n) :
    (∃ p ∈ namePatterns, p.Matches ns) ↔ SecretNames ns := by
  obtain ⟨hdirs, hfiles, hstems, hendings, hpairs⟩ := words_small
  rw [List.forall_mem_cons] at hpairs
  have hlast : ∀ {front n}, ns = front ++ [n] → separator ∉ n := by
    rintro front n rfl
    exact hns n (by simp)
  constructor
  · rintro ⟨p, hp, hmatches⟩
    simp only [namePatterns, List.mem_append, List.mem_flatMap, List.mem_map] at hp
    rcases hp with ((((⟨word, hword, hp⟩ | ⟨below, -, rfl⟩) | ⟨word, hword, rfl⟩) |
      ⟨stem, hstem, rfl⟩) | ⟨last, hending, rfl⟩) | ⟨pair, hpair, rfl⟩
    · refine .inl (.inl ⟨word, hword, (matches_dir (hdirs word hword)).mp ?_⟩)
      rcases List.mem_cons.mp hp with rfl | hp
      · exact .inl hmatches
      · obtain rfl := List.mem_singleton.mp hp
        exact .inr hmatches
    · refine .inl (.inr ((matches_dirs hpairs.1).mp ?_))
      cases below with
      | false => exact .inl hmatches
      | true => exact .inr hmatches
    · obtain ⟨front, n, hn, hmatch⟩ := matches_file.mp hmatches
      exact .inr (.inl ⟨front, n, hn, .inl ⟨word, hword, (named_iff (hfiles word hword)).mp hmatch⟩⟩)
    · obtain ⟨front, n, hn, hmatch⟩ := matches_file.mp hmatches
      rw [matchTokens_beginning (hlast hn), hstems stem hstem] at hmatch
      exact .inr (.inl ⟨front, n, hn, .inr (.inl ⟨stem, hstem, hmatch⟩)⟩)
    · obtain ⟨front, n, hn, hmatch⟩ := matches_file.mp hmatches
      rw [matchTokens_ending (hlast hn), hendings last hending] at hmatch
      exact .inr (.inl ⟨front, n, hn, .inr (.inr ⟨last, hending, hmatch⟩)⟩)
    · obtain ⟨front, a, b, hn, ha, hb⟩ := (matches_pair (hpairs.2 pair hpair)).mp hmatches
      exact .inr (.inr ⟨front, a, b, hn, pair, hpair, ha, hb⟩)
  · simp only [namePatterns, List.mem_append, List.mem_flatMap, List.mem_map]
    rintro ((⟨word, hword, hn⟩ | hcloud) | ⟨front, n, hn, hfile⟩ | ⟨front, a, b, hn, pair, hpair, h⟩)
    · rcases (matches_dir (hdirs word hword)).mpr hn with hmatches | hmatches
      · exact ⟨_, .inl (.inl (.inl (.inl (.inl ⟨word, hword, .head _⟩)))), hmatches⟩
      · exact ⟨_, .inl (.inl (.inl (.inl (.inl ⟨word, hword, .tail _ (.head _)⟩)))), hmatches⟩
    · rcases (matches_dirs hpairs.1).mpr hcloud with hmatches | hmatches
      · exact ⟨_, .inl (.inl (.inl (.inl (.inr ⟨false, by simp, rfl⟩)))), hmatches⟩
      · exact ⟨_, .inl (.inl (.inl (.inl (.inr ⟨true, by simp, rfl⟩)))), hmatches⟩
    · rcases hfile with ⟨word, hword, hfile⟩ | ⟨stem, hstem, hfile⟩ | ⟨last, hending, hfile⟩
      · exact ⟨_, .inl (.inl (.inl (.inr ⟨word, hword, rfl⟩))),
          matches_file.mpr ⟨front, n, hn, (named_iff (hfiles word hword)).mpr hfile⟩⟩
      · refine ⟨_, .inl (.inl (.inr ⟨stem, hstem, rfl⟩)), matches_file.mpr ⟨front, n, hn, ?_⟩⟩
        rwa [matchTokens_beginning (hlast hn), hstems stem hstem]
      · refine ⟨_, .inl (.inr ⟨last, hending, rfl⟩), matches_file.mpr ⟨front, n, hn, ?_⟩⟩
        rwa [matchTokens_ending (hlast hn), hendings last hending]
    · exact ⟨_, .inr ⟨pair, hpair, rfl⟩,
        (matches_pair (hpairs.2 pair hpair)).mpr ⟨front, a, b, hn, h⟩⟩

/-! ### Names with backslashes -/

def backslash : UInt8 := 0x5c

/-- A byte as it is matched. -/
def slashed (b : UInt8) : UInt8 := if b = backslash then separator else b

/-- The bytes a path is matched by. -/
def normalBytes (path : OsPath) : List UInt8 := utf8 (normalise path)

/-- The names some bytes are read as. -/
def readNames (path : OsPath) : List (List UInt8) := names (normalBytes path)

/-- **What is hidden** by the default denylist: paths that are read as secret names. -/
theorem isSecret_withDefaults {path : OsPath} :
    SecretDenylist.withDefaults.isSecret path = true ↔ SecretNames (readNames path) := by
  rw [readNames, ← secretNames_iff fun n hn => notMem_of_mem_names hn, ← matchesAsWritten_iff]
  show (defaultPatterns.any fun pattern => (compile pattern).any fun tokens =>
    Glob.isMatch tokens (normalBytes path)) = true ↔ _
  simp only [List.any_eq_true, Option.any_eq_true]
  rfl

/-- A path is normalised piece by piece between bytes of ASCII. -/
theorem normalBytes_append {c : UInt8} (h : c.toNat < 128) (a b : List UInt8) :
    normalBytes (a ++ c :: b) = normalBytes a ++ slashed c :: normalBytes b := by
  have hchar : ∀ n < 128, String.utf8EncodeChar
      (if Char.ofNat n = '\\' then '/' else Char.ofNat n) = [slashed (.ofNat n)] := by
    decide +kernel
  have hone := hchar c.toNat h
  rw [UInt8.ofNat_toNat] at hone
  unfold normalBytes normalise
  rw [lossyUtf8_append h, List.map_append, List.map_cons, utf8_ofList, utf8_ofList, utf8_ofList,
    List.flatMap_append, List.flatMap_cons, hone]
  rfl

theorem normalBytes_nil : normalBytes [] = [] := by decide

/-- A name with neither slashes nor backslashes stays a name. -/
theorem notMem_normalBytes {n : List UInt8} (h : separator ∉ n) (h' : backslash ∉ n) :
    separator ∉ normalBytes n := by
  intro hmem
  unfold normalBytes normalise at hmem
  have hslash : UInt8.ofNat '/'.toNat = separator := rfl
  rw [← hslash, mem_utf8_iff (by decide), List.mem_map] at hmem
  obtain ⟨c, hc, hread⟩ := hmem
  split_ifs at hread with hback
  · rw [hback] at hc
    exact h' (mem_of_mem_lossyUtf8 (by decide) hc)
  · rw [hread] at hc
    exact h (mem_of_mem_lossyUtf8 (by decide) hc)

/-- Such a name is read as one. -/
theorem readNames_of_notMem {n : List UInt8} (h : separator ∉ n) (h' : backslash ∉ n) :
    readNames n = [normalBytes n] :=
  names_of_notMem (notMem_normalBytes h h')

theorem readNames_append_slash (a b : List UInt8) :
    readNames (a ++ separator :: b) = readNames a ++ readNames b := by
  unfold readNames
  rw [normalBytes_append (by decide)]
  exact names_append _ _

/-- A backslash is read as the end of a name. -/
theorem readNames_append_backslash (a b : List UInt8) :
    readNames (a ++ backslash :: b) = readNames a ++ readNames b := by
  unfold readNames
  rw [normalBytes_append (by decide)]
  exact names_append _ _

/-- A path is read name by name. -/
theorem readNames_eq_flatMap (path : OsPath) : readNames path = (names path).flatMap readNames := by
  induction hns : names path generalizing path with
  | nil => exact absurd hns (names_ne_nil path)
  | cons n more ih =>
      obtain ⟨-, ⟨rfl, rfl⟩ | ⟨rest, rfl, rfl⟩⟩ := names_eq_cons hns
      · simp
      · rw [readNames_append_slash, ih rest rfl, List.flatMap_cons]

/-! ### Words stay -/

/-- What has the letters of plain bytes is plain. -/
theorem lower_plain : ∀ n < 256, (lower (.ofNat n)).toNat < 128 ∧ lower (.ofNat n) ≠ backslash →
    n < 128 ∧ UInt8.ofNat n ≠ backslash := by
  decide +kernel

/-- Plain bytes are matched as they are. -/
theorem normalBytes_plain_append {word : List UInt8}
    (h : ∀ b ∈ word, b.toNat < 128 ∧ b ≠ backslash) (rest : List UInt8) :
    normalBytes (word ++ rest) = word ++ normalBytes rest := by
  induction word with
  | nil => rfl
  | cons b word ih =>
      have hb := h b (.head _)
      have happend := normalBytes_append hb.1 [] (word ++ rest)
      rw [normalBytes_nil, List.nil_append, List.nil_append, slashed, if_neg hb.2,
        ih fun c hc => h c (.tail _ hc)] at happend
      exact happend

/-- Bytes before plain ones are matched on their own. -/
theorem normalBytes_append_plain {word : List UInt8}
    (h : ∀ b ∈ word, b.toNat < 128 ∧ b ≠ backslash) (front : List UInt8) :
    normalBytes (front ++ word) = normalBytes front ++ word := by
  cases word with
  | nil => simp
  | cons b word =>
      have hb := h b (.head _)
      have hword := normalBytes_plain_append (fun c hc => h c (.tail _ hc)) []
      rw [List.append_nil, normalBytes_nil, List.append_nil] at hword
      rw [normalBytes_append hb.1, slashed, if_neg hb.2, hword]

/-- Words of the denylist are plain. -/
def Plain (word : String) : Prop := ∀ b ∈ utf8 word, b.toNat < 128 ∧ b ≠ backslash

instance (word : String) : Decidable (Plain word) := inferInstanceAs (Decidable (∀ _ ∈ _, _))

theorem words_plain :
    (∀ word ∈ secretDirs, Plain word) ∧ (∀ word ∈ secretFiles, Plain word) ∧
    (∀ word ∈ secretStems, Plain word) ∧ (∀ word ∈ secretEndings, Plain word) ∧
    ∀ pair ∈ (".config", "gcloud") :: secretPairs, Plain pair.1 ∧ Plain pair.2 := by
  decide +kernel

/-- Bytes with the letters of a word are plain. -/
theorem plain_of_lower {word : String} (h : Plain word) {n : List UInt8}
    (hn : ∀ b ∈ n, lower b ∈ utf8 word) : ∀ b ∈ n, b.toNat < 128 ∧ b ≠ backslash := by
  intro b hb
  have hlower := lower_plain b.toNat b.toNat_lt
  rw [UInt8.ofNat_toNat] at hlower
  exact hlower (h _ (hn b hb))

/-- A name that is a word is read as it is. -/
theorem readNames_of_named {word : String} (h : Plain word) {n : List UInt8} (hn : Named word n)
    (hname : separator ∉ n) : readNames n = [n] := by
  have hplain : ∀ b ∈ n, b.toNat < 128 ∧ b ≠ backslash :=
    plain_of_lower h fun b hb => by rw [← hn]; exact List.mem_map_of_mem hb
  have hsame := normalBytes_plain_append hplain []
  rw [List.append_nil, normalBytes_nil, List.append_nil] at hsame
  rw [readNames_of_notMem hname fun hmem => (hplain _ hmem).2 rfl, hsame]

/-- The names of what begins with a stem, up to the first backslash behind it. -/
theorem readNames_of_begins {stem : String} (h : Plain stem) {n : List UInt8}
    (hn : Begins stem n) (hname : separator ∉ n) (hback : backslash ∉ n) :
    ∃ m, readNames n = [m] ∧ Begins stem m := by
  refine ⟨normalBytes n, readNames_of_notMem hname hback, ?_⟩
  obtain ⟨rest, hrest⟩ := hn
  obtain ⟨a, b, rfl, ha, -⟩ := List.map_eq_append_iff.mp hrest.symm
  have hplain : ∀ c ∈ a, c.toNat < 128 ∧ c ≠ backslash :=
    plain_of_lower h fun c hc => by rw [← ha]; exact List.mem_map_of_mem hc
  rw [normalBytes_plain_append hplain, Begins, List.map_append, ha]
  exact List.prefix_append _ _

/-- What ends with an ending is read as names the last of which does. -/
theorem readNames_of_ends {ending : String} (h : Plain ending) {n : List UInt8}
    (hn : Ends ending n) (hname : separator ∉ n) :
    ∃ front m, readNames n = front ++ [m] ∧ Ends ending m := by
  obtain ⟨front, hfront⟩ := hn
  obtain ⟨a, b, rfl, -, hb⟩ := List.map_eq_append_iff.mp hfront.symm
  have hplain : ∀ c ∈ b, c.toNat < 128 ∧ c ≠ backslash :=
    plain_of_lower h fun c hc => by rw [← hb]; exact List.mem_map_of_mem hc
  have hmem : separator ∉ b := fun hb => hname (List.mem_append_right _ hb)
  obtain ⟨ns, m, hnames⟩ := names_append_of_notMem (normalBytes a) hmem
  refine ⟨ns, m ++ b, ?_, ?_⟩
  · rw [readNames, normalBytes_append_plain hplain, hnames]
  · rw [Ends, List.map_append, hb]
    exact List.suffix_append _ _

/-! ### What stays hidden -/

theorem SecretDirs.append_left (front : List (List UInt8)) (h : SecretDirs ns) :
    SecretDirs (front ++ ns) := by
  rcases h with ⟨word, hword, n, hn, hnamed⟩ | ⟨before, a, b, more, rfl, h⟩
  · exact .inl ⟨word, hword, n, List.mem_append_right _ hn, hnamed⟩
  · exact .inr ⟨front ++ before, a, b, more, by simp, h⟩

theorem SecretDirs.append_right (more : List (List UInt8)) (h : SecretDirs ns) :
    SecretDirs (ns ++ more) := by
  rcases h with ⟨word, hword, n, hn, hnamed⟩ | ⟨before, a, b, after, rfl, h⟩
  · exact .inl ⟨word, hword, n, List.mem_append_left _ hn, hnamed⟩
  · exact .inr ⟨before, a, b, after ++ more, by simp, h⟩

theorem SecretFile.append_left (front : List (List UInt8)) (h : SecretFile ns) :
    SecretFile (front ++ ns) := by
  rcases h with ⟨before, n, rfl, h⟩ | ⟨before, a, b, rfl, h⟩
  · exact .inl ⟨front ++ before, n, by simp, h⟩
  · exact .inr ⟨front ++ before, a, b, by simp, h⟩

/-- What begins with a stem is none of the words. -/
theorem not_named_of_begins {stem word : String} (hstem : stem ∈ secretStems)
    (hword : word ∈ secretDirs ++ [".config", "gcloud", ".kube", ".docker"]) {n : List UInt8}
    (h : Begins stem n) : ¬ Named word n := by
  intro hnamed
  have hnone : ∀ stem ∈ secretStems, ∀ word ∈ secretDirs ++ [".config", "gcloud", ".kube", ".docker"],
      ¬ utf8 stem <+: utf8 word := by
    decide +kernel
  rw [Begins, hnamed] at h
  exact hnone stem hstem word hword h

/-- A name that begins with a stem hides nothing of the names around it. -/
theorem secretNames_around {front more : List (List UInt8)} {n : List UInt8} {stem : String}
    (hstem : stem ∈ secretStems) (hn : Begins stem n) (hmore : more ≠ [])
    (h : SecretNames (front ++ n :: more)) : SecretDirs front ∨ SecretNames more := by
  have hnot : ∀ word ∈ secretDirs ++ [".config", "gcloud", ".kube", ".docker"], ¬ Named word n :=
    fun word hword => not_named_of_begins hstem hword hn
  rcases h with (⟨word, hword, m, hm, hnamed⟩ | ⟨before, a, b, after, heq, ha, hb⟩) |
    ⟨before, m, heq, hfile⟩ | ⟨before, a, b, heq, pair, hpair, ha, hb⟩
  · rcases List.mem_append.mp hm with hm | hm
    · exact .inl (.inl ⟨word, hword, m, hm, hnamed⟩)
    · rcases List.mem_cons.mp hm with rfl | hm
      · exact absurd hnamed (hnot word (List.mem_append_left _ hword))
      · exact .inr (.inl (.inl ⟨word, hword, m, hm, hnamed⟩))
  · have hn' : n ≠ a ∧ n ≠ b := by
      constructor
      · rintro rfl
        exact hnot ".config" (by decide) ha
      · rintro rfl
        exact hnot "gcloud" (by decide) hb
    rcases List.append_eq_append_iff.mp heq with ⟨x, rfl, hx⟩ | ⟨x, rfl, hx⟩
    · cases x with
      | nil => exact absurd (List.cons.inj hx).1 hn'.1
      | cons y x =>
          obtain ⟨-, rfl⟩ := List.cons.inj hx
          exact .inr (.inl (.inr ⟨x, a, b, after, rfl, ha, hb⟩))
    · match x with
      | [] => exact absurd (List.cons.inj hx).1.symm hn'.1
      | [y] =>
          obtain ⟨-, hx⟩ := List.cons.inj hx
          exact absurd (List.cons.inj hx).1.symm hn'.2
      | y :: z :: x =>
          obtain ⟨hy, hx'⟩ := List.cons.inj hx
          obtain ⟨hz, -⟩ := List.cons.inj hx'
          exact .inl (.inr ⟨before, a, b, x, by rw [hy, hz], ha, hb⟩)
  · obtain ⟨more, m', rfl⟩ := List.eq_nil_or_concat' more |>.resolve_left hmore
    rw [← List.cons_append, ← List.append_assoc] at heq
    obtain ⟨-, hm⟩ := List.append_inj' heq rfl
    obtain rfl := List.singleton_inj.mp hm
    exact .inr (.inr (.inl ⟨more, m', rfl, hfile⟩))
  · obtain ⟨more, b', rfl⟩ := List.eq_nil_or_concat' more |>.resolve_left hmore
    have hlast : front ++ n :: more ++ [b'] = before ++ [a] ++ [b] := by
      rw [List.append_assoc, List.append_assoc]
      exact heq
    obtain ⟨hinit, hb'⟩ := List.append_inj' hlast rfl
    obtain rfl := List.singleton_inj.mp hb'
    rcases List.eq_nil_or_concat' more with rfl | ⟨more, a', rfl⟩
    · obtain ⟨-, hna⟩ := List.append_inj' hinit rfl
      obtain rfl := List.singleton_inj.mp hna
      have hwords : ∀ pair ∈ secretPairs,
          pair.1 ∈ secretDirs ++ [".config", "gcloud", ".kube", ".docker"] := by decide
      exact absurd ha (hnot pair.1 (hwords pair hpair))
    · rw [← List.cons_append, ← List.append_assoc] at hinit
      obtain ⟨-, ha'⟩ := List.append_inj' hinit rfl
      obtain rfl := List.singleton_inj.mp ha'
      exact .inr (.inr (.inr ⟨more, a', b', by simp, pair, hpair, ha, hb⟩))

/-- Secret names are read as secret names, unless the last begins with a stem and has a
backslash. -/
theorem secretNames_read {ns : List (List UInt8)} (hns : ∀ n ∈ ns, separator ∉ n)
    (h : SecretNames ns) :
    SecretNames (ns.flatMap readNames) ∨ ∃ dirs name rest, ns = dirs ++ [name ++ backslash :: rest] ∧
      backslash ∉ name ∧ ∃ stem ∈ secretStems, Begins stem name := by
  obtain ⟨hdirs, hfiles, hstems, hendings, hpairs⟩ := words_plain
  rw [List.forall_mem_cons] at hpairs
  rcases h with (⟨word, hword, n, hn, hnamed⟩ | ⟨front, a, b, more, rfl, ha, hb⟩) |
    ⟨front, n, rfl, ⟨word, hword, hfile⟩ | ⟨stem, hstem, hfile⟩ | ⟨ending, hending, hfile⟩⟩ |
    ⟨front, a, b, rfl, pair, hpair, ha, hb⟩
  · have hread := readNames_of_named (hdirs word hword) hnamed (hns n hn)
    exact .inl (.inl (.inl ⟨word, hword, n,
      List.mem_flatMap.mpr ⟨n, hn, hread.symm ▸ .head _⟩, hnamed⟩))
  · have hreadA := readNames_of_named hpairs.1.1 ha (hns a (by simp))
    have hreadB := readNames_of_named hpairs.1.2 hb (hns b (by simp))
    refine .inl (.inl (.inr ⟨front.flatMap readNames, a, b, more.flatMap readNames, ?_, ha, hb⟩))
    rw [List.flatMap_append, List.flatMap_cons, List.flatMap_cons, hreadA, hreadB]
    rfl
  · have hread := readNames_of_named (hfiles word hword) hfile (hns n (by simp))
    refine .inl (.inr (.inl ⟨front.flatMap readNames, n, ?_, .inl ⟨word, hword, hfile⟩⟩))
    rw [List.flatMap_append, List.flatMap_singleton, hread]
  · by_cases hback : backslash ∈ n
    · obtain ⟨name, rest, rfl, hname⟩ := List.eq_append_cons_of_mem hback
      refine .inr ⟨front, name, rest, rfl, hname, stem, hstem, ?_⟩
      -- A stem has no backslash, so it is over before the first one.
      obtain ⟨more, hmore⟩ := hfile
      rw [List.map_append, List.map_cons] at hmore
      rcases List.append_eq_append_iff.mp hmore with ⟨x, hx, -⟩ | ⟨x, hx, hback'⟩
      · exact ⟨x, hx.symm⟩
      · cases x with
        | nil => exact ⟨[], by rw [List.append_nil, hx, List.append_nil]⟩
        | cons c x =>
            obtain ⟨rfl, -⟩ := List.cons.inj hback'
            exact absurd rfl (hstems stem hstem (lower backslash) (by rw [hx]; simp)).2
    · obtain ⟨m, hread, hbegins⟩ :=
        readNames_of_begins (hstems stem hstem) hfile (hns n (by simp)) hback
      refine .inl (.inr (.inl ⟨front.flatMap readNames, m, ?_, .inr (.inl ⟨stem, hstem, hbegins⟩)⟩))
      rw [List.flatMap_append, List.flatMap_singleton, hread]
  · obtain ⟨before, m, hread, hends⟩ :=
      readNames_of_ends (hendings ending hending) hfile (hns n (by simp))
    refine .inl (.inr (.inl ⟨front.flatMap readNames ++ before, m, ?_,
      .inr (.inr ⟨ending, hending, hends⟩)⟩))
    rw [List.flatMap_append, List.flatMap_singleton, hread, List.append_assoc]
  · have hreadA := readNames_of_named (hpairs.2 pair hpair).1 ha (hns a (by simp))
    have hreadB := readNames_of_named (hpairs.2 pair hpair).2 hb (hns b (by simp))
    refine .inl (.inr (.inr ⟨front.flatMap readNames, a, b, ?_, pair, hpair, ha, hb⟩))
    rw [List.flatMap_append, List.flatMap_cons, List.flatMap_cons, hreadA, hreadB]
    rfl

/-- **When a path stays hidden.**  A path that some default pattern matches as it is
written is hidden unless its last name begins with one of the stems and has a backslash
behind it: then it is hidden if and only if a directory on the way is secret, or what is
behind the first backslash is. -/
theorem hidden_iff (path : OsPath) :
    ((∃ pattern ∈ defaultPatterns, MatchesAsWritten pattern path) →
      SecretDenylist.withDefaults.isSecret path = true) ↔
    ∀ dirs name rest, names path = dirs ++ [name ++ backslash :: rest] → backslash ∉ name →
      (∃ stem ∈ secretStems, Begins stem name) →
      SecretDirs (dirs.flatMap readNames) ∨ SecretNames (readNames rest) := by
  have hns : ∀ n ∈ names path, separator ∉ n := fun n hn => notMem_of_mem_names hn
  rw [matchesAsWritten_iff, secretNames_iff hns, isSecret_withDefaults, readNames_eq_flatMap]
  have hread : ∀ {dirs name rest}, names path = dirs ++ [name ++ backslash :: rest] →
      backslash ∉ name → ∀ {stem}, stem ∈ secretStems → Begins stem name →
      ∃ m, Begins stem m ∧ (names path).flatMap readNames =
        dirs.flatMap readNames ++ m :: readNames rest := by
    intro dirs name rest hpath hback stem hstem hbegins
    have hname : separator ∉ name := fun hmem =>
      hns (name ++ backslash :: rest) (by rw [hpath]; simp) (List.mem_append_left _ hmem)
    obtain ⟨m, hm, hbegins'⟩ :=
      readNames_of_begins (words_plain.2.2.1 stem hstem) hbegins hname hback
    refine ⟨m, hbegins', ?_⟩
    rw [hpath, List.flatMap_append, List.flatMap_singleton, readNames_append_backslash, hm]
    rfl
  constructor
  · rintro h dirs name rest hpath hback ⟨stem, hstem, hbegins⟩
    obtain ⟨m, hbegins', hnames⟩ := hread hpath hback hstem hbegins
    rw [hnames] at h
    refine secretNames_around hstem hbegins' (names_ne_nil _) (h ?_)
    refine .inr (.inl ⟨dirs, _, hpath, .inr (.inl ⟨stem, hstem, ?_⟩)⟩)
    rw [Begins, List.map_append]
    exact hbegins.trans (List.prefix_append _ _)
  · intro h hsecret
    rcases secretNames_read hns hsecret with hstays | ⟨dirs, name, rest, hpath, hback, stem, hstem,
      hbegins⟩
    · exact hstays
    · obtain ⟨m, -, hnames⟩ := hread hpath hback hstem hbegins
      rw [hnames]
      rcases h dirs name rest hpath hback ⟨stem, hstem, hbegins⟩ with hdir | hdir | hfile
      · exact .inl (hdir.append_right _)
      · rw [← List.singleton_append, ← List.append_assoc]
        exact .inl (hdir.append_left _)
      · rw [← List.singleton_append, ← List.append_assoc]
        exact .inr (hfile.append_left _)

/-- A private key whose name has a backslash. -/
theorem unhidden :
    ¬ ∀ path, (∃ pattern ∈ defaultPatterns, MatchesAsWritten pattern path) →
      SecretDenylist.withDefaults.isSecret path = true := by
  intro h
  have hwritten : MatchesAsWritten "**/id_rsa*" (utf8 "/w/id_rsa\\x") :=
    ⟨_, rfl, by decide +kernel⟩
  exact absurd (h _ ⟨_, by decide, hwritten⟩) (by decide +kernel)

end Policy
