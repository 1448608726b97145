import GoNomad.Lib.AssocList
import GoNomad.Lib.Outline
import GoNomad.Lib.Run
import GoNomad.Proto.Control
import Mathlib.Data.Finset.Basic

/-!
# The file tree of the app

Directories are listed when they are opened, and what was listed is kept.  The tree is
flattened into rows, each with its path as its key.

* `walk_eq` — the rows are the open part of a tree;
* `nodup_walk` — no two rows have one path, where listings name nothing twice;
* `mem_walk` — which rows there are.
-/

namespace App

open Proto

/-- One visible row of the flattened tree. -/
structure FileNode where
  path : String
  entry : DirEntry
  depth : Nat
  expanded : Bool
  loadingChildren : Bool
  deriving DecidableEq

/-- What was listed, by path. -/
abbrev Children := AList fun _ : String => List DirEntry

/-- The path of an entry of a directory. -/
def childPath (dir : String) (entry : DirEntry) : String := dir ++ "/" ++ entry.name

theorem length_childPath (dir : String) (entry : DirEntry) :
    dir.length < (childPath dir entry).length := by
  unfold childPath
  rw [String.length_append, String.length_append]
  have hslash : "/".length = 1 := rfl
  omega

/-- The length of the longest path that was listed. -/
def Children.longest (children : Children) : Nat :=
  (children.keys.map String.length).foldr max 0

theorem Children.le_longest {children : Children} {dir : String} {entries : List DirEntry}
    (h : children.lookup dir = some entries) : dir.length ≤ children.longest := by
  have hmem : dir ∈ children.keys :=
    AList.mem_keys.mp (AList.lookup_isSome.mp (by rw [h]; rfl))
  have hle : ∀ (lengths : List Nat) n, n ∈ lengths → n ≤ lengths.foldr max 0 := by
    intro lengths n hn
    induction lengths with
    | nil => cases hn
    | cons m lengths ih =>
        rcases List.mem_cons.mp hn with rfl | hn
        · exact le_max_left ..
        · exact (ih hn).trans (le_max_right ..)
  exact hle _ _ (List.mem_map_of_mem hmem)

/-- How far a path is from the longest that was listed. -/
def Children.rank (children : Children) (dir : String) : Nat := children.longest + 1 - dir.length

theorem Children.rank_childPath {children : Children} {dir : String} {entries : List DirEntry}
    (h : children.lookup dir = some entries) (entry : DirEntry) :
    children.rank (childPath dir entry) < children.rank dir := by
  have hlonger := length_childPath dir entry
  have hle := le_longest h
  unfold rank
  omega

/-- The rows below a directory. -/
def walk (children : Children) (expanded loadingPaths : Finset String) (showHidden : Bool)
    (dir : String) (depth : Nat) : List FileNode :=
  match h : children.lookup dir with
  | none => []
  | some entries =>
      entries.flatMap fun entry =>
        if entry.isHidden && !showHidden then []
        else
          ⟨childPath dir entry, entry, depth, childPath dir entry ∈ expanded,
            childPath dir entry ∈ loadingPaths⟩ ::
            if childPath dir entry ∈ expanded then
              walk children expanded loadingPaths showHidden (childPath dir entry) (depth + 1)
            else []
termination_by children.rank dir
decreasing_by exact Children.rank_childPath h entry

/-! ### The rows as a tree -/

/-- The entries of a directory that are shown. -/
def visible (children : Children) (showHidden : Bool) (dir : String) : List DirEntry :=
  ((children.lookup dir).getD []).filter fun entry => !(entry.isHidden && !showHidden)

theorem mem_visible {children : Children} {showHidden : Bool} {dir : String} {entry : DirEntry} :
    entry ∈ visible children showHidden dir ↔ ∃ entries, children.lookup dir = some entries ∧
      entry ∈ entries ∧ (entry.isHidden = true → showHidden = true) := by
  unfold visible
  cases children.lookup dir with
  | none => simp
  | some entries => cases showHidden <;> simp

theorem rank_visible (children : Children) (showHidden : Bool) (dir : String) :
    ∀ entry ∈ visible children showHidden dir,
      children.rank (childPath dir entry) < children.rank dir := by
  intro entry hentry
  unfold visible at hentry
  cases h : children.lookup dir with
  | none =>
      rw [h] at hentry
      cases hentry
  | some entries => exact Children.rank_childPath h entry

/-- The addresses of the rows. -/
def addresses (children : Children) (expanded : Finset String) (showHidden : Bool) (dir : String) :
    List (List DirEntry) :=
  Outline.outline (visible children showHidden) childPath (fun path => path ∈ expanded)
    (rank_visible children showHidden) dir

section Walk

variable {children : Children} {expanded loadingPaths : Finset String} {showHidden : Bool}
  {dir : String} {depth : Nat}

/-- The path at an address. -/
def pathAt (dir : String) (address : List DirEntry) : String := address.foldl childPath dir

/-- The row at an address. -/
def rowAt (expanded loadingPaths : Finset String) (dir : String) (depth : Nat)
    (address : List DirEntry) : Option FileNode :=
  address.getLast?.map fun entry =>
    ⟨pathAt dir address, entry, depth + (address.length - 1), pathAt dir address ∈ expanded,
      pathAt dir address ∈ loadingPaths⟩

theorem rowAt_cons {entry : DirEntry} {rest : List DirEntry} (hrest : rest ≠ []) :
    rowAt expanded loadingPaths dir depth (entry :: rest) =
      rowAt expanded loadingPaths (childPath dir entry) (depth + 1) rest := by
  obtain ⟨next, rest, rfl⟩ := List.exists_cons_of_ne_nil hrest
  unfold rowAt pathAt
  rw [List.getLast?_cons_cons, List.foldl_cons]
  simp only [List.length_cons, Nat.add_sub_cancel]
  rw [Nat.add_right_comm, Nat.add_assoc]

theorem flatMap_filter_eq {α β : Type} (l : List α) (p : α → Bool) (f : α → List β) :
    (l.filter p).flatMap f = l.flatMap fun a => if p a then f a else [] := by
  induction l with
  | nil => rfl
  | cons a l ih =>
      rw [List.flatMap_cons, ← ih]
      cases hp : p a with
      | true => rw [List.filter_cons_of_pos hp, List.flatMap_cons, if_pos rfl]
      | false =>
          rw [List.filter_cons_of_neg (by simp [hp]), if_neg Bool.false_ne_true, List.nil_append]

/-- The rows of one entry, if it is shown. -/
theorem block_eq {entry : DirEntry}
    (ih : ∀ depth, walk children expanded loadingPaths showHidden (childPath dir entry) depth =
      (addresses children expanded showHidden (childPath dir entry)).filterMap
        (rowAt expanded loadingPaths (childPath dir entry) depth)) :
    (⟨childPath dir entry, entry, depth, childPath dir entry ∈ expanded,
        childPath dir entry ∈ loadingPaths⟩ ::
      if childPath dir entry ∈ expanded then
        walk children expanded loadingPaths showHidden (childPath dir entry) (depth + 1)
      else [] : List FileNode) =
    (Outline.block (visible children showHidden) childPath (fun path => path ∈ expanded)
      (rank_visible children showHidden) dir entry).filterMap
        (rowAt expanded loadingPaths dir depth) := by
  have hbelow : (addresses children expanded showHidden (childPath dir entry)).filterMap
      (rowAt expanded loadingPaths dir depth ∘ (entry :: ·)) =
      (addresses children expanded showHidden (childPath dir entry)).filterMap
        (rowAt expanded loadingPaths (childPath dir entry) (depth + 1)) := by
    refine List.filterMap_congr fun address hmem => ?_
    exact rowAt_cons (Outline.mem_outline.mp hmem).ne_nil
  have hself : rowAt expanded loadingPaths dir depth [entry] =
      some ⟨childPath dir entry, entry, depth, childPath dir entry ∈ expanded,
        childPath dir entry ∈ loadingPaths⟩ := rfl
  unfold Outline.block
  rw [List.filterMap_cons_some hself]
  by_cases hopen : childPath dir entry ∈ expanded
  · rw [if_pos hopen, if_pos (decide_eq_true hopen), List.filterMap_map, ih]
    exact congrArg _ hbelow.symm
  · rw [if_neg hopen, if_neg (by simpa using hopen)]
    rfl

theorem walk_some {entries : List DirEntry} (h : children.lookup dir = some entries) :
    walk children expanded loadingPaths showHidden dir depth = entries.flatMap fun entry =>
      if entry.isHidden && !showHidden then []
      else
        ⟨childPath dir entry, entry, depth, childPath dir entry ∈ expanded,
          childPath dir entry ∈ loadingPaths⟩ ::
          if childPath dir entry ∈ expanded then
            walk children expanded loadingPaths showHidden (childPath dir entry) (depth + 1)
          else [] := by
  rw [walk]
  split
  · next hnone =>
      rw [h] at hnone
      cases hnone
  · next hsome =>
      rw [h] at hsome
      cases hsome
      rfl

theorem walk_none (h : children.lookup dir = none) :
    walk children expanded loadingPaths showHidden dir depth = [] := by
  rw [walk]
  split
  · rfl
  · next hsome =>
      rw [h] at hsome
      cases hsome

/-- **The rows** are those of the open part of the tree. -/
theorem walk_eq : walk children expanded loadingPaths showHidden dir depth =
    (addresses children expanded showHidden dir).filterMap
      (rowAt expanded loadingPaths dir depth) := by
  induction hn : children.rank dir using Nat.strongRecOn generalizing dir depth with
  | ind n ih =>
      subst hn
      unfold addresses
      rw [Outline.outline_eq, List.filterMap_flatMap]
      cases h : children.lookup dir with
      | none =>
          have hnone : visible children showHidden dir = [] := by
            unfold visible
            rw [h]
            rfl
          rw [walk_none h, hnone]
          rfl
      | some entries =>
          have hsome : visible children showHidden dir =
              entries.filter fun entry => !(entry.isHidden && !showHidden) := by
            unfold visible
            rw [h]
            rfl
          rw [walk_some h, hsome, flatMap_filter_eq]
          refine List.flatMap_congr fun entry _ => ?_
          cases hhidden : (entry.isHidden && !showHidden) with
          | true => rfl
          | false => exact block_eq fun depth => ih _ (Children.rank_childPath h entry) rfl

/-! ### What the rows are -/

/-- A listing that names nothing twice, and files by their names only. -/
def IsListing (entries : List DirEntry) : Prop :=
  (entries.map DirEntry.name).Nodup ∧ ∀ entry ∈ entries, '/' ∉ entry.name.toList

instance (entries : List DirEntry) : Decidable (IsListing entries) :=
  inferInstanceAs (Decidable (_ ∧ _))

/-- All that was listed is such. -/
def Children.Good (children : Children) : Prop :=
  ∀ dir entries, children.lookup dir = some entries → IsListing entries

theorem isListing_visible (hgood : children.Good) (showHidden : Bool) (dir : String) :
    IsListing (visible children showHidden dir) := by
  unfold visible
  cases h : children.lookup dir with
  | none => exact ⟨List.nodup_nil, fun entry hentry => nomatch hentry⟩
  | some entries =>
      obtain ⟨hnodup, hslash⟩ := hgood dir entries h
      exact ⟨hnodup.sublist (List.filter_sublist.map _),
        fun entry hentry => hslash entry (List.mem_of_mem_filter hentry)⟩

/-- What is shown below a path. -/
abbrev IsShown (children : Children) (expanded : Finset String) (showHidden : Bool) :
    String → List DirEntry → Prop :=
  Outline.Shown (visible children showHidden) childPath fun path => path ∈ expanded

/-- Where anything is shown, the root was listed. -/
theorem root_mem_of_shown {rest : List DirEntry} {entry : DirEntry}
    (h : IsShown children expanded showHidden dir (rest ++ [entry])) : dir ∈ children := by
  obtain ⟨first, hfirst⟩ : ∃ first, first ∈ visible children showHidden dir := by
    cases rest with
    | nil => exact ⟨entry, h⟩
    | cons first rest => exact ⟨first, ((Outline.shown_cons (by simp)).mp h).1⟩
  obtain ⟨entries, hlookup, -⟩ := mem_visible.mp hfirst
  exact AList.lookup_isSome.mp (Option.isSome_iff_exists.mpr ⟨entries, hlookup⟩)

theorem toList_pathAt (dir : String) (address : List DirEntry) :
    (pathAt dir address).toList =
      dir.toList ++ (address.map fun entry => entry.name.toList).flatMap ('/' :: ·) := by
  induction address generalizing dir with
  | nil => exact (List.append_nil _).symm
  | cons entry rest ih =>
      unfold pathAt at ih ⊢
      rw [List.foldl_cons, ih]
      unfold childPath
      simp

/-- The names of what is shown are no paths. -/
theorem IsShown.slash (hgood : children.Good) {address : List DirEntry}
    (h : IsShown children expanded showHidden dir address) :
    ∀ entry ∈ address, '/' ∉ entry.name.toList := by
  induction address generalizing dir with
  | nil => exact fun entry hentry => nomatch hentry
  | cons first rest ih =>
      have hfirst : first ∈ visible children showHidden dir := by
        cases rest with
        | nil => exact h
        | cons next rest => exact h.1
      intro entry hentry
      rcases List.mem_cons.mp hentry with rfl | hentry
      · exact (isListing_visible hgood showHidden dir).2 _ hfirst
      · by_cases hrest : rest = []
        · rw [hrest] at hentry
          cases hentry
        · exact ih ((Outline.shown_cons hrest).mp h).2.2 entry hentry

/-- Names tell apart what is shown. -/
theorem eq_of_names (hgood : children.Good) {address address' : List DirEntry}
    (h : IsShown children expanded showHidden dir address)
    (h' : IsShown children expanded showHidden dir address')
    (hnames : address.map DirEntry.name = address'.map DirEntry.name) : address = address' := by
  induction address generalizing dir address' with
  | nil => exact absurd h id
  | cons entry rest ih =>
      cases address' with
      | nil => exact absurd h' id
      | cons entry' rest' =>
          obtain ⟨hname, hrest⟩ := List.cons.inj hnames
          have hmem : ∀ {entry rest}, IsShown children expanded showHidden dir (entry :: rest) →
              entry ∈ visible children showHidden dir := by
            intro entry rest h
            cases rest with
            | nil => exact h
            | cons next rest => exact h.1
          obtain rfl : entry = entry' := List.inj_on_of_nodup_map
            (isListing_visible hgood showHidden dir).1 (hmem h) (hmem h') hname
          by_cases hempty : rest = []
          · subst hempty
            rw [List.map_nil] at hrest
            rw [List.map_eq_nil_iff.mp hrest.symm]
          · have hempty' : rest' ≠ [] := by
              rintro rfl
              exact hempty (List.map_eq_nil_iff.mp hrest)
            rw [ih ((Outline.shown_cons hempty).mp h).2.2
              ((Outline.shown_cons hempty').mp h').2.2 hrest]

/-- **A path tells what is shown under it.** -/
theorem pathAt_injective (hgood : children.Good) {address address' : List DirEntry}
    (h : IsShown children expanded showHidden dir address)
    (h' : IsShown children expanded showHidden dir address')
    (hpath : pathAt dir address = pathAt dir address') : address = address' := by
  have hchars := congrArg String.toList hpath
  rw [toList_pathAt, toList_pathAt] at hchars
  have hslash : ∀ {address}, IsShown children expanded showHidden dir address →
      ∀ name ∈ address.map fun entry => entry.name.toList, '/' ∉ name := by
    intro address h name hname
    obtain ⟨entry, hentry, rfl⟩ := List.mem_map.mp hname
    exact IsShown.slash hgood h entry hentry
  have hnames := Outline.flatMap_sep_injective (hslash h) (hslash h')
    (List.append_cancel_left hchars)
  refine eq_of_names hgood h h' ?_
  have hname : String.ofList ∘ (fun entry : DirEntry => entry.name.toList) = DirEntry.name :=
    funext fun entry => String.ofList_toList
  have hstrings := congrArg (List.map String.ofList) hnames
  rwa [List.map_map, List.map_map, hname] at hstrings

theorem length_le_pathAt (dir : String) (address : List DirEntry) :
    dir.length ≤ (pathAt dir address).length := by
  induction address generalizing dir with
  | nil => exact le_rfl
  | cons entry rest ih => exact (length_childPath dir entry).le.trans (ih _)

theorem pathAt_append (rest : List DirEntry) (entry : DirEntry) :
    pathAt dir (rest ++ [entry]) = childPath (pathAt dir rest) entry := List.foldl_append ..

/-- The row of an entry, below the address of its directory. -/
def nodeAt (expanded loadingPaths : Finset String) (dir : String) (depth : Nat)
    (rest : List DirEntry) (entry : DirEntry) : FileNode :=
  ⟨childPath (pathAt dir rest) entry, entry, depth + rest.length,
    childPath (pathAt dir rest) entry ∈ expanded, childPath (pathAt dir rest) entry ∈ loadingPaths⟩

theorem rowAt_append (rest : List DirEntry) (entry : DirEntry) :
    rowAt expanded loadingPaths dir depth (rest ++ [entry]) =
      some (nodeAt expanded loadingPaths dir depth rest entry) := by
  unfold rowAt
  rw [List.getLast?_concat, pathAt_append, List.length_append]
  exact rfl

/-- **Which rows there are.** -/
theorem mem_walk {row : FileNode} : row ∈ walk children expanded loadingPaths showHidden dir depth ↔
    ∃ rest entry, IsShown children expanded showHidden dir (rest ++ [entry]) ∧
      row = nodeAt expanded loadingPaths dir depth rest entry := by
  rw [walk_eq, List.mem_filterMap]
  constructor
  · rintro ⟨address, hmem, hrow⟩
    have hshown := Outline.mem_outline.mp hmem
    obtain ⟨rest, entry, rfl⟩ := (List.eq_nil_or_concat address).resolve_left hshown.ne_nil
    rw [List.concat_eq_append] at hrow hshown
    rw [rowAt_append] at hrow
    exact ⟨rest, entry, hshown, (Option.some.inj hrow).symm⟩
  · rintro ⟨rest, entry, hshown, rfl⟩
    exact ⟨rest ++ [entry], Outline.mem_outline.mpr hshown, rowAt_append rest entry⟩

/-- **A row stands below the row of its directory.** -/
theorem sublist_walk {before : List DirEntry} {parent entry : DirEntry}
    (h : IsShown children expanded showHidden dir (before ++ [parent] ++ [entry])) :
    [nodeAt expanded loadingPaths dir depth before parent,
      nodeAt expanded loadingPaths dir depth (before ++ [parent]) entry].Sublist
      (walk children expanded loadingPaths showHidden dir depth) := by
  have hmem : before ++ [parent] ++ [entry] ∈ addresses children expanded showHidden dir :=
    Outline.mem_outline.mpr h
  have hsub := (Outline.sublist_outline (by simp) hmem).filterMap
    (rowAt expanded loadingPaths dir depth)
  rw [List.filterMap_cons_some (rowAt_append before parent),
    List.filterMap_cons_some (rowAt_append (before ++ [parent]) entry), List.filterMap_nil] at hsub
  rw [walk_eq]
  exact hsub

/-- **No two rows have one path.** -/
theorem nodup_walk (hgood : children.Good) :
    ((walk children expanded loadingPaths showHidden dir depth).map FileNode.path).Nodup := by
  have hkids : ∀ dir, (visible children showHidden dir).Nodup := fun dir =>
    (isListing_visible hgood showHidden dir).1.of_map
  have hpaths : (walk children expanded loadingPaths showHidden dir depth).map FileNode.path =
      (addresses children expanded showHidden dir).map (pathAt dir) := by
    rw [walk_eq, List.map_filterMap, ← List.filterMap_eq_map]
    refine List.filterMap_congr fun address hmem => ?_
    have hshown := Outline.mem_outline.mp hmem
    obtain ⟨rest, entry, rfl⟩ := (List.eq_nil_or_concat address).resolve_left hshown.ne_nil
    rw [List.concat_eq_append, rowAt_append, Option.map_some]
    exact congrArg some (pathAt_append rest entry).symm
  rw [hpaths]
  exact (Outline.nodup_outline hkids).map_on fun address hmem address' hmem' hpath =>
    pathAt_injective hgood (Outline.mem_outline.mp hmem) (Outline.mem_outline.mp hmem') hpath

end Walk

end App
