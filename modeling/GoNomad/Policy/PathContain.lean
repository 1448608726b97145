import GoNomad.Policy.PathGuard

/-!
# What the guard lets through stays inside

A path that the guard returns is the path of a physical location, with a tail of
names behind it the first of which is missing there.  So no link is left in it,
and it opens where it reads.

* `walkUp_spec` — what the walk up to the deepest existing ancestor returns;
* `PathGuard.contained` — a resolved path is inside one of the roots, and so is
  what it opens;
* `PathGuard.resolve_location` — the location a resolved path is that of.
-/

namespace Policy

open UnixFs

variable {fs : Snapshot} {guard : PathGuard} {requested : OsPath} {r : ResolvedPath}

/-- What a path is canonicalised to is the path of a physical location. -/
theorem physical_of_canonicalize {path canonical : OsPath} (habsolute : isAbsolute path = true)
    (h : fs.canonicalize path = .ok canonical) :
    ∃ loc, fs.locate path = .ok loc ∧ canonical = render loc ∧ fs.Physical loc := by
  unfold Snapshot.canonicalize at h
  cases hlocate : fs.locate path with
  | error e =>
      rw [hlocate] at h
      cases h
  | ok loc =>
      rw [hlocate] at h
      cases h
      refine ⟨loc, rfl, rfl, ?_⟩
      unfold Snapshot.locate Snapshot.start at hlocate
      rw [if_pos habsolute] at hlocate
      split_ifs at hlocate
      exact Snapshot.physical_of_walk Snapshot.physical_root hlocate

/-- Asking for an entry of a physical location. -/
theorem symlinkMetadata_push {loc : Location} (n : Name) (hphysical : fs.Physical loc) :
    fs.symlinkMetadata (push (render loc) n) =
      match fs.root.lookup loc with
      | some (.dir entries) =>
          match (Node.dir entries).entry n with
          | none => .error .notFound
          | some _ => .ok ()
      | _ => .error .notADirectory := by
  have hsegs : segments (render (loc ++ [n])) = .cur :: loc.map .name ++ [.name n] := by
    have hsegs := @segments_render (loc ++ [n]) (by simp)
    rwa [List.map_append, List.map_singleton] at hsegs
  unfold Snapshot.symlinkMetadata
  rw [push_render, hsegs, List.getLast?_concat, List.dropLast_concat, Snapshot.start_render]
  dsimp only
  rewrite [Snapshot.walk_location _ hphysical]
  rfl

/-- A component that was confirmed as missing is missing in a directory. -/
theorem missing_of_verify {loc : Location} {n : Name} (hphysical : fs.Physical loc)
    (h : verifyStillMissing fs (push (render loc) n) = .ok ()) :
    ∃ entries, fs.root.lookup loc = some (.dir entries) ∧ (Node.dir entries).entry n = none := by
  unfold verifyStillMissing at h
  rw [symlinkMetadata_push n hphysical] at h
  cases hloc : fs.root.lookup loc with
  | none =>
      rw [hloc] at h
      cases h
  | some node =>
      rw [hloc] at h
      cases node with
      | file => cases h
      | link target => cases h
      | dir entries =>
          refine ⟨entries, rfl, ?_⟩
          dsimp only at h
          cases hentry : (Node.dir entries).entry n with
          | none => rfl
          | some child =>
              rw [hentry] at h
              cases h

/-- **What the walk up returns**: the path of a physical location, and a tail
whose first name is missing there. -/
theorem walkUp_spec {cursor canonical : OsPath} {tail tail' : List Name} {rounds : Nat}
    (habsolute : isAbsolute cursor = true)
    (h : walkUp fs cursor tail rounds = .ok (canonical, tail')) :
    tail <:+ tail' ∧ ∃ loc, canonical = render loc ∧ fs.Physical loc ∧
      ∀ n rest, tail' = n :: rest → ∃ entries, fs.root.lookup loc = some (.dir entries) ∧
        (Node.dir entries).entry n = none := by
  induction rounds generalizing cursor tail with
  | zero => cases h
  | succ rounds ih =>
      unfold walkUp at h
      cases hcanonical : fs.canonicalize cursor with
      | ok found =>
          rw [hcanonical] at h
          obtain ⟨loc, -, rfl, hphysical⟩ := physical_of_canonicalize habsolute hcanonical
          cases tail with
          | nil =>
              cases h
              exact ⟨List.suffix_rfl, loc, rfl, hphysical, fun n rest hn => by cases hn⟩
          | cons first tail =>
              dsimp only at h
              cases hverify : verifyStillMissing fs (push (render loc) first) with
              | error reason =>
                  rw [hverify] at h
                  cases h
              | ok u =>
                  rw [hverify] at h
                  cases h
                  refine ⟨List.suffix_rfl, loc, rfl, hphysical, ?_⟩
                  intro n rest hn
                  cases hn
                  exact missing_of_verify hphysical hverify
      | error e =>
          rw [hcanonical] at h
          cases e with
          | notADirectory => cases h
          | tooManyLinks => cases h
          | notFound =>
              dsimp only at h
              cases hname : fileName cursor with
              | none =>
                  rw [hname] at h
                  cases h
              | some name =>
                  rw [hname] at h
                  dsimp only at h
                  cases hparent : parent cursor with
                  | none =>
                      rw [hparent] at h
                      cases h
                  | some above =>
                      rw [hparent] at h
                      obtain ⟨hsuffix, hspec⟩ := ih (parent_isAbsolute habsolute hparent) h
                      exact ⟨(List.suffix_cons name tail).trans hsuffix, hspec⟩

/-- The requested path exists exactly when nothing was trimmed from it. -/
theorem tail_nil_iff {canonical : OsPath} {tail : List Name} {rounds : Nat}
    (habsolute : isAbsolute requested = true)
    (h : walkUp fs requested [] (rounds + 1) = .ok (canonical, tail)) :
    tail = [] ↔ fs.Exists requested := by
  unfold walkUp at h
  cases hcanonical : fs.canonicalize requested with
  | ok found =>
      rw [hcanonical] at h
      cases h
      obtain ⟨loc, hlocate, -⟩ := physical_of_canonicalize habsolute hcanonical
      exact ⟨fun _ => ⟨loc, hlocate⟩, fun _ => rfl⟩
  | error e =>
      have hmissing : ¬ fs.Exists requested := by
        rintro ⟨loc, hlocate⟩
        unfold Snapshot.canonicalize at hcanonical
        rw [hlocate] at hcanonical
        cases hcanonical
      rw [hcanonical] at h
      cases e with
      | notADirectory => cases h
      | tooManyLinks => cases h
      | notFound =>
          dsimp only at h
          cases hname : fileName requested with
          | none =>
              rw [hname] at h
              cases h
          | some name =>
              rw [hname] at h
              dsimp only at h
              cases hparent : parent requested with
              | none =>
                  rw [hparent] at h
                  cases h
              | some above =>
                  rw [hparent] at h
                  obtain ⟨hsuffix, -⟩ := walkUp_spec (parent_isAbsolute habsolute hparent) h
                  refine ⟨fun hnil => ?_, fun hexists => absurd hexists hmissing⟩
                  rw [hnil] at hsuffix
                  cases List.suffix_nil.mp hsuffix

theorem appendTail_render (loc : Location) (tail : List Name) :
    PathGuard.appendTail (render loc) tail = render (loc ++ tail) := by
  unfold PathGuard.appendTail
  induction tail generalizing loc with
  | nil => rw [List.append_nil]; rfl
  | cons n tail ih => rw [List.foldl_cons, push_render, ih, List.append_assoc]; rfl

namespace PathGuard

theorem matchComponents_iff {rs cs : List Component} : matchComponents rs cs = true ↔ rs <+: cs := by
  induction rs generalizing cs with
  | nil => simp [matchComponents]
  | cons r rs ih =>
      cases cs with
      | nil => simp [matchComponents]
      | cons c cs =>
          unfold matchComponents
          rw [List.cons_prefix_cons]
          split_ifs with heq
          · rw [ih, and_iff_right heq]
          · simp [heq]

theorem isWithin_iff {root candidate : OsPath} :
    isWithin root candidate = true ↔ components root <+: components candidate :=
  matchComponents_iff

/-- What every successful resolution went through. -/
theorem resolve_cases (h : guard.resolve fs requested = .ok r) :
    isAbsolute requested = true ∧ ∃ ancestor tail root,
      canonicaliseDeepestAncestor fs requested = .ok (ancestor, tail) ∧ root ∈ guard.roots ∧
      isWithin root.canonical (appendTail ancestor tail) = true ∧
      r = { path := appendTail ancestor tail, root := root.canonical, isThere := tail.isEmpty } := by
  unfold resolve at h
  cases hshape : guard.checkSyntax requested with
  | error reason =>
      rw [hshape] at h
      cases h
  | ok u =>
      rw [hshape] at h
      dsimp only at h
      have habsolute : isAbsolute requested = true := by
        unfold checkSyntax at hshape
        split at hshape
        · cases hshape
        · split_ifs at hshape with _ _ _ hrelative
          simpa using hrelative
      refine ⟨habsolute, ?_⟩
      split_ifs at h with hroots hunc
      cases hwalk : canonicaliseDeepestAncestor fs requested with
      | error reason =>
          rw [hwalk] at h
          cases h
      | ok found =>
          obtain ⟨ancestor, tail⟩ := found
          rw [hwalk] at h
          dsimp only at h
          split_ifs at h with hunc'
          cases hroot : guard.locateRoot (appendTail ancestor tail) with
          | none =>
              rw [hroot] at h
              cases h
          | some root =>
              rw [hroot] at h
              cases h
              unfold locateRoot at hroot
              have hwithin := List.find?_some hroot
              exact ⟨ancestor, tail, root, rfl, List.mem_of_find?_eq_some hroot, hwithin, rfl⟩

/-- **A resolved path is inside one of the roots**, names nothing but what it
reads, and opens inside that root; it says that it exists exactly when it does. -/
theorem contained (h : guard.resolve fs requested = .ok r) :
    ∃ root ∈ guard.roots, r.root = root.canonical ∧
      components root.canonical <+: components r.path ∧
      .curDir ∉ components r.path ∧ .parentDir ∉ components r.path ∧
      (∃ there, fs.Reaches r.path there) ∧
      (∀ there, fs.Reaches r.path there →
        components root.canonical <+: components (render there)) ∧
      (r.isThere = true ↔ fs.Exists r.path) ∧ (r.isThere = true ↔ fs.Exists requested) := by
  obtain ⟨habsolute, ancestor, tail, root, hwalk, hroot, hwithin, rfl⟩ := resolve_cases h
  obtain ⟨-, loc, rfl, hphysical, hmissing⟩ := walkUp_spec habsolute hwalk
  have hexists := tail_nil_iff habsolute hwalk
  rw [appendTail_render] at hwithin ⊢
  have hprefix := isWithin_iff.mp hwithin
  refine ⟨root, hroot, rfl, hprefix, ?_, ?_, ?_⟩
  · rw [components_render]
    simp
  · rw [components_render]
    simp
  · rw [List.isEmpty_iff]
    dsimp only
    -- Either the path exists, or the first name of the tail is missing.
    cases tail with
    | nil =>
        rw [List.append_nil] at hprefix ⊢
        refine ⟨⟨loc, (Snapshot.reaches_physical hphysical).mpr rfl⟩, ?_, ?_, hexists⟩
        · intro there hreaches
          rw [(Snapshot.reaches_physical hphysical).mp hreaches]
          exact hprefix
        · exact ⟨fun _ => ⟨loc, Snapshot.locate_render hphysical⟩, fun _ => rfl⟩
    | cons n rest =>
        obtain ⟨entries, hdir, hnone⟩ := hmissing n rest rfl
        refine ⟨⟨_, (Snapshot.reaches_render hdir hnone).mpr rfl⟩, ?_, ?_, hexists⟩
        · intro there hreaches
          rw [(Snapshot.reaches_render hdir hnone).mp hreaches]
          exact hprefix
        · refine ⟨fun hnil => absurd hnil (List.cons_ne_nil n rest), ?_⟩
          rintro ⟨there, hthere⟩
          rw [Snapshot.locate_missing hdir hnone] at hthere
          cases hthere

/-- The location is inside a root. -/
def Inside (guard : PathGuard) (loc : Location) : Prop :=
  ∃ root ∈ guard.roots, isWithin root.canonical (render loc) = true

/-- What is below something inside is inside. -/
theorem Inside.below {loc : Location} (h : guard.Inside loc) (n : Name) :
    guard.Inside (loc ++ [n]) := by
  obtain ⟨root, hroot, hwithin⟩ := h
  refine ⟨root, hroot, ?_⟩
  rw [isWithin_iff, components_render] at hwithin ⊢
  rw [List.map_append, ← List.cons_append]
  exact hwithin.trans (List.prefix_append _ _)

/-- A resolved path is that of a location inside, which is physical or missing. -/
theorem resolve_location (h : guard.resolve fs requested = .ok r) :
    ∃ loc, r.path = render loc ∧ guard.Inside loc ∧
      (fs.Physical loc ∨ ∃ e, fs.locate r.path = .error e) := by
  obtain ⟨habsolute, ancestor, tail, root, hwalk, hroot, hwithin, rfl⟩ := resolve_cases h
  obtain ⟨-, loc, rfl, hphysical, hmissing⟩ := walkUp_spec habsolute hwalk
  rw [appendTail_render] at hwithin ⊢
  refine ⟨loc ++ tail, rfl, ⟨root, hroot, hwithin⟩, ?_⟩
  cases tail with
  | nil =>
      rw [List.append_nil]
      exact .inl hphysical
  | cons n rest =>
      obtain ⟨entries, hdir, hnone⟩ := hmissing n rest rfl
      exact .inr ⟨_, Snapshot.locate_missing hdir hnone⟩

/-! ### A workspace with links -/

/-- The name `w`. -/
def workspaceName : Name := ⟨[0x77], by decide⟩

/-- `/w` holds a directory `d`, a link `l` to it and a link `e` that leads out to
`/s`. -/
def sampleTree : Snapshot where
  root := .dir
    [(workspaceName, .dir
        [(⟨[0x64], by decide⟩, .dir []), (⟨[0x6c], by decide⟩, .link [0x64]),
         (⟨[0x65], by decide⟩, .link [0x2f, 0x73])]),
     (⟨[0x73], by decide⟩, .dir [])]
  root_isDir := rfl
  cwd := []
  maxLinks := 40

/-- One root, `/w`, with the strict options. -/
def sampleGuard : PathGuard := ⟨[⟨utf8 "/w", utf8 "/w"⟩], ⟨true, false⟩⟩

/-- A new file behind the link that stays inside. -/
theorem contained_through_link :
    sampleGuard.resolve sampleTree (utf8 "/w/l/x") = .ok ⟨utf8 "/w/d/x", utf8 "/w", false⟩ ∧
      (∃ there, sampleTree.Reaches (utf8 "/w/d/x") there) ∧
      ∀ there, sampleTree.Reaches (utf8 "/w/d/x") there →
        ∃ root ∈ sampleGuard.roots, components root.canonical <+: components (render there) := by
  have hresolve :
      sampleGuard.resolve sampleTree (utf8 "/w/l/x") = .ok ⟨utf8 "/w/d/x", utf8 "/w", false⟩ := rfl
  obtain ⟨root, hroot, -, -, -, -, hreaches, hinside, -⟩ := contained hresolve
  exact ⟨hresolve, hreaches, fun there hthere => ⟨root, hroot, hinside there hthere⟩⟩

-- The link that leads out is found out by where it leads.
example : sampleGuard.resolve sampleTree (utf8 "/w/e/x") = .error .outsideRoots := rfl

end PathGuard

end Policy
