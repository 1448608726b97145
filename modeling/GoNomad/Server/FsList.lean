import GoNomad.Server.FsRead

/-!
# What a listing reveals

Two volumes that are the same inside the roots may differ in what is outside.  A
listing shows that difference only through its links: the kind of a link is its
own, the time is that of what it leads to.

* `insertionSort_map_eq_iff` — a sort that does not look at what differs keeps it;
* `dirEntry_render` — what is shown of an entry of a directory;
* `entryAt_eq_iff` — when it is the same on two volumes;
* `listing_same_iff` — when a listing is the same on two volumes;
* `listing_reveals` — a listing that is not.
-/

/-- Sorted by what two maps have in common, they give the same if and only if they
agree. -/
theorem insertionSort_map_eq_iff {α β : Type} {s : β → β → Prop} [DecidableRel s] {f g : α → β}
    {l : List α} (h : ∀ a b, s (f a) (f b) ↔ s (g a) (g b)) :
    (l.map f).insertionSort s = (l.map g).insertionSort s ↔ ∀ a ∈ l, f a = g a := by
  have hf := List.map_insertionSort (fun a b => s (f a) (f b)) s f l fun a _ b _ => Iff.rfl
  have hg := List.map_insertionSort (fun a b => s (f a) (f b)) s g l fun a _ b _ => h a b
  rw [← hf, ← hg, List.map_inj_left]
  simp only [List.mem_insertionSort]

namespace Server

open Proto Policy UnixFs

/-- Two volumes are the same inside the roots: the nodes there, links with their
targets among them, and what is kept about them. -/
structure AgreeInside (guard : PathGuard) (volume volume' : Volume) : Prop where
  lookup : ∀ loc, guard.Inside loc → volume.tree.root.lookup loc = volume'.tree.root.lookup loc
  inode : ∀ loc, guard.Inside loc → volume.inode loc = volume'.inode loc

namespace FsService

variable {service : FsService} {toLowercase : String → String} {volume volume' : Volume}
  {grant : Option DeviceGrant} {requested : String} {r : ResolvedPath} {loc : Location} {n : Name}

/-! ### What is shown -/

/-- A listing shows a path: it is inside a root, and where it is a secret the grant
covers secrets. -/
def Shows (engine : PolicyEngine) (grant : Option DeviceGrant) (path : OsPath) : Prop :=
  path ∈ engine.filterListing grant [path]

instance (engine : PolicyEngine) (grant : Option DeviceGrant) (path : OsPath) :
    Decidable (Shows engine grant path) :=
  inferInstanceAs (Decidable (_ ∈ _))

/-- The filter looks at one path at a time. -/
theorem filterListing_eq (engine : PolicyEngine) (grant : Option DeviceGrant)
    (entries : List OsPath) :
    engine.filterListing grant entries = entries.filter fun path => Shows engine grant path := by
  unfold Shows PolicyEngine.filterListing SecretDenylist.filter
  dsimp only
  split_ifs with hsecrets
  · refine List.filter_congr fun path _ => ?_
    rw [Bool.eq_iff_iff]
    simp
  · rw [List.filter_filter]
    refine List.filter_congr fun path _ => ?_
    rw [Bool.eq_iff_iff]
    simp

/-- The time a listing shows for a path. -/
def shownTime (volume : Volume) (path : OsPath) : Option Int64 :=
  (volume.metadata path).bind modifiedMs

/-! ### One entry -/

/-- The entry of a name in a directory. -/
def entryAt (volume : Volume) (loc : Location) (n : Name) : DirEntry :=
  entryOf n ((volume.tree.root.lookup (loc ++ [n])).getD .file)
    (volume.metadata (render (loc ++ [n])))

/-- What a directory names is there. -/
theorem lookup_of_mem {root : Node} {entries : List (Name × Node)} {e : Name × Node}
    (hdir : root.lookup loc = some (.dir entries)) (he : e ∈ entries) :
    ∃ node, root.lookup (loc ++ [e.1]) = some node := by
  rw [Node.lookup_append, hdir]
  dsimp only
  rw [Node.lookup_singleton]
  cases hentry : (Node.dir entries).entry e.1 with
  | some node => exact ⟨node, rfl⟩
  | none =>
      rw [Node.entry, Option.map_eq_none_iff, List.find?_eq_none] at hentry
      exact absurd (hentry e he) (by simp)

/-- **What is shown of an entry** of a directory. -/
theorem dirEntry_render {entries : List (Name × Node)} {e : Name × Node}
    (hdir : volume.tree.root.lookup loc = some (.dir entries)) (he : e ∈ entries) :
    dirEntry volume (render (loc ++ [e.1])) = some (entryAt volume loc e.1) := by
  obtain ⟨node, hnode⟩ := lookup_of_mem hdir he
  unfold dirEntry entryAt
  rw [fileName_render]
  dsimp only
  rw [Volume.symlinkMetadata_render ⟨_, hdir, rfl⟩, hnode]
  rfl

/-- **An entry is the same on two volumes** that are the same inside, unless it is a
link and what it leads to was changed at different times. -/
theorem entryAt_eq_iff {node : Node} (hsame : AgreeInside service.engine.guard volume volume')
    (hinside : service.engine.guard.Inside (loc ++ [n]))
    (hnode : volume.tree.root.lookup (loc ++ [n]) = some node) :
    entryAt volume loc n = entryAt volume' loc n ↔
      ∀ target, volume.tree.root.lookup (loc ++ [n]) = some (.link target) →
        shownTime volume (render (loc ++ [n])) = shownTime volume' (render (loc ++ [n])) := by
  have hlookup := hsame.lookup _ hinside
  have hinode := hsame.inode _ hinside
  unfold entryAt shownTime
  rw [← hlookup]
  rw [hnode]
  cases node with
  | link target => simp [entryOf, entryKind]
  | file =>
      rw [Volume.metadata_render ⟨_, hnode, rfl⟩,
        Volume.metadata_render ⟨_, hlookup.symm.trans hnode, rfl⟩, hinode]
      simp
  | dir entries =>
      rw [Volume.metadata_render ⟨_, hnode, rfl⟩,
        Volume.metadata_render ⟨_, hlookup.symm.trans hnode, rfl⟩, hinode]
      simp

/-- The order looks at nothing that differs. -/
theorem cmpEntries_entryAt (hsame : AgreeInside service.engine.guard volume volume')
    (hinside : service.engine.guard.Inside loc) (n m : Name) :
    cmpEntries toLowercase (entryAt volume loc n) (entryAt volume loc m) =
      cmpEntries toLowercase (entryAt volume' loc n) (entryAt volume' loc m) := by
  unfold entryAt
  rw [hsame.lookup _ (hinside.below n), hsame.lookup _ (hinside.below m)]
  rfl

/-! ### The listing -/

/-- What a device is shown of a directory. -/
theorem list_of_dir {entries : List (Name × Node)} 
    (hauthorized : service.authorize volume.tree grant .fsRead "fs.list" requested = .ok r)
    (hpath : r.path = render loc) (hdir : volume.tree.root.lookup loc = some (.dir entries)) :
    service.list toLowercase volume grant requested =
      if (volume.inode loc).opens then
        .ok ((((entries.filter fun e => Shows service.engine grant (render (loc ++ [e.1]))).map
          fun e => entryAt volume loc e.1)).insertionSort
            fun a b => cmpEntries toLowercase a b ≠ .gt)
      else .error .notFound := by
  unfold list
  rw [hauthorized, Except.ok_bind, hpath, Volume.readDir_render ⟨_, hdir, rfl⟩, hdir]
  dsimp only
  split_ifs with hopens
  · dsimp only
    rw [filterListing_eq, List.filter_map, List.filterMap_map]
    have hentries : ∀ e ∈ entries.filter ((fun path => decide (Shows service.engine grant path)) ∘
        fun e => render (loc ++ [e.1])),
        (dirEntry volume ∘ fun e => render (loc ++ [e.1])) e = some (entryAt volume loc e.1) :=
      fun e he => dirEntry_render hdir (List.mem_of_mem_filter he)
    rw [List.filterMap_congr hentries, List.filterMap_eq_map']
    rfl
  · rfl

/-- What is not a directory is not listed. -/
theorem list_of_not_dir
    (hauthorized : service.authorize volume.tree grant .fsRead "fs.list" requested = .ok r)
    (hpath : r.path = render loc)
    (hnone : ∀ entries, volume.tree.root.lookup loc ≠ some (.dir entries))
    (hthere : volume.tree.Physical loc ∨ ∃ e, volume.tree.locate r.path = .error e) :
    service.list toLowercase volume grant requested = .error .notFound := by
  have hread : volume.readDir r.path = none := by
    rcases hthere with hphysical | ⟨e, herror⟩
    · rw [hpath, Volume.readDir_render hphysical]
      split
      · exact absurd ‹_› (hnone _)
      · rfl
    · unfold Volume.readDir
      rw [herror]
  unfold list
  rw [hauthorized, Except.ok_bind, hread]

/-- What is authorised resolves. -/
theorem resolve_of_authorize {tree : Snapshot} {capability : Capability} {method : String}
    (h : service.authorize tree grant capability method requested = .ok r) :
    service.engine.guard.resolve tree (utf8 requested) = .ok r := by
  unfold authorize at h
  split_ifs at h
  exact (PolicyEngine.authorizePath_iff.mp h).2.1

/-- **When a listing is the same on two volumes** that are the same inside the roots
and where the same directory is authorised: if and only if every link it shows leads,
on both, to something changed in the same millisecond, or to nothing that tells. -/
theorem listing_same_iff (service : FsService) (toLowercase : String → String)
    (volume volume' : Volume) (grant : Option DeviceGrant) (requested : String) (r : ResolvedPath)
    (hsame : AgreeInside service.engine.guard volume volume')
    (h : service.authorize volume.tree grant .fsRead "fs.list" requested = .ok r)
    (h' : service.authorize volume'.tree grant .fsRead "fs.list" requested = .ok r) :
    service.list toLowercase volume grant requested =
        service.list toLowercase volume' grant requested ↔
      ∀ loc n target, r.path = render loc → (volume.inode loc).opens = true →
        volume.tree.root.lookup (loc ++ [n]) = some (.link target) →
        Shows service.engine grant (render (loc ++ [n])) →
        shownTime volume (render (loc ++ [n])) = shownTime volume' (render (loc ++ [n])) := by
  obtain ⟨loc, hpath, hinside, hthere⟩ := PathGuard.resolve_location (resolve_of_authorize h)
  obtain ⟨loc', hpath', -, hthere'⟩ := PathGuard.resolve_location (resolve_of_authorize h')
  obtain rfl := render_injective (hpath.symm.trans hpath')
  have hlookup := hsame.lookup loc hinside
  by_cases hdir : ∃ entries, volume.tree.root.lookup loc = some (.dir entries)
  · obtain ⟨entries, hdir⟩ := hdir
    rw [list_of_dir h hpath hdir, list_of_dir h' hpath (hlookup.symm.trans hdir),
      ← hsame.inode loc hinside]
    cases hopens : (volume.inode loc).opens with
    | false =>
        refine iff_of_true rfl fun there n target hthere hopen => ?_
        rw [← render_injective (hpath.symm.trans hthere), hopens] at hopen
        cases hopen
    | true =>
        rw [if_pos rfl, if_pos rfl, Except.ok.injEq, insertionSort_map_eq_iff fun a b => ?_]
        swap
        · rw [cmpEntries_entryAt hsame hinside]
        constructor
        · intro hall there n target hthere _ hlink hshows
          obtain rfl := render_injective (hpath.symm.trans hthere)
          obtain ⟨entries', hdir', hentry⟩ := Snapshot.dir_of_lookup hlink
          rw [hdir] at hdir'
          cases hdir'
          obtain ⟨e, hfind, hnode⟩ := Option.map_eq_some_iff.mp hentry
          have hname : e.1 = n := by simpa using List.find?_some hfind
          subst hname
          have heq := hall e (List.mem_filter.mpr
            ⟨List.mem_of_find?_eq_some hfind, decide_eq_true hshows⟩)
          exact (entryAt_eq_iff hsame (hinside.below e.1) hlink).mp heq target hlink
        · intro hall e he
          obtain ⟨hmem, hshows⟩ := List.mem_filter.mp he
          obtain ⟨node, hnode⟩ := lookup_of_mem hdir hmem
          refine (entryAt_eq_iff hsame (hinside.below e.1) hnode).mpr fun target hlink => ?_
          exact hall loc e.1 target hpath hopens hlink (of_decide_eq_true hshows)
  · have hnone : ∀ entries, volume.tree.root.lookup loc ≠ some (.dir entries) :=
      fun entries hsome => hdir ⟨entries, hsome⟩
    have hnone' : ∀ entries, volume'.tree.root.lookup loc ≠ some (.dir entries) :=
      fun entries hsome => hnone entries (hlookup.trans hsome)
    rw [list_of_not_dir h hpath hnone hthere,
      list_of_not_dir h' hpath hnone' hthere']
    refine iff_of_true rfl fun there n target hthere _ hlink => ?_
    -- Nothing is below what is not a directory.
    obtain ⟨entries, hsome, -⟩ := Snapshot.dir_of_lookup hlink
    rw [← render_injective (hpath.symm.trans hthere)] at hsome
    exact absurd hsome (hnone entries)

/-- Asked for by its own path, a directory that is authorised on one volume is
authorised on every other that is the same inside. -/
theorem authorize_agree (hsame : AgreeInside service.engine.guard volume volume')
    (h : service.authorize volume.tree grant .fsRead "fs.list" requested = .ok r)
    (hown : utf8 requested = r.path) {entries : List (Name × Node)} (hpath : r.path = render loc)
    (hdir : volume.tree.root.lookup loc = some (.dir entries)) :
    service.authorize volume'.tree grant .fsRead "fs.list" requested = .ok r := by
  obtain ⟨loc', hpath', hinside, -⟩ := PathGuard.resolve_location (resolve_of_authorize h)
  obtain rfl := render_injective (hpath.symm.trans hpath')
  have hfound : ∀ {tree : Snapshot}, tree.root.lookup loc = some (.dir entries) →
      canonicaliseDeepestAncestor tree (utf8 requested) = .ok (render loc, []) := by
    intro tree hdir
    rw [hown, hpath]
    exact PathGuard.ancestor_of_locate (Snapshot.locate_render ⟨_, hdir, rfl⟩)
  have hresolve : service.engine.guard.resolve volume.tree (utf8 requested) =
      service.engine.guard.resolve volume'.tree (utf8 requested) := by
    unfold PathGuard.resolve
    rw [hfound hdir, hfound ((hsame.lookup loc hinside).symm.trans hdir)]
  rw [← h]
  unfold authorize
  split_ifs
  · rfl
  · unfold PolicyEngine.authorizePath
    rw [hresolve]

/-! ### A link that leads out -/

theorem isName_outside : IsName [0x73] := by decide

/-- The name `s`. -/
def outsideName : Name := ⟨[0x73], isName_outside⟩

/-- The workspace with the link that leads out to `/s`, which was changed then. -/
def linkedVolume (time : Option Int) : Volume where
  tree := PathGuard.sampleTree
  inode loc := ⟨true, [], 0, if loc = [outsideName] then time else some 0⟩

theorem agreeInside_linked (time time' : Option Int) :
    AgreeInside PathGuard.sampleGuard (linkedVolume time) (linkedVolume time') := by
  refine ⟨fun _ _ => rfl, fun loc hinside => ?_⟩
  by_cases hloc : loc = [outsideName]
  · rw [hloc] at hinside
    obtain ⟨root, hroot, hwithin⟩ := hinside
    obtain rfl := List.mem_singleton.mp hroot
    exact absurd hwithin (by decide)
  · unfold linkedVolume
    simp only [if_neg hloc]

theorem linked_authorize (time : Option Int) :
    (⟨PolicyEngine.sampleEngine⟩ : FsService).authorize (linkedVolume time).tree
      (some sampleGrant) .fsRead "fs.list" "/w" = .ok ⟨utf8 "/w", utf8 "/w", true⟩ :=
  authorize_sample (by decide) (by rfl) (by decide)

/-- What is shown of two nanoseconds in the same millisecond. -/
theorem listing_same_linked :
    (⟨PolicyEngine.sampleEngine⟩ : FsService).list String.toLower (linkedVolume (some 0))
        (some sampleGrant) "/w" =
      (⟨PolicyEngine.sampleEngine⟩ : FsService).list String.toLower (linkedVolume (some 1))
        (some sampleGrant) "/w" := by
  refine (listing_same_iff _ _ _ _ _ _ _ (agreeInside_linked _ _) (linked_authorize _)
    (linked_authorize _)).mpr fun loc n target _ _ _ _ => ?_
  unfold shownTime Volume.metadata linkedVolume
  dsimp only
  cases PathGuard.sampleTree.locate (render (loc ++ [n])) with
  | error e => rfl
  | ok there =>
      dsimp only
      rw [Option.bind_some, Option.bind_some]
      split_ifs <;> rfl

/-- **A listing reveals something outside**: when what a link leads to was changed. -/
theorem listing_reveals :
    ¬ ∀ (service : FsService) (toLowercase : String → String) (volume volume' : Volume)
      (grant : Option DeviceGrant) (requested : String) (r : ResolvedPath),
      AgreeInside service.engine.guard volume volume' →
      service.authorize volume.tree grant .fsRead "fs.list" requested = .ok r →
      service.authorize volume'.tree grant .fsRead "fs.list" requested = .ok r →
      service.list toLowercase volume grant requested =
        service.list toLowercase volume' grant requested := by
  intro hall
  have heq := hall _ id _ _ _ _ _ (agreeInside_linked (some 0) (some 1000000))
    (linked_authorize _) (linked_authorize _)
  have hpath : utf8 "/w" = render [PathGuard.workspaceName] := rfl
  have hopens : ∀ time, ((linkedVolume time).inode [PathGuard.workspaceName]).opens = true :=
    fun _ => rfl
  rw [list_of_dir (linked_authorize _) hpath rfl, list_of_dir (linked_authorize _) hpath rfl,
    if_pos (hopens _), if_pos (hopens _), Except.ok.injEq] at heq
  exact absurd heq (by decide)

end FsService

end Server
