import GoNomad.Server.FsList

/-!
# What a listing offers to open

A listing keeps the entries that are spelled inside a root and are no secret by their
own name.  Opening one is authorised for what the directory, joined with the name that
was shown, leads to.

* `mem_list` — what a listing consists of;
* `opens_iff` — when an entry opens as what was listed;
* `listing_opens_iff` — when every entry of a listing does;
* `listed_outside` — one that does not.
-/

namespace Server

open Proto Policy UnixFs

namespace FsService

variable {service : FsService} {toLowercase : String → String} {volume : Volume}
  {grant : Option DeviceGrant} {requested : String} {r : ResolvedPath} {loc : Location} {n : Name}

/-! ### What is listed -/

/-- A directory has an entry of this name, and a listing shows it. -/
def Listed (service : FsService) (volume : Volume) (grant : Option DeviceGrant) (loc : Location)
    (n : Name) : Prop :=
  (∃ entries node, volume.tree.root.lookup loc = some (.dir entries) ∧ (n, node) ∈ entries) ∧
    Shows service.engine grant (render (loc ++ [n]))

/-- A listing is of a directory that is there and opens, and consists of what it shows. -/
theorem mem_list {listed : List DirEntry}
    (h : service.list toLowercase volume grant requested = .ok listed) :
    ∃ loc, volume.tree.locate (utf8 requested) = .ok loc ∧ Allows grant .fsRead ∧
      ∀ e, e ∈ listed ↔ ∃ n, Listed service volume grant loc n ∧ e = entryAt volume loc n := by
  have hauthorized : ∃ r, service.authorize volume.tree grant .fsRead "fs.list" requested = .ok r := by
    unfold list at h
    obtain ⟨r, hr, -⟩ := Except.bind_eq_ok.mp h
    exact ⟨r, hr⟩
  obtain ⟨r, hauthorized⟩ := hauthorized
  have hallows : Allows grant .fsRead := by
    unfold authorize at hauthorized
    split_ifs at hauthorized
    exact (PolicyEngine.authorizePath_iff.mp hauthorized).1.1
  obtain ⟨loc, hpath, -, hthere⟩ := PathGuard.resolve_location (resolve_of_authorize hauthorized)
  by_cases hdir : ∃ entries, volume.tree.root.lookup loc = some (.dir entries)
  · obtain ⟨entries, hdir⟩ := hdir
    have hlocate := PathGuard.locate_of_resolve (resolve_of_authorize hauthorized) hpath
      ⟨_, hdir, rfl⟩
    refine ⟨loc, hlocate, hallows, fun e => ?_⟩
    rw [list_of_dir hauthorized hpath hdir] at h
    split_ifs at h with hopens
    rw [← Except.ok.inj h, List.mem_insertionSort, List.mem_map]
    constructor
    · rintro ⟨entry, hentry, rfl⟩
      obtain ⟨hmem, hshows⟩ := List.mem_filter.mp hentry
      exact ⟨entry.1, ⟨⟨entries, entry.2, hdir, hmem⟩, of_decide_eq_true hshows⟩, rfl⟩
    · rintro ⟨n, ⟨⟨entries', node, hdir', hmem⟩, hshows⟩, rfl⟩
      rw [hdir] at hdir'
      cases hdir'
      exact ⟨(n, node), List.mem_filter.mpr ⟨hmem, decide_eq_true hshows⟩, rfl⟩
  · rw [list_of_not_dir hauthorized hpath (fun entries hsome => hdir ⟨entries, hsome⟩) hthere] at h
    cases h

/-! ### Opening it -/

/-- A directory joined with a name, as a device asks for it. -/
def joined (requested name : String) : OsPath :=
  match (utf8 requested).getLast? with
  | none => utf8 name
  | some b =>
      if b = slash then utf8 requested ++ utf8 name else utf8 requested ++ slash :: utf8 name

/-- A read of a path. -/
def reading (grant : Option DeviceGrant) (path : OsPath) (presence : Presence) : PathRequest where
  grant := grant
  capability := .fsRead
  path := path
  method := "fs.read"
  argsDigest := .of path
  presence := presence

/-- A read of an entry of a listing, under the name it is shown by. -/
def asking (volume : Volume) (grant : Option DeviceGrant) (requested : String)
    (presence : OsPath → Presence) (loc : Location) (n : Name) : PathRequest :=
  let path := joined requested (entryAt volume loc n).name
  reading grant path (presence path)

/-- An entry opens under the name it is listed by, as what the entry leads to. -/
def Opens (service : FsService) (tree : Snapshot) (request : PathRequest) (entry : OsPath) : Prop :=
  ∃ r, service.engine.authorizePath tree request = .ok r ∧ tree.canonicalize entry = .ok r.path

/-- The path that is asked for has the shape the guard accepts, and leads to where the
entry itself leads, which is inside a root, and no secret, or the request clears
`fsSecrets`. -/
def LeadsInside (service : FsService) (tree : Snapshot) (request : PathRequest) (entry : OsPath) :
    Prop :=
  service.engine.guard.checkSyntax request.path = .ok () ∧
    ∃ there, tree.locate request.path = .ok there ∧ tree.locate entry = .ok there ∧
      service.engine.guard.Inside there ∧
      (service.engine.denylist.isSecret (render there) = true →
        PolicyEngine.Clears request .fsSecrets)

/-- **When an entry opens** as what was listed. -/
theorem opens_iff {tree : Snapshot} {request : PathRequest} {entry : OsPath}
    (hclears : PolicyEngine.Clears request request.capability) (habsolute : isAbsolute entry = true) :
    Opens service tree request entry ↔ LeadsInside service tree request entry := by
  unfold Opens LeadsInside
  constructor
  · rintro ⟨r, hauthorized, hentry⟩
    obtain ⟨-, hresolve, hsecret⟩ := PolicyEngine.authorizePath_iff.mp hauthorized
    obtain ⟨there, hlocate, hpath, hphysical⟩ := physical_of_canonicalize habsolute hentry
    obtain ⟨loc, hpath', hinside, -⟩ := PathGuard.resolve_location hresolve
    obtain rfl := render_injective (hpath.symm.trans hpath')
    refine ⟨PathGuard.checkSyntax_of_resolve hresolve, there,
      PathGuard.locate_of_resolve hresolve hpath hphysical, hlocate, hinside, ?_⟩
    rwa [← hpath]
  · rintro ⟨hshape, there, hlocate, hentry, hinside, hsecret⟩
    obtain ⟨r, hresolve, hpath⟩ := PathGuard.resolve_of_locate hshape hlocate hinside
    refine ⟨r, PolicyEngine.authorizePath_iff.mpr ⟨hclears, hresolve, ?_⟩, ?_⟩
    · rwa [hpath]
    · unfold Snapshot.canonicalize
      rw [hentry, hpath]
      rfl

/-- **When a listing only offers what opens**: if and only if every entry it shows,
joined with the directory under the name it is shown by, has the shape the guard accepts
and leads to where the entry leads, inside a root, and to no secret that the request does
not clear. -/
theorem listing_opens_iff (service : FsService) (toLowercase : String → String) (volume : Volume)
    (grant : Option DeviceGrant) (requested : String) (presence : OsPath → Presence)
    (listed : List DirEntry)
    (h : service.list toLowercase volume grant requested = .ok listed) :
    ∃ loc, volume.tree.locate (utf8 requested) = .ok loc ∧
      (∀ e, e ∈ listed ↔ ∃ n, Listed service volume grant loc n ∧ e = entryAt volume loc n) ∧
      ((∀ n, Listed service volume grant loc n →
          Opens service volume.tree (asking volume grant requested presence loc n)
            (render (loc ++ [n]))) ↔
        ∀ n, Listed service volume grant loc n →
          LeadsInside service volume.tree (asking volume grant requested presence loc n)
            (render (loc ++ [n]))) := by
  obtain ⟨loc, hlocate, hallows, hlisted⟩ := mem_list h
  have hquiet : Capability.fsRead.requiresPresence ≠ true := by decide
  refine ⟨loc, hlocate, hlisted, forall₂_congr fun n _ => ?_⟩
  exact opens_iff ⟨hallows, fun hpresence => absurd hpresence hquiet⟩ rfl

/-- The listing of a workspace that holds one text file offers what opens. -/
theorem listing_opens_text :
    Listed ⟨PolicyEngine.sampleEngine⟩ (sampleVolume []) (some sampleGrant)
        [PathGuard.workspaceName] textName ∧
      Opens ⟨PolicyEngine.sampleEngine⟩ (sampleVolume []).tree
        (asking (sampleVolume []) (some sampleGrant) "/w" (fun _ => .absent)
          [PathGuard.workspaceName] textName)
        (render ([PathGuard.workspaceName] ++ [textName])) := by
  have hauthorized : (⟨PolicyEngine.sampleEngine⟩ : FsService).authorize (sampleVolume []).tree
      (some sampleGrant) .fsRead "fs.list" "/w" = .ok ⟨utf8 "/w", utf8 "/w", true⟩ :=
    authorize_sample (by decide) (by rfl) (by decide)
  have hlist := @list_of_dir ⟨PolicyEngine.sampleEngine⟩ id (sampleVolume []) (some sampleGrant)
    "/w" _ [PathGuard.workspaceName] _ hauthorized rfl rfl
  have hopens : ((sampleVolume []).inode [PathGuard.workspaceName]).opens = true := rfl
  rw [if_pos hopens] at hlist
  obtain ⟨loc, hlocate, -, hiff⟩ := listing_opens_iff _ id _ _ _ (fun _ => .absent) _ hlist
  have hthere : (sampleVolume []).tree.locate (utf8 "/w") = .ok [PathGuard.workspaceName] := rfl
  obtain rfl : loc = [PathGuard.workspaceName] := Except.ok.inj (hlocate.symm.trans hthere)
  have hentries : (sampleVolume []).tree.root.lookup [PathGuard.workspaceName] =
      some (.dir [(textName, .file)]) := rfl
  have hlisted : Listed ⟨PolicyEngine.sampleEngine⟩ (sampleVolume []) (some sampleGrant)
      [PathGuard.workspaceName] textName :=
    ⟨⟨_, .file, hentries, .head _⟩, by decide⟩
  refine ⟨hlisted, hiff.mpr (fun n hn => ?_) textName hlisted⟩
  obtain ⟨⟨entries, node, hdir, hmem⟩, -⟩ := hn
  rw [hentries] at hdir
  cases hdir
  obtain rfl : n = textName := (Prod.mk.inj (List.mem_singleton.mp hmem)).1
  refine ⟨by rfl, [PathGuard.workspaceName, textName], by rfl, by rfl, ?_, fun hsecret => ?_⟩
  · exact ⟨⟨utf8 "/w", utf8 "/w"⟩, List.mem_singleton_self _, by decide⟩
  · exact absurd hsecret (by decide)

/-! ### A link that leads out -/

/-- The link of the workspace that leads out. -/
def outsideLink : Name := ⟨utf8 "e", by decide⟩

/-- **A listing offers what does not open**: a link that leads out of the root. -/
theorem listed_outside :
    ¬ ∀ (service : FsService) (toLowercase : String → String) (volume : Volume)
      (grant : Option DeviceGrant) (requested : String) (presence : OsPath → Presence)
      (listed : List DirEntry) (loc : Location) (n : Name),
      service.list toLowercase volume grant requested = .ok listed →
      volume.tree.locate (utf8 requested) = .ok loc →
      Listed service volume grant loc n →
      Opens service volume.tree (asking volume grant requested presence loc n)
        (render (loc ++ [n])) := by
  intro hall
  have hlist := @list_of_dir ⟨PolicyEngine.sampleEngine⟩ id (linkedVolume (some 0))
    (some sampleGrant) "/w" _ [PathGuard.workspaceName] _ (linked_authorize _) rfl rfl
  have hopens : ((linkedVolume (some 0)).inode [PathGuard.workspaceName]).opens = true := rfl
  rw [if_pos hopens] at hlist
  have hlisted : Listed ⟨PolicyEngine.sampleEngine⟩ (linkedVolume (some 0)) (some sampleGrant)
      [PathGuard.workspaceName] outsideLink :=
    ⟨⟨_, .link [0x2f, 0x73], rfl, .tail _ (.tail _ (.head _))⟩, by decide⟩
  obtain ⟨r, hauthorized, -⟩ :=
    hall _ id _ _ _ (fun _ => .absent) _ _ _ hlist (by rfl) hlisted
  obtain ⟨-, hresolve, -⟩ := PolicyEngine.authorizePath_iff.mp hauthorized
  have houtside : PathGuard.sampleGuard.resolve PathGuard.sampleTree (utf8 "/w/e") =
      .error .outsideRoots := rfl
  rw [show (asking _ _ "/w" _ _ outsideLink).path = utf8 "/w/e" by rfl] at hresolve
  cases houtside.symm.trans hresolve

end FsService

end Server
