import GoNomad.Lib.UnixWalk
import GoNomad.Policy.Engine
import GoNomad.Policy.PathOracle

/-!
# What a secret entry shows

The denylist is asked about the resolved path only, so an entry on it may steer
the resolution before.  It does not when the resolution looks at no such entry
that differs, or when it comes to one in plain names: then the path is resolved
as it is spelled.

* `walkUp_agree` — a walk up that looks at the same entries on two disks;
* `walkUp_leads` — a walk up from a path that ends in plain names;
* `PolicyEngine.secrets_hidden` — when the answer does not depend on the secrets;
* `PolicyEngine.secret_shown` — a request whose answer does.
-/

namespace Policy

open Proto UnixFs Snapshot

variable {fs fs' : Snapshot} {cursor path : OsPath} {loc there : Location} {n : Name}
  {looked : List Location} {result : Except IoError Location} {tail : List Name} {rounds : Nat}

/-! ### Questions in terms of entries -/

/-- A missing component is one that is absent from a directory. -/
theorem verifyStillMissing_push (n : Name) (hphysical : fs.Physical loc) :
    verifyStillMissing fs (push (render loc) n) =
      if fs.kindAt loc = .dir ∧ fs.kindAt (loc ++ [n]) = .absent then .ok ()
      else .error .unresolvableAncestor := by
  unfold verifyStillMissing
  rw [symlinkMetadata_push n hphysical]
  by_cases hdir : fs.kindAt loc = .dir
  · obtain ⟨entries, hlookup⟩ := kindAt_dir.mp hdir
    rw [hlookup, kindAt_entry hlookup]
    cases hentry : (Node.dir entries).entry n with
    | none => simp [hdir, hentry]
    | some child => cases child <;> simp [hentry]
  · rw [if_neg fun h => hdir h.1]
    cases hlookup : fs.root.lookup loc with
    | none => rfl
    | some node =>
        cases node with
        | file => rfl
        | link target => rfl
        | dir entries => exact absurd (kindAt_dir.mpr ⟨entries, hlookup⟩) hdir

/-- What an absolute path is canonicalised to. -/
theorem canonicalize_walks (habsolute : isAbsolute cursor = true)
    (h : Walks fs fs.maxLinks [] (segments cursor) looked result) :
    fs.canonicalize cursor = result.map render := by
  have hne : cursor ≠ [] := by
    rintro rfl
    cases habsolute
  unfold canonicalize locate
  rw [if_neg hne, start, if_pos habsolute, h.walk_eq]

theorem physical_of_walks {links : Nat} {segs : List Segment}
    (h : Walks fs links [] segs looked (.ok there)) : fs.Physical there :=
  physical_of_walk physical_root h.walk_eq

/-! ### The same entries -/

/-- The parent of a path looks at nothing new, and the name that was cut off was
looked at where the parent leads. -/
theorem walks_parent {front dots dots' : List Segment} {above : OsPath}
    (hsegs : segments cursor = front ++ (dots ++ .name n :: dots')) (hdots : Dots dots)
    (habove : segments above = front ∨ front = [.cur] ∧ segments above = [.cur, .cur])
    (h : Walks fs fs.maxLinks [] (segments cursor) looked result) :
    ∃ looked' result', Walks fs fs.maxLinks [] (segments above) looked' result' ∧
      looked' ⊆ looked ∧ ∀ there, result' = .ok there → fs.kindAt there = .dir →
        there ++ [n] ∈ looked := by
  rw [hsegs] at h
  obtain ⟨looked₁, result₁, hfront, hsub, hok, -⟩ := h.split
  have hname : ∀ there, result₁ = .ok there → fs.kindAt there = .dir → there ++ [n] ∈ looked := by
    intro there hthere hdir
    obtain ⟨links', looked₂, hrest, hsub₂⟩ := hok there hthere
    exact hsub₂ ((hrest.pass_dots hdots hdir).mem_looked hdir)
  rcases habove with habove | ⟨rfl, habove⟩
  · rw [habove]
    exact ⟨looked₁, result₁, hfront, hsub, hname⟩
  · rw [habove]
    have hdot : Dots [.cur] := fun segment hsegment => List.mem_singleton.mp hsegment
    rw [← List.append_nil [Segment.cur]] at hfront
    obtain ⟨-, rfl⟩ := (hfront.pass_dots hdot kindAt_root).nil_eq
    exact ⟨[], _, .cur kindAt_root (.cur kindAt_root (.done _ _)), List.nil_subset _, hname⟩

/-- **A walk up that looks at the same entries** gives the same. -/
theorem walkUp_agree (habsolute : isAbsolute cursor = true) (hlinks : fs.maxLinks = fs'.maxLinks)
    (hwalks : Walks fs fs.maxLinks [] (segments cursor) looked result)
    (hsame : ∀ l ∈ looked, fs.kindAt l = fs'.kindAt l)
    (htail : ∀ first rest, tail = first :: rest → ∀ there, result = .ok there →
      fs.kindAt there = .dir → fs.kindAt (there ++ [first]) = fs'.kindAt (there ++ [first])) :
    walkUp fs cursor tail rounds = walkUp fs' cursor tail rounds := by
  induction rounds generalizing cursor tail looked result with
  | zero => rfl
  | succ rounds ih =>
      obtain ⟨hwalks', hthere⟩ := hwalks.transfer Agree.root hsame
      have hcanonical := canonicalize_walks habsolute hwalks
      have hcanonical' := canonicalize_walks habsolute (hlinks ▸ hwalks')
      unfold walkUp
      rw [hcanonical, hcanonical']
      cases result with
      | ok there =>
          cases tail with
          | nil => rfl
          | cons first rest =>
              have hkind := hthere there rfl there List.prefix_rfl
              have hverify : verifyStillMissing fs (push (render there) first) =
                  verifyStillMissing fs' (push (render there) first) := by
                rw [verifyStillMissing_push first (physical_of_walks hwalks),
                  verifyStillMissing_push first (physical_of_walks hwalks'), ← hkind]
                by_cases hdir : fs.kindAt there = .dir
                · rw [htail first rest rfl there rfl hdir]
                · rw [if_neg fun h => hdir h.1, if_neg fun h => hdir h.1]
              dsimp only [Except.map]
              rw [hverify]
      | error error =>
          cases error with
          | notADirectory => rfl
          | tooManyLinks => rfl
          | notFound =>
              dsimp only [Except.map]
              cases hname : fileName cursor with
              | none => rfl
              | some name =>
                  obtain ⟨above, front, dots, dots', hparent, hsegs, hdots, -, habove⟩ :=
                    segments_parent habsolute hname
                  obtain ⟨looked', result', hwalksAbove, hsub, hlooked⟩ :=
                    walks_parent hsegs hdots habove hwalks
                  rw [hparent]
                  refine ih (parent_isAbsolute habsolute hparent) hwalksAbove
                    (fun l hl => hsame l (hsub hl)) fun first rest hfirst there hok hdir => ?_
                  obtain ⟨rfl, -⟩ := List.cons.inj hfirst
                  exact hsame _ (hlooked there hok hdir)

/-! ### Plain names -/

/-- A path leads to a directory and goes on in plain names from there; dots behind
it do not matter. -/
def Leads (fs : Snapshot) (cursor : OsPath) (dir : Location) (ns : Location) : Prop :=
  ∃ dots front mid looked, Dots dots ∧ segments cursor ++ dots = front ++ mid ∧
    Walks fs fs.maxLinks [] front looked (.ok dir) ∧ fs.kindAt dir = .dir ∧ Plain fs dir mid ∧
    names mid = ns

variable {dir ns : Location}

/-- It resolves to what it spells, if that is there. -/
theorem Leads.walks (h : Leads fs cursor dir ns) :
    ∃ looked, Walks fs fs.maxLinks [] (segments cursor) looked
      (if fs.kindAt (dir ++ ns) = .absent then .error .notFound else .ok (dir ++ ns)) := by
  obtain ⟨dots, front, mid, looked, hdots, hsegs, hfront, hdir, hplain, rfl⟩ := h
  obtain ⟨links', happend⟩ := hfront.append
  obtain ⟨looked', hmid⟩ := walks_plain hdir hplain links'
  have hall := happend _ _ _ hmid
  rw [← hsegs] at hall
  obtain ⟨looked'', hcursor, -⟩ := hall.trim_dots hdots (by split_ifs <;> simp)
  exact ⟨looked'', hcursor⟩

theorem names_dots {segs : List Segment} (h : Dots segs) : names segs = [] := by
  induction segs with
  | nil => rfl
  | cons segment segs ih =>
      obtain rfl := h segment (.head _)
      exact ih fun segment hsegment => h segment (.tail _ hsegment)

/-- Plain segments without a name are dots. -/
theorem dots_of_plain {segs : List Segment} (h : Plain fs loc segs) (hnames : names segs = []) :
    Dots segs := by
  induction segs with
  | nil => exact fun segment hsegment => nomatch hsegment
  | cons segment segs ih =>
      cases segment with
      | cur =>
          intro segment hsegment
          rcases List.mem_cons.mp hsegment with rfl | hsegment
          · rfl
          · exact ih h hnames segment hsegment
      | up => exact h.elim
      | name n => cases hnames

/-- The last of plain names, with a directory or nothing in front of it. -/
theorem plain_last {segs : List Segment} (hloc : fs.kindAt loc ≠ .file) (h : Plain fs loc segs)
    (hnames : names segs ≠ []) :
    ∃ init n dots, segs = init ++ .name n :: dots ∧ Dots dots ∧ names segs = names init ++ [n] ∧
      Plain fs loc init ∧ fs.kindAt (loc ++ names init) ≠ .file := by
  induction segs generalizing loc with
  | nil => exact absurd rfl hnames
  | cons segment segs ih =>
      cases segment with
      | cur =>
          obtain ⟨init, n, dots, rfl, hdots, hlast, hinit, hfile⟩ := ih hloc h hnames
          exact ⟨.cur :: init, n, dots, rfl, hdots, hlast, hinit, hfile⟩
      | up => exact h.elim
      | name n =>
          obtain ⟨hlink, hfile, hrest⟩ := h
          by_cases hmore : names segs = []
          · refine ⟨[], n, segs, rfl, dots_of_plain hrest hmore, ?_, trivial, ?_⟩
            · simp [names, hmore]
            · simpa [names] using hloc
          · have hnot : fs.kindAt (loc ++ [n]) ≠ .file := fun hkind => hmore (by
              rw [hfile hkind]
              rfl)
            obtain ⟨init, m, dots, rfl, hdots, hlast, hinit, hkind⟩ := ih hnot hrest hmore
            refine ⟨.name n :: init, m, dots, rfl, hdots, ?_, ⟨hlink, fun hfile' => ?_, hinit⟩, ?_⟩
            · simp [names, hlast]
            · exact absurd hfile' hnot
            · simpa [names] using hkind

/-- **The parent of such a path** leads there with one name less. -/
theorem Leads.parent (habsolute : isAbsolute cursor = true) (h : Leads fs cursor dir ns)
    (hns : ns ≠ []) :
    ∃ init n above, ns = init ++ [n] ∧ fileName cursor = some n ∧ parent cursor = some above ∧
      Leads fs above dir init ∧ fs.kindAt (dir ++ init) ≠ .file := by
  obtain ⟨dots, front, mid, looked, hdots, hsegs, hfront, hdir, hplain, rfl⟩ := h
  obtain ⟨init, n, dots₂, rfl, hdots₂, hlast, hinit, hfile⟩ :=
    plain_last (by simp [hdir]) hplain hns
  rw [← List.append_assoc] at hsegs
  -- The last name is one of the path itself.
  obtain ⟨more, hcursor, hmore⟩ : ∃ more, segments cursor = (front ++ init) ++ .name n :: more ∧
      Dots more := by
    rcases List.append_eq_append_iff.mp hsegs with ⟨rest, -, hback⟩ | ⟨rest, hpath, hback⟩
    · have hcur := hdots (.name n) (by rw [hback]; simp)
      cases hcur
    · cases rest with
      | nil =>
          have hcur := hdots (.name n) (by rw [show dots = _ from hback.symm]; simp)
          cases hcur
      | cons first rest =>
          obtain ⟨rfl, hrest⟩ := List.cons.inj hback
          refine ⟨rest, hpath, fun segment hsegment => hdots₂ segment ?_⟩
          rw [hrest]
          exact List.mem_append_left _ hsegment
  have hname := fileName_eq habsolute hcursor hmore
  obtain ⟨above, front', dots', dots'', hparent, hpath, hdots', hdots'', habove⟩ :=
    segments_parent habsolute hname
  rw [hcursor, ← List.append_assoc] at hpath
  obtain ⟨heq, -, -⟩ := last_name_unique hpath hmore hdots''
  refine ⟨names init, n, above, hlast, hname, hparent, ?_, hfile⟩
  rcases habove with habove | ⟨rfl, habove⟩
  · exact ⟨dots', front, init, looked, hdots', by rw [habove, heq], hfront, hdir, hinit, rfl⟩
  · have hall : Dots (front ++ init) := by
      rw [heq]
      exact Dots.append (fun segment hsegment => List.mem_singleton.mp hsegment) hdots'
    have hfrontDots : Dots front := fun segment hsegment =>
      hall segment (List.mem_append_left _ hsegment)
    have hinitDots : Dots init := fun segment hsegment =>
      hall segment (List.mem_append_right _ hsegment)
    rw [← List.append_nil front] at hfront
    obtain ⟨-, hroot⟩ := (hfront.pass_dots hfrontDots kindAt_root).nil_eq
    obtain rfl := Except.ok.inj hroot
    rw [names_dots hinitDots]
    exact ⟨[], [.cur, .cur], [], [], nofun, by rw [habove],
      .cur kindAt_root (.cur kindAt_root (.done _ _)), kindAt_root, trivial, rfl⟩

/-- **A walk up from plain names** stops at the last of them that is there. -/
theorem walkUp_leads (habsolute : isAbsolute cursor = true) (h : Leads fs cursor dir ns)
    (hrounds : ns.length < rounds)
    (htail : ∀ first rest, tail = first :: rest →
      fs.kindAt (dir ++ ns ++ [first]) = .absent ∧ fs.kindAt (dir ++ ns) ≠ .file) :
    ∃ found missing, ns = found ++ missing ∧
      walkUp fs cursor tail rounds = .ok (render (dir ++ found), missing ++ tail) ∧
      (missing = [] ↔ fs.kindAt (dir ++ ns) ≠ .absent) := by
  induction rounds generalizing cursor ns tail with
  | zero => exact absurd hrounds (Nat.not_lt_zero _)
  | succ rounds ih =>
      obtain ⟨looked, hwalks⟩ := h.walks
      unfold walkUp
      rw [canonicalize_walks habsolute hwalks]
      by_cases habsent : fs.kindAt (dir ++ ns) = .absent
      · have hns : ns ≠ [] := by
          rintro rfl
          obtain ⟨-, -, -, -, -, -, -, hdir, -, -⟩ := h
          rw [List.append_nil, hdir] at habsent
          cases habsent
        obtain ⟨init, n, above, rfl, hname, hparent, habove, hfile⟩ := h.parent habsolute hns
        rw [List.length_append, List.length_singleton] at hrounds
        have hnext : ∀ first rest, n :: tail = first :: rest →
            fs.kindAt (dir ++ init ++ [first]) = .absent ∧ fs.kindAt (dir ++ init) ≠ .file := by
          intro first rest hfirst
          obtain ⟨rfl, -⟩ := List.cons.inj hfirst
          rw [List.append_assoc]
          exact ⟨habsent, hfile⟩
        obtain ⟨found, missing, rfl, hfound, -⟩ :=
          ih (parent_isAbsolute habsolute hparent) habove (by omega) hnext
        refine ⟨found, missing ++ [n], (List.append_assoc _ _ _), ?_, ?_⟩
        · rw [if_pos habsent, hname, hparent, List.append_assoc]
          exact hfound
        · simpa using habsent
      · refine ⟨ns, [], (List.append_nil ns).symm, ?_, by simp [habsent]⟩
        rw [if_neg habsent]
        cases tail with
        | nil => rfl
        | cons first rest =>
            obtain ⟨hfirst, hfile⟩ := htail first rest rfl
            rw [if_neg habsent] at hwalks
            have hphysical := physical_of_walks hwalks
            have hdir := (physical_iff.mp hphysical).resolve_left hfile
            dsimp only [Except.map]
            rw [verifyStillMissing_push first hphysical, if_pos ⟨hdir, hfirst⟩]
            rfl

/-! ### The whole decision -/

theorem length_names_le (segs : List Segment) :
    (names segs).length ≤ (segs.filterMap Component.ofSegment).length := by
  induction segs with
  | nil => exact Nat.le_refl _
  | cons segment segs ih =>
      cases segment with
      | cur => exact ih
      | up => exact Nat.le_succ_of_le ih
      | name n => exact Nat.succ_le_succ ih

/-- **A path that ends in plain names** resolves as it is spelled. -/
theorem ancestor_of_plain {front rest : List Segment} (habsolute : isAbsolute path = true)
    (hlength : (components path).length ≤ maxPathComponents) (hsegs : segments path = front ++ rest)
    (hfront : Walks fs fs.maxLinks [] front looked (.ok dir)) (hdir : fs.kindAt dir = .dir)
    (hplain : Plain fs dir rest) :
    ∃ found missing, names rest = found ++ missing ∧
      canonicaliseDeepestAncestor fs path = .ok (render (dir ++ found), missing) ∧
      (missing = [] ↔ fs.kindAt (dir ++ names rest) ≠ .absent) := by
  have hleads : Leads fs path dir (names rest) :=
    ⟨[], front, rest, looked, nofun, by rw [List.append_nil, hsegs], hfront, hdir, hplain, rfl⟩
  have hnames : (names rest).length ≤ (components path).length := by
    unfold components
    dsimp only
    rw [if_pos habsolute, hsegs, List.filterMap_append, List.length_cons, List.length_append]
    have hle := length_names_le rest
    omega
  have hrounds : (names rest).length < maxPathComponents + 3 := by omega
  obtain ⟨found, missing, hsplit, hwalk, hmissing⟩ :=
    @walkUp_leads fs path [] _ dir _ habsolute hleads hrounds nofun
  rw [List.append_nil] at hwalk
  exact ⟨found, missing, hsplit, hwalk, hmissing⟩

namespace PathGuard

variable {guard : PathGuard} {r : ResolvedPath}

/-- The end of the pipeline. -/
theorem resolve_of_ancestor {found missing : Location} (hshape : guard.checkSyntax path = .ok ())
    (hroots : guard.roots.isEmpty = false)
    (h : canonicaliseDeepestAncestor fs path = .ok (render (dir ++ found), missing)) :
    guard.resolve fs path =
      match guard.locateRoot (render (dir ++ (found ++ missing))) with
      | none => .error .outsideRoots
      | some root => .ok ⟨render (dir ++ (found ++ missing)), root.canonical, missing.isEmpty⟩ := by
  unfold resolve
  rw [hshape, hroots, h]
  dsimp only
  rw [appendTail_render, List.append_assoc]
  rfl

theorem resolve_congr (h : canonicaliseDeepestAncestor fs path = canonicaliseDeepestAncestor fs' path) :
    guard.resolve fs path = guard.resolve fs' path := by
  unfold resolve
  rw [h]

/-- What exists is its own deepest existing ancestor. -/
theorem ancestor_of_locate (h : fs.locate path = .ok loc) :
    canonicaliseDeepestAncestor fs path = .ok (render loc, []) := by
  unfold canonicaliseDeepestAncestor walkUp Snapshot.canonicalize
  rw [h]
  rfl

/-- A path that resolves to something that exists leads there. -/
theorem locate_of_resolve (h : guard.resolve fs path = .ok r) (hpath : r.path = render loc)
    (hphysical : fs.Physical loc) : fs.locate path = .ok loc := by
  obtain ⟨root, -, -, -, -, -, -, -, hthere, hthere'⟩ := contained h
  have hexists : fs.Exists r.path := ⟨loc, by rw [hpath]; exact Snapshot.locate_render hphysical⟩
  obtain ⟨there, hlocate⟩ := hthere'.mp (hthere.mpr hexists)
  obtain ⟨-, ancestor, tail, root, hwalk, -, -, rfl⟩ := resolve_cases h
  rw [ancestor_of_locate hlocate] at hwalk
  obtain ⟨rfl, rfl⟩ := Prod.mk.inj (Except.ok.inj hwalk)
  rw [hlocate, render_injective hpath]

/-- What leads to a location inside a root resolves to it. -/
theorem resolve_of_locate (hshape : guard.checkSyntax path = .ok ())
    (hlocate : fs.locate path = .ok loc) (hinside : guard.Inside loc) :
    ∃ r, guard.resolve fs path = .ok r ∧ r.path = render loc := by
  obtain ⟨root, hroot, hwithin⟩ := hinside
  have hroots : guard.roots.isEmpty = false :=
    List.isEmpty_eq_false_iff_exists_mem.mpr ⟨root, hroot⟩
  have hresolve := @resolve_of_ancestor fs path loc guard [] [] hshape hroots
    (by rw [List.append_nil]; exact ancestor_of_locate hlocate)
  rw [List.append_nil, List.append_nil] at hresolve
  cases hfound : guard.locateRoot (render loc) with
  | none => exact absurd hwithin (by simpa using List.find?_eq_none.mp hfound root hroot)
  | some root' =>
      rw [hfound] at hresolve
      exact ⟨_, hresolve, rfl⟩

theorem checkSyntax_of_resolve (h : guard.resolve fs path = .ok r) :
    guard.checkSyntax path = .ok () := by
  unfold resolve at h
  split at h
  · cases h
  · assumption

end PathGuard

namespace PolicyEngine

variable {engine : PolicyEngine} {request : PathRequest}

/-- Two file systems differ in nothing but the entries on the denylist. -/
structure AgreeOff (denylist : SecretDenylist) (fs fs' : Snapshot) : Prop where
  cwd : fs.cwd = fs'.cwd
  maxLinks : fs.maxLinks = fs'.maxLinks
  kindAt : ∀ loc, denylist.isSecret (render loc) = false → fs.kindAt loc = fs'.kindAt loc

/-- Segments are resolved without a look at a secret that the two file systems
differ in. -/
def Avoids (denylist : SecretDenylist) (fs fs' : Snapshot) (segs : List Segment)
    (result : Except IoError Location) : Prop :=
  ∃ looked, Walks fs fs.maxLinks [] segs looked result ∧
    ∀ l ∈ looked, denylist.isSecret (render l) = true → fs.kindAt l = fs'.kindAt l

/-- The disk is asked: the request has the capability and its presence, its path is
well formed and there are roots. -/
def Asks (engine : PolicyEngine) (request : PathRequest) : Prop :=
  Clears request request.capability ∧ engine.guard.checkSyntax request.path = .ok () ∧
    engine.guard.roots.isEmpty = false

/-- The secrets do not steer the resolution: it looks at none that differ, or the path
leads to a directory without and goes on in plain names in both file systems. -/
def Unsteered (denylist : SecretDenylist) (fs fs' : Snapshot) (path : OsPath) : Prop :=
  (∃ result, Avoids denylist fs fs' (segments path) result) ∨
    ∃ front rest dir, segments path = front ++ rest ∧ Avoids denylist fs fs' front (.ok dir) ∧
      fs.kindAt dir = .dir ∧ Plain fs dir rest ∧ Plain fs' dir rest

/-- What is looked at is the same in both. -/
theorem AgreeOff.same {denylist : SecretDenylist} (h : AgreeOff denylist fs fs')
    (hsecrets : ∀ l ∈ looked, denylist.isSecret (render l) = true → fs.kindAt l = fs'.kindAt l) :
    ∀ l ∈ looked, fs.kindAt l = fs'.kindAt l := by
  intro l hl
  cases hsecret : denylist.isSecret (render l) with
  | true => exact hsecrets l hl hsecret
  | false => exact h.kindAt l hsecret

theorem authorizePath_of_not_clears (h : ¬ Clears request request.capability) :
    engine.authorizePath fs request = engine.authorizePath fs' request := by
  rw [clears_iff] at h
  cases hcheck : check request.grant request.capability with
  | error error => simp only [authorizePath, hcheck, Except.error_bind]
  | ok u =>
      cases hpresence :
          checkPresence request.capability (challenge request) request.presence with
      | error error =>
          simp only [authorizePath, hcheck, hpresence, Except.ok_bind, Except.error_bind]
      | ok v => exact absurd ⟨hcheck, hpresence⟩ h

theorem authorizePath_congr (h : engine.guard.resolve fs request.path =
      engine.guard.resolve fs' request.path) :
    engine.authorizePath fs request = engine.authorizePath fs' request := by
  unfold authorizePath
  rw [h]

/-- What resolves to a secret is denied, whatever else is resolved. -/
theorem authorizePath_secret {r r' : ResolvedPath} (hdevice : ¬ Allows request.grant .fsSecrets)
    (h : engine.guard.resolve fs request.path = .ok r)
    (h' : engine.guard.resolve fs' request.path = .ok r')
    (hsecret : engine.denylist.isSecret r.path = true)
    (hsecret' : engine.denylist.isSecret r'.path = true) :
    engine.authorizePath fs request = engine.authorizePath fs' request := by
  unfold authorizePath
  rw [h, h']
  simp only [Except.mapError, Except.ok_bind, hsecret, hsecret', if_true,
    check_of_not_allows hdevice, Except.error_bind]

/-- **Secrets stay hidden** from a device without `fsSecrets` where they do not steer
the resolution: two file systems that differ in them only get the same answer. -/
theorem secrets_hidden (engine : PolicyEngine) (request : PathRequest) (fs fs' : Snapshot)
    (hdevice : ¬ Allows request.grant .fsSecrets) (hsame : AgreeOff engine.denylist fs fs')
    (hsteer : Asks engine request → Unsteered engine.denylist fs fs' request.path) :
    engine.authorizePath fs request = engine.authorizePath fs' request := by
  by_cases hclears : Clears request request.capability
  swap
  · exact authorizePath_of_not_clears hclears
  cases hshape : engine.guard.checkSyntax request.path with
  | error reason =>
      refine authorizePath_congr ?_
      unfold PathGuard.resolve
      rw [hshape]
  | ok u =>
  by_cases hroots : engine.guard.roots.isEmpty = true
  · refine authorizePath_congr ?_
    unfold PathGuard.resolve
    rw [hshape, hroots]
    rfl
  rw [Bool.not_eq_true] at hroots
  obtain ⟨habsolute, hlength⟩ := PathGuard.shape_of_checkSyntax hshape
  rcases hsteer ⟨hclears, hshape, hroots⟩ with ⟨result, looked, hwalks, hpublic⟩ |
    ⟨front, rest, dir, hsegs, ⟨looked, hfront, hpublic⟩, hdir, hplain, hplain'⟩
  · refine authorizePath_congr (PathGuard.resolve_congr ?_)
    exact walkUp_agree habsolute hsame.maxLinks hwalks (hsame.same hpublic) nofun
  · obtain ⟨hfront', hagree⟩ := hfront.transfer Agree.root (hsame.same hpublic)
    rw [hsame.maxLinks] at hfront'
    have hdir' : fs'.kindAt dir = .dir := (hagree dir rfl dir List.prefix_rfl).symm.trans hdir
    obtain ⟨found, missing, hnames, hancestor, hmissing⟩ :=
      ancestor_of_plain habsolute hlength hsegs hfront hdir hplain
    obtain ⟨found', missing', hnames', hancestor', hmissing'⟩ :=
      ancestor_of_plain habsolute hlength hsegs hfront' hdir' hplain'
    have hresolve := PathGuard.resolve_of_ancestor hshape hroots hancestor
    have hresolve' := PathGuard.resolve_of_ancestor hshape hroots hancestor'
    rw [← hnames] at hresolve
    rw [← hnames'] at hresolve'
    cases hroot : engine.guard.locateRoot (render (dir ++ names rest)) with
    | none =>
        rw [hroot] at hresolve hresolve'
        exact authorizePath_congr (hresolve.trans hresolve'.symm)
    | some root =>
        rw [hroot] at hresolve hresolve'
        cases hsecret : engine.denylist.isSecret (render (dir ++ names rest)) with
        | true => exact authorizePath_secret hdevice hresolve hresolve' hsecret hsecret
        | false =>
            -- Whether it is there is the same in both.
            have hthere : missing.isEmpty = missing'.isEmpty := by
              rw [hsame.kindAt _ hsecret, ← hmissing'] at hmissing
              rw [Bool.eq_iff_iff, List.isEmpty_iff, List.isEmpty_iff]
              exact hmissing
            refine authorizePath_congr ?_
            rw [hresolve, hresolve', hthere]

/-! ### A workspace with and without a secret -/

/-- `/w`, with these entries. -/
def workspace (entries : List (Name × Node)) : Snapshot where
  root := .dir [(PathGuard.workspaceName, .dir entries)]
  root_isDir := rfl
  cwd := []
  maxLinks := 40

/-- The name `.ssh`. -/
def sshName : Name := ⟨[0x2e, 0x73, 0x73, 0x68], by decide⟩

def sampleEngine : PolicyEngine := ⟨PathGuard.sampleGuard, ⟨fun s => s = "/w/.ssh"⟩⟩

/-- A device with `fsRead` reads a path. -/
def sampleRequest (path : String) : PathRequest :=
  ⟨some ⟨.replicate 7, ⟨1⟩, false⟩, .fsRead, utf8 path, "fs.read", .replicate 0, .absent⟩

theorem sampleRequest_grant (path : String) : ¬ Allows (sampleRequest path).grant .fsSecrets := by
  rintro ⟨grant, hgrant, -, hholds⟩
  cases hgrant
  exact absurd hholds (by decide)

/-- The workspaces with an empty `.ssh` and without. -/
theorem agreeOff_ssh :
    AgreeOff sampleEngine.denylist (workspace [(sshName, .dir [])]) (workspace []) := by
  refine ⟨rfl, rfl, fun loc hpublic => ?_⟩
  cases loc with
  | nil => rfl
  | cons n loc =>
      by_cases hn : PathGuard.workspaceName = n
      · subst hn
        cases loc with
        | nil => rfl
        | cons m loc =>
            by_cases hm : sshName = m
            · subst hm
              cases loc with
              | nil => exact absurd hpublic (by decide)
              | cons k loc => rfl
            · simp [kindAt, workspace, Node.lookup, Node.entry, hm]
      · simp [kindAt, workspace, Node.lookup, Node.entry, hn]

theorem secrets_hidden_sample :
    sampleEngine.authorizePath (workspace [(sshName, .dir [])]) (sampleRequest "/w/.ssh") =
      sampleEngine.authorizePath (workspace []) (sampleRequest "/w/.ssh") ∧
    sampleEngine.authorizePath (workspace []) (sampleRequest "/w/.ssh") =
      .error (.denied .fsSecrets) := by
  have hroot : (workspace [(sshName, .dir [])]).kindAt [] = .dir := rfl
  have hw : (workspace [(sshName, .dir [])]).kindAt [PathGuard.workspaceName] = .dir := rfl
  refine ⟨secrets_hidden _ _ _ _ (sampleRequest_grant _) agreeOff_ssh fun _ => .inr ?_, by rfl⟩
  refine ⟨[.cur, .name PathGuard.workspaceName], [.name sshName],
    [PathGuard.workspaceName], by rfl, ⟨_, .cur hroot (.enter hroot (.inr hw) (.done _ _)), ?_⟩, hw, ⟨?_, ?_, trivial⟩,
    ⟨?_, ?_, trivial⟩⟩
  · decide
  · exact fun target h => by cases h
  · exact fun _ => rfl
  · exact fun target h => by cases h
  · exact fun _ => rfl

/-- **A secret shows**: behind its name, `..` leads back or nowhere, depending on
whether the secret is there. -/
theorem secret_shown :
    ¬ ∀ (engine : PolicyEngine) (request : PathRequest) (fs fs' : Snapshot),
      ¬ Allows request.grant .fsSecrets → AgreeOff engine.denylist fs fs' →
      engine.authorizePath fs request = engine.authorizePath fs' request := by
  intro hall
  have hsame := hall sampleEngine (sampleRequest "/w/.ssh/..") _ _ (sampleRequest_grant _)
    agreeOff_ssh
  have hthere : sampleEngine.authorizePath (workspace [(sshName, .dir [])])
      (sampleRequest "/w/.ssh/..") = .ok ⟨utf8 "/w", utf8 "/w", true⟩ := by rfl
  have hgone : sampleEngine.authorizePath (workspace []) (sampleRequest "/w/.ssh/..") =
      .error .notFound := by rfl
  rw [hthere, hgone] at hsame
  cases hsame

end PolicyEngine

end Policy
