import GoNomad.Lib.UnixFs

/-!
# What a resolution looks at

A resolution depends on what it finds at the entries it looks at, and on nothing
else of the snapshot.

* `walk_iff` — a resolution as a relation that lists the entries it looks at;
* `Walks.transfer` — another snapshot with the same entries gives the same result;
* `Walks.split`, `Walks.append` — a resolution in two parts;
* `walks_plain` — names with no link among them are passed one by one;
* `segments_parent` — the segments of the parent of a path.
-/

namespace UnixFs

/-- What is at a location. -/
inductive Kind
  | absent
  | file
  | link (target : OsPath)
  | dir
  deriving DecidableEq

namespace Snapshot

/-- What is at a location, no link followed. -/
def kindAt (fs : Snapshot) (loc : Location) : Kind :=
  match fs.root.lookup loc with
  | none => .absent
  | some .file => .file
  | some (.link target) => .link target
  | some (.dir _) => .dir

variable {fs fs' : Snapshot} {loc there : Location} {n : Name} {segs front rest : List Segment}
  {looked : List Location} {result : Except IoError Location} {links : Nat}

theorem kindAt_root : fs.kindAt [] = .dir := by
  obtain ⟨entries, hroot⟩ := @root_eq fs
  simp [kindAt, hroot]

theorem kindAt_dir : fs.kindAt loc = .dir ↔ ∃ entries, fs.root.lookup loc = some (.dir entries) := by
  unfold kindAt
  cases fs.root.lookup loc with
  | none => simp
  | some node => cases node <;> simp

/-- An entry of a directory. -/
theorem kindAt_entry {entries : List (Name × Node)} (h : fs.root.lookup loc = some (.dir entries)) :
    fs.kindAt (loc ++ [n]) =
      match (Node.dir entries).entry n with
      | none => .absent
      | some .file => .file
      | some (.link target) => .link target
      | some (.dir _) => .dir := by
  unfold kindAt
  rw [Node.lookup_append, h]
  dsimp only
  rw [Node.lookup_singleton]

/-- Nothing is behind what is not a directory. -/
theorem kindAt_below (h : fs.kindAt loc ≠ .dir) : fs.kindAt (loc ++ [n]) = .absent := by
  unfold kindAt at h ⊢
  rw [Node.lookup_append]
  cases hloc : fs.root.lookup loc with
  | none => rfl
  | some node => cases node <;> simp_all [Node.lookup, Node.entry]

/-- What is physical is a file or a directory. -/
theorem physical_iff : fs.Physical loc ↔ fs.kindAt loc = .file ∨ fs.kindAt loc = .dir := by
  unfold Physical kindAt
  cases fs.root.lookup loc with
  | none => simp
  | some node => cases node <;> simp [Node.isLink]

/-! ### Resolution as a relation -/

/-- A resolution: the entries it looks at, in order, and its result. -/
inductive Walks (fs : Snapshot) :
    Nat → Location → List Segment → List Location → Except IoError Location → Prop
  | done (links : Nat) (loc : Location) : Walks fs links loc [] [] (.ok loc)
  | blocked {links : Nat} {loc : Location} {segment : Segment} {rest : List Segment}
      (hloc : fs.kindAt loc ≠ .dir) :
      Walks fs links loc (segment :: rest) [] (.error .notADirectory)
  | cur {links : Nat} {loc : Location} {rest : List Segment} {looked : List Location}
      {result : Except IoError Location} (hloc : fs.kindAt loc = .dir)
      (tail : Walks fs links loc rest looked result) :
      Walks fs links loc (.cur :: rest) looked result
  | up {links : Nat} {loc : Location} {rest : List Segment} {looked : List Location}
      {result : Except IoError Location} (hloc : fs.kindAt loc = .dir)
      (tail : Walks fs links loc.dropLast rest looked result) :
      Walks fs links loc (.up :: rest) looked result
  | missing {links : Nat} {loc : Location} {n : Name} {rest : List Segment}
      (hloc : fs.kindAt loc = .dir) (hentry : fs.kindAt (loc ++ [n]) = .absent) :
      Walks fs links loc (.name n :: rest) [loc ++ [n]] (.error .notFound)
  | enter {links : Nat} {loc : Location} {n : Name} {rest : List Segment} {looked : List Location}
      {result : Except IoError Location} (hloc : fs.kindAt loc = .dir)
      (hentry : fs.kindAt (loc ++ [n]) = .file ∨ fs.kindAt (loc ++ [n]) = .dir)
      (tail : Walks fs links (loc ++ [n]) rest looked result) :
      Walks fs links loc (.name n :: rest) ((loc ++ [n]) :: looked) result
  | emptyLink {links : Nat} {loc : Location} {n : Name} {rest : List Segment}
      (hloc : fs.kindAt loc = .dir) (hentry : fs.kindAt (loc ++ [n]) = .link []) :
      Walks fs links loc (.name n :: rest) [loc ++ [n]] (.error .notFound)
  | spent {loc : Location} {n : Name} {target : OsPath} {rest : List Segment}
      (hloc : fs.kindAt loc = .dir) (hentry : fs.kindAt (loc ++ [n]) = .link target)
      (htarget : target ≠ []) :
      Walks fs 0 loc (.name n :: rest) [loc ++ [n]] (.error .tooManyLinks)
  | follow {links : Nat} {loc : Location} {n : Name} {target : OsPath} {rest : List Segment}
      {looked : List Location} {result : Except IoError Location} (hloc : fs.kindAt loc = .dir)
      (hentry : fs.kindAt (loc ++ [n]) = .link target) (htarget : target ≠ [])
      (tail : Walks fs links (start target loc) (segments target ++ rest) looked result) :
      Walks fs (links + 1) loc (.name n :: rest) ((loc ++ [n]) :: looked) result

/-- One segment, by what is found. -/
theorem walkToLink_cons (segment : Segment) :
    fs.walkToLink loc (segment :: rest) =
      match fs.kindAt loc with
      | .dir =>
          match segment with
          | .cur => fs.walkToLink loc rest
          | .up => fs.walkToLink loc.dropLast rest
          | .name n =>
              match fs.kindAt (loc ++ [n]) with
              | .absent => .failed .notFound
              | .link target => .followed loc target rest
              | _ => fs.walkToLink (loc ++ [n]) rest
      | _ => .failed .notADirectory := by
  rw [walkToLink]
  cases hloc : fs.root.lookup loc with
  | none => simp [kindAt, hloc]
  | some node =>
      cases node with
      | file => simp [kindAt, hloc]
      | link target => simp [kindAt, hloc]
      | dir entries =>
          rw [kindAt_dir.mpr ⟨entries, hloc⟩]
          cases segment with
          | cur => rfl
          | up => rfl
          | name n =>
              dsimp only
              rw [kindAt_entry hloc]
              cases (Node.dir entries).entry n with
              | none => rfl
              | some child => cases child <;> rfl

/-- The relation gives what the function computes. -/
theorem Walks.walk_eq (h : Walks fs links loc segs looked result) :
    fs.walk links loc segs = result := by
  induction h with
  | done links loc => exact walk_nil links loc
  | @blocked links loc segment rest hloc =>
      have hstep : fs.walkToLink loc (segment :: rest) = .failed .notADirectory := by
        rw [walkToLink_cons]
        cases hkind : fs.kindAt loc <;> simp_all
      cases links <;> rw [walk, hstep]
  | cur hloc _ ih =>
      rw [← ih]
      exact walk_congr _ (by rw [walkToLink_cons, hloc])
  | up hloc _ ih =>
      rw [← ih]
      exact walk_congr _ (by rw [walkToLink_cons, hloc])
  | @missing links loc n rest hloc hentry =>
      have hstep : fs.walkToLink loc (.name n :: rest) = .failed .notFound := by
        rw [walkToLink_cons, hloc]
        dsimp only
        rw [hentry]
      cases links <;> rw [walk, hstep]
  | @enter links loc n rest looked result hloc hentry _ ih =>
      rw [← ih]
      refine walk_congr _ ?_
      rw [walkToLink_cons, hloc]
      dsimp only
      rcases hentry with hentry | hentry <;> rw [hentry]
  | @emptyLink links loc n rest hloc hentry =>
      have hstep : fs.walkToLink loc (.name n :: rest) = .followed loc [] rest := by
        rw [walkToLink_cons, hloc]
        dsimp only
        rw [hentry]
      cases links <;> rw [walk, hstep] <;> rfl
  | @spent loc n target rest hloc hentry htarget =>
      have hstep : fs.walkToLink loc (.name n :: rest) = .followed loc target rest := by
        rw [walkToLink_cons, hloc]
        dsimp only
        rw [hentry]
      rw [walk, hstep]
      exact if_neg htarget
  | @follow links loc n target rest looked result hloc hentry htarget _ ih =>
      have hstep : fs.walkToLink loc (.name n :: rest) = .followed loc target rest := by
        rw [walkToLink_cons, hloc]
        dsimp only
        rw [hentry]
      rw [walk, hstep]
      dsimp only
      rw [if_neg htarget, ih]

/-- Every resolution is one of the relation. -/
theorem exists_walks (fs : Snapshot) (links : Nat) (loc : Location) (segs : List Segment) :
    ∃ looked result, Walks fs links loc segs looked result := by
  induction links generalizing loc segs with
  | zero =>
      induction segs generalizing loc with
      | nil => exact ⟨_, _, .done _ _⟩
      | cons segment rest ih =>
          by_cases hloc : fs.kindAt loc = .dir
          · cases segment with
            | cur =>
                obtain ⟨looked, result, h⟩ := ih loc
                exact ⟨_, _, .cur hloc h⟩
            | up =>
                obtain ⟨looked, result, h⟩ := ih loc.dropLast
                exact ⟨_, _, .up hloc h⟩
            | name n =>
                obtain ⟨looked, result, h⟩ := ih (loc ++ [n])
                cases hentry : fs.kindAt (loc ++ [n]) with
                | absent => exact ⟨_, _, .missing hloc hentry⟩
                | file => exact ⟨_, _, .enter hloc (.inl hentry) h⟩
                | dir => exact ⟨_, _, .enter hloc (.inr hentry) h⟩
                | link target =>
                    by_cases htarget : target = []
                    · exact ⟨_, _, .emptyLink hloc (htarget ▸ hentry)⟩
                    · exact ⟨_, _, .spent hloc hentry htarget⟩
          · exact ⟨_, _, .blocked hloc⟩
  | succ links ihLinks =>
      induction segs generalizing loc with
      | nil => exact ⟨_, _, .done _ _⟩
      | cons segment rest ih =>
          by_cases hloc : fs.kindAt loc = .dir
          · cases segment with
            | cur =>
                obtain ⟨looked, result, h⟩ := ih loc
                exact ⟨_, _, .cur hloc h⟩
            | up =>
                obtain ⟨looked, result, h⟩ := ih loc.dropLast
                exact ⟨_, _, .up hloc h⟩
            | name n =>
                obtain ⟨looked, result, h⟩ := ih (loc ++ [n])
                cases hentry : fs.kindAt (loc ++ [n]) with
                | absent => exact ⟨_, _, .missing hloc hentry⟩
                | file => exact ⟨_, _, .enter hloc (.inl hentry) h⟩
                | dir => exact ⟨_, _, .enter hloc (.inr hentry) h⟩
                | link target =>
                    by_cases htarget : target = []
                    · exact ⟨_, _, .emptyLink hloc (htarget ▸ hentry)⟩
                    · obtain ⟨looked, result, h⟩ :=
                        ihLinks (start target loc) (segments target ++ rest)
                      exact ⟨_, _, .follow hloc hentry htarget h⟩
          · exact ⟨_, _, .blocked hloc⟩

/-- **A resolution as a relation.** -/
theorem walk_iff : fs.walk links loc segs = result ↔ ∃ looked, Walks fs links loc segs looked result := by
  constructor
  · rintro rfl
    obtain ⟨looked, result, h⟩ := exists_walks fs links loc segs
    exact ⟨looked, h.walk_eq ▸ h⟩
  · rintro ⟨looked, h⟩
    exact h.walk_eq

/-! ### Two snapshots -/

/-- Two snapshots have the same at everything above a location. -/
def Agree (fs fs' : Snapshot) (loc : Location) : Prop :=
  ∀ above, above <+: loc → fs.kindAt above = fs'.kindAt above

theorem Agree.root : Agree fs fs' [] := by
  intro above habove
  rw [List.prefix_nil.mp habove, kindAt_root, kindAt_root]

theorem Agree.dropLast (h : Agree fs fs' loc) : Agree fs fs' loc.dropLast :=
  fun above habove => h above (habove.trans (List.dropLast_prefix loc))

theorem Agree.snoc (h : Agree fs fs' loc) (hentry : fs.kindAt (loc ++ [n]) = fs'.kindAt (loc ++ [n])) :
    Agree fs fs' (loc ++ [n]) := by
  intro above habove
  rcases List.prefix_concat_iff.mp habove with rfl | habove
  · exact hentry
  · exact h above habove

theorem Agree.start (h : Agree fs fs' loc) (target : OsPath) :
    Agree fs fs' (Snapshot.start target loc) := by
  unfold Snapshot.start
  split_ifs
  · exact .root
  · exact h

/-- **Another snapshot with the same entries gives the same result.** -/
theorem Walks.transfer (h : Walks fs links loc segs looked result)
    (hloc : Agree fs fs' loc) (hsame : ∀ l ∈ looked, fs.kindAt l = fs'.kindAt l) :
    Walks fs' links loc segs looked result ∧ ∀ there, result = .ok there → Agree fs fs' there := by
  induction h with
  | done links loc =>
      refine ⟨.done links loc, fun there hthere => ?_⟩
      cases hthere
      exact hloc
  | @blocked links loc _ _ hkind =>
      rw [hloc loc List.prefix_rfl] at hkind
      exact ⟨.blocked hkind, fun there hthere => by cases hthere⟩
  | @cur links loc _ _ _ hkind _ ih =>
      obtain ⟨h', hthere⟩ := ih hloc hsame
      rw [hloc loc List.prefix_rfl] at hkind
      exact ⟨.cur hkind h', hthere⟩
  | @up links loc _ _ _ hkind _ ih =>
      obtain ⟨h', hthere⟩ := ih hloc.dropLast hsame
      rw [hloc loc List.prefix_rfl] at hkind
      exact ⟨.up hkind h', hthere⟩
  | @missing links loc n _ hkind hentry =>
      rw [hloc loc List.prefix_rfl] at hkind
      rw [hsame _ (.head _)] at hentry
      exact ⟨.missing hkind hentry, fun there hthere => by cases hthere⟩
  | @enter links loc n _ _ _ hkind hentry _ ih =>
      have hn := hsame _ (.head _)
      obtain ⟨h', hthere⟩ := ih (hloc.snoc hn) fun l hl => hsame l (.tail _ hl)
      rw [hloc loc List.prefix_rfl] at hkind
      rw [hn] at hentry
      exact ⟨.enter hkind hentry h', hthere⟩
  | @emptyLink links loc n _ hkind hentry =>
      rw [hloc loc List.prefix_rfl] at hkind
      rw [hsame _ (.head _)] at hentry
      exact ⟨.emptyLink hkind hentry, fun there hthere => by cases hthere⟩
  | @spent loc n _ _ hkind hentry htarget =>
      rw [hloc loc List.prefix_rfl] at hkind
      rw [hsame _ (.head _)] at hentry
      exact ⟨.spent hkind hentry htarget, fun there hthere => by cases hthere⟩
  | @follow links loc n target _ _ _ hkind hentry htarget _ ih =>
      obtain ⟨h', hthere⟩ := ih (hloc.start target) fun l hl => hsame l (.tail _ hl)
      rw [hloc loc List.prefix_rfl] at hkind
      rw [hsame _ (.head _)] at hentry
      exact ⟨.follow hkind hentry htarget h', hthere⟩

/-! ### In two parts -/

/-- The parts of a resolution: the first looks at nothing else; the second goes on
where it leads, or the failure of the first is that of the whole. -/
def Parts (fs : Snapshot) (links : Nat) (loc : Location) (front rest : List Segment)
    (looked : List Location) (result : Except IoError Location) : Prop :=
  ∃ looked₁ result₁, Walks fs links loc front looked₁ result₁ ∧ looked₁ ⊆ looked ∧
    (∀ there, result₁ = .ok there → ∃ links' looked₂,
      Walks fs links' there rest looked₂ result ∧ looked₂ ⊆ looked) ∧
    ∀ error, result₁ = .error error → result = .error error

theorem split_nil (h : Walks fs links loc rest looked result) :
    Parts fs links loc [] rest looked result := by
  refine ⟨[], _, .done links loc, List.nil_subset _, fun there hthere => ?_, nofun⟩
  cases hthere
  exact ⟨links, looked, h, List.Subset.refl _⟩

/-- **A resolution has two parts**, wherever its segments are cut. -/
theorem Walks.split (h : Walks fs links loc (front ++ rest) looked result) :
    Parts fs links loc front rest looked result := by
  generalize hsegs : front ++ rest = segs at h
  induction h generalizing front with
  | done links loc =>
      obtain ⟨rfl, rfl⟩ := List.append_eq_nil_iff.mp hsegs
      exact split_nil (.done links loc)
  | @blocked links loc segment after hloc =>
      cases front with
      | nil =>
          subst hsegs
          exact split_nil (.blocked hloc)
      | cons first front =>
          refine ⟨[], _, .blocked hloc, List.Subset.refl _, nofun, fun error herror => ?_⟩
          cases herror
          rfl
  | @cur links loc after looked result hloc tail ih =>
      cases front with
      | nil =>
          subst hsegs
          exact split_nil (.cur hloc tail)
      | cons first front =>
          obtain ⟨rfl, htail⟩ := List.cons.inj hsegs
          obtain ⟨looked₁, result₁, hwalks, hsub, hok, herror⟩ := ih htail
          exact ⟨looked₁, result₁, .cur hloc hwalks, hsub, hok, herror⟩
  | @up links loc after looked result hloc tail ih =>
      cases front with
      | nil =>
          subst hsegs
          exact split_nil (.up hloc tail)
      | cons first front =>
          obtain ⟨rfl, htail⟩ := List.cons.inj hsegs
          obtain ⟨looked₁, result₁, hwalks, hsub, hok, herror⟩ := ih htail
          exact ⟨looked₁, result₁, .up hloc hwalks, hsub, hok, herror⟩
  | @missing links loc n after hloc hentry =>
      cases front with
      | nil =>
          subst hsegs
          exact split_nil (.missing hloc hentry)
      | cons first front =>
          obtain ⟨rfl, -⟩ := List.cons.inj hsegs
          refine ⟨_, _, .missing hloc hentry, List.Subset.refl _, nofun, fun error herror => ?_⟩
          cases herror
          rfl
  | @enter links loc n after looked result hloc hentry tail ih =>
      cases front with
      | nil =>
          subst hsegs
          exact split_nil (.enter hloc hentry tail)
      | cons first front =>
          obtain ⟨rfl, htail⟩ := List.cons.inj hsegs
          obtain ⟨looked₁, result₁, hwalks, hsub, hok, herror⟩ := ih htail
          refine ⟨_, result₁, .enter hloc hentry hwalks, List.cons_subset_cons _ hsub,
            fun there hthere => ?_, herror⟩
          obtain ⟨links', looked₂, hrest, hsub₂⟩ := hok there hthere
          exact ⟨links', looked₂, hrest, List.Subset.trans hsub₂ (List.subset_cons_self _ _)⟩
  | @emptyLink links loc n after hloc hentry =>
      cases front with
      | nil =>
          subst hsegs
          exact split_nil (.emptyLink hloc hentry)
      | cons first front =>
          obtain ⟨rfl, -⟩ := List.cons.inj hsegs
          refine ⟨_, _, .emptyLink hloc hentry, List.Subset.refl _, nofun, fun error herror => ?_⟩
          cases herror
          rfl
  | @spent loc n target after hloc hentry htarget =>
      cases front with
      | nil =>
          subst hsegs
          exact split_nil (.spent hloc hentry htarget)
      | cons first front =>
          obtain ⟨rfl, -⟩ := List.cons.inj hsegs
          refine ⟨_, _, .spent hloc hentry htarget, List.Subset.refl _, nofun,
            fun error herror => ?_⟩
          cases herror
          rfl
  | @follow links loc n target after looked result hloc hentry htarget tail ih =>
      cases front with
      | nil =>
          subst hsegs
          exact split_nil (.follow hloc hentry htarget tail)
      | cons first front =>
          obtain ⟨rfl, htail⟩ := List.cons.inj hsegs
          obtain ⟨looked₁, result₁, hwalks, hsub, hok, herror⟩ :=
            @ih (segments target ++ front) (by rw [List.append_assoc]; exact congrArg _ htail)
          refine ⟨_, result₁, .follow hloc hentry htarget hwalks, List.cons_subset_cons _ hsub,
            fun there hthere => ?_, herror⟩
          obtain ⟨links', looked₂, hrest, hsub₂⟩ := hok there hthere
          exact ⟨links', looked₂, hrest, List.Subset.trans hsub₂ (List.subset_cons_self _ _)⟩

/-- **Two parts make a resolution**, whatever links the second may follow. -/
theorem Walks.append (h : Walks fs links loc front looked (.ok there)) :
    ∃ links', ∀ rest looked' result, Walks fs links' there rest looked' result →
      Walks fs links loc (front ++ rest) (looked ++ looked') result := by
  generalize hresult : (Except.ok there : Except IoError Location) = result at h
  induction h with
  | done links loc =>
      cases hresult
      exact ⟨links, fun rest looked' result h => h⟩
  | blocked _ => cases hresult
  | missing _ _ => cases hresult
  | emptyLink _ _ => cases hresult
  | spent _ _ _ => cases hresult
  | cur hloc _ ih =>
      obtain ⟨links', h⟩ := ih hresult
      exact ⟨links', fun rest looked' result hrest => .cur hloc (h rest looked' result hrest)⟩
  | up hloc _ ih =>
      obtain ⟨links', h⟩ := ih hresult
      exact ⟨links', fun rest looked' result hrest => .up hloc (h rest looked' result hrest)⟩
  | enter hloc hentry _ ih =>
      obtain ⟨links', h⟩ := ih hresult
      exact ⟨links', fun rest looked' result hrest =>
        .enter hloc hentry (h rest looked' result hrest)⟩
  | follow hloc hentry htarget _ ih =>
      obtain ⟨links', h⟩ := ih hresult
      refine ⟨links', fun rest looked' result hrest => .follow hloc hentry htarget ?_⟩
      have htail := h rest looked' result hrest
      rwa [List.append_assoc] at htail

/-- A name that a directory is asked for is looked at. -/
theorem Walks.mem_looked (h : Walks fs links loc (.name n :: rest) looked result)
    (hloc : fs.kindAt loc = .dir) : loc ++ [n] ∈ looked := by
  cases h with
  | blocked hnot => exact absurd hloc hnot
  | _ => exact List.mem_cons_self

/-! ### Dots and names -/

/-- Segments that stay where they are. -/
def Dots (segs : List Segment) : Prop := ∀ segment ∈ segs, segment = .cur

theorem Dots.append {dots dots' : List Segment} (h : Dots dots) (h' : Dots dots') :
    Dots (dots ++ dots') := by
  intro segment hsegment
  rcases List.mem_append.mp hsegment with hsegment | hsegment
  · exact h segment hsegment
  · exact h' segment hsegment

/-- Dots in a directory are passed. -/
theorem Walks.pass_dots {dots : List Segment} (hdots : Dots dots) (hloc : fs.kindAt loc = .dir)
    (h : Walks fs links loc (dots ++ rest) looked result) :
    Walks fs links loc rest looked result := by
  induction dots with
  | nil => exact h
  | cons segment dots ih =>
      obtain rfl := hdots segment (.head _)
      refine ih (fun segment hsegment => hdots segment (.tail _ hsegment)) ?_
      cases h with
      | blocked hnot => exact absurd hloc hnot
      | cur _ tail => exact tail

theorem Walks.nil_eq (h : Walks fs links loc [] looked result) : looked = [] ∧ result = .ok loc := by
  cases h
  exact ⟨rfl, rfl⟩

/-- Dots at the end make no difference, but that they fail on what is not a
directory. -/
theorem Walks.trim_dots {dots : List Segment} (hdots : Dots dots)
    (h : Walks fs links loc (front ++ dots) looked result)
    (hresult : result ≠ .error .notADirectory) :
    ∃ looked', Walks fs links loc front looked' result ∧ looked' ⊆ looked := by
  obtain ⟨looked₁, result₁, hfront, hsub, hok, herror⟩ := h.split
  cases result₁ with
  | error error =>
      rw [herror error rfl]
      exact ⟨looked₁, hfront, hsub⟩
  | ok there =>
      obtain ⟨links', looked₂, hrest, -⟩ := hok there rfl
      have hthere : result = .ok there := by
        by_cases hdir : fs.kindAt there = .dir
        · rw [← List.append_nil dots] at hrest
          cases hrest.pass_dots hdots hdir
          rfl
        · cases hrest with
          | done => rfl
          | blocked _ => exact absurd rfl hresult
          | cur hloc _ => exact absurd hloc hdir
          | up hloc _ => exact absurd hloc hdir
          | missing hloc _ => exact absurd hloc hdir
          | enter hloc _ _ => exact absurd hloc hdir
          | emptyLink hloc _ => exact absurd hloc hdir
          | spent hloc _ _ => exact absurd hloc hdir
          | follow hloc _ _ _ => exact absurd hloc hdir
      rw [hthere]
      exact ⟨looked₁, hfront, hsub⟩

/-- The names among segments. -/
def names : List Segment → Location
  | [] => []
  | .name n :: rest => n :: names rest
  | _ :: rest => names rest

/-- From here on there are only names and dots, no name leads to a link, and one
that leads to a file has nothing behind it. -/
def Plain (fs : Snapshot) : Location → List Segment → Prop
  | _, [] => True
  | loc, .cur :: rest => Plain fs loc rest
  | _, .up :: _ => False
  | loc, .name n :: rest =>
      (∀ target, fs.kindAt (loc ++ [n]) ≠ .link target) ∧
        (fs.kindAt (loc ++ [n]) = .file → rest = []) ∧ Plain fs (loc ++ [n]) rest

/-- Nothing is anywhere behind what is absent. -/
theorem absent_below (h : fs.kindAt loc = .absent) (below : Location) :
    fs.kindAt (loc ++ below) = .absent := by
  induction below using List.reverseRecOn with
  | nil => rwa [List.append_nil]
  | append_singleton below n ih =>
      rw [← List.append_assoc]
      refine kindAt_below ?_
      rw [ih]
      exact nofun

/-- **Plain segments are passed one by one**, as far as there is something. -/
theorem walks_plain (hloc : fs.kindAt loc = .dir) (hplain : Plain fs loc segs) (links : Nat) :
    ∃ looked, Walks fs links loc segs looked
      (if fs.kindAt (loc ++ names segs) = .absent then .error .notFound
        else .ok (loc ++ names segs)) := by
  induction segs generalizing loc with
  | nil =>
      have hdir : fs.kindAt (loc ++ names []) ≠ .absent := by simp [names, hloc]
      rw [if_neg hdir]
      simp only [names, List.append_nil]
      exact ⟨[], .done links loc⟩
  | cons segment rest ih =>
      cases segment with
      | cur =>
          obtain ⟨looked, h⟩ := ih hloc hplain
          exact ⟨looked, .cur hloc h⟩
      | up => exact hplain.elim
      | name n =>
          obtain ⟨hlink, hfile, hrest⟩ := hplain
          have hnames : loc ++ names (.name n :: rest) = loc ++ [n] ++ names rest := by
            simp [names]
          rw [hnames]
          cases hentry : fs.kindAt (loc ++ [n]) with
          | absent =>
              rw [if_pos (absent_below hentry (names rest))]
              exact ⟨_, .missing hloc hentry⟩
          | file =>
              obtain rfl := hfile hentry
              have hthere : fs.kindAt (loc ++ [n] ++ names []) ≠ .absent := by
                simp [names, hentry]
              rw [if_neg hthere]
              simp only [names, List.append_nil]
              exact ⟨_, .enter hloc (.inl hentry) (.done links _)⟩
          | link target => exact absurd hentry (hlink target)
          | dir =>
              obtain ⟨looked, h⟩ := ih hentry hrest
              exact ⟨_, .enter hloc (.inr hentry) h⟩

end Snapshot

/-! ### The parent of a path -/

open Snapshot

/-- What is trimmed from the end is blank. -/
theorem trimPieces_append (pieces : List (List UInt8)) :
    ∃ blanks, pieces = trimPieces pieces ++ blanks ∧ ∀ s ∈ blanks, s = [] ∨ s = dot := by
  induction pieces using List.reverseRecOn with
  | nil => exact ⟨[], rfl, nofun⟩
  | append_singleton pieces s ih =>
      rw [trimPieces_snoc]
      split_ifs with hblank
      · obtain ⟨blanks, hpieces, hblanks⟩ := ih
        refine ⟨blanks ++ [s], ?_, ?_⟩
        · rw [← List.append_assoc, ← hpieces]
        · intro t ht
          rcases List.mem_append.mp ht with ht | ht
          · exact hblanks t ht
          · rw [List.mem_singleton.mp ht]
            exact hblank
      · exact ⟨[], (List.append_nil _).symm, nofun⟩

theorem dots_of_blanks {blanks : List (List UInt8)} (h : ∀ s ∈ blanks, s = [] ∨ s = dot) :
    Dots (blanks.map Segment.of) := by
  intro segment hsegment
  obtain ⟨s, hs, rfl⟩ := List.mem_map.mp hsegment
  rcases h s hs with rfl | rfl <;> decide

theorem segments_slash (rest : OsPath) :
    segments (slash :: rest) = .cur :: (split rest).map Segment.of := by
  unfold segments
  rw [split, if_pos rfl, List.map_cons]
  rfl

theorem filterMap_dots {dots : List Segment} (h : Dots dots) :
    dots.filterMap Component.ofSegment = [] := by
  refine List.filterMap_eq_nil_iff.mpr fun segment hsegment => ?_
  rw [h segment hsegment]
  rfl

/-- The last name of a path, dots behind it or not. -/
theorem fileName_eq {path : OsPath} {front dots : List Segment} {n : Name}
    (habsolute : isAbsolute path = true) (hsegs : segments path = front ++ .name n :: dots)
    (hdots : Dots dots) : fileName path = some n := by
  have hcomponents : components path =
      (.rootDir :: front.filterMap Component.ofSegment) ++ [.normal n] := by
    unfold components
    dsimp only
    rw [if_pos habsolute, hsegs, List.filterMap_append, List.filterMap_cons, filterMap_dots hdots]
    rfl
  unfold fileName
  rw [hcomponents, List.getLast?_concat]

/-- Where the last name stands is determined. -/
theorem last_name_unique {front front' dots dots' : List Segment} {n m : Name}
    (h : front ++ .name n :: dots = front' ++ .name m :: dots') (hdots : Dots dots)
    (hdots' : Dots dots') : front = front' ∧ n = m ∧ dots = dots' := by
  have hno : ∀ {more back dots : List Segment} {k : Name}, Dots dots →
      dots = more ++ .name k :: back → False := by
    intro more back dots k hdots heq
    have hcur := hdots (.name k) (by rw [heq]; simp)
    cases hcur
  rcases List.append_eq_append_iff.mp h with ⟨more, hfront, hback⟩ | ⟨more, hfront, hback⟩
  · cases more with
    | nil =>
        obtain ⟨hname, hdots⟩ := List.cons.inj hback
        exact ⟨by simpa using hfront.symm, Segment.name.inj hname, hdots⟩
    | cons first more =>
        obtain ⟨-, hback⟩ := List.cons.inj hback
        exact (hno hdots hback).elim
  · cases more with
    | nil =>
        obtain ⟨hname, hdots⟩ := List.cons.inj hback
        exact ⟨by simpa using hfront, (Segment.name.inj hname).symm, hdots.symm⟩
    | cons first more =>
        obtain ⟨-, hback⟩ := List.cons.inj hback
        exact (hno hdots' hback).elim

/-- **The segments of the parent of a path** are those before its last name, without
the dots in between; the root is spelled with two. -/
theorem segments_parent {path : OsPath} {n : Name} (habsolute : isAbsolute path = true)
    (hname : fileName path = some n) :
    ∃ above front dots dots', parent path = some above ∧
      segments path = front ++ (dots ++ .name n :: dots') ∧ Dots dots ∧ Dots dots' ∧
      (segments above = front ∨ front = [.cur] ∧ segments above = [.cur, .cur]) := by
  cases path with
  | nil => cases habsolute
  | cons b rest =>
      obtain rfl : b = slash := by simpa [isAbsolute] using habsolute
      have hclean := @slash_notMem_split rest
      obtain ⟨blanks, hpieces, hblanks⟩ := trimPieces_append (split rest)
      cases hbody : trimPieces (split rest) using List.reverseRecOn with
      | nil =>
          have hnone : bodyOf (split rest) = [] := by
            rw [← bodyOf_trimPieces hclean, hbody]
            rfl
          unfold fileName at hname
          rw [components_slash, hnone] at hname
          cases hname
      | append_singleton init s _ =>
          obtain ⟨more, hinit, hmore⟩ := trimPieces_append init
          have hsplit : ∀ t ∈ init ++ [s], slash ∉ t := by
            intro t ht
            rw [← hbody] at ht
            exact hclean t (mem_trimPieces ht)
          have htrimmed : ∀ t ∈ trimPieces init, slash ∉ t :=
            fun t ht => hsplit t (List.mem_append_left _ (mem_trimPieces ht))
          have hs : Segment.of s = .name n := by
            unfold fileName at hname
            rw [components_slash, ← bodyOf_trimPieces hclean, hbody, bodyOf_snoc] at hname
            have hsome := trimPieces_last hbody
            cases hsegment : Segment.of s with
            | cur =>
                have hblank := (ofSegment_none_iff (hsplit s (by simp))).mp (by rw [hsegment]; rfl)
                exact absurd hblank (not_or.mpr hsome)
            | up =>
                simp only [hsegment, Component.ofSegment, Option.toList_some] at hname
                rw [← List.cons_append, List.getLast?_concat] at hname
                cases hname
            | name m =>
                simp only [hsegment, Component.ofSegment, Option.toList_some] at hname
                rw [← List.cons_append, List.getLast?_concat] at hname
                rw [Option.some.inj hname]
          have hparent : parent (slash :: rest) = some (slash :: join (trimPieces init)) := by
            dsimp only [parent]
            rw [if_pos rfl, hbody]
            split
            · next hnil => simp at hnil
            · rw [List.dropLast_concat]
          refine ⟨_, .cur :: (trimPieces init).map Segment.of, more.map Segment.of,
            blanks.map Segment.of, hparent, ?_, dots_of_blanks hmore, dots_of_blanks hblanks, ?_⟩
          · rw [segments_slash]
            conv_lhs => rw [hpieces, hbody, hinit]
            simp [hs]
          · rw [segments_slash]
            by_cases hroot : trimPieces init = []
            · right
              rw [hroot]
              exact ⟨rfl, by decide⟩
            · left
              rw [split_join hroot htrimmed]

end UnixFs
