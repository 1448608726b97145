import Mathlib.Data.List.Basic
import Mathlib.Data.List.Infix
import Mathlib.Tactic.SplitIfs

/-!
# Unix paths and a file system snapshot

Paths are bytes, cut at slashes.  A snapshot is a tree of directories, files and
symbolic links; a path is resolved segment by segment, and a link continues with
the segments of its target.

* `components_render`, `segments_render` — a location is read back from its path;
* `physical_of_walk` — what a path resolves to is reached without following a link;
* `locate_render` — the path of such a location resolves to the location itself;
* `reaches_physical` — and it opens there;
* `reaches_render` — a missing tail after such a location is created right there.
-/

namespace UnixFs

/-- A path as the system sees it. -/
abbrev OsPath := List UInt8

def slash : UInt8 := 0x2f

def dot : List UInt8 := [0x2e]

def dotDot : List UInt8 := [0x2e, 0x2e]

/-- What names a directory entry. -/
def IsName (bytes : List UInt8) : Prop :=
  bytes ≠ [] ∧ bytes ≠ dot ∧ bytes ≠ dotDot ∧ slash ∉ bytes

instance (bytes : List UInt8) : Decidable (IsName bytes) :=
  inferInstanceAs (Decidable (_ ∧ _ ∧ _ ∧ _))

/-- The name of a directory entry. -/
structure Name where
  bytes : List UInt8
  isName : IsName bytes
  deriving DecidableEq

/-! ### Paths -/

/-- Cuts at every slash. -/
def split : OsPath → List (List UInt8)
  | [] => [[]]
  | b :: rest =>
      if b = slash then [] :: split rest
      else
        match split rest with
        | [] => [[b]]
        | s :: ss => (b :: s) :: ss

/-- Puts slashes between. -/
def join : List (List UInt8) → OsPath
  | [] => []
  | [s] => s
  | s :: ss => s ++ slash :: join ss

def isAbsolute : OsPath → Bool
  | [] => false
  | b :: _ => b = slash

/-- What the system does at a piece of a path. -/
inductive Segment
  /-- An empty piece or a dot: stay, which takes a directory. -/
  | cur
  | up
  | name (n : Name)
  deriving DecidableEq

def Segment.of (bytes : List UInt8) : Segment :=
  if h : IsName bytes then .name ⟨bytes, h⟩
  else if bytes = dotDot then .up
  else .cur

def segments (path : OsPath) : List Segment := (split path).map Segment.of

/-- A component of a path as a program iterates over it. -/
inductive Component
  | rootDir
  | curDir
  | parentDir
  | normal (n : Name)
  deriving DecidableEq

/-- A piece in the body of a path; empty pieces and dots are skipped. -/
def Component.ofSegment : Segment → Option Component
  | .cur => none
  | .up => some .parentDir
  | .name n => some (.normal n)

/-- The components of a path.  A dot shows only at the front of a relative path. -/
def components (path : OsPath) : List Component :=
  let body := (segments path).filterMap Component.ofSegment
  if isAbsolute path then .rootDir :: body
  else if (split path).head? = some dot then .curDir :: body
  else body

/-- The last component, if it is a name. -/
def fileName (path : OsPath) : Option Name :=
  match (components path).getLast? with
  | some (.normal n) => some n
  | _ => none

/-- Drops empty pieces and dots from the end. -/
def trimPieces (pieces : List (List UInt8)) : List (List UInt8) :=
  (pieces.reverse.dropWhile fun s => s = [] || s = dot).reverse

/-- The path without its last component; what is trailing after either is dropped. -/
def parent (path : OsPath) : Option OsPath :=
  match path with
  | [] => none
  | b :: rest =>
      if b = slash then
        match trimPieces (split rest) with
        | [] => none
        | body => some (slash :: join (trimPieces body.dropLast))
      else
        -- A leading dot of a relative path is a component of its own.
        match split path with
        | [] => none
        | first :: pieces =>
            if first = dot then
              match trimPieces pieces with
              | [] => some []
              | body => some (join (dot :: trimPieces body.dropLast))
            else
              some (join (trimPieces (trimPieces (first :: pieces)).dropLast))

-- The last component of "/a/./b//" is b, and what is left is "/a".
example : parent [0x2f, 0x61, 0x2f, 0x2e, 0x2f, 0x62, 0x2f, 0x2f] = some [0x2f, 0x61] := by decide

/-- Appends a name. -/
def push (path : OsPath) (n : Name) : OsPath :=
  match path.getLast? with
  | none => n.bytes
  | some b => if b = slash then path ++ n.bytes else path ++ slash :: n.bytes

/-- Where something is in the tree. -/
abbrev Location := List Name

/-- The path of a location. -/
def render (loc : Location) : OsPath := slash :: join (loc.map Name.bytes)

/-! ### Snapshots -/

/-- A node of the tree. -/
inductive Node
  | file
  | link (target : OsPath)
  | dir (entries : List (Name × Node))

namespace Node

/-- An entry of a directory; anything else has none. -/
def entry : Node → Name → Option Node
  | dir entries, n => (entries.find? fun e => e.1 = n).map Prod.snd
  | _, _ => none

def isDir : Node → Bool
  | dir _ => true
  | _ => false

def isLink : Node → Bool
  | link _ => true
  | _ => false

/-- The node at a location, no link followed. -/
def lookup : Node → Location → Option Node
  | node, [] => some node
  | node, n :: loc =>
      match node.entry n with
      | none => none
      | some child => child.lookup loc

end Node

/-- Why a path does not resolve. -/
inductive IoError
  | notFound
  | notADirectory
  | tooManyLinks
  deriving DecidableEq

/-- A snapshot: the tree, where relative paths start, and how many links a
resolution may follow. -/
structure Snapshot where
  root : Node
  root_isDir : root.isDir
  cwd : Location
  maxLinks : Nat

namespace Snapshot

variable (fs : Snapshot)

/-- How far the segments go before a link is met. -/
inductive Walked
  | done (loc : Location)
  | failed (error : IoError)
  | followed (loc : Location) (target : OsPath) (rest : List Segment)

/-- Resolves segments up to the first link. -/
def walkToLink (loc : Location) : List Segment → Walked
  | [] => .done loc
  | segment :: rest =>
      match fs.root.lookup loc with
      | some (.dir entries) =>
          match segment with
          | .cur => walkToLink loc rest
          | .up => walkToLink loc.dropLast rest
          | .name n =>
              match (Node.dir entries).entry n with
              | none => .failed .notFound
              | some (.link target) => .followed loc target rest
              | some _ => walkToLink (loc ++ [n]) rest
      | _ => .failed .notADirectory

/-- Where the segments of a path start. -/
def start (path : OsPath) (base : Location) : Location := if isAbsolute path then [] else base

/-- Resolves segments, following links. -/
def walk : Nat → Location → List Segment → Except IoError Location
  | links, loc, segs =>
      match fs.walkToLink loc segs with
      | .done loc => .ok loc
      | .failed error => .error error
      | .followed loc target rest =>
          if target = [] then .error .notFound
          else
            match links with
            | 0 => .error .tooManyLinks
            | links + 1 => walk links (start target loc) (segments target ++ rest)

/-- Resolves a path. -/
def locate (path : OsPath) : Except IoError Location :=
  if path = [] then .error .notFound
  else fs.walk fs.maxLinks (start path fs.cwd) (segments path)

/-- The path without links, dots and repeated slashes of what a path names. -/
def canonicalize (path : OsPath) : Except IoError OsPath := (fs.locate path).map render

/-- Whether a path names something, a link at its end not followed. -/
def symlinkMetadata (path : OsPath) : Except IoError Unit :=
  match (segments path).getLast? with
  | some (.name n) =>
      match fs.walk fs.maxLinks (start path fs.cwd) (segments path).dropLast with
      | .error error => .error error
      | .ok loc =>
          match fs.root.lookup loc with
          | some (.dir entries) =>
              match (Node.dir entries).entry n with
              | none => .error .notFound
              | some _ => .ok ()
          | _ => .error .notADirectory
  | _ => (fs.locate path).map fun _ => ()

/-- The path names something. -/
def Exists (path : OsPath) : Prop := ∃ loc, fs.locate path = .ok loc

/-- Opening the path with all links followed gets to the location, or creating
what is missing at the end of it does. -/
def Reaches (path : OsPath) (loc : Location) : Prop :=
  fs.locate path = .ok loc ∨
    ∃ front n tail dir entries, segments path = front ++ .name n :: List.map .name tail ∧
      fs.walk fs.maxLinks (start path fs.cwd) front = .ok dir ∧
      fs.root.lookup dir = some (.dir entries) ∧ (Node.dir entries).entry n = none ∧
      loc = dir ++ n :: tail

end Snapshot

/-! ### Paths of locations -/

theorem split_of_noSlash {s : List UInt8} (h : slash ∉ s) : split s = [s] := by
  induction s with
  | nil => rfl
  | cons b s ih =>
      obtain ⟨hb, hs⟩ := not_or.mp (List.mem_cons.not.mp h)
      rw [split, if_neg (Ne.symm hb), ih hs]

theorem split_append_slash {s : List UInt8} (h : slash ∉ s) (rest : OsPath) :
    split (s ++ slash :: rest) = s :: split rest := by
  induction s with
  | nil => rw [List.nil_append, split, if_pos rfl]
  | cons b s ih =>
      obtain ⟨hb, hs⟩ := not_or.mp (List.mem_cons.not.mp h)
      rw [List.cons_append, split, if_neg (Ne.symm hb), ih hs]

theorem join_cons_cons (s t : List UInt8) (ts : List (List UInt8)) :
    join (s :: t :: ts) = s ++ slash :: join (t :: ts) :=
  rfl

/-- What was joined is cut at the same places. -/
theorem split_join {ss : List (List UInt8)} (hne : ss ≠ []) (h : ∀ s ∈ ss, slash ∉ s) :
    split (join ss) = ss := by
  induction ss with
  | nil => exact absurd rfl hne
  | cons s ss ih =>
      have hs := h s (.head _)
      cases ss with
      | nil => exact split_of_noSlash hs
      | cons t ts =>
          rw [join_cons_cons, split_append_slash hs, ih (by simp) fun u hu => h u (.tail _ hu)]

theorem Segment.of_name (n : Name) : Segment.of n.bytes = .name n := by
  unfold Segment.of
  rw [dif_pos n.isName]

theorem segments_render {loc : Location} (hne : loc ≠ []) :
    segments (render loc) = .cur :: loc.map .name := by
  have hsplit : split (join (loc.map Name.bytes)) = loc.map Name.bytes := by
    refine split_join (by simpa using hne) ?_
    intro s hs
    obtain ⟨n, -, rfl⟩ := List.mem_map.mp hs
    exact n.isName.2.2.2
  unfold segments render
  rw [split, if_pos rfl, hsplit, List.map_cons, List.map_map]
  have hof : Segment.of ∘ Name.bytes = Segment.name := funext Segment.of_name
  rw [hof]
  rfl

theorem segments_root : segments (render []) = [.cur, .cur] := by decide

/-- **A location is read back from its path.** -/
theorem components_render (loc : Location) :
    components (render loc) = .rootDir :: loc.map .normal := by
  have habsolute : isAbsolute (render loc) = true := by
    simp [render, isAbsolute]
  unfold components
  dsimp only
  rw [if_pos habsolute]
  by_cases hne : loc = []
  · rw [hne, segments_root]
    rfl
  · rw [segments_render hne]
    have hbody : (loc.map Segment.name).filterMap Component.ofSegment = loc.map .normal := by
      rw [List.filterMap_map]
      have hsome : Component.ofSegment ∘ Segment.name = fun n => some (Component.normal n) := rfl
      rw [hsome, List.filterMap_eq_map']
    rw [List.filterMap_cons_none rfl, hbody]

theorem render_injective {loc loc' : Location} (h : render loc = render loc') : loc = loc' := by
  have hcomponents := congrArg components h
  rw [components_render, components_render] at hcomponents
  have hinjective : Function.Injective Component.normal := fun a b => Component.normal.inj
  exact List.map_injective_iff.mpr hinjective (List.cons.inj hcomponents).2

theorem join_snoc {ss : List (List UInt8)} (hne : ss ≠ []) (s : List UInt8) :
    join (ss ++ [s]) = join ss ++ slash :: s := by
  induction ss with
  | nil => exact absurd rfl hne
  | cons t ts ih =>
      cases ts with
      | nil => rfl
      | cons u us =>
          rw [List.cons_append, List.cons_append, join_cons_cons, join_cons_cons,
            ← List.cons_append, ih (by simp), List.append_assoc, List.cons_append]

theorem join_getLast_ne {loc : Location} (hne : loc ≠ []) :
    ∃ b, (join (loc.map Name.bytes)).getLast? = some b ∧ b ≠ slash := by
  obtain ⟨init, n, rfl⟩ : ∃ init n, loc = init ++ [n] :=
    ⟨loc.dropLast, loc.getLast hne, (List.dropLast_concat_getLast hne).symm⟩
  obtain ⟨hbytes, -, -, hslash⟩ := n.isName
  obtain ⟨front, b, hb⟩ : ∃ front b, n.bytes = front ++ [b] :=
    ⟨_, _, (List.dropLast_concat_getLast hbytes).symm⟩
  have hnot : b ≠ slash := by
    rintro rfl
    exact hslash (by rw [hb]; simp)
  refine ⟨b, ?_, hnot⟩
  rw [List.map_append, List.map_singleton, hb]
  by_cases hinit : init.map Name.bytes = []
  · rw [hinit]
    simp [join]
  · rw [join_snoc hinit, ← List.cons_append, ← List.append_assoc, List.getLast?_concat]

/-- Appending a name to the path of a location gives the path of the entry. -/
theorem push_render (loc : Location) (n : Name) : push (render loc) n = render (loc ++ [n]) := by
  by_cases hne : loc = []
  · subst hne
    simp [push, render, join]
  · obtain ⟨b, hlast, hb⟩ := join_getLast_ne hne
    have hrender : (render loc).getLast? = some b := by
      unfold render
      rw [List.getLast?_cons, hlast]
      rfl
    have hmap : loc.map Name.bytes ≠ [] := by simpa using hne
    unfold push
    rw [hrender]
    dsimp only
    rw [if_neg hb]
    unfold render
    rw [List.map_append, List.map_singleton, join_snoc hmap, List.cons_append]

/-! ### Parents -/

/-- The components that pieces of a path stand for. -/
def bodyOf (pieces : List (List UInt8)) : List Component :=
  (pieces.map Segment.of).filterMap Component.ofSegment

theorem bodyOf_snoc (pieces : List (List UInt8)) (s : List UInt8) :
    bodyOf (pieces ++ [s]) = bodyOf pieces ++ (Component.ofSegment (Segment.of s)).toList := by
  unfold bodyOf
  rw [List.map_append, List.filterMap_append, List.map_singleton]
  cases hs : Component.ofSegment (Segment.of s) with
  | none => simp [hs]
  | some c => simp [hs]

/-- A piece stands for no component exactly when it is empty or a dot. -/
theorem ofSegment_none_iff {s : List UInt8} (h : slash ∉ s) :
    Component.ofSegment (Segment.of s) = none ↔ s = [] ∨ s = dot := by
  by_cases hname : IsName s
  · have hne : ¬ (s = [] ∨ s = dot) := not_or.mpr ⟨hname.1, hname.2.1⟩
    simp [Segment.of, hname, Component.ofSegment, hne]
  · by_cases hup : s = dotDot
    · subst hup
      decide
    · have hblank : s = [] ∨ s = dot := by
        by_contra hother
        obtain ⟨hempty, hdot⟩ := not_or.mp hother
        exact hname ⟨hempty, hdot, hup, h⟩
      simp [Segment.of, hname, hup, Component.ofSegment, hblank]

theorem trimPieces_snoc (pieces : List (List UInt8)) (s : List UInt8) :
    trimPieces (pieces ++ [s]) = if s = [] ∨ s = dot then trimPieces pieces else pieces ++ [s] := by
  unfold trimPieces
  rw [List.reverse_append, List.reverse_singleton, List.singleton_append, List.dropWhile_cons]
  split_ifs with h h' h'
  · rfl
  · simp [h'] at h
  · simp [h'] at h
  · rw [List.reverse_cons, List.reverse_reverse]

/-- What is trimmed stands for nothing. -/
theorem bodyOf_trimPieces {pieces : List (List UInt8)} (h : ∀ s ∈ pieces, slash ∉ s) :
    bodyOf (trimPieces pieces) = bodyOf pieces := by
  induction pieces using List.reverseRecOn with
  | nil => rfl
  | append_singleton pieces s ih =>
      rw [trimPieces_snoc, bodyOf_snoc]
      split_ifs with hblank
      · have hnone := (ofSegment_none_iff (h s (by simp))).mpr hblank
        rw [hnone, ih fun t ht => h t (by simp [ht]), Option.toList_none, List.append_nil]
      · exact bodyOf_snoc pieces s

theorem mem_trimPieces {pieces : List (List UInt8)} {s : List UInt8} (h : s ∈ trimPieces pieces) :
    s ∈ pieces := by
  unfold trimPieces at h
  exact List.mem_reverse.mp ((List.dropWhile_sublist _).mem (List.mem_reverse.mp h))

/-- The last piece that is left is not blank. -/
theorem trimPieces_last {pieces init : List (List UInt8)} {s : List UInt8}
    (h : trimPieces pieces = init ++ [s]) : s ≠ [] ∧ s ≠ dot := by
  induction pieces using List.reverseRecOn with
  | nil => simp [trimPieces] at h
  | append_singleton pieces t ih =>
      rw [trimPieces_snoc] at h
      split_ifs at h with hblank
      · exact ih h
      · obtain ⟨-, hlast⟩ := List.append_inj' h rfl
        obtain rfl := List.singleton_inj.mp hlast
        exact not_or.mp hblank

theorem slash_notMem_split {path : OsPath} : ∀ s ∈ split path, slash ∉ s := by
  induction path with
  | nil =>
      intro s hs
      obtain rfl := List.mem_singleton.mp hs
      exact List.not_mem_nil
  | cons b rest ih =>
      intro s hs
      unfold split at hs
      split_ifs at hs with hb
      · rcases List.mem_cons.mp hs with rfl | hs
        · exact List.not_mem_nil
        · exact ih s hs
      · split at hs
        · obtain rfl := List.mem_singleton.mp hs
          simp [Ne.symm hb]
        · next first others heq =>
            rw [heq] at ih
            rcases List.mem_cons.mp hs with rfl | hs
            · simp [Ne.symm hb, ih first (.head _)]
            · exact ih s (.tail _ hs)

theorem components_slash (rest : OsPath) :
    components (slash :: rest) = .rootDir :: bodyOf (split rest) := by
  have habsolute : isAbsolute (slash :: rest) = true := by simp [isAbsolute]
  unfold components segments
  dsimp only
  rw [if_pos habsolute, split, if_pos rfl, List.map_cons, List.filterMap_cons_none rfl]
  rfl

theorem bodyOf_split_join {pieces : List (List UInt8)} (h : ∀ s ∈ pieces, slash ∉ s) :
    bodyOf (split (join pieces)) = bodyOf pieces := by
  by_cases hne : pieces = []
  · subst hne
    rfl
  · rw [split_join hne h]

theorem parent_isAbsolute {path above : OsPath} (h : isAbsolute path = true)
    (habove : parent path = some above) : isAbsolute above = true := by
  cases path with
  | nil => cases h
  | cons b rest =>
      have hb : b = slash := by simpa [isAbsolute] using h
      unfold parent at habove
      dsimp only at habove
      rw [if_pos hb] at habove
      split at habove
      · cases habove
      · cases habove
        simp [isAbsolute]

/-- **The parent of an absolute path has one component less.** -/
theorem components_parent {path above : OsPath} (habsolute : isAbsolute path = true)
    (h : parent path = some above) : ∃ c, components path = components above ++ [c] := by
  cases path with
  | nil => cases habsolute
  | cons b rest =>
      obtain rfl : b = slash := by simpa [isAbsolute] using habsolute
      have hclean := @slash_notMem_split rest
      dsimp only [parent] at h
      rw [if_pos rfl] at h
      cases hbody : trimPieces (split rest) using List.reverseRecOn with
      | nil =>
          rw [hbody] at h
          cases h
      | append_singleton init s _ =>
          obtain ⟨hempty, hdot⟩ := trimPieces_last hbody
          have hsplit : ∀ t ∈ init ++ [s], slash ∉ t := by
            intro t ht
            rw [← hbody] at ht
            exact hclean t (mem_trimPieces ht)
          have hinit : ∀ t ∈ init, slash ∉ t := fun t ht => hsplit t (by simp [ht])
          have habove : above = slash :: join (trimPieces init) := by
            rw [hbody] at h
            split at h
            · next hnil => simp at hnil
            · rw [List.dropLast_concat] at h
              exact (Option.some.inj h).symm
          obtain ⟨c, hc⟩ : ∃ c, Component.ofSegment (Segment.of s) = some c :=
            Option.ne_none_iff_exists'.mp fun hnone =>
              not_or.mpr ⟨hempty, hdot⟩ ((ofSegment_none_iff (hsplit s (by simp))).mp hnone)
          refine ⟨c, ?_⟩
          rw [habove, components_slash, components_slash,
            bodyOf_split_join fun t ht => hinit t (mem_trimPieces ht), bodyOf_trimPieces hinit,
            ← bodyOf_trimPieces hclean, hbody, bodyOf_snoc, hc]
          rfl

/-! ### Resolution -/

namespace Node

theorem lookup_append (node : Node) (front back : Location) :
    node.lookup (front ++ back) =
      match node.lookup front with
      | none => none
      | some child => child.lookup back := by
  induction front generalizing node with
  | nil => rfl
  | cons n front ih =>
      rw [List.cons_append]
      dsimp only [lookup]
      cases node.entry n with
      | none => rfl
      | some child => exact ih child

theorem lookup_singleton (node : Node) (n : Name) : node.lookup [n] = node.entry n := by
  dsimp only [lookup]
  cases node.entry n <;> rfl

/-- What leads to something that is not a link is not a link. -/
theorem isLink_of_lookup {node child : Node} {loc : Location} (h : child.lookup loc = some node)
    (hnode : node.isLink = false) : child.isLink = false := by
  cases loc with
  | nil =>
      cases h
      exact hnode
  | cons n loc =>
      cases child with
      | file => rfl
      | link target => cases h
      | dir entries => rfl

end Node

namespace Snapshot

/-- The location holds something that is not a link. -/
def Physical (fs : Snapshot) (loc : Location) : Prop :=
  ∃ node, fs.root.lookup loc = some node ∧ node.isLink = false

variable {fs : Snapshot} {loc loc' : Location} {segs rest : List Segment} {n : Name}

theorem physical_root : fs.Physical [] := by
  refine ⟨fs.root, rfl, ?_⟩
  have hdir := fs.root_isDir
  cases h : fs.root with
  | file => rfl
  | link target =>
      rw [h] at hdir
      cases hdir
  | dir entries => rfl

/-- What is above something is a directory. -/
theorem dir_of_lookup {node : Node} (h : fs.root.lookup (loc ++ [n]) = some node) :
    ∃ entries, fs.root.lookup loc = some (.dir entries) ∧
      (Node.dir entries).entry n = some node := by
  rw [Node.lookup_append] at h
  cases hloc : fs.root.lookup loc with
  | none =>
      rw [hloc] at h
      cases h
  | some above =>
      rw [hloc] at h
      dsimp only at h
      rw [Node.lookup_singleton] at h
      cases above with
      | file => cases h
      | link target => cases h
      | dir entries => exact ⟨entries, rfl, h⟩

/-- What leads to something is a directory with an entry for every step. -/
theorem entry_above {above below : Location} {node : Node}
    (h : fs.root.lookup (above ++ n :: below) = some node) :
    ∃ entries child, fs.root.lookup above = some (.dir entries) ∧
      (Node.dir entries).entry n = some child := by
  rw [List.append_cons, Node.lookup_append] at h
  cases hchild : fs.root.lookup (above ++ [n]) with
  | none =>
      rw [hchild] at h
      cases h
  | some child =>
      obtain ⟨entries, habove, hentry⟩ := dir_of_lookup hchild
      exact ⟨entries, child, habove, hentry⟩

theorem physical_dropLast (h : fs.Physical loc) : fs.Physical loc.dropLast := by
  by_cases hne : loc = []
  · rw [hne]
    exact physical_root
  · obtain ⟨node, hnode, -⟩ := h
    rw [← List.dropLast_concat_getLast hne] at hnode
    obtain ⟨entries, hdir, -⟩ := dir_of_lookup hnode
    exact ⟨.dir entries, hdir, rfl⟩

/-- Up to the first link the resolution stays at physical locations. -/
theorem walkToLink_physical (h : fs.Physical loc) :
    match fs.walkToLink loc segs with
    | .done loc' => fs.Physical loc'
    | .failed _ => True
    | .followed loc' _ _ => fs.Physical loc' := by
  induction segs generalizing loc with
  | nil => exact h
  | cons segment rest ih =>
      unfold walkToLink
      cases hloc : fs.root.lookup loc with
      | none => trivial
      | some node =>
          cases node with
          | file => trivial
          | link target => trivial
          | dir entries =>
              cases segment with
              | cur => exact ih h
              | up => exact ih (physical_dropLast h)
              | name n =>
                  dsimp only
                  cases hentry : (Node.dir entries).entry n with
                  | none => trivial
                  | some child =>
                      have hchild : fs.root.lookup (loc ++ [n]) = some child := by
                        rw [Node.lookup_append, hloc]
                        dsimp only
                        rw [Node.lookup_singleton]
                        exact hentry
                      cases child with
                      | file => exact ih ⟨_, hchild, rfl⟩
                      | link target => exact h
                      | dir entries' => exact ih ⟨_, hchild, rfl⟩

/-- **What a path resolves to is physical.** -/
theorem physical_of_walk {links : Nat} (h : fs.Physical loc)
    (hwalk : fs.walk links loc segs = .ok loc') : fs.Physical loc' := by
  induction links generalizing loc segs with
  | zero =>
      unfold walk at hwalk
      have hphysical := @walkToLink_physical fs loc segs h
      cases hstep : fs.walkToLink loc segs with
      | done there =>
          rw [hstep] at hwalk hphysical
          cases hwalk
          exact hphysical
      | failed error =>
          rw [hstep] at hwalk
          cases hwalk
      | followed there target rest =>
          rw [hstep] at hwalk
          dsimp only at hwalk
          split_ifs at hwalk
  | succ links ih =>
      unfold walk at hwalk
      have hphysical := @walkToLink_physical fs loc segs h
      cases hstep : fs.walkToLink loc segs with
      | done there =>
          rw [hstep] at hwalk hphysical
          cases hwalk
          exact hphysical
      | failed error =>
          rw [hstep] at hwalk
          cases hwalk
      | followed there target rest =>
          rw [hstep] at hwalk hphysical
          dsimp only at hwalk
          split_ifs at hwalk
          refine ih ?_ hwalk
          unfold start
          split_ifs
          · exact physical_root
          · exact hphysical

/-- Names that lead to something physical are passed one by one. -/
theorem walkToLink_names {names : Location} (h : fs.Physical (loc ++ names)) :
    fs.walkToLink loc (names.map .name ++ rest) = fs.walkToLink (loc ++ names) rest := by
  induction names generalizing loc with
  | nil => rw [List.append_nil]; rfl
  | cons n names ih =>
      have hsplit : loc ++ n :: names = (loc ++ [n]) ++ names := by simp
      rw [hsplit] at h ⊢
      rw [← ih h, List.map_cons, List.cons_append]
      obtain ⟨node, hnode, hlink⟩ := h
      rw [Node.lookup_append] at hnode
      cases hchild : fs.root.lookup (loc ++ [n]) with
      | none =>
          rw [hchild] at hnode
          cases hnode
      | some child =>
      rw [hchild] at hnode
      have hlink := Node.isLink_of_lookup hnode hlink
      obtain ⟨entries, hdir, hentry⟩ := dir_of_lookup hchild
      rw [walkToLink, hdir]
      dsimp only
      rw [hentry]
      cases child with
      | file => rfl
      | link target => cases hlink
      | dir entries' => rfl

/-- Resolution continues from where the segments lead without a link. -/
theorem walk_congr {loc' : Location} {segs' : List Segment} (links : Nat)
    (h : fs.walkToLink loc segs = fs.walkToLink loc' segs') :
    fs.walk links loc segs = fs.walk links loc' segs' := by
  cases links with
  | zero => rw [walk, walk, h]
  | succ links => rw [walk, walk, h]

theorem walkToLink_cur {entries : List (Name × Node)} (h : fs.root.lookup loc = some (.dir entries)) :
    fs.walkToLink loc (.cur :: rest) = fs.walkToLink loc rest := by
  rw [walkToLink, h]

theorem root_eq : ∃ entries, fs.root.lookup [] = some (.dir entries) := by
  have hdir := fs.root_isDir
  cases h : fs.root with
  | file =>
      rw [h] at hdir
      cases hdir
  | link target =>
      rw [h] at hdir
      cases hdir
  | dir entries => exact ⟨entries, rfl⟩

/-- From the root, names that lead to something physical get there. -/
theorem walk_names (links : Nat) (h : fs.Physical loc) :
    fs.walk links [] (.cur :: (loc.map .name ++ rest)) = fs.walk links loc rest := by
  obtain ⟨entries, hroot⟩ := @root_eq fs
  refine walk_congr links ?_
  rw [walkToLink_cur hroot]
  exact walkToLink_names h

theorem walk_nil (links : Nat) (loc : Location) : fs.walk links loc [] = .ok loc := by
  cases links <;> rfl

theorem walk_location (links : Nat) (h : fs.Physical loc) :
    fs.walk links [] (.cur :: loc.map .name) = .ok loc := by
  have hwalk := @walk_names fs loc [] links h
  rwa [List.append_nil, walk_nil] at hwalk

theorem start_render (base : Location) : start (render loc) base = [] := by
  simp [start, render, isAbsolute]

/-- **The path of a physical location resolves to the location.** -/
theorem locate_render (h : fs.Physical loc) : fs.locate (render loc) = .ok loc := by
  unfold locate
  rw [if_neg (by simp [render]), start_render]
  by_cases hne : loc = []
  · obtain ⟨entries, hroot⟩ := @root_eq fs
    rw [hne, segments_root, ← walk_nil fs.maxLinks []]
    refine walk_congr fs.maxLinks ?_
    rw [walkToLink_cur hroot, walkToLink_cur hroot]
  · rw [segments_render hne, walk_location _ h]

/-! ### Missing tails -/

variable {entries : List (Name × Node)} {tail : Location}

theorem names_inj {a b : Location} {m : Name}
    (h : Segment.name n :: a.map .name = Segment.name m :: b.map .name) : n :: a = m :: b := by
  have hinjective : Function.Injective Segment.name := fun a b => Segment.name.inj
  rw [← List.map_cons, ← List.map_cons] at h
  exact List.map_injective_iff.mpr hinjective h

/-- A missing entry ends the resolution. -/
theorem walk_missing (links : Nat) (hdir : fs.root.lookup loc = some (.dir entries))
    (hmissing : (Node.dir entries).entry n = none) :
    fs.walk links loc (.name n :: rest) = .error .notFound := by
  have hstep : fs.walkToLink loc (.name n :: rest) = .failed .notFound := by
    rw [walkToLink, hdir]
    dsimp only
    rw [hmissing]
  cases links with
  | zero => rw [walk, hstep]
  | succ links => rw [walk, hstep]

theorem segments_tail : segments (render (loc ++ n :: tail)) =
    .cur :: (loc.map .name ++ .name n :: tail.map .name) := by
  rw [segments_render (by simp), List.map_append, List.map_cons]

/-- A path with a missing tail names nothing. -/
theorem locate_missing (hdir : fs.root.lookup loc = some (.dir entries))
    (hmissing : (Node.dir entries).entry n = none) :
    fs.locate (render (loc ++ n :: tail)) = .error .notFound := by
  unfold locate
  rw [if_neg (by simp [render]), start_render, segments_tail, walk_names _ ⟨_, hdir, rfl⟩,
    walk_missing _ hdir hmissing]

/-- **A missing tail after a physical directory is created right there**, and
nowhere else. -/
theorem reaches_render (hdir : fs.root.lookup loc = some (.dir entries))
    (hmissing : (Node.dir entries).entry n = none) {there : Location} :
    fs.Reaches (render (loc ++ n :: tail)) there ↔ there = loc ++ n :: tail := by
  have hphysical : fs.Physical loc := ⟨_, hdir, rfl⟩
  constructor
  · rintro (hlocate | ⟨front, m, tail', dir, entries', hsegs, hwalk, hdir', hmissing', rfl⟩)
    · rw [locate_missing hdir hmissing] at hlocate
      cases hlocate
    rw [segments_tail] at hsegs
    rw [start_render] at hwalk
    -- What is in front of the missing entry are names too.
    cases front with
    | nil => cases hsegs
    | cons first front =>
        rw [List.cons_append] at hsegs
        obtain ⟨hfirst, hrest⟩ := List.cons.inj hsegs
        subst hfirst
        rcases List.append_eq_append_iff.mp hrest with ⟨more, hfront, hback⟩ | ⟨more, hloc, hback⟩
        · rw [hfront, walk_names _ hphysical] at hwalk
          cases more with
          | nil =>
              rw [walk_nil] at hwalk
              cases hwalk
              rw [List.nil_append] at hback
              exact congrArg (loc ++ ·) (names_inj hback).symm
          | cons segment more =>
              -- The resolution would have to pass the missing entry.
              rw [List.cons_append] at hback
              obtain ⟨hsegment, -⟩ := List.cons.inj hback
              rw [← hsegment, walk_missing _ hdir hmissing] at hwalk
              cases hwalk
        · cases more with
          | nil =>
              rw [List.append_nil] at hloc
              rw [← hloc] at hwalk
              rw [walk_location _ hphysical] at hwalk
              cases hwalk
              rw [List.nil_append] at hback
              exact congrArg (loc ++ ·) (names_inj hback)
          | cons segment more =>
              -- The entry that is said to be missing leads to the directory.
              rw [List.cons_append] at hback
              obtain ⟨hsegment, -⟩ := List.cons.inj hback
              rw [← hsegment] at hloc
              obtain ⟨above, below, rfl, hfront, hbelow⟩ := List.map_eq_append_iff.mp hloc
              obtain ⟨m', below, rfl, hm, -⟩ := List.map_eq_cons_iff.mp hbelow
              obtain rfl := Segment.name.inj hm
              obtain ⟨entries'', child, habove, hentry⟩ := entry_above hdir
              rw [← hfront, walk_location _ ⟨_, habove, rfl⟩] at hwalk
              cases hwalk
              rw [habove] at hdir'
              cases hdir'
              rw [hentry] at hmissing'
              cases hmissing'
  · rintro rfl
    refine .inr ⟨.cur :: loc.map .name, n, tail, loc, entries, segments_tail, ?_, hdir, hmissing,
      rfl⟩
    rw [start_render, walk_location _ hphysical]

/-- **The path of a physical location opens there**, and nowhere else. -/
theorem reaches_physical (h : fs.Physical loc) {there : Location} :
    fs.Reaches (render loc) there ↔ there = loc := by
  constructor
  · rintro (hlocate | ⟨front, m, tail, dir, entries, hsegs, hwalk, hdir, hmissing, -⟩)
    · rw [locate_render h] at hlocate
      cases hlocate
      rfl
    · exfalso
      rw [start_render] at hwalk
      by_cases hne : loc = []
      · have hmem : Segment.name m ∈ segments (render loc) := by
          rw [hsegs]
          simp
        rw [hne, segments_root] at hmem
        simp at hmem
      · rw [segments_render hne] at hsegs
        cases front with
        | nil => cases hsegs
        | cons first front =>
            rw [List.cons_append] at hsegs
            obtain ⟨hfirst, hrest⟩ := List.cons.inj hsegs
            subst hfirst
            obtain ⟨above, below, rfl, hfront, hbelow⟩ := List.map_eq_append_iff.mp hrest
            obtain ⟨m', below, rfl, hm, -⟩ := List.map_eq_cons_iff.mp hbelow
            obtain rfl := Segment.name.inj hm
            obtain ⟨node, hnode, -⟩ := h
            obtain ⟨entries', child, habove, hentry⟩ := entry_above hnode
            rw [← hfront, walk_location _ ⟨_, habove, rfl⟩] at hwalk
            cases hwalk
            rw [habove] at hdir
            cases hdir
            rw [hentry] at hmissing
            cases hmissing
  · rintro rfl
    exact .inl (locate_render h)

end Snapshot

end UnixFs
