import GoNomad.Lib.UnixFs

/-!
# Volumes

A volume is the tree the paths are resolved in, and what the system keeps about
every location beside its name: whether it opens, what is in it, when it was last
changed.

* `readDir_render` — what a directory holds is read at its own location;
* `symlinkMetadata_render` — an entry is asked about where it is;
* `metadata_render` — what is not a link is found where it is.
-/

namespace UnixFs

/-- What the system keeps about a file or a directory. -/
structure Inode where
  /-- The daemon may open it. -/
  opens : Bool
  contents : List UInt8
  len : UInt64
  /-- The last change in nanoseconds since the epoch, where the system knows it. -/
  modified : Option Int
  deriving DecidableEq

/-- A file system. -/
structure Volume where
  tree : Snapshot
  inode : Location → Inode

namespace Volume

section

variable (volume : Volume)

/-- The contents of a file. -/
def read (path : OsPath) : Option (List UInt8) :=
  match volume.tree.locate path with
  | .error _ => none
  | .ok loc =>
      match volume.tree.root.lookup loc with
      | some .file => if (volume.inode loc).opens then some (volume.inode loc).contents else none
      | _ => none

/-- The paths of the entries of a directory, in the order the directory has them. -/
def readDir (path : OsPath) : Option (List OsPath) :=
  match volume.tree.locate path with
  | .error _ => none
  | .ok loc =>
      match volume.tree.root.lookup loc with
      | some (.dir entries) =>
          if (volume.inode loc).opens then some (entries.map fun e => push path e.1) else none
      | _ => none

/-- What is kept about what a path leads to, all links followed. -/
def metadata (path : OsPath) : Option Inode :=
  match volume.tree.locate path with
  | .error _ => none
  | .ok loc => some (volume.inode loc)

/-- The node a path names, a link at its end not followed. -/
def symlinkMetadata (path : OsPath) : Option Node :=
  match (segments path).getLast? with
  | some (.name n) =>
      match volume.tree.walk volume.tree.maxLinks (Snapshot.start path volume.tree.cwd)
          (segments path).dropLast with
      | .error _ => none
      | .ok loc => (volume.tree.root.lookup loc).bind fun node => node.entry n
  | _ =>
      match volume.tree.locate path with
      | .error _ => none
      | .ok loc => volume.tree.root.lookup loc

end

variable {volume : Volume} {loc : Location} {n : Name}

/-- A directory is read where it is, and its entries are right below it. -/
theorem readDir_render (h : volume.tree.Physical loc) :
    volume.readDir (render loc) =
      match volume.tree.root.lookup loc with
      | some (.dir entries) =>
          if (volume.inode loc).opens then some (entries.map fun e => render (loc ++ [e.1]))
          else none
      | _ => none := by
  unfold readDir
  rw [Snapshot.locate_render h]
  simp only [push_render]

/-- **An entry is asked about where it is**, whether it is a link or not. -/
theorem symlinkMetadata_render (h : volume.tree.Physical loc) :
    volume.symlinkMetadata (render (loc ++ [n])) = volume.tree.root.lookup (loc ++ [n]) := by
  have hsegs : segments (render (loc ++ [n])) = .cur :: loc.map .name ++ [.name n] := by
    have hsegs := @segments_render (loc ++ [n]) (by simp)
    rwa [List.map_append, List.map_singleton] at hsegs
  unfold symlinkMetadata
  rw [hsegs, List.getLast?_concat, List.dropLast_concat, Snapshot.start_render]
  dsimp only
  rewrite [Snapshot.walk_location _ h, Node.lookup_append]
  dsimp only
  cases volume.tree.root.lookup loc with
  | none => rfl
  | some node => exact (Node.lookup_singleton node n).symm

/-- **What is not a link is found where it is.** -/
theorem metadata_render (h : volume.tree.Physical loc) :
    volume.metadata (render loc) = some (volume.inode loc) := by
  unfold metadata
  rw [Snapshot.locate_render h]

end Volume

theorem fileName_render (loc : Location) (n : Name) : fileName (render (loc ++ [n])) = some n := by
  unfold fileName
  rw [components_render, List.map_append, ← List.cons_append, List.map_singleton,
    List.getLast?_concat]

end UnixFs
