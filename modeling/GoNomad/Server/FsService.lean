import GoNomad.Lib.UnixVolume
import GoNomad.Policy.Engine
import GoNomad.Proto.Control
import Mathlib.Data.List.Sort

/-!
# The filesystem service

Directory listing and file reads.  Nothing is looked at on the disk before the
policy engine has approved the path.
-/

namespace Server

open Proto Policy UnixFs

/-- Largest file this slice will send in one response. -/
def maxReadBytes : Nat := 512 * 1024

/-- A file's contents. -/
structure FileContent where
  /-- The path that was read, as the client asked for it. -/
  path : String
  text : String
  /-- Of the bytes actually read. -/
  contentHash : Digest
  /-- The file was longer than `maxReadBytes`. -/
  truncated : Bool
  deriving DecidableEq

/-- Read-only filesystem operations, guarded by policy. -/
structure FsService where
  engine : PolicyEngine

/-! ### One entry -/

/-- A name is hidden by platform convention. -/
def isHidden (name : String) : Bool := name.toList.head? = some '.'

/-- The last change in whole milliseconds, where it is not before the epoch. -/
def modifiedMs (inode : Inode) : Option Int64 :=
  match inode.modified with
  | none => none
  | some ns =>
      if ns < 0 then none
      else if ns / 1000000 < 2 ^ 63 then some (Int64.ofInt (ns / 1000000))
      else none

/-- A link is not followed for display. -/
def entryKind : Node → EntryKind
  | .link _ => .symlink
  | .dir _ => .directory
  | .file => .file

/-- The entry of a node under a name, and of what following it finds. -/
def entryOf (n : Name) (node : Node) (followed : Option Inode) : DirEntry where
  name := lossyUtf8 n.bytes
  kind := entryKind node
  sizeBytes :=
    match entryKind node with
    | .file => followed.map Inode.len
    | _ => none
  modifiedMs := followed.bind modifiedMs
  isHidden := isHidden (lossyUtf8 n.bytes)

/-- The entry a listing shows for a path, if it still names something. -/
def dirEntry (volume : Volume) (path : OsPath) : Option DirEntry :=
  match fileName path with
  | none => none
  | some n =>
      match volume.symlinkMetadata path with
      | none => none
      | some node => some (entryOf n node (volume.metadata path))

/-- Compares names in lower case, then byte by byte. -/
def cmpNames (toLowercase : String → String) (a b : String) : Ordering :=
  (compare (utf8 (toLowercase a)) (utf8 (toLowercase b))).then (compare (utf8 a) (utf8 b))

/-- Directories come first. -/
def cmpEntries (toLowercase : String → String) (a b : DirEntry) : Ordering :=
  match a.kind, b.kind with
  | .directory, .directory => cmpNames toLowercase a.name b.name
  | .directory, _ => .lt
  | _, .directory => .gt
  | _, _ => cmpNames toLowercase a.name b.name

/-! ### The service -/

namespace FsService

/-- Runs the policy checks that must precede any disk access. -/
def authorize (service : FsService) (tree : Snapshot) (grant : Option DeviceGrant)
    (capability : Capability) (method requested : String) : Except ProtoError ResolvedPath :=
  if requested.toList.contains '\x00' then .error (.badRequest "path contains a null byte")
  else
    service.engine.authorizePath tree
      { grant, capability, path := utf8 requested, method
        argsDigest := .of (utf8 requested), presence := .absent }

/-- Lists one directory level. -/
def list (service : FsService) (toLowercase : String → String) (volume : Volume)
    (grant : Option DeviceGrant) (requested : String) : Except ProtoError (List DirEntry) := do
  let resolved ← service.authorize volume.tree grant .fsRead "fs.list" requested
  match volume.readDir resolved.path with
  | none => .error .notFound
  | some candidates =>
      let visible := service.engine.filterListing grant candidates
      let entries := visible.filterMap (dirEntry volume)
      .ok (entries.insertionSort fun a b => cmpEntries toLowercase a b ≠ .gt)

/-- Reads a file as text. -/
def read (service : FsService) (volume : Volume) (grant : Option DeviceGrant) (requested : String) :
    Except ProtoError FileContent := do
  let resolved ← service.authorize volume.tree grant .fsRead "fs.read" requested
  match volume.read resolved.path with
  | none => .error .notFound
  | some bytes =>
      let truncated : Bool := maxReadBytes < bytes.length
      let slice := if truncated then bytes.take maxReadBytes else bytes
      match ofUtf8 slice with
      | none => .error (.badRequest "file is not valid UTF-8 text")
      | some text => .ok { path := requested, text, contentHash := .of slice, truncated }

/-- Validates a directory a terminal is about to be started in. -/
def authorizeDir (service : FsService) (volume : Volume) (grant : Option DeviceGrant)
    (requested : String) : Except ProtoError String := do
  let resolved ← service.authorize volume.tree grant .ptySpawn "pty.spawn" requested
  return lossyUtf8 resolved.path

end FsService

end Server
