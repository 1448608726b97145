import GoNomad.Lib.Text
import GoNomad.Lib.UnixFs
import GoNomad.Proto.Error

/-!
# The path guard

Decides whether a requested path is inside a workspace root: the shape of the
name first, then the deepest existing ancestor, canonicalised, with the missing
tail appended again, and containment component by component.  The host is a Unix
system, where no path has a prefix, so nothing is verbatim and nothing is on a
network share.
-/

namespace Policy

open Proto UnixFs

/-- Longest requested path accepted, in bytes. -/
def maxPathBytes : Nat := 4096

/-- Most components a requested path may have. -/
def maxPathComponents : Nat := 256

/-- Names that resolve to devices rather than files in every directory. -/
def reservedDeviceNames : List String :=
  ["CON", "PRN", "AUX", "NUL", "CONIN$", "CONOUT$", "COM1", "COM2", "COM3", "COM4", "COM5", "COM6",
   "COM7", "COM8", "COM9", "COM\u00b9", "COM\u00b2", "COM\u00b3", "LPT1", "LPT2", "LPT3", "LPT4",
   "LPT5", "LPT6", "LPT7", "LPT8", "LPT9", "LPT\u00b9", "LPT\u00b2", "LPT\u00b3"]

/-- Why a path was refused. -/
inductive DenyReason
  | notUtf8
  | nullByte
  | tooLong
  | tooManyComponents
  | notAbsolute
  | reservedDeviceName
  | alternateDataStream
  | trailingDotOrSpace
  | verbatimPrefix
  | uncNotConfigured
  | noRootsConfigured
  | unresolvableAncestor
  | traversalIntoMissingPath
  | outsideRoots
  deriving DecidableEq

namespace DenyReason

/-- The refusal is about the shape of the name rather than about where it points. -/
def isMalformedName : DenyReason → Bool
  | notUtf8 | nullByte | tooLong | tooManyComponents | notAbsolute | reservedDeviceName
  | alternateDataStream | trailingDotOrSpace | verbatimPrefix => true
  | _ => false

/-- Every reason that has to do with a location becomes `notFound`. -/
def toProtoError (reason : DenyReason) : ProtoError :=
  if reason.isMalformedName then .badRequest "invalid path" else .notFound

end DenyReason

/-- A path that has passed every check. -/
structure ResolvedPath where
  path : OsPath
  root : OsPath
  isThere : Bool
  deriving DecidableEq

/-- A directory a device is permitted to reach into. -/
structure WorkspaceRoot where
  canonical : OsPath
  configured : OsPath
  deriving DecidableEq

structure GuardOptions where
  windowsNameRules : Bool
  allowUnc : Bool

/-! ### The shape of a name -/

/-- A component names a device: the extension, case and blanks do not matter. -/
def isReservedDeviceName (component : List Char) : Bool :=
  let stem := component.takeWhile fun c => c != '.' && c != ':'
  let isBlank : Char → Bool := fun c => c = ' ' || c = '\t'
  let stem := ((stem.dropWhile isBlank).reverse.dropWhile isBlank).reverse
  reservedDeviceNames.any fun reserved =>
    stem.map Char.toLower = reserved.toList.map Char.toLower || stem = reserved.toList

def hasAlternateDataStream (component : List Char) : Bool := component.contains ':'

def hasTrailingDotOrSpace (component : List Char) : Bool :=
  component.getLast? = some '.' || component.getLast? = some ' '

/-- A path on a Unix host has no prefix. -/
def pathIsUnc (_ : OsPath) : Bool := false

def pathIsVerbatim (_ : OsPath) : Bool := false

/-- The roots, and how strict the guard is. -/
structure PathGuard where
  roots : List WorkspaceRoot
  options : GuardOptions

namespace PathGuard

def hasUncRoot (guard : PathGuard) : Bool := guard.roots.any fun root => pathIsUnc root.canonical

/-- The name rules, applied to one component. -/
def checkComponent (guard : PathGuard) (name : List Char) : Except DenyReason Unit :=
  if !guard.options.windowsNameRules then .ok ()
  else if hasAlternateDataStream name then .error .alternateDataStream
  else if hasTrailingDotOrSpace name then .error .trailingDotOrSpace
  else if isReservedDeviceName name then .error .reservedDeviceName
  else .ok ()

/-- Checks the components one after the other, counting them. -/
def checkComponents (guard : PathGuard) (count : Nat) : List Component → Except DenyReason Unit
  | [] => .ok ()
  | component :: rest =>
      if maxPathComponents < count + 1 then .error .tooManyComponents
      else
        match component with
        | .normal part =>
            match ofUtf8 part.bytes with
            | none => .error .notUtf8
            | some name =>
                match guard.checkComponent name.toList with
                | .error reason => .error reason
                | .ok () => checkComponents guard (count + 1) rest
        -- The other components carry no name to check.
        | _ => checkComponents guard (count + 1) rest

/-- Everything decidable from the string. -/
def checkSyntax (guard : PathGuard) (requested : OsPath) : Except DenyReason Unit :=
  match ofUtf8 requested with
  | none => .error .notUtf8
  | some _ =>
      if requested.contains 0 then .error .nullByte
      else if maxPathBytes < requested.length then .error .tooLong
      else if pathIsVerbatim requested then .error .verbatimPrefix
      else if !isAbsolute requested then .error .notAbsolute
      else guard.checkComponents 0 (components requested)

/-- Compares the components of a root and of a candidate one after the other. -/
def matchComponents : List Component → List Component → Bool
  -- The root is exhausted: the candidate is the root or beneath it.
  | [], _ => true
  | _ :: _, [] => false
  | r :: rs, c :: cs => if r = c then matchComponents rs cs else false

/-- The candidate is the root or lives beneath it, component by component. -/
def isWithin (root candidate : OsPath) : Bool :=
  matchComponents (components root) (components candidate)

end PathGuard

/-! ### The deepest existing ancestor -/

/-- Confirms that a component that was reported as absent really is. -/
def verifyStillMissing (fs : Snapshot) (probe : OsPath) : Except DenyReason Unit :=
  match fs.symlinkMetadata probe with
  | .error .notFound => .ok ()
  | _ => .error .unresolvableAncestor

/-- One round of the walk up, and the rounds that are left.  `tail` is in the
order of the path. -/
def walkUp (fs : Snapshot) (cursor : OsPath) (tail : List Name) :
    Nat → Except DenyReason (OsPath × List Name)
  | 0 => .error .tooManyComponents
  | rounds + 1 =>
      match fs.canonicalize cursor with
      | .ok canonical =>
          match tail with
          | [] => .ok (canonical, tail)
          | firstMissing :: _ =>
              match verifyStillMissing fs (push canonical firstMissing) with
              | .error reason => .error reason
              | .ok () => .ok (canonical, tail)
      | .error .notFound =>
          match fileName cursor with
          | none =>
              -- Past the root, or a `..` that cannot be trimmed.
              .error (if parent cursor = none then .unresolvableAncestor
                else .traversalIntoMissingPath)
          | some name =>
              match parent cursor with
              | none => .error .unresolvableAncestor
              | some above => walkUp fs above (name :: tail) rounds
      -- Any other error denies outright.
      | .error _ => .error .unresolvableAncestor

/-- The deepest existing ancestor of a path, canonicalised, and the components
that do not exist yet. -/
def canonicaliseDeepestAncestor (fs : Snapshot) (path : OsPath) :
    Except DenyReason (OsPath × List Name) :=
  walkUp fs path [] (maxPathComponents + 3)

namespace PathGuard

/-- The path with the missing tail appended again. -/
def appendTail (ancestor : OsPath) (tail : List Name) : OsPath := tail.foldl push ancestor

/-- The first root that contains a canonical path. -/
def locateRoot (guard : PathGuard) (canonical : OsPath) : Option WorkspaceRoot :=
  guard.roots.find? fun root => isWithin root.canonical canonical

/-- Runs the full pipeline and returns the canonical path. -/
def resolve (guard : PathGuard) (fs : Snapshot) (requested : OsPath) :
    Except DenyReason ResolvedPath :=
  match guard.checkSyntax requested with
  | .error reason => .error reason
  | .ok () =>
      if guard.roots.isEmpty then .error .noRootsConfigured
      else if pathIsUnc requested && !(guard.options.allowUnc && guard.hasUncRoot) then
        .error .uncNotConfigured
      else
        match canonicaliseDeepestAncestor fs requested with
        | .error reason => .error reason
        | .ok (ancestor, tail) =>
            let canonical := appendTail ancestor tail
            -- The path may resolve onto a share even if it did not name one.
            if pathIsUnc canonical && !(guard.options.allowUnc && guard.hasUncRoot) then
              .error .uncNotConfigured
            else
              match guard.locateRoot canonical with
              | none => .error .outsideRoots
              | some root =>
                  .ok { path := canonical, root := root.canonical, isThere := tail.isEmpty }

end PathGuard

end Policy
