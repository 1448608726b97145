import GoNomad.Policy.PathGuard

/-!
# What a refusal tells

The guard asks the file system two questions and tells `notFound` from every
other failure, whatever that is.  Here a file system is any answers to these
questions, so that it may be unreadable as well, and the guard of a snapshot is
one case.

* `walkUp_reason` — a walk up from a path of few components does not run out of
  rounds, so what the disk can cause is about a location;
* `PathGuard.denied_alike` — what a refusal looks like on the wire is decided by
  the request alone.
-/

namespace Policy

open Proto UnixFs

/-- Why a question fails.  Anything but `notFound` is one case: no permission, not
a directory, too many links. -/
inductive DiskError
  | notFound
  | other
  deriving DecidableEq

def DiskError.of : IoError → DiskError
  | .notFound => .notFound
  | _ => .other

/-- What a file system answers. -/
structure Disk where
  canonicalize : OsPath → Except DiskError OsPath
  symlinkMetadata : OsPath → Except DiskError Unit

/-- The answers of a snapshot. -/
def Disk.ofSnapshot (fs : Snapshot) : Disk where
  canonicalize path := (fs.canonicalize path).mapError .of
  symlinkMetadata path := (fs.symlinkMetadata path).mapError .of

namespace Disk

variable (disk : Disk)

/-- Confirms that a component that was reported as absent really is. -/
def verifyStillMissing (probe : OsPath) : Except DenyReason Unit :=
  match disk.symlinkMetadata probe with
  | .error .notFound => .ok ()
  | _ => .error .unresolvableAncestor

/-- One round of the walk up, and the rounds that are left. -/
def walkUp (cursor : OsPath) (tail : List Name) : Nat → Except DenyReason (OsPath × List Name)
  | 0 => .error .tooManyComponents
  | rounds + 1 =>
      match disk.canonicalize cursor with
      | .ok canonical =>
          match tail with
          | [] => .ok (canonical, tail)
          | firstMissing :: _ =>
              match disk.verifyStillMissing (push canonical firstMissing) with
              | .error reason => .error reason
              | .ok () => .ok (canonical, tail)
      | .error .notFound =>
          match fileName cursor with
          | none =>
              .error (if parent cursor = none then .unresolvableAncestor
                else .traversalIntoMissingPath)
          | some name =>
              match parent cursor with
              | none => .error .unresolvableAncestor
              | some above => walkUp above (name :: tail) rounds
      | .error .other => .error .unresolvableAncestor

def canonicaliseDeepestAncestor (path : OsPath) : Except DenyReason (OsPath × List Name) :=
  disk.walkUp path [] (maxPathComponents + 3)

end Disk

namespace PathGuard

/-- The full pipeline over any answers. -/
def resolveOn (guard : PathGuard) (disk : Disk) (requested : OsPath) :
    Except DenyReason ResolvedPath :=
  match guard.checkSyntax requested with
  | .error reason => .error reason
  | .ok () =>
      if guard.roots.isEmpty then .error .noRootsConfigured
      else if pathIsUnc requested && !(guard.options.allowUnc && guard.hasUncRoot) then
        .error .uncNotConfigured
      else
        match disk.canonicaliseDeepestAncestor requested with
        | .error reason => .error reason
        | .ok (ancestor, tail) =>
            let canonical := appendTail ancestor tail
            if pathIsUnc canonical && !(guard.options.allowUnc && guard.hasUncRoot) then
              .error .uncNotConfigured
            else
              match guard.locateRoot canonical with
              | none => .error .outsideRoots
              | some root =>
                  .ok { path := canonical, root := root.canonical, isThere := tail.isEmpty }

end PathGuard

/-! ### The guard of a snapshot -/

variable {fs : Snapshot} {disk : Disk} {guard : PathGuard} {requested cursor : OsPath}
  {reason : DenyReason}

theorem verifyStillMissing_eq (fs : Snapshot) (probe : OsPath) :
    verifyStillMissing fs probe = (Disk.ofSnapshot fs).verifyStillMissing probe := by
  unfold verifyStillMissing Disk.verifyStillMissing Disk.ofSnapshot
  dsimp only
  rcases fs.symlinkMetadata probe with error | u
  · cases error <;> rfl
  · rfl

theorem walkUp_eq (fs : Snapshot) (cursor : OsPath) (tail : List Name) (rounds : Nat) :
    walkUp fs cursor tail rounds = (Disk.ofSnapshot fs).walkUp cursor tail rounds := by
  induction rounds generalizing cursor tail with
  | zero => rfl
  | succ rounds ih =>
      have hcanonicalize : (Disk.ofSnapshot fs).canonicalize cursor =
          (fs.canonicalize cursor).mapError .of := rfl
      unfold walkUp Disk.walkUp
      rw [hcanonicalize]
      cases fs.canonicalize cursor with
      | ok canonical =>
          cases tail with
          | nil => rfl
          | cons first tail =>
              dsimp only [Except.mapError]
              rewrite [verifyStillMissing_eq]
              rfl
      | error error =>
          cases error with
          | notADirectory => rfl
          | tooManyLinks => rfl
          | notFound =>
              dsimp only [Except.mapError, DiskError.of]
              cases fileName cursor with
              | none => rfl
              | some name =>
                  cases parent cursor with
                  | none => rfl
                  | some above => exact ih above (name :: tail)

/-- **The guard of a snapshot is the guard of its answers.** -/
theorem PathGuard.resolve_eq (guard : PathGuard) (fs : Snapshot) (requested : OsPath) :
    guard.resolve fs requested = guard.resolveOn (.ofSnapshot fs) requested := by
  have hancestor : Policy.canonicaliseDeepestAncestor fs requested =
      (Disk.ofSnapshot fs).canonicaliseDeepestAncestor requested :=
    walkUp_eq fs requested [] _
  unfold resolve resolveOn
  rewrite [hancestor]
  rfl

/-! ### The reasons of a refusal -/

theorem reason_of_verify {probe : OsPath} (h : disk.verifyStillMissing probe = .error reason) :
    reason = .unresolvableAncestor := by
  unfold Disk.verifyStillMissing at h
  split at h
  · cases h
  · cases h
    rfl

/-- **A walk up with more rounds than components** does not run out of rounds. -/
theorem walkUp_reason {tail : List Name} {rounds : Nat} (habsolute : isAbsolute cursor = true)
    (hrounds : (components cursor).length < rounds)
    (h : disk.walkUp cursor tail rounds = .error reason) : reason.isMalformedName = false := by
  induction rounds generalizing cursor tail with
  | zero => exact absurd hrounds (Nat.not_lt_zero _)
  | succ rounds ih =>
      unfold Disk.walkUp at h
      cases hcanonical : disk.canonicalize cursor with
      | ok canonical =>
          rw [hcanonical] at h
          cases tail with
          | nil => cases h
          | cons first tail =>
              dsimp only at h
              cases hverify : disk.verifyStillMissing (push canonical first) with
              | error reason' =>
                  rw [hverify] at h
                  cases h
                  rw [reason_of_verify hverify]
                  rfl
              | ok u =>
                  rw [hverify] at h
                  cases h
      | error error =>
          rw [hcanonical] at h
          cases error with
          | other =>
              cases h
              rfl
          | notFound =>
              dsimp only at h
              cases hname : fileName cursor with
              | none =>
                  rw [hname] at h
                  cases h
                  split_ifs <;> rfl
              | some name =>
                  rw [hname] at h
                  dsimp only at h
                  cases hparent : parent cursor with
                  | none =>
                      rw [hparent] at h
                      cases h
                      rfl
                  | some above =>
                      rw [hparent] at h
                      obtain ⟨c, hc⟩ := components_parent habsolute hparent
                      have hlength := congrArg List.length hc
                      rw [List.length_append, List.length_singleton] at hlength
                      exact ih (parent_isAbsolute habsolute hparent) (by omega) h

namespace PathGuard

/-- A path that passes the count has few components. -/
theorem length_of_checkComponents {count : Nat} {parts : List Component}
    (h : guard.checkComponents count parts = .ok ()) (hcount : count ≤ maxPathComponents) :
    count + parts.length ≤ maxPathComponents := by
  induction parts generalizing count with
  | nil => exact hcount
  | cons part parts ih =>
      unfold checkComponents at h
      split_ifs at h with hmany
      have hrest : guard.checkComponents (count + 1) parts = .ok () := by
        split at h
        · split at h
          · cases h
          · split at h
            · cases h
            · exact h
        · exact h
      have hle := ih hrest (by omega)
      rw [List.length_cons]
      omega

/-- What a request that is well formed looks like. -/
theorem shape_of_checkSyntax (h : guard.checkSyntax requested = .ok ()) :
    isAbsolute requested = true ∧ (components requested).length ≤ maxPathComponents := by
  unfold checkSyntax at h
  split at h
  · cases h
  · split_ifs at h with _ _ _ hrelative
    refine ⟨by simpa using hrelative, ?_⟩
    have hle := length_of_checkComponents h (Nat.zero_le _)
    rwa [Nat.zero_add] at hle

theorem reason_of_checkComponents {count : Nat} {parts : List Component}
    (h : guard.checkComponents count parts = .error reason) : reason.isMalformedName = true := by
  induction parts generalizing count with
  | nil => cases h
  | cons part parts ih =>
      unfold checkComponents at h
      split_ifs at h with hmany
      · cases h
        rfl
      · split at h
        · split at h
          · cases h
            rfl
          · split at h
            · next hcomponent =>
                cases h
                unfold checkComponent at hcomponent
                split_ifs at hcomponent <;> cases hcomponent <;> rfl
            · exact ih h
        · exact ih h

/-- What is refused for its shape is refused as malformed. -/
theorem reason_of_checkSyntax (h : guard.checkSyntax requested = .error reason) :
    reason.isMalformedName = true := by
  unfold checkSyntax at h
  split at h
  · cases h
    rfl
  · split_ifs at h
    · cases h
      rfl
    · cases h
      rfl
    · cases h
      rfl
    · cases h
      rfl
    · exact reason_of_checkComponents h

/-- What is refused behind the shape is refused for its location. -/
theorem reason_of_resolveOn (hshape : guard.checkSyntax requested = .ok ())
    (h : guard.resolveOn disk requested = .error reason) : reason.isMalformedName = false := by
  obtain ⟨habsolute, hlength⟩ := shape_of_checkSyntax hshape
  unfold resolveOn at h
  rw [hshape] at h
  dsimp only at h
  split_ifs at h
  · cases h
    rfl
  · cases h
    rfl
  · cases hwalk : disk.canonicaliseDeepestAncestor requested with
    | error reason' =>
        rw [hwalk] at h
        cases h
        exact walkUp_reason habsolute (by omega) hwalk
    | ok found =>
        obtain ⟨ancestor, tail⟩ := found
        rw [hwalk] at h
        dsimp only at h
        split_ifs at h
        · cases h
          rfl
        · split at h
          · cases h
            rfl
          · cases h

/-- What a refusal of a request looks like on the wire. -/
def wireDenial (guard : PathGuard) (requested : OsPath) : ProtoError :=
  match guard.checkSyntax requested with
  | .error _ => .badRequest "invalid path"
  | .ok () => .notFound

theorem toProtoError_of_resolveOn (h : guard.resolveOn disk requested = .error reason) :
    reason.toProtoError = guard.wireDenial requested := by
  unfold wireDenial
  cases hshape : guard.checkSyntax requested with
  | error shape =>
      unfold resolveOn at h
      rw [hshape] at h
      cases h
      exact if_pos (reason_of_checkSyntax hshape)
  | ok u =>
      have hnot : ¬ reason.isMalformedName = true := by
        rw [reason_of_resolveOn hshape h]
        exact Bool.false_ne_true
      exact if_neg hnot

/-- Appends a relative path to the path of a root. -/
def joinPath (base relative : OsPath) : OsPath :=
  match base.getLast? with
  | none => relative
  | some b => if b = slash then base ++ relative else base ++ slash :: relative

/-- Resolves a path expressed relative to one of the configured roots. -/
def resolveInRoot (guard : PathGuard) (disk : Disk) (root : WorkspaceRoot) (relative : OsPath) :
    Except DenyReason ResolvedPath :=
  -- Joining an absolute path would discard the root.
  if isAbsolute relative then .error .notAbsolute
  else guard.resolveOn disk (joinPath root.canonical relative)

theorem resolveInRoot_alike {disk' : Disk} {root : WorkspaceRoot} {relative : OsPath}
    {reason' : DenyReason} (h : guard.resolveInRoot disk root relative = .error reason)
    (h' : guard.resolveInRoot disk' root relative = .error reason') :
    reason.toProtoError = reason'.toProtoError := by
  unfold resolveInRoot at h h'
  split_ifs at h h'
  · cases h
    cases h'
    rfl
  · rw [toProtoError_of_resolveOn h, toProtoError_of_resolveOn h']

/-- **What a refusal looks like on the wire is decided by the request alone.**  A
request that is malformed is refused as such on every disk; any other refusal is
`notFound`. -/
theorem denied_alike (guard : PathGuard) (requested : OsPath) :
    (∀ (disk disk' : Disk) (reason reason' : DenyReason),
      guard.resolveOn disk requested = .error reason →
      guard.resolveOn disk' requested = .error reason' →
      reason.toProtoError = reason'.toProtoError) ∧
    (∀ reason, guard.checkSyntax requested = .error reason →
      reason.toProtoError = .badRequest "invalid path" ∧
        ∀ disk, guard.resolveOn disk requested = .error reason) ∧
    (guard.checkSyntax requested = .ok () → ∀ (disk : Disk) (reason : DenyReason),
      guard.resolveOn disk requested = .error reason → reason.toProtoError = .notFound) ∧
    (∀ (root : WorkspaceRoot) (disk disk' : Disk) (reason reason' : DenyReason),
      guard.resolveInRoot disk root requested = .error reason →
      guard.resolveInRoot disk' root requested = .error reason' →
      reason.toProtoError = reason'.toProtoError) ∧
    ∀ fs, guard.resolve fs requested = guard.resolveOn (.ofSnapshot fs) requested := by
  refine ⟨fun disk disk' reason reason' h h' => ?_, fun reason hshape => ⟨?_, fun disk => ?_⟩,
    fun hshape disk reason h => ?_, fun root disk disk' reason reason' => resolveInRoot_alike,
    fun fs => resolve_eq guard fs requested⟩
  · rw [toProtoError_of_resolveOn h, toProtoError_of_resolveOn h']
  · exact if_pos (reason_of_checkSyntax hshape)
  · unfold resolveOn
    rw [hshape]
  · rw [toProtoError_of_resolveOn h, wireDenial, hshape]

end PathGuard

end Policy
