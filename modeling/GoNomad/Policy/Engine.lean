import GoNomad.Lib.BigEndian
import GoNomad.Lib.Fallible
import GoNomad.Policy.Denylist
import GoNomad.Policy.PathContain

/-!
# The policy engine

Grants, the presence gate and the composed decision for a path: the capability
and its presence before the disk is touched, then the path guard, then the
denylist on the canonical path.

* `challengeMessage_injective` — a challenge covers one device, method and digest;
* `check_iff`, `checkPresence_iff` — the two checks a request passes;
* `authorized` — when a path operation is authorised, and what an unauthorised
  device learns;
* `challenge_separates` — a signature is good for one operation;
* `hiddenCount_eq_iff` — when what is counted as hidden is what a listing leaves out.
-/

namespace Policy

open Proto UnixFs

/-- What one paired device is permitted to do. -/
structure DeviceGrant where
  deviceId : DeviceId
  capabilities : CapabilitySet
  revoked : Bool
  deriving DecidableEq

/-- The capabilities that apply right now: none for a revoked device. -/
def DeviceGrant.effectiveCapabilities (grant : DeviceGrant) : CapabilitySet :=
  if grant.revoked then .empty else grant.capabilities

/-- Whether the client has proven physical presence for this operation. -/
inductive Presence
  | absent
  /-- A signature over this digest, already verified. -/
  | signed (digest : Digest)
  deriving DecidableEq

/-! ### The challenge -/

/-- Domain separation tag for presence challenges. -/
def presenceDomain : List UInt8 := utf8 "gonomad/presence/v1\x00"

/-- What is hashed into a challenge; the length of the method is written least
significant byte first and saturates. -/
def challengeMessage (deviceId : DeviceId) (method : String) (argsDigest : Digest) : List UInt8 :=
  let length := (utf8 method).length
  let methodLen := if length < 2 ^ 32 then UInt32.ofNat length else UInt32.ofNat (2 ^ 32 - 1)
  presenceDomain ++ deviceId.bytes ++ (BigEndian.ofU32 methodLen).reverse ++ utf8 method ++
    argsDigest.bytes

/-- Derives the challenge a presence signature must cover. -/
def operationChallenge (deviceId : DeviceId) (method : String) (argsDigest : Digest) : Digest :=
  .of (challengeMessage deviceId method argsDigest)

/-- A challenge covers one device, one method and one digest of arguments. -/
theorem challengeMessage_injective {device device' : DeviceId} {method method' : String}
    {args args' : Digest}
    (h : challengeMessage device method args = challengeMessage device' method' args') :
    device = device' ∧ method = method' ∧ args = args' := by
  unfold challengeMessage at h
  obtain ⟨hfront, hargs⟩ := List.append_inj' h (args.length_eq.trans args'.length_eq.symm)
  have hlengths := congrArg List.length hfront
  simp only [List.length_append, List.length_reverse, BigEndian.length_ofU32, device.length_eq,
    device'.length_eq] at hlengths
  obtain ⟨hfront, hmethod⟩ := List.append_inj' hfront (by omega)
  obtain ⟨hfront, -⟩ := List.append_inj' hfront rfl
  obtain ⟨-, hdevice⟩ := List.append_inj' hfront (device.length_eq.trans device'.length_eq.symm)
  exact ⟨Id.ext_bytes hdevice, utf8_injective hmethod, Id.ext_bytes hargs⟩

/-! ### The two checks -/

/-- Checks that a device holds a capability. -/
def check (grant : Option DeviceGrant) (required : Capability) : Except ProtoError Unit :=
  match grant with
  | some grant =>
      if grant.effectiveCapabilities.contains required then .ok ()
      else .error (.denied required)
  | none => .error (.denied required)

/-- Checks the presence requirement for a capability. -/
def checkPresence (required : Capability) (expected : Digest) (presence : Presence) :
    Except ProtoError Unit :=
  if !required.requiresPresence then .ok ()
  else
    match presence with
    | .signed signed =>
        if signed = expected then .ok () else .error (.presenceRequired expected)
    | .absent => .error (.presenceRequired expected)

/-- A grant allows a capability: it exists, it is live, and it names it. -/
def Allows (grant : Option DeviceGrant) (required : Capability) : Prop :=
  ∃ g, grant = some g ∧ g.revoked = false ∧ g.capabilities.contains required = true

theorem check_iff {grant : Option DeviceGrant} {required : Capability} :
    check grant required = .ok () ↔ Allows grant required := by
  unfold check Allows DeviceGrant.effectiveCapabilities
  cases grant with
  | none => simp
  | some g =>
      cases hrevoked : g.revoked <;> simp [hrevoked, CapabilitySet.not_contains_empty]

/-- Missing, revoked and insufficient grants get the same answer. -/
theorem check_of_not_allows {grant : Option DeviceGrant} {required : Capability}
    (h : ¬ Allows grant required) : check grant required = .error (.denied required) := by
  have hne : check grant required ≠ .ok () := fun hok => h (check_iff.mp hok)
  unfold check at hne ⊢
  cases grant with
  | none => rfl
  | some g =>
      dsimp only at hne ⊢
      split at hne
      · exact absurd rfl hne
      · rw [if_neg ‹_›]

theorem checkPresence_iff {required : Capability} {expected : Digest} {presence : Presence} :
    checkPresence required expected presence = .ok () ↔
      (required.requiresPresence = true → presence = .signed expected) := by
  unfold checkPresence
  cases required.requiresPresence with
  | false => simp
  | true => cases presence <;> simp

/-! ### The engine -/

/-- One authorisation question, in full. -/
structure PathRequest where
  grant : Option DeviceGrant
  capability : Capability
  path : OsPath
  method : String
  argsDigest : Digest
  presence : Presence

/-- The path guard and the denylist. -/
structure PolicyEngine where
  guard : PathGuard
  denylist : SecretDenylist

namespace PolicyEngine

/-- The challenge of a request; a request without a grant is denied before its
challenge is ever shown to anyone. -/
def challenge (request : PathRequest) : Digest :=
  match request.grant with
  | none => operationChallenge (.replicate 0) request.method request.argsDigest
  | some grant => operationChallenge grant.deviceId request.method request.argsDigest

/-- Runs the whole authorisation pipeline for a path operation. -/
def authorizePath (engine : PolicyEngine) (fs : Snapshot) (request : PathRequest) :
    Except ProtoError ResolvedPath := do
  let challenge := challenge request
  check request.grant request.capability
  checkPresence request.capability challenge request.presence
  let resolved ← (engine.guard.resolve fs request.path).mapError DenyReason.toProtoError
  if engine.denylist.isSecret resolved.path then do
    check request.grant .fsSecrets
    checkPresence .fsSecrets challenge request.presence
    return resolved
  else
    return resolved

/-- Filters a directory listing: entries outside every root and secret entries
are dropped. -/
def filterListing (engine : PolicyEngine) (grant : Option DeviceGrant) (entries : List OsPath) :
    List OsPath :=
  let capabilities := (grant.map DeviceGrant.effectiveCapabilities).getD .empty
  let withinRoots := entries.filter fun entry =>
    engine.guard.roots.any fun root => PathGuard.isWithin root.canonical entry
  engine.denylist.filter capabilities withinRoots

/-- How many entries the denylist hides. -/
def hiddenCount (engine : PolicyEngine) (grant : Option DeviceGrant) (entries : List OsPath) :
    Nat :=
  engine.denylist.hiddenCount ((grant.map DeviceGrant.effectiveCapabilities).getD .empty) entries

variable {engine : PolicyEngine} {fs : Snapshot} {request : PathRequest} {r : ResolvedPath}

/-- The gate of one capability: the grant allows it, and where it takes
presence the request carries a signature over its own challenge. -/
def Clears (request : PathRequest) (required : Capability) : Prop :=
  Allows request.grant required ∧
    (required.requiresPresence = true → request.presence = .signed (challenge request))

/-- A request that clears the gate passes both checks. -/
theorem clears_iff {required : Capability} :
    Clears request required ↔
      check request.grant required = .ok () ∧
        checkPresence required (challenge request) request.presence = .ok () := by
  rw [check_iff, checkPresence_iff]
  rfl

/-- What the pipeline asks for, in its order. -/
theorem authorizePath_iff :
    engine.authorizePath fs request = .ok r ↔
      Clears request request.capability ∧ engine.guard.resolve fs request.path = .ok r ∧
        (engine.denylist.isSecret r.path = true → Clears request .fsSecrets) := by
  unfold authorizePath
  simp only [clears_iff, Except.bind_eq_ok, Except.mapError_eq_ok]
  constructor
  · rintro ⟨_, hcheck, _, hpresence, resolved, hresolve, hrest⟩
    cases hsecret : engine.denylist.isSecret resolved.path with
    | true =>
        rw [hsecret, if_pos rfl, Except.bind_eq_ok] at hrest
        obtain ⟨_, hcheck', hrest⟩ := hrest
        obtain ⟨_, hpresence', hr⟩ := Except.bind_eq_ok.mp hrest
        cases hr
        exact ⟨⟨hcheck, hpresence⟩, hresolve, fun _ => ⟨hcheck', hpresence'⟩⟩
    | false =>
        rw [hsecret, if_neg Bool.false_ne_true] at hrest
        cases hrest
        refine ⟨⟨hcheck, hpresence⟩, hresolve, fun h => ?_⟩
        rw [hsecret] at h
        cases h
  · rintro ⟨⟨hcheck, hpresence⟩, hresolve, hgate⟩
    refine ⟨(), hcheck, (), hpresence, r, hresolve, ?_⟩
    cases hsecret : engine.denylist.isSecret r.path with
    | true =>
        obtain ⟨hcheck', hpresence'⟩ := hgate hsecret
        rw [if_pos rfl, hcheck', hpresence']
        rfl
    | false => rfl

/-- Without the capability the answer is the same whatever is on disk. -/
theorem authorizePath_of_not_allows (h : ¬ Allows request.grant request.capability) :
    engine.authorizePath fs request = .error (.denied request.capability) := by
  unfold authorizePath
  rw [check_of_not_allows h]
  rfl

/-- **Authorisation is exact.**  A path operation is authorised, for the path it
resolves to, if and only if there is a live grant with the capability asked for,
what needs presence is signed over the challenge of this device, method and
digest, the path resolves inside a root, and, when the resolved path is a
secret, the grant also holds `fsSecrets` with such a signature.  A grant that is
absent, revoked or without the capability gets the same answer on every file
system. -/
theorem authorized (engine : PolicyEngine) (request : PathRequest) :
    (∀ fs r, engine.authorizePath fs request = .ok r ↔
      ∃ grant, request.grant = some grant ∧ grant.revoked = false ∧
        grant.capabilities.contains request.capability = true ∧
        (request.capability.requiresPresence = true → request.presence =
          .signed (operationChallenge grant.deviceId request.method request.argsDigest)) ∧
        engine.guard.resolve fs request.path = .ok r ∧
        (∃ root ∈ engine.guard.roots, PathGuard.isWithin root.canonical r.path = true) ∧
        (engine.denylist.isSecret r.path = true →
          grant.capabilities.contains .fsSecrets = true ∧ request.presence =
            .signed (operationChallenge grant.deviceId request.method request.argsDigest))) ∧
    (¬ (∃ grant, request.grant = some grant ∧ grant.revoked = false ∧
        grant.capabilities.contains request.capability = true) →
      ∀ fs fs', engine.authorizePath fs request = engine.authorizePath fs' request) := by
  refine ⟨fun fs r => ?_, fun h fs fs' => ?_⟩
  · rw [authorizePath_iff]
    constructor
    · rintro ⟨⟨⟨grant, hgrant, hlive, hholds⟩, hpresence⟩, hresolve, hsecret⟩
      have hchallenge : challenge request =
          operationChallenge grant.deviceId request.method request.argsDigest := by
        rw [challenge, hgrant]
      rw [hchallenge] at hpresence
      obtain ⟨-, ancestor, tail, root, -, hroot, hwithin, hr⟩ := PathGuard.resolve_cases hresolve
      refine ⟨grant, hgrant, hlive, hholds, hpresence, hresolve, ⟨root, hroot, hr ▸ hwithin⟩,
        fun h => ?_⟩
      obtain ⟨⟨grant', hgrant', -, hholds'⟩, hpresence'⟩ := hsecret h
      rw [hgrant] at hgrant'
      cases hgrant'
      rw [hchallenge] at hpresence'
      exact ⟨hholds', hpresence' rfl⟩
    · rintro ⟨grant, hgrant, hlive, hholds, hpresence, hresolve, -, hsecret⟩
      have hchallenge : challenge request =
          operationChallenge grant.deviceId request.method request.argsDigest := by
        rw [challenge, hgrant]
      rw [← hchallenge] at hpresence hsecret
      refine ⟨⟨⟨grant, hgrant, hlive, hholds⟩, hpresence⟩, hresolve, fun h => ?_⟩
      obtain ⟨hholds', hpresence'⟩ := hsecret h
      exact ⟨⟨grant, hgrant, hlive, hholds'⟩, fun _ => hpresence'⟩
  · rw [authorizePath_of_not_allows h, authorizePath_of_not_allows h]

-- A secret behind a link is asked about by the name it resolves to.
example :
    authorizePath ⟨PathGuard.sampleGuard, ⟨fun s => s = "/w/d/x"⟩⟩ PathGuard.sampleTree
      ⟨some ⟨.replicate 7, ⟨1⟩, false⟩, .fsRead, utf8 "/w/l/x", "fs.read", .replicate 0, .absent⟩ =
    .error (.denied .fsSecrets) := by
  rfl

/-! ### What a signature is good for -/

/-- A gate that does not pass without a signature asks for one over its challenge. -/
theorem clears_or_signed {required : Capability} (h : Clears request required) :
    Clears { request with presence := .absent } required ∨
      request.presence = .signed (challenge request) := by
  cases hrequires : required.requiresPresence with
  | true => exact Or.inr (h.2 hrequires)
  | false =>
      refine Or.inl ⟨h.1, fun h => ?_⟩
      rw [hrequires] at h
      cases h

/-- What passes with a signature passes without one, unless it was signed. -/
theorem authorizePath_or_signed (h : engine.authorizePath fs request = .ok r) :
    engine.authorizePath fs { request with presence := .absent } = .ok r ∨
      request.presence = .signed (challenge request) := by
  obtain ⟨hclears, hresolve, hsecret⟩ := authorizePath_iff.mp h
  rw [or_iff_not_imp_right]
  intro hunsigned
  have habsent : ∀ required, Clears request required →
      Clears { request with presence := .absent } required :=
    fun required hclears => (clears_or_signed hclears).resolve_right hunsigned
  exact authorizePath_iff.mpr
    ⟨habsent _ hclears, hresolve, fun hsecret' => habsent _ (hsecret hsecret')⟩

/-- **Challenges cannot be confused**, whatever the methods and however long.  The bytes
hashed for two operations are equal only if the device, the method and the digest of the
arguments are.  Where the hash does not collide on the two, a signature for the one passes
the presence check of the other, and the whole pipeline, only where no signature is asked
for, or where they are the same operation. -/
theorem challenge_separates (device : DeviceId) (method : String) (args : Digest) :
    (∀ device' method' args', challengeMessage device method args =
      challengeMessage device' method' args' →
        device = device' ∧ method = method' ∧ args = args') ∧
    (∀ required device' method' args',
      (operationChallenge device method args = operationChallenge device' method' args' →
        challengeMessage device method args = challengeMessage device' method' args') →
      checkPresence required (operationChallenge device' method' args')
          (.signed (operationChallenge device method args)) = .ok () →
        checkPresence required (operationChallenge device' method' args') .absent = .ok () ∨
          device = device' ∧ method = method' ∧ args = args') ∧
    ∀ (engine : PolicyEngine) (fs : Snapshot) (request : PathRequest) (grant : DeviceGrant)
        (r : ResolvedPath), request.grant = some grant →
      (operationChallenge device method args =
          operationChallenge grant.deviceId request.method request.argsDigest →
        challengeMessage device method args =
          challengeMessage grant.deviceId request.method request.argsDigest) →
      request.presence = .signed (operationChallenge device method args) →
      engine.authorizePath fs request = .ok r →
        engine.authorizePath fs { request with presence := .absent } = .ok r ∨
          device = grant.deviceId ∧ method = request.method ∧ args = request.argsDigest := by
  refine ⟨fun _ _ _ => challengeMessage_injective,
    fun required device' method' args' hideal hok => ?_,
    fun engine fs request grant r hgrant hideal hpresence hok => ?_⟩
  · rw [checkPresence_iff] at hok ⊢
    cases hrequires : required.requiresPresence with
    | true =>
        exact Or.inr (challengeMessage_injective (hideal (Presence.signed.inj (hok hrequires))))
    | false => exact Or.inl fun h => (nomatch h)
  · refine (authorizePath_or_signed hok).imp id fun hsigned => ?_
    rw [hpresence, challenge, hgrant] at hsigned
    exact challengeMessage_injective (hideal (Presence.signed.inj hsigned))

/-- A signature for a read is none for a push. -/
theorem challenge_separates_methods :
    checkPresence .gitDangerous
        (operationChallenge (.replicate 7) "git.push" (.replicate 1))
        (.signed (operationChallenge (.replicate 7) "fs.read" (.replicate 1))) ≠ .ok () := by
  intro hok
  have hdistinct : operationChallenge (.replicate 7) "fs.read" (.replicate 1) ≠
      operationChallenge (.replicate 7) "git.push" (.replicate 1) := by
    decide +kernel
  rcases (challenge_separates (.replicate 7) "fs.read" (.replicate 1)).2.1 .gitDangerous (.replicate 7)
    "git.push" (.replicate 1) (fun h => absurd h hdistinct) hok with habsent | ⟨-, hmethod, -⟩
  · exact absurd habsent (by decide)
  · exact absurd hmethod (by decide)

/-! ### What a listing leaves out -/

/-- An entry lies inside one of the roots, as a listing reads it: by its spelling. -/
def Within (engine : PolicyEngine) (entry : OsPath) : Prop :=
  ∃ root ∈ engine.guard.roots, PathGuard.isWithin root.canonical entry = true

/-- The denylist hides an entry from a grant. -/
def Hides (engine : PolicyEngine) (grant : Option DeviceGrant) (entry : OsPath) : Prop :=
  engine.denylist.isSecret entry = true ∧
    ((grant.map DeviceGrant.effectiveCapabilities).getD .empty).contains .fsSecrets = false

/-- A listing is what the denylist keeps, less what is outside the roots. -/
theorem filterListing_eq_filter (grant : Option DeviceGrant) (entries : List OsPath) :
    engine.filterListing grant entries =
      (engine.denylist.filter ((grant.map DeviceGrant.effectiveCapabilities).getD .empty)
        entries).filter fun entry =>
          engine.guard.roots.any fun root => PathGuard.isWithin root.canonical entry := by
  unfold filterListing SecretDenylist.filter
  dsimp only
  split_ifs with hsecrets
  · rfl
  · rw [List.filter_filter, List.filter_filter]
    refine List.filter_congr fun entry _ => ?_
    rw [Bool.and_comm]

/-- What the denylist keeps of a listing is what it does not hide. -/
theorem mem_keep_iff {grant : Option DeviceGrant} {entry : OsPath} {entries : List OsPath} :
    entry ∈ engine.denylist.filter
        ((grant.map DeviceGrant.effectiveCapabilities).getD .empty) entries ↔
      entry ∈ entries ∧ ¬ engine.Hides grant entry := by
  rw [SecretDenylist.mem_filter, SecretDenylist.check_iff]
  unfold Hides
  cases ((grant.map DeviceGrant.effectiveCapabilities).getD .empty).contains .fsSecrets <;> simp

end PolicyEngine

end Policy
