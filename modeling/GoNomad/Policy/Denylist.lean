import GoNomad.Lib.Text
import GoNomad.Lib.UnixFs
import GoNomad.Proto.Error

/-!
# The secret denylist

The paths a device needs `fsSecrets` for.  The compiled patterns are a test on
the rendered path; which patterns they came from does not matter here.
-/

namespace Policy

open Proto UnixFs

/-- Compiled secret patterns. -/
structure SecretDenylist where
  isMatch : String → Bool

/-- Renders a path for matching, with a slash as the separator. -/
def normalise (path : OsPath) : String :=
  String.ofList ((lossyUtf8 path).toList.map fun c => if c = '\\' then '/' else c)

namespace SecretDenylist

/-- Whether a path is considered a secret. -/
def isSecret (denylist : SecretDenylist) (path : OsPath) : Bool :=
  denylist.isMatch (normalise path)

/-- Enforces the denylist for a single path. -/
def check (denylist : SecretDenylist) (path : OsPath) (capabilities : CapabilitySet) :
    Except ProtoError Unit :=
  if denylist.isSecret path && !capabilities.contains .fsSecrets then
    .error (.denied .fsSecrets)
  else
    .ok ()

/-- Removes secret paths from a listing. -/
def filter (denylist : SecretDenylist) (capabilities : CapabilitySet) (entries : List OsPath) :
    List OsPath :=
  if capabilities.contains .fsSecrets then entries
  else entries.filter fun path => !denylist.isSecret path

/-- How many entries `filter` would remove. -/
def hiddenCount (denylist : SecretDenylist) (capabilities : CapabilitySet)
    (entries : List OsPath) : Nat :=
  if capabilities.contains .fsSecrets then 0
  else entries.countP fun path => denylist.isSecret path

variable {denylist : SecretDenylist} {capabilities : CapabilitySet} {entries : List OsPath}

theorem check_iff {path : OsPath} :
    denylist.check path capabilities = .ok () ↔
      (denylist.isSecret path = true → capabilities.contains .fsSecrets = true) := by
  unfold check
  cases denylist.isSecret path <;> cases capabilities.contains .fsSecrets <;> simp

/-- What `filter` keeps is what `check` lets through. -/
theorem mem_filter {path : OsPath} :
    path ∈ denylist.filter capabilities entries ↔
      path ∈ entries ∧ denylist.check path capabilities = .ok () := by
  rw [check_iff]
  unfold filter
  cases capabilities.contains .fsSecrets with
  | true => simp
  | false => simp [List.mem_filter]

/-- What is counted as hidden is what `filter` removes. -/
theorem hiddenCount_add_length :
    denylist.hiddenCount capabilities entries + (denylist.filter capabilities entries).length =
      entries.length := by
  unfold hiddenCount filter
  split
  · exact Nat.zero_add _
  · rw [← List.countP_eq_length_filter]
    induction entries with
    | nil => rfl
    | cons path entries ih =>
        rw [List.countP_cons, List.countP_cons, List.length_cons]
        cases denylist.isSecret path <;> simp <;> omega

end SecretDenylist

end Policy
