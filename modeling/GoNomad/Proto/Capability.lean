import Mathlib.Tactic.Common

/-!
# Capabilities

What a paired device may do.  A set of capabilities is a bit mask with one bit
for each capability, in declaration order.
-/

namespace Proto

/-- A single permission a paired device may hold. -/
inductive Capability
  | fsRead
  | fsWrite
  | fsSecrets
  | ptySpawn
  | execAllowlisted
  | execArbitrary
  | gitRead
  | gitWrite
  | gitDangerous
  | agentSpawn
  | policyWrite
  deriving DecidableEq, Repr

namespace Capability

/-- The bit position of a capability. -/
def index : Capability → UInt16
  | fsRead => 0
  | fsWrite => 1
  | fsSecrets => 2
  | ptySpawn => 3
  | execAllowlisted => 4
  | execArbitrary => 5
  | gitRead => 6
  | gitWrite => 7
  | gitDangerous => 8
  | agentSpawn => 9
  | policyWrite => 10

/-- All capabilities, in declaration order. -/
def all : List Capability :=
  [fsRead, fsWrite, fsSecrets, ptySpawn, execAllowlisted, execArbitrary, gitRead, gitWrite,
    gitDangerous, agentSpawn, policyWrite]

/-- The grant a freshly paired device receives. -/
def defaultGrant : List Capability :=
  [fsRead, fsWrite, ptySpawn, execAllowlisted, gitRead, gitWrite, agentSpawn]

theorem mem_all (cap : Capability) : cap ∈ all := by
  cases cap <;> decide

/-- The name under which a capability is stored. -/
def asStr : Capability → String
  | fsRead => "fs:read"
  | fsWrite => "fs:write"
  | fsSecrets => "fs:secrets"
  | ptySpawn => "pty:spawn"
  | execAllowlisted => "exec:allowlisted"
  | execArbitrary => "exec:arbitrary"
  | gitRead => "git:read"
  | gitWrite => "git:write"
  | gitDangerous => "git:dangerous"
  | agentSpawn => "agent:spawn"
  | policyWrite => "policy:write"

/-- The capability with a name. -/
def fromStr (s : String) : Option Capability := all.find? fun cap => cap.asStr = s

theorem fromStr_asStr (cap : Capability) : fromStr cap.asStr = some cap := by
  cases cap <;> decide

/-- Whether holding this capability requires a fresh hardware-backed signature
on every privileged use. -/
def requiresPresence : Capability → Bool
  | fsSecrets | gitDangerous | policyWrite | execArbitrary => true
  | _ => false

end Capability

/-- A set of capabilities held by one device. -/
structure CapabilitySet where
  bits : UInt16
  deriving DecidableEq, Repr

namespace CapabilitySet

/-- A device that may authenticate but do nothing. -/
def empty : CapabilitySet := ⟨0⟩

def bit (cap : Capability) : UInt16 := 1 <<< cap.index

def contains (s : CapabilitySet) (cap : Capability) : Bool := s.bits &&& bit cap != 0

/-- Adds a capability. -/
def insert (s : CapabilitySet) (cap : Capability) : CapabilitySet := ⟨s.bits ||| bit cap⟩

def ofList (caps : List Capability) : CapabilitySet := caps.foldl insert empty

/-- The held capabilities in declaration order. -/
def iter (s : CapabilitySet) : List Capability := Capability.all.filter s.contains

def defaultGrant : CapabilitySet := ofList Capability.defaultGrant

theorem not_contains_empty (cap : Capability) : empty.contains cap = false := by
  cases cap <;> decide

theorem insert_bits (s : CapabilitySet) (cap : Capability) :
    (s.insert cap).bits = s.bits ||| bit cap := rfl

/-- Every capability has a bit of its own. -/
theorem bit_injective {cap other : Capability} (h : bit cap = bit other) : cap = other := by
  revert h
  cases cap <;> cases other <;> decide

theorem bit_and_bit (cap other : Capability) : bit cap &&& bit other ≠ 0 ↔ other = cap := by
  cases cap <;> cases other <;> decide

/-- **What an insertion adds.** -/
theorem contains_insert (s : CapabilitySet) (cap other : Capability) :
    (s.insert cap).contains other = true ↔ s.contains other = true ∨ other = cap := by
  have hbits : (s.bits ||| bit cap) &&& bit other = (s.bits &&& bit other) ||| (bit cap &&& bit other) :=
    UInt16.toBitVec_inj.mp (BitVec.and_or_distrib_right ..)
  unfold contains
  rw [insert_bits, bne_iff_ne, bne_iff_ne, hbits, ne_eq, UInt16.or_eq_zero_iff, not_and_or,
    ← ne_eq, ← ne_eq, bit_and_bit]

theorem contains_foldl (caps : List Capability) (s : CapabilitySet) (cap : Capability) :
    (caps.foldl insert s).contains cap = true ↔ s.contains cap = true ∨ cap ∈ caps := by
  induction caps generalizing s with
  | nil => simp
  | cons head caps ih =>
      rw [List.foldl_cons, ih, contains_insert, List.mem_cons, or_assoc]

theorem contains_ofList (caps : List Capability) (cap : Capability) :
    (ofList caps).contains cap = true ↔ cap ∈ caps := by
  unfold ofList
  rw [contains_foldl, not_contains_empty]
  simp

theorem mem_iter (s : CapabilitySet) (cap : Capability) : cap ∈ s.iter ↔ s.contains cap = true := by
  unfold iter
  rw [List.mem_filter]
  exact ⟨fun h => h.2, fun h => ⟨Capability.mem_all cap, h⟩⟩

theorem bits_foldl (caps : List Capability) (s : CapabilitySet) :
    (caps.foldl insert s).bits = s.bits ||| (ofList caps).bits := by
  induction caps generalizing s with
  | nil =>
      show s.bits = s.bits ||| 0
      rw [UInt16.or_zero]
  | cons cap caps ih =>
      have hcons : (ofList (cap :: caps)).bits = (empty.insert cap).bits ||| (ofList caps).bits :=
        ih (empty.insert cap)
      rw [List.foldl_cons, ih, hcons, insert_bits, insert_bits, UInt16.or_assoc]
      show _ = s.bits ||| (0 ||| bit cap ||| (ofList caps).bits)
      rw [UInt16.zero_or]

theorem ofList_cons_bits (cap : Capability) (caps : List Capability) :
    (ofList (cap :: caps)).bits = bit cap ||| (ofList caps).bits := by
  show (caps.foldl insert (empty.insert cap)).bits = _
  rw [bits_foldl]
  show (0 ||| bit cap) ||| _ = _
  rw [UInt16.zero_or]

/-- A capability that is held adds nothing. -/
theorem bits_of_mem {caps : List Capability} {cap : Capability} (h : cap ∈ caps) :
    bit cap ||| (ofList caps).bits = (ofList caps).bits := by
  induction caps with
  | nil => cases h
  | cons head caps ih =>
      rw [ofList_cons_bits]
      rcases List.mem_cons.mp h with rfl | h
      · rw [← UInt16.or_assoc, UInt16.or_self]
      · rw [← UInt16.or_assoc, UInt16.or_comm (bit cap), UInt16.or_assoc, ih h]

theorem bits_of_subset {caps held : List Capability} (h : caps ⊆ held) :
    (ofList caps).bits ||| (ofList held).bits = (ofList held).bits := by
  induction caps with
  | nil =>
      show 0 ||| _ = _
      rw [UInt16.zero_or]
  | cons cap caps ih =>
      rw [List.cons_subset] at h
      rw [ofList_cons_bits, UInt16.or_assoc, ih h.2, bits_of_mem h.1]

/-- **A set that was built from capabilities** is built from those it holds. -/
theorem ofList_iter (caps : List Capability) : ofList (ofList caps).iter = ofList caps := by
  have hmem : ∀ cap, cap ∈ (ofList caps).iter ↔ cap ∈ caps := fun cap => by
    rw [mem_iter, contains_ofList]
  have hle := bits_of_subset fun cap hcap => (hmem cap).mp hcap
  have hge := bits_of_subset fun cap hcap => (hmem cap).mpr hcap
  have hbits : (ofList (ofList caps).iter).bits = (ofList caps).bits := by
    rw [← hle, UInt16.or_comm, hge]
  cases h : ofList caps with
  | mk bits =>
      rw [h] at hbits
      cases h' : ofList (CapabilitySet.mk bits).iter with
      | mk bits' =>
          rw [h'] at hbits
          exact congrArg CapabilitySet.mk hbits

end CapabilitySet

end Proto
