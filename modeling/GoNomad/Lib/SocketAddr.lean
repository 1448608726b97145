import GoNomad.Lib.BigEndian
import GoNomad.Lib.Text

/-!
# Socket addresses

Reading and writing internet socket addresses as text: dotted IPv4, colon
separated IPv6 with one run of zero groups left out, scope ids, ports.  A reader
takes characters off the front and leaves the rest; where it fails it takes
nothing.

* `Ipv6Addr.ofOctets_octets` — an address is read back from its octets;
* `toString_scope_ne` — an address with a scope is never written as one without;
* `scope_of_parse_plain` — one without is never read as an address with a scope.
-/

namespace Net

structure Ipv4Addr where
  a : UInt8
  b : UInt8
  c : UInt8
  d : UInt8
  deriving DecidableEq

/-- Eight groups of sixteen bits. -/
structure Ipv6Addr where
  s₀ : UInt16
  s₁ : UInt16
  s₂ : UInt16
  s₃ : UInt16
  s₄ : UInt16
  s₅ : UInt16
  s₆ : UInt16
  s₇ : UInt16
  deriving DecidableEq

structure SocketAddrV4 where
  ip : Ipv4Addr
  port : UInt16
  deriving DecidableEq

structure SocketAddrV6 where
  ip : Ipv6Addr
  port : UInt16
  flowinfo : UInt32
  scopeId : UInt32
  deriving DecidableEq

inductive SocketAddr
  | v4 (addr : SocketAddrV4)
  | v6 (addr : SocketAddrV6)
  deriving DecidableEq

/-! ### Octets -/

def Ipv4Addr.octets (ip : Ipv4Addr) : List UInt8 := [ip.a, ip.b, ip.c, ip.d]

namespace Ipv6Addr

def segments (ip : Ipv6Addr) : List UInt16 :=
  [ip.s₀, ip.s₁, ip.s₂, ip.s₃, ip.s₄, ip.s₅, ip.s₆, ip.s₇]

/-- The address with these groups, zero where there are none. -/
def ofSegments (groups : List UInt16) : Ipv6Addr :=
  ⟨groups.getD 0 0, groups.getD 1 0, groups.getD 2 0, groups.getD 3 0,
    groups.getD 4 0, groups.getD 5 0, groups.getD 6 0, groups.getD 7 0⟩

def octets (ip : Ipv6Addr) : List UInt8 := ip.segments.flatMap BigEndian.ofU16

/-- Consecutive bytes as sixteen-bit groups. -/
def pairs : List UInt8 → List UInt16
  | a :: b :: rest => BigEndian.toU16 a b :: pairs rest
  | _ => []

def ofOctets (octets : List UInt8) : Ipv6Addr := ofSegments (pairs octets)

theorem pairs_flatMap (groups : List UInt16) : pairs (groups.flatMap BigEndian.ofU16) = groups := by
  induction groups with
  | nil => rfl
  | cons g groups ih =>
      rw [List.flatMap_cons]
      show BigEndian.toU16 _ _ :: pairs (groups.flatMap BigEndian.ofU16) = _
      rw [BigEndian.toU16_ofU16, ih]

theorem ofOctets_octets (ip : Ipv6Addr) : ofOctets ip.octets = ip := by
  rw [ofOctets, octets, pairs_flatMap]
  rfl

end Ipv6Addr

/-! ### Writing -/

/-- The lowercase hexadecimal digits of a group. -/
def hex (g : UInt16) : String := String.ofList (Nat.toDigits 16 g.toNat)

def Ipv4Addr.toString (ip : Ipv4Addr) : String :=
  ".".intercalate (ip.octets.map fun b => b.toNat.repr)

/-- A run of groups: where it starts and how long it is. -/
structure Span where
  start : Nat
  len : Nat

/-- The first longest run of zero groups, with the run that ends here. -/
def longestZeroes (i : Nat) (longest current : Span) : List UInt16 → Span
  | [] => longest
  | segment :: rest =>
      if segment = 0 then
        let current : Span := ⟨if current.len = 0 then i else current.start, current.len + 1⟩
        longestZeroes (i + 1) (if longest.len < current.len then current else longest) current rest
      else
        longestZeroes (i + 1) longest ⟨0, 0⟩ rest

namespace Ipv6Addr

/-- The IPv4 address an address of the form `::ffff:a.b.c.d` carries. -/
def toIpv4Mapped (ip : Ipv6Addr) : Option Ipv4Addr :=
  match ip.octets with
  | [0, 0, 0, 0, 0, 0, 0, 0, 0, 0, 0xff, 0xff, a, b, c, d] => some ⟨a, b, c, d⟩
  | _ => none

def fmtSubslice (chunk : List UInt16) : String := ":".intercalate (chunk.map hex)

def toString (ip : Ipv6Addr) : String :=
  match ip.toIpv4Mapped with
  | some ipv4 => "::ffff:" ++ ipv4.toString
  | none =>
      let zeroes := longestZeroes 0 ⟨0, 0⟩ ⟨0, 0⟩ ip.segments
      if 1 < zeroes.len then
        fmtSubslice (ip.segments.take zeroes.start) ++ "::" ++
          fmtSubslice (ip.segments.drop (zeroes.start + zeroes.len))
      else
        fmtSubslice ip.segments

end Ipv6Addr

def SocketAddrV4.toString (addr : SocketAddrV4) : String :=
  addr.ip.toString ++ ":" ++ addr.port.toNat.repr

def SocketAddrV6.toString (addr : SocketAddrV6) : String :=
  if addr.scopeId = 0 then
    "[" ++ addr.ip.toString ++ "]:" ++ addr.port.toNat.repr
  else
    "[" ++ addr.ip.toString ++ "%" ++ addr.scopeId.toNat.repr ++ "]:" ++ addr.port.toNat.repr

/-- An address with a scope is never written as the same address without. -/
theorem toString_scope_ne (addr : SocketAddrV6) (h : addr.scopeId ≠ 0) :
    ({ addr with flowinfo := 0, scopeId := 0 } : SocketAddrV6).toString ≠ addr.toString := by
  intro heq
  have hlen := congrArg String.length heq
  rw [SocketAddrV6.toString, SocketAddrV6.toString, if_pos rfl, if_neg h] at hlen
  simp only [String.length_append] at hlen
  have hpercent : "%".length = 1 := rfl
  omega

/-! ### Reading -/

/-- Reads something off the front of some characters. -/
abbrev Reader (α : Type) := List UInt8 → Option (α × List UInt8)

/-- The value of a digit. -/
def digit (radix : Nat) (c : UInt8) : Option Nat :=
  let value :=
    if 0x30 ≤ c ∧ c ≤ 0x39 then some (c.toNat - 0x30)
    else if 0x61 ≤ c ∧ c ≤ 0x7a then some (c.toNat - 0x61 + 10)
    else if 0x41 ≤ c ∧ c ≤ 0x5a then some (c.toNat - 0x41 + 10)
    else none
  value.filter (· < radix)

/-- The digits at the front. -/
def digits (radix : Nat) : List UInt8 → List Nat × List UInt8
  | [] => ([], [])
  | c :: rest =>
      match digit radix c with
      | some d => (d :: (digits radix rest).1, (digits radix rest).2)
      | none => ([], c :: rest)

/-- The number some digits spell, as long as it fits. -/
def number (radix max : Nat) (ds : List Nat) : Option Nat :=
  ds.foldlM (fun acc d => if acc * radix + d ≤ max then some (acc * radix + d) else none) 0

/-- Reads a number of a few digits at most, no larger than `max`. -/
def readNumber (radix : Nat) (maxDigits : Option Nat) (allowZeroPrefix : Bool) (max : Nat) :
    Reader Nat := fun input =>
  let (ds, rest) := digits radix input
  if maxDigits.any (· < ds.length) then none
  else if ds = [] then none
  else if !allowZeroPrefix && ds.head? = some 0 && 1 < ds.length then none
  else (number radix max ds).map fun n => (n, rest)

def readGivenChar (c : UInt8) : Reader Unit
  | [] => none
  | b :: rest => if b = c then some ((), rest) else none

/-- Reads a separator, except at the front, and then something else. -/
def readSeparator {α : Type} (sep : UInt8) (index : Nat) (inner : Reader α) : Reader α :=
  fun input => do
    if 0 < index then do
      let ((), rest) ← readGivenChar sep input
      inner rest
    else
      inner input

/-- Reads one of the four numbers of an IPv4 address. -/
def readOctet (index : Nat) : Reader UInt8 := fun input => do
  let (n, rest) ← readSeparator 0x2e index (readNumber 10 (some 3) false 255) input
  return (UInt8.ofNat n, rest)

def readIpv4Addr : Reader Ipv4Addr := fun input => do
  let (a, rest) ← readOctet 0 input
  let (b, rest) ← readOctet 1 rest
  let (c, rest) ← readOctet 2 rest
  let (d, rest) ← readOctet 3 rest
  return (⟨a, b, c, d⟩, rest)

/-- Reads groups from number `i` on, `left` of them at most, and whether the last
two are an IPv4 address.  Where that fits, it is tried before a group. -/
def readGroups (i : Nat) : Nat → List UInt8 → List UInt16 × Bool × List UInt8
  | 0, input => ([], false, input)
  | left + 1, input =>
      match if 0 < left then readSeparator 0x3a i readIpv4Addr input else none with
      | some (v4, rest) => ([BigEndian.toU16 v4.a v4.b, BigEndian.toU16 v4.c v4.d], true, rest)
      | none =>
          match readSeparator 0x3a i (readNumber 16 (some 4) true 0xffff) input with
          | none => ([], false, input)
          | some (g, rest) =>
              let (groups, ipv4, rest) := readGroups (i + 1) left rest
              (UInt16.ofNat g :: groups, ipv4, rest)

def readIpv6Addr : Reader Ipv6Addr := fun input =>
  let (head, headIpv4, rest) := readGroups 0 8 input
  if head.length = 8 then some (.ofSegments head, rest)
  -- An IPv4 part may not stand before the gap.
  else if headIpv4 then none
  else do
    let ((), rest) ← readGivenChar 0x3a rest
    let ((), rest) ← readGivenChar 0x3a rest
    -- The gap stands for one group at least.
    let (tail, _, rest) := readGroups 0 (8 - (head.length + 1)) rest
    return (.ofSegments (head ++ List.replicate (8 - head.length - tail.length) 0 ++ tail), rest)

def readPort : Reader UInt16 := fun input => do
  let ((), rest) ← readGivenChar 0x3a input
  let (n, rest) ← readNumber 10 none true 0xffff rest
  return (UInt16.ofNat n, rest)

def readScopeId : Reader UInt32 := fun input => do
  let ((), rest) ← readGivenChar 0x25 input
  let (n, rest) ← readNumber 10 none true 0xffffffff rest
  return (UInt32.ofNat n, rest)

def readSocketAddrV4 : Reader SocketAddrV4 := fun input => do
  let (ip, rest) ← readIpv4Addr input
  let (port, rest) ← readPort rest
  return (⟨ip, port⟩, rest)

def readSocketAddrV6 : Reader SocketAddrV6 := fun input => do
  let ((), rest) ← readGivenChar 0x5b input
  let (ip, rest) ← readIpv6Addr rest
  let (scopeId, rest) := (readScopeId rest).getD (0, rest)
  let ((), rest) ← readGivenChar 0x5d rest
  let (port, rest) ← readPort rest
  return (⟨ip, port, 0, scopeId⟩, rest)

def readSocketAddr : Reader SocketAddr := fun input =>
  match readSocketAddrV4 input with
  | some (addr, rest) => some (.v4 addr, rest)
  | none => (readSocketAddrV6 input).map fun found => (.v6 found.1, found.2)

/-- The socket address a text spells: nothing may be left over. -/
def parse (text : String) : Option SocketAddr :=
  match readSocketAddr (utf8 text) with
  | some (addr, []) => some addr
  | _ => none

example : parse "192.168.1.4:41234" = some (.v4 ⟨⟨192, 168, 1, 4⟩, 41234⟩) := by decide

example : (parse "[fe80::1%3]:80").map (fun addr => match addr with
    | .v4 addr => addr.toString
    | .v6 addr => addr.toString) = some "[fe80::1%3]:80" := by decide +kernel

example : parse "[::ffff:1.2.3.4]:1" = some (.v6 ⟨⟨0, 0, 0, 0, 0, 0xffff, 0x102, 0x304⟩, 1, 0, 0⟩) := by
  decide +kernel

/-! ### Where a scope is read -/

/-- What a reader leaves is the end of its input. -/
def Reader.Leaves {α : Type} (read : Reader α) : Prop :=
  ∀ input a rest, read input = some (a, rest) → rest <:+ input

theorem leaves_readGivenChar (c : UInt8) : (readGivenChar c).Leaves := by
  intro input a rest h
  cases input with
  | nil => cases h
  | cons b input =>
      unfold readGivenChar at h
      dsimp only at h
      split_ifs at h
      cases h
      exact List.suffix_cons _ _

theorem leaves_digits (radix : Nat) (input : List UInt8) : (digits radix input).2 <:+ input := by
  induction input with
  | nil => exact List.suffix_refl _
  | cons c input ih =>
      unfold digits
      cases digit radix c with
      | none => exact List.suffix_refl _
      | some d => exact ih.trans (List.suffix_cons c input)

theorem leaves_readNumber (radix : Nat) (maxDigits : Option Nat) (allowZeroPrefix : Bool)
    (max : Nat) : (readNumber radix maxDigits allowZeroPrefix max).Leaves := by
  intro input a rest h
  have hdigits := leaves_digits radix input
  unfold readNumber at h
  dsimp only at h
  split_ifs at h
  obtain ⟨n, -, heq⟩ := Option.map_eq_some_iff.mp h
  cases heq
  exact hdigits

theorem leaves_readSeparator {α : Type} {inner : Reader α} (h : inner.Leaves) (sep : UInt8)
    (index : Nat) : (readSeparator sep index inner).Leaves := by
  intro input a rest hread
  unfold readSeparator at hread
  split_ifs at hread
  · obtain ⟨⟨⟨⟩, between⟩, hsep, hinner⟩ := Option.bind_eq_some_iff.mp hread
    exact (h _ _ _ hinner).trans (leaves_readGivenChar sep _ _ _ hsep)
  · exact h _ _ _ hread

theorem leaves_readOctet (index : Nat) : (readOctet index).Leaves := by
  intro input a rest h
  obtain ⟨⟨n, between⟩, hnumber, hrest⟩ := Option.bind_eq_some_iff.mp h
  cases hrest
  exact leaves_readSeparator (leaves_readNumber _ _ _ _) _ _ _ _ _ hnumber

theorem leaves_readIpv4Addr : readIpv4Addr.Leaves := by
  intro input ip rest h
  obtain ⟨⟨a, rest₁⟩, ha, h⟩ := Option.bind_eq_some_iff.mp h
  obtain ⟨⟨b, rest₂⟩, hb, h⟩ := Option.bind_eq_some_iff.mp h
  obtain ⟨⟨c, rest₃⟩, hc, h⟩ := Option.bind_eq_some_iff.mp h
  obtain ⟨⟨d, rest₄⟩, hd, h⟩ := Option.bind_eq_some_iff.mp h
  cases h
  have h₂ := (leaves_readOctet 1 _ _ _ hb).trans (leaves_readOctet 0 _ _ _ ha)
  exact ((leaves_readOctet 3 _ _ _ hd).trans (leaves_readOctet 2 _ _ _ hc)).trans h₂

theorem leaves_readGroups (left i : Nat) (input : List UInt8) :
    (readGroups i left input).2.2 <:+ input := by
  induction left generalizing i input with
  | zero => exact List.suffix_refl _
  | succ left ih =>
      unfold readGroups
      split
      · next v4 rest hv4 =>
          split_ifs at hv4
          exact leaves_readSeparator leaves_readIpv4Addr _ _ _ _ _ hv4
      · split
        · exact List.suffix_refl _
        · next g rest hgroup =>
            have hrest := leaves_readSeparator (leaves_readNumber _ _ _ _) _ _ _ _ _ hgroup
            exact (ih (i + 1) rest).trans hrest

theorem leaves_readIpv6Addr : readIpv6Addr.Leaves := by
  intro input ip rest h
  have hhead := leaves_readGroups 8 0 input
  unfold readIpv6Addr at h
  dsimp only at h
  split_ifs at h
  · cases h
    exact hhead
  · obtain ⟨⟨⟨⟩, rest₁⟩, hfirst, h⟩ := Option.bind_eq_some_iff.mp h
    obtain ⟨⟨⟨⟩, rest₂⟩, hsecond, h⟩ := Option.bind_eq_some_iff.mp h
    cases h
    have hgap := (leaves_readGivenChar 0x3a _ _ _ hsecond).trans
      (leaves_readGivenChar 0x3a _ _ _ hfirst)
    exact ((leaves_readGroups _ 0 rest₂).trans hgap).trans hhead

theorem leaves_readScopeId : readScopeId.Leaves := by
  intro input n rest h
  obtain ⟨⟨⟨⟩, between⟩, hpercent, h⟩ := Option.bind_eq_some_iff.mp h
  obtain ⟨⟨m, rest'⟩, hnumber, h⟩ := Option.bind_eq_some_iff.mp h
  cases h
  exact (leaves_readNumber _ _ _ _ _ _ _ hnumber).trans (leaves_readGivenChar _ _ _ _ hpercent)

/-- An address with a scope is read where there is a percent sign. -/
theorem percent_of_readSocketAddrV6 {input rest : List UInt8} {addr : SocketAddrV6}
    (h : readSocketAddrV6 input = some (addr, rest)) (hscope : addr.scopeId ≠ 0) :
    0x25 ∈ input := by
  obtain ⟨⟨⟨⟩, rest₁⟩, hopen, h⟩ := Option.bind_eq_some_iff.mp h
  obtain ⟨⟨ip, rest₂⟩, hip, h⟩ := Option.bind_eq_some_iff.mp h
  have hsuffix : rest₂ <:+ input :=
    (leaves_readIpv6Addr _ _ _ hip).trans (leaves_readGivenChar _ _ _ _ hopen)
  dsimp only at h
  cases hread : readScopeId rest₂ with
  | none =>
      rw [hread] at h
      obtain ⟨⟨⟨⟩, rest₃⟩, -, h⟩ := Option.bind_eq_some_iff.mp h
      obtain ⟨⟨port, rest₄⟩, -, h⟩ := Option.bind_eq_some_iff.mp h
      cases h
      exact absurd rfl hscope
  | some found =>
      obtain ⟨⟨⟨⟩, rest₃⟩, hpercent, -⟩ := Option.bind_eq_some_iff.mp hread
      refine hsuffix.subset ?_
      cases rest₂ with
      | nil => cases hpercent
      | cons c rest₂ =>
          unfold readGivenChar at hpercent
          dsimp only at hpercent
          split_ifs at hpercent with hc
          rw [hc]
          exact List.mem_cons_self

/-- **A text that spells an address with a scope** has a percent sign in it. -/
theorem percent_of_scope {text : String} {addr : SocketAddrV6}
    (h : parse text = some (.v6 addr)) (hscope : addr.scopeId ≠ 0) : 0x25 ∈ utf8 text := by
  unfold parse at h
  split at h
  · next found hread =>
      cases h
      unfold readSocketAddr at hread
      split at hread
      · cases hread
      · obtain ⟨⟨addr', rest⟩, hv6, heq⟩ := Option.map_eq_some_iff.mp hread
        cases heq
        exact percent_of_readSocketAddrV6 hv6 hscope
  · cases h

/-! ### Where no scope is written -/

/-- The characters an address without a scope is written with are no percent signs. -/
def Plain (text : String) : Prop := '%' ∉ text.toList

instance (text : String) : Decidable (Plain text) := inferInstanceAs (Decidable (¬ _))

theorem Plain.append {front back : String} (hfront : Plain front) (hback : Plain back) :
    Plain (front ++ back) := by
  unfold Plain at *
  rw [String.toList_append, List.mem_append]
  exact not_or.mpr ⟨hfront, hback⟩

theorem Plain.intercalate {sep : String} {parts : List String} (hsep : Plain sep)
    (hparts : ∀ part ∈ parts, Plain part) : Plain (sep.intercalate parts) := by
  induction parts with
  | nil => exact List.not_mem_nil
  | cons part parts ih =>
      have hrest := ih fun other hother => hparts other (.tail _ hother)
      cases parts with
      | nil =>
          rw [String.intercalate_singleton]
          exact hparts part (.head _)
      | cons next parts =>
          rw [String.intercalate_cons_cons]
          exact ((hparts part (.head _)).append hsep).append hrest

theorem percent_notMem_toDigits {radix : Nat} (h : 1 < radix) (hle : radix ≤ 16) (n : Nat) :
    '%' ∉ Nat.toDigits radix n := by
  have hdigit : ∀ d < 16, '%' ≠ Nat.digitChar d := by decide
  induction n using Nat.strongRecOn with
  | ind n ih =>
      rw [Nat.toDigits_eq_if h]
      split_ifs with hlt
      · rw [List.mem_singleton]
        exact hdigit n (by omega)
      · have hpos : 0 < n := by omega
        have hmod := Nat.mod_lt n (Nat.lt_of_succ_lt h)
        rw [List.mem_append, List.mem_singleton]
        exact not_or.mpr ⟨ih _ (Nat.div_lt_self hpos h), hdigit _ (by omega)⟩

theorem plain_repr (n : Nat) : Plain n.repr := by
  unfold Plain
  rw [Nat.toList_repr]
  exact percent_notMem_toDigits (by decide) (by decide) n

theorem plain_hex (g : UInt16) : Plain (hex g) := by
  unfold Plain hex
  rw [String.toList_ofList]
  exact percent_notMem_toDigits (by decide) (by decide) _

theorem plain_fmtSubslice (chunk : List UInt16) : Plain (Ipv6Addr.fmtSubslice chunk) := by
  refine Plain.intercalate (by decide) fun part hpart => ?_
  obtain ⟨g, -, rfl⟩ := List.mem_map.mp hpart
  exact plain_hex g

theorem plain_ipv4 (ip : Ipv4Addr) : Plain ip.toString := by
  refine Plain.intercalate (by decide) fun part hpart => ?_
  obtain ⟨b, -, rfl⟩ := List.mem_map.mp hpart
  exact plain_repr _

theorem plain_ipv6 (ip : Ipv6Addr) : Plain ip.toString := by
  have hgap : Plain "::" := by decide
  have hmapped : Plain "::ffff:" := by decide
  unfold Ipv6Addr.toString
  split
  · exact hmapped.append (plain_ipv4 _)
  · dsimp only
    split_ifs
    · exact ((plain_fmtSubslice _).append hgap).append (plain_fmtSubslice _)
    · exact plain_fmtSubslice _

/-- **An address without a scope** is never read as one with a scope. -/
theorem scope_of_parse_plain {addr addr' : SocketAddrV6} (hplain : addr.scopeId = 0)
    (h : parse addr.toString = some (.v6 addr')) : addr'.scopeId = 0 := by
  by_contra hscope
  have hopen : Plain "[" := by decide
  have hclose : Plain "]:" := by decide
  have htext : Plain addr.toString := by
    unfold SocketAddrV6.toString
    rw [if_pos hplain]
    exact ((hopen.append (plain_ipv6 _)).append hclose).append (plain_repr _)
  have hpercent := percent_of_scope h hscope
  rw [← String.ofList_toList (s := addr.toString)] at hpercent
  exact htext ((@mem_utf8_iff _ '%' (by decide)).mp hpercent)

end Net
