import GoNomad.Core.Ticket

/-!
# Where a peer might be reachable

The hints of a ticket as a transport is given them: the node first, the addresses in
their order, and the relay.  A code carries some of the addresses only, and without
their scopes; what is kept of it for later connections has no relay.

* `parse_carried_iff` — which hints a code carries as they are meant;
* `sublist_iff` — when what is kept of a code has every hint of the ticket.
-/

namespace Transport

open Core Proto Net

/-- A place a peer might be reachable. -/
inductive AddrHint
  | direct (addr : SocketAddr)
  | relay (url : String)
  | node (key : PublicKey)
  deriving DecidableEq

namespace AddrHint

/-- Parses one address hint of a ticket: what is no socket address is a relay. -/
def parse (hint : String) : AddrHint :=
  match Net.parse hint with
  | some addr => .direct addr
  | none => .relay hint

/-- Every hint carried by a ticket, in the order it should be tried. -/
def fromTicket (ticket : PairingTicket) : List AddrHint :=
  let hints := .node ticket.nodeId :: ticket.addrHints.map parse
  match ticket.relayHint with
  | some url => hints ++ [.relay url]
  | none => hints

/-- The hints of a node and of addresses that were kept. -/
def ofKept (nodeId : Option PublicKey) (addrHints : List String) : List AddrHint :=
  nodeId.toList.map node ++ addrHints.map parse

/-- The hints of a ticket last: there is no relay among them, and its code carries every
address as it is meant. -/
structure Lasting (ticket : PairingTicket) : Prop where
  relay : ticket.relayHint = none
  describable : ∀ hint ∈ ticket.addrHints, PairingTicket.Describable hint
  fits : ticket.encodeHints.length < 2 ^ 16
  /-- No hint is the canonical spelling of an address with a scope. -/
  unscoped : ∀ hint ∈ ticket.addrHints, ∀ v6, Net.parse hint = some (.v6 v6) →
    v6.toString = hint → v6.scopeId = 0

/-- **A hint is carried as it is meant** unless it is the canonical spelling of an address
with a scope. -/
theorem parse_carried_iff {hint : String} :
    parse (carried hint) = parse hint ↔
      ∀ v6, Net.parse hint = some (.v6 v6) → v6.toString = hint → v6.scopeId = 0 := by
  constructor
  · intro hsame v6 hparse hcanonical
    have hcarried : carried hint =
        SocketAddrV6.toString { v6 with flowinfo := 0, scopeId := 0 } := by
      unfold carried
      rw [hparse]
      exact if_pos hcanonical
    have hback : Net.parse (carried hint) = some (.v6 v6) := by
      unfold parse at hsame
      rw [hparse] at hsame
      dsimp only at hsame
      split at hsame
      · next addr hread =>
        cases hsame
        exact hread
      · cases hsame
    rw [hcarried] at hback
    exact scope_of_parse_plain rfl hback
  · intro hunscoped
    rw [PairingTicket.carried_eq_iff.mpr hunscoped]

theorem length_fromTicket (ticket : PairingTicket) :
    (fromTicket ticket).length = 1 + ticket.addrHints.length + ticket.relayHint.toList.length := by
  unfold fromTicket
  cases ticket.relayHint with
  | none => simp [Nat.add_comm]
  | some url =>
      simp only [List.length_append, List.length_cons, List.length_map, List.length_nil,
        Option.toList_some]
      omega

theorem fromTicket_of_relay {ticket : PairingTicket} (h : ticket.relayHint = none) :
    fromTicket ticket = .node ticket.nodeId :: ticket.addrHints.map parse := by
  unfold fromTicket
  rw [h]

/-- A ticket without hints fits into its code. -/
theorem fits_of_nil {ticket : PairingTicket} (hhints : ticket.addrHints = [])
    (hrelay : ticket.relayHint = none) : ticket.encodeHints.length < 2 ^ 16 := by
  unfold PairingTicket.encodeHints
  rw [hhints, hrelay]
  decide

/-- **When what is kept of a code has every hint** of the ticket, in the same order. -/
theorem sublist_iff (ticket : PairingTicket) :
    (fromTicket ticket).Sublist
        (ofKept (some ticket.scanned.nodeId) ticket.scanned.addrHints) ↔ Lasting ticket := by
  constructor
  · intro hsublist
    have hlength := hsublist.length_le
    rw [length_fromTicket] at hlength
    by_cases hfits : ticket.encodeHints.length < 2 ^ 16
    · have hscanned : ofKept (some ticket.scanned.nodeId) ticket.scanned.addrHints =
          .node ticket.nodeId :: (ticket.written.addrHints.map carried).map parse := by
        unfold PairingTicket.scanned
        rw [if_pos hfits]
        rfl
      rw [hscanned] at hsublist hlength
      have hwritten := List.length_filter_le
        (fun hint => decide (PairingTicket.Describable hint)) ticket.addrHints
      have hcount : ticket.written.addrHints.length = (ticket.addrHints.filter
          fun hint => decide (PairingTicket.Describable hint)).length := rfl
      simp only [List.length_cons, List.length_map] at hlength
      have hrelay : ticket.relayHint = none := by
        apply Option.toList_eq_nil_iff.mp
        apply List.eq_nil_of_length_eq_zero
        omega
      have hall : ticket.written.addrHints = ticket.addrHints := by
        apply List.filter_eq_self.mpr
        apply List.length_filter_eq_length_iff.mp
        omega
      have hsame : (ticket.addrHints.map carried).map parse = ticket.addrHints.map parse := by
        rw [fromTicket_of_relay hrelay, hall] at hsublist
        have heq := hsublist.eq_of_length (by simp)
        exact (List.cons.inj heq).2.symm
      rw [List.map_map] at hsame
      refine ⟨hrelay, ?_, hfits, ?_⟩
      · intro hint hhint
        exact of_decide_eq_true (List.filter_eq_self.mp hall hint hhint)
      · intro hint hhint
        exact parse_carried_iff.mp (List.map_inj_left.mp hsame hint hhint)
    · -- Nothing but the node is carried, so there is nothing else to carry.
      have hscanned : ofKept (some ticket.scanned.nodeId) ticket.scanned.addrHints =
          [.node ticket.nodeId] := by
        unfold PairingTicket.scanned
        rw [if_neg hfits]
        rfl
      rw [hscanned, List.length_singleton] at hlength
      have hhints : ticket.addrHints = [] := by
        apply List.eq_nil_of_length_eq_zero
        omega
      have hrelay : ticket.relayHint = none := by
        apply Option.toList_eq_nil_iff.mp
        apply List.eq_nil_of_length_eq_zero
        omega
      exact absurd (fits_of_nil hhints hrelay) hfits
  · intro hlasting
    have hall : ticket.written.addrHints = ticket.addrHints := by
      apply List.filter_eq_self.mpr
      intro hint hhint
      exact decide_eq_true (hlasting.describable hint hhint)
    have hsame : (ticket.addrHints.map carried).map parse = ticket.addrHints.map parse := by
      rw [List.map_map]
      apply List.map_inj_left.mpr
      intro hint hhint
      exact parse_carried_iff.mpr (hlasting.unscoped hint hhint)
    unfold PairingTicket.scanned
    rw [if_pos hlasting.fits, fromTicket_of_relay hlasting.relay]
    unfold ofKept
    dsimp only
    rw [hall, hsame]
    exact List.Sublist.refl _

end AddrHint

end Transport
