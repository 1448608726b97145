import GoNomad.Client.Restart
import GoNomad.Transport.AddrHint

/-!
# What a reconnect knows

A pairing hands the node and the addresses of the code it scanned to the record that is
saved, and every later connection is dialed with those of a record, after whatever
restarts.

* `source_step`, `run_source` — the node and the addresses of every record and pairing
  come from a code that was scanned;
* `reconnect_knows_iff` — when a reconnect dials with every hint of the ticket;
* `relay_forgotten` — a ticket with a relay.
-/

namespace Client

open Core Proto Transport

/-- What a connection is dialed with: the node, where it is known, and addresses. -/
abbrev Source := Option PublicKey × List String

def PairedDaemon.source (daemon : PairedDaemon) : Source := (daemon.nodeId, daemon.addrHints)

def Pairing.source (pairing : Pairing) : Source := (some pairing.nodeId, pairing.addrHints)

/-- The hints a stored daemon is dialed with. -/
def PairedDaemon.dialHints (daemon : PairedDaemon) : List AddrHint :=
  AddrHint.ofKept daemon.nodeId daemon.addrHints

def Caller.source : Caller → Option Source
  | .connect daemon => some daemon.source
  | _ => none

def Next.source : Next → Option Source
  | .dial daemon => some daemon.source
  | _ => none

/-- The source of the record or the pairing that a task goes on with. -/
def Task.source : Task → Option Source
  | .looking caller | .checking caller _ | .requesting caller _ _ => caller.source
  | .tearing _ next | .drained _ next => next.source
  | .dialing daemon | .touching daemon | .touched daemon => some daemon.source
  | .saving daemon | .caching daemon | .confirmed daemon => some daemon.source
  | .registering pairing _ | .naming pairing _ _ => some pairing.source
  | _ => none

namespace Inner

variable {s t : Inner} {e : Event} {out : Option Returned} {x : Source}

/-- Something in the client has this source. -/
def Has (s : Inner) (x : Source) : Prop :=
  s.pairing.map Pairing.source = some x ∨ s.daemon.map PairedDaemon.source = some x ∨
    s.stored.map PairedDaemon.source = some x ∨ ∃ p, (s.task p).source = some x

/-- A code with this source was scanned. -/
def Event.Scans (x : Source) (e : Event) : Prop :=
  ∃ p peer nodeId addrHints, e = .scanned p peer nodeId addrHints ∧ x = (some nodeId, addrHints)

@[grind =] theorem without_source (caller : Caller) : caller.without.source = caller.source := by
  cases caller <;> rfl

@[grind =] theorem callerNext_source (caller : Caller) : caller.next.source = caller.source := by
  cases caller <;> rfl

@[grind =] theorem next_source (next : Next) : next.task.source = next.source := by
  cases next <;> rfl

@[grind =] theorem record_source (pairing : Pairing) (device name : String) (now : Int) :
    (record pairing device name now).source = pairing.source := rfl

@[grind =] theorem touched_source (daemon : PairedDaemon) (now : Option Int) :
    ({ daemon with lastSeenMs := now } : PairedDaemon).source = daemon.source := rfl

theorem task_source_step {q : Nat} (h : s.step e = some (t, out))
    (ht : (t.task q).source = some x) : s.Has x ∨ e.Scans x := by
  unfold step at h
  unfold Has
  split at h <;> grind [Task.source, Caller.source, Next.source]

theorem pairing_source_step (h : s.step e = some (t, out))
    (ht : t.pairing.map Pairing.source = some x) : s.Has x ∨ e.Scans x := by
  unfold step at h
  unfold Has
  unfold Event.Scans
  split at h <;> grind [goto, begin, abort, issue, setSession, cancelPairing, establish, Pairing.source]

theorem daemon_source_step (h : s.step e = some (t, out))
    (ht : t.daemon.map PairedDaemon.source = some x) : s.Has x := by
  unfold step at h
  unfold Has
  split at h <;> grind [goto, begin, abort, issue, setSession, cancelPairing, establish, Task.source]

theorem stored_source_step (h : s.step e = some (t, out))
    (ht : t.stored.map PairedDaemon.source = some x) : s.Has x := by
  unfold step at h
  unfold Has
  split at h <;> grind [goto, begin, abort, issue, setSession, cancelPairing, establish, Task.source]

/-- **Every step**: what is in the client was there, or comes from a code that is scanned. -/
theorem source_step (h : s.step e = some (t, out)) (ht : t.Has x) : s.Has x ∨ e.Scans x := by
  rcases ht with hpairing | hdaemon | hstored | ⟨q, hq⟩
  · exact pairing_source_step h hpairing
  · exact .inl (daemon_source_step h hdaemon)
  · exact .inl (stored_source_step h hstored)
  · exact task_source_step h hq

end Inner

namespace Phone

variable {s t : Phone} {e : Event} {out : Option Seed} {trace : List (Event × Option Seed)}
  {generated : Seed} {x : Source} {p : Nat} {daemon : PairedDaemon}

/-- A code with this source was scanned by then. -/
def Scanned (trace : List (Event × Option Seed)) (x : Source) : Prop :=
  ∃ event out, (Event.inner event, out) ∈ trace ∧ event.Scans x

/-- A client that is created has what is on disk. -/
theorem source_create {keyFile : Option (List Char)} {stored : Option PairedDaemon}
    (h : create keyFile stored generated = some t) (ht : t.inner.Has x) :
    stored.map PairedDaemon.source = some x := by
  unfold create at h
  split at h
  · cases h
  · cases h
    rcases ht with hpairing | hdaemon | hstored | ⟨q, hq⟩
    · cases hpairing
    · exact hdaemon
    · exact hstored
    · cases hq

/-- **Every run**: what is in the client comes from a code that was scanned, whatever
restarts there were since. -/
theorem run_source (hrun : Transition.Run step Transition.unguarded (start generated) trace s)
    (hs : s.inner.Has x) : Scanned trace x := by
  induction hrun with
  | nil =>
      rcases hs with hpairing | hdaemon | hstored | ⟨q, hq⟩
      · cases hpairing
      · cases hdaemon
      · cases hstored
      · cases hq
  | @snoc trace s t e out _ _ taken ih =>
      have hbefore : s.inner.Has x → Scanned (trace ++ [(e, out)]) x := by
        intro hhas
        obtain ⟨event, out', hmem, hscans⟩ := ih hhas
        exact ⟨event, out', List.mem_append_left _ hmem, hscans⟩
      cases e with
      | inner event =>
          dsimp only [step] at taken
          split at taken
          · cases taken
          · next inner out' hinner =>
            cases taken
            rcases Inner.source_step hinner hs with hhas | hscans
            · exact hbefore hhas
            · exact ⟨event, _, List.mem_append_right _ (.head _), hscans⟩
      | restart generated' =>
          obtain ⟨t', hcreate, heq⟩ := Option.map_eq_some_iff.mp taken
          cases heq
          exact hbefore (.inr (.inr (.inl (source_create hcreate hs))))

/-- A phone scans the code of a ticket, and keeps the node and the addresses it reads. -/
def ScansTicket (base32 : Encoding) (ticket : PairingTicket) (secret : PairingSecret) (e : Event) :
    Prop :=
  ∃ q peer scanned, PairingTicket.decode base32 (ticket.encode base32 secret) = .ok (scanned, secret) ∧
    e = .inner (.scanned q peer scanned.nodeId scanned.addrHints)

/-- **What a reconnect knows**: in every run, with whatever restarts, a connect that is
about to dial does so with the record of a pairing whose code was scanned in that run; and
where that was the code of a ticket, it dials with every hint of the ticket, in the same
order, exactly when the hints of the ticket last. -/
theorem reconnect_knows_iff
    (hrun : Transition.Run step Transition.unguarded (start generated) trace s)
    (hdial : s.inner.task p = .dialing daemon) :
    ∃ entry ∈ trace,
      (∃ q peer nodeId, entry.1 = .inner (.scanned q peer nodeId daemon.addrHints) ∧
        daemon.nodeId = some nodeId) ∧
      ∀ base32 ticket secret, ScansTicket base32 ticket secret entry.1 →
        ((AddrHint.fromTicket ticket).Sublist daemon.dialHints ↔ AddrHint.Lasting ticket) := by
  have hhas : s.inner.Has daemon.source := by
    refine .inr (.inr (.inr ⟨p, ?_⟩))
    rw [hdial]
    rfl
  obtain ⟨event, out, hmem, q, peer, nodeId, addrHints, rfl, hsource⟩ := run_source hrun hhas
  obtain ⟨hnode, rfl⟩ := Prod.mk.inj hsource
  refine ⟨_, hmem, ⟨q, peer, nodeId, rfl, hnode⟩, ?_⟩
  intro base32 ticket secret hscans
  obtain ⟨q', peer', scanned, hdecode, heq⟩ := hscans
  rw [PairingTicket.decode_encode] at hdecode
  obtain ⟨rfl, -⟩ := Prod.mk.inj (Except.ok.inj hdecode)
  injection heq with heq
  injection heq with _ _ hnodeId haddrHints
  rw [← AddrHint.sublist_iff ticket]
  unfold PairedDaemon.dialHints
  rw [hnode, haddrHints, hnodeId]

/-! ### A pairing, a restart and a connect -/

/-- The steps of a pairing by the code of a ticket. -/
def pairTicket (ticket : PairingTicket) : List Event :=
  .inner (.startPairing 0) :: .inner (.scanned 0 ticket.scanned.daemonKey ticket.scanned.nodeId
    ticket.scanned.addrHints) :: (pair 0).drop 2

/-- A phone is paired, restarted, and about to dial. -/
theorem reconnects (ticket : PairingTicket) (generated : Seed) :
    ∃ trace s daemon, Transition.Run step Transition.unguarded (start generated) trace s ∧
      s.inner.task 0 = .dialing daemon ∧ daemon.nodeId = some ticket.scanned.nodeId ∧
      daemon.addrHints = ticket.scanned.addrHints := by
  have hpaired : Transition.Run step Transition.unguarded (start generated) _ _ :=
    Transition.run_of_exec (pairTicket ticket) rfl
  have hcreate : ∀ stored, create (some (writeIdentity generated)) stored generated =
      some ⟨some (writeIdentity generated), generated, .create stored⟩ := by
    intro stored
    unfold create loadOrCreateIdentity
    dsimp only
    rw [load_write]
    rfl
  have hrestarted := hpaired.snoc (e := Event.restart generated) trivial
    (congrArg (Option.map (·, none)) (hcreate _))
  have hlooking := hrestarted.snoc (e := Event.inner (.startConnect 0)) trivial rfl
  have hdialing := hlooking.snoc (e := Event.inner (.look 0)) trivial rfl
  exact ⟨_, _, _, hdialing, rfl, rfl, rfl⟩

/-- A ticket with two addresses and no relay. -/
def lanTicket : PairingTicket :=
  ⟨.replicate 1, .replicate 2, ["192.168.1.4:41234", "[fe80::1]:80"], none⟩

theorem lasting_lanTicket : AddrHint.Lasting lanTicket := by
  have hfirst : Net.parse "192.168.1.4:41234" = some (.v4 ⟨⟨192, 168, 1, 4⟩, 41234⟩) := by
    decide +kernel
  have hsecond : Net.parse "[fe80::1]:80" =
      some (.v6 ⟨⟨0xfe80, 0, 0, 0, 0, 0, 0, 1⟩, 80, 0, 0⟩) := by
    decide +kernel
  refine ⟨rfl, by decide +kernel, by decide +kernel, ?_⟩
  intro hint hhint v6 hparse _
  rcases List.mem_pair.mp hhint with rfl | rfl
  · cases hfirst.symm.trans hparse
  · cases hsecond.symm.trans hparse
    rfl

/-- A reconnect with every hint of the ticket. -/
theorem reconnect_knows_lan :
    ∃ trace s daemon,
      Transition.Run step Transition.unguarded (start ⟨List.replicate 32 3, rfl⟩) trace s ∧
      s.inner.task 0 = .dialing daemon ∧
      (AddrHint.fromTicket lanTicket).Sublist daemon.dialHints := by
  obtain ⟨trace, s, daemon, hrun, hdial, hnode, hhints⟩ :=
    reconnects lanTicket ⟨List.replicate 32 3, rfl⟩
  refine ⟨trace, s, daemon, hrun, hdial, ?_⟩
  obtain ⟨entry, -, ⟨q, peer, nodeId, hentry, hnodeId⟩, hiff⟩ := reconnect_knows_iff hrun hdial
  refine (hiff crockford lanTicket PairingTicket.sampleSecret ?_).mpr lasting_lanTicket
  obtain rfl := Option.some.inj (hnode.symm.trans hnodeId)
  rw [hhints] at hentry
  exact ⟨q, peer, _, PairingTicket.decode_encode _ _ _, hentry⟩

/-- A ticket with an address and a relay. -/
def relayTicket : PairingTicket :=
  ⟨.replicate 1, .replicate 2, ["192.168.1.4:41234"], some "https://relay"⟩

/-- **The relay is forgotten**: it is not in the record that a later connect dials with. -/
theorem relay_forgotten :
    ¬ ∀ (ticket : PairingTicket) generated trace s p daemon,
      Transition.Run step Transition.unguarded (start generated) trace s →
      s.inner.task p = .dialing daemon → daemon.nodeId = some ticket.scanned.nodeId →
      daemon.addrHints = ticket.scanned.addrHints →
      (AddrHint.fromTicket ticket).Sublist daemon.dialHints := by
  intro hall
  obtain ⟨trace, s, daemon, hrun, hdial, hnode, hhints⟩ :=
    reconnects relayTicket ⟨List.replicate 32 3, rfl⟩
  have hsublist := hall relayTicket _ trace s 0 daemon hrun hdial hnode hhints
  unfold PairedDaemon.dialHints at hsublist
  rw [hnode, hhints] at hsublist
  have hlasting := (AddrHint.sublist_iff relayTicket).mp hsublist
  cases hlasting.relay

end Phone

end Client
