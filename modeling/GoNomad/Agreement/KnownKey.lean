import GoNomad.Agreement.Pairing

/-!
# A phone that the daemon has a row for

The device table has one row for each key ever paired, also for one whose reply was
lost, whose phone forgot the pairing, or that was revoked.  Such a key is not
recorded again, in no window.

* `keys_of_step` — no step of the loop removes a key;
* `unknown_of_committed` — what is recorded was not in the table;
* `known_key_refused` — a phone with such a key ends no pairing.
-/

namespace Store.Devices

open Proto

variable {db db' : Devices} {key : PublicKey}

/-- The table has a row for a key. -/
def Knows (db : Devices) (key : PublicKey) : Prop := key ∈ db.rows.map Device.publicKey

instance (db : Devices) (key : PublicKey) : Decidable (db.Knows key) :=
  inferInstanceAs (Decidable (_ ∈ _))

theorem Knows.find (h : db.Knows key) : db.findByPublicKey key ≠ none :=
  fun hnone => not_mem_of_find_none hnone h

theorem Knows.update (h : db.Knows key) (f : Device → Device) (hid : ∀ row, (f row).id = row.id)
    (hkey : ∀ row, (f row).publicKey = row.publicKey) : (db.update f hid hkey).Knows key := by
  obtain ⟨row, hrow, rfl⟩ := List.mem_map.mp h
  exact List.mem_map.mpr ⟨f row, List.mem_map_of_mem hrow, hkey row⟩

/-- **No operation removes a key.** -/
theorem Knows.apply (h : db.Knows key) {op : Op} (happly : db.apply op = .ok db') :
    db'.Knows key := by
  cases op with
  | pair other name model grants now =>
      obtain ⟨⟨paired, device⟩, hpair, rfl⟩ := Except.map_eq_ok.mp happly
      unfold pair at hpair
      split at hpair
      · cases hpair
      · dsimp only at hpair
        split_ifs at hpair
        cases hpair
        exact List.mem_cons_of_mem _ h
  | rename id name =>
      dsimp only [Devices.apply] at happly
      unfold rename at happly
      split_ifs at happly
      cases happly
      exact h.update ..
  | touchLastSeen id now =>
      dsimp only [Devices.apply] at happly
      unfold touchLastSeen at happly
      split_ifs at happly
      cases happly
      exact h.update ..
  | revoke id now =>
      obtain ⟨⟨revoked, first⟩, hrevoke, rfl⟩ := Except.map_eq_ok.mp happly
      unfold revoke at hrevoke
      split_ifs at hrevoke
      · cases hrevoke
        dsimp only
        exact h.update ..
      · cases hrevoke
        exact h
  | setGrants id grants grantedBy now =>
      dsimp only [Devices.apply] at happly
      unfold setGrants at happly
      split_ifs at happly
      cases happly
      exact h

end Store.Devices

namespace Server

open Proto Store

variable {σ : Type} {services : Services σ} {codec : Codec} {config : Daemon} {key : PublicKey}

/-- What is stored after a message is what was, or what was registered. -/
theorem store_of_serveMessage {δ : Type}
    {onRegister : PublicKey → String → Option String → δ → Except StoreError δ}
    (session : Session) (w : World σ) (store : δ) (message : ControlMessage) :
    (serveMessage services codec onRegister session w store message).store = store ∨
      ∃ key name model, onRegister key name model store =
        .ok (serveMessage services codec onRegister session w store message).store := by
  cases message with
  | request request =>
      unfold serveMessage
      dsimp only
      split
      · exact .inl rfl
      · next response key name model router w' hhandle =>
          cases hstore : onRegister key name model store with
          | error error => exact .inl rfl
          | ok store' => exact .inr ⟨key, name, model, hstore⟩
  | _ => exact .inl rfl

namespace PairingLoop

variable {s t : PairingLoop σ} {e : PairingEvent} {seen : Seen}

/-- **No step of the loop removes a key.** -/
theorem keys_of_step (hstep : s.step services codec config e = some (t, seen))
    (h : s.devices.Knows key) : t.devices.Knows key := by
  cases e with
  | received message wallMs storeFails sendFails =>
      dsimp only [step] at hstep
      split at hstep
      · next session hphase =>
          cases message with
          | none =>
              cases hstep
              exact h
          | some message =>
              obtain ⟨rfl, -⟩ := Prod.ext_iff.mp (Option.some.inj hstep)
              rw [devices_receive]
              rcases @store_of_serveMessage σ services codec Devices (persist wallMs storeFails)
                session s.world s.devices message with hsame | ⟨other, name, model, hpersist⟩
              · rw [hsame]
                exact h
              · generalize (serveMessage services codec (persist wallMs storeFails) session s.world
                  s.devices message).store = store at hpersist
                unfold persist at hpersist
                split_ifs at hpersist
                exact @Devices.Knows.apply _ _ _ h (.pair other name model .defaultGrant wallMs)
                  hpersist
      · cases hstep
  | commit op =>
      dsimp only [step] at hstep
      split at hstep
      · next happly =>
          cases hstep
          exact h.apply happly
      · cases hstep
  | timeout =>
      dsimp only [step] at hstep
      split at hstep
      · split_ifs at hstep
        cases hstep
        exact h
      · cases hstep
  | closed =>
      dsimp only [step] at hstep
      split at hstep
      · split at hstep <;> cases hstep <;> exact h
      · cases hstep
  | tick elapsed =>
      cases hstep
      exact h
  | _ =>
      dsimp only [step] at hstep
      split at hstep <;> cases hstep
      exact h

/-- **What is recorded** was not in the table. -/
theorem unknown_of_committed (hstep : s.step services codec config e = some (t, seen))
    (hcommits : Commits key (committedIn t.devices seen)) : ¬ s.devices.Knows key := by
  obtain ⟨row, hcommitted, hkey, -⟩ := hcommits
  unfold committedIn at hcommitted
  cases hpersisted : seen.persisted with
  | none =>
      rw [hpersisted] at hcommitted
      cases hcommitted
  | some recorded =>
      obtain ⟨session, message, wallMs, storeFails, sendFails, rfl, -, hreceive⟩ :=
        received_of_persisted hstep (by rw [hpersisted]; exact Option.some_ne_none _)
      obtain ⟨hrecorded, -, -⟩ := @receive_cases σ services codec s session message wallMs
        storeFails sendFails
      rw [hreceive] at hrecorded
      obtain ⟨device, hdevice, hpair⟩ :=
        Option.map_eq_some_iff.mp (hrecorded.symm.trans hpersisted)
      obtain ⟨model, hstore⟩ := store_of_recorded hdevice
      have hfresh := fresh_of_persist hstore
      -- The row that was found has the key that was recorded.
      rw [hpersisted, Option.bind_some, ← hpair] at hcommitted
      obtain ⟨found, hfind, heq⟩ := Option.map_eq_some_iff.mp hcommitted
      obtain ⟨rfl, -⟩ := Prod.ext_iff.mp heq
      have hfound := List.find?_some hfind
      rw [decide_eq_true_iff, hkey] at hfound
      rw [← hfound] at hfresh
      exact fun hknows => hknows.find hfresh

end PairingLoop

end Server

namespace Agreement

open Proto Store Server Transition
open Client (Inner PairedDaemon)

variable {σ : Type} {services : Services σ} {codec : Codec} {config : Daemon}
  {phoneKey daemonKey key : PublicKey} {s t : Both σ} {event : Event} {noted : Noted}
  {trace : List (Event × Noted)} {stored : Option PairedDaemon}

/-- **What a step does to the loop**: nothing, or a step of the loop, which shows what
it commits. -/
theorem loop_step (hstep : s.step services codec config phoneKey daemonKey event = some (t, noted)) :
    t.loop = s.loop ∧ noted.committed = none ∨
      ∃ e seen, s.loop.step services codec config e = some (t.loop, seen) ∧
        (noted.committed = none ∨ noted.committed = committedIn t.loop.devices seen) := by
  have hloop : ∀ {u : Both σ} {e : PairingEvent} {seen : Seen},
      s.stepLoop services codec config e = some (u, seen) →
        s.loop.step services codec config e = some (u.loop, seen) := by
    intro u e seen htaken
    unfold Both.stepLoop at htaken
    split at htaken
    · cases htaken
    · next loop seen' hstep =>
        cases htaken
        exact hstep
  have hphone : ∀ {e : Inner.Event}, s.stepPhone e = some (t, noted) →
      t.loop = s.loop ∧ noted.committed = none := by
    intro e htaken
    unfold Both.stepPhone at htaken
    split at htaken
    · cases htaken
    · cases htaken
      exact ⟨rfl, rfl⟩
  cases event with
  | phone e => exact .inl (hphone (stepPhone_of_step hstep))
  | handshake p nodeId addrHints sas =>
      dsimp only [Both.step] at hstep
      split at hstep <;> cases hstep
      exact .inl ⟨rfl, rfl⟩
  | send p deviceName fails =>
      dsimp only [Both.step] at hstep
      split at hstep
      · cases hstep
      · split at hstep <;> cases hstep
        exact .inl ⟨rfl, rfl⟩
  | arrive n =>
      dsimp only [Both.step] at hstep
      split at hstep
      · cases hstep
      · split at hstep <;> cases hstep
        exact .inl ⟨rfl, rfl⟩
  | saveFails p =>
      dsimp only [Both.step] at hstep
      split at hstep <;> cases hstep
      exact .inl ⟨rfl, rfl⟩
  | touchFails p =>
      dsimp only [Both.step] at hstep
      split at hstep <;> cases hstep
      exact .inl ⟨rfl, rfl⟩
  | loop e =>
      dsimp only [Both.step] at hstep
      split at hstep
      · cases hstep
      · split_ifs at hstep
        obtain ⟨⟨u, seen⟩, htaken, heq⟩ := Option.map_eq_some_iff.mp hstep
        have hloop := hloop htaken
        cases heq
        exact .inr ⟨_, seen, hloop, .inr rfl⟩
      · obtain ⟨⟨u, seen⟩, htaken, heq⟩ := Option.map_eq_some_iff.mp hstep
        have hloop := hloop htaken
        cases heq
        exact .inr ⟨_, seen, hloop, .inl rfl⟩
  | accept peer sas keysMatch =>
      obtain ⟨⟨u, seen⟩, htaken, heq⟩ := Option.map_eq_some_iff.mp hstep
      have hloop := hloop htaken
      cases heq
      exact .inr ⟨_, seen, hloop, .inl rfl⟩
  | acceptPhone n sas =>
      dsimp only [Both.step] at hstep
      split_ifs at hstep
      obtain ⟨⟨u, seen⟩, htaken, heq⟩ := Option.map_eq_some_iff.mp hstep
      have hloop := hloop htaken
      cases heq
      exact .inr ⟨_, seen, hloop, .inl rfl⟩
  | serve wallMs storeFails sendFails =>
      dsimp only [Both.step] at hstep
      split at hstep
      · cases hstep
      · split at hstep
        · cases hstep
        · obtain ⟨⟨u, seen⟩, htaken, heq⟩ := Option.map_eq_some_iff.mp hstep
          have hloop := hloop htaken
          cases heq
          exact .inr ⟨_, seen, hloop, .inr rfl⟩

/-- A key that the table has stays there, and is not recorded. -/
theorem known_run (hrun : Run (Both.step services codec config phoneKey daemonKey) unguarded s trace t)
    (hknown : s.loop.devices.Knows key) :
    t.loop.devices.Knows key ∧ ∀ entry ∈ trace, ¬ Commits key entry.2.committed := by
  induction hrun with
  | nil => exact ⟨hknown, fun entry hmem => absurd hmem List.not_mem_nil⟩
  | @snoc trace u v event noted _ _ taken ih =>
      obtain ⟨hknows, hnone⟩ := ih
      have hstep : v.loop.devices.Knows key ∧ ¬ Commits key noted.committed := by
        rcases loop_step taken with ⟨hsame, hcommitted⟩ | ⟨e, seen, hloop, hcommitted⟩
        · rw [hsame, hcommitted]
          exact ⟨hknows, fun ⟨row, hrow, _⟩ => by cases hrow⟩
        · refine ⟨PairingLoop.keys_of_step hloop hknows, ?_⟩
          rcases hcommitted with hcommitted | hcommitted
          · rw [hcommitted]
            exact fun ⟨row, hrow, _⟩ => by cases hrow
          · rw [hcommitted]
            exact fun hcommits => PairingLoop.unknown_of_committed hloop hcommits hknows
      refine ⟨hstep.1, fun entry hmem => ?_⟩
      rcases List.mem_append.mp hmem with hmem | hmem
      · exact hnone entry hmem
      · rw [List.mem_singleton.mp hmem]
        exact hstep.2

/-- **A phone that the daemon has a row for cannot pair**, however often it tries and
whatever becomes of its connections: nothing is recorded for it, no task of it gets to
write a record, and the record it has is the one that it had, but for its time. -/
theorem known_key_refused {now window : Nat} {devices : Devices} {w : World σ}
    (hencode : Router.EncodesRegistration codec) (hreads : ReadsBack codec)
    (hknown : devices.Knows phoneKey)
    (hrun : Run (Both.step services codec config phoneKey daemonKey) unguarded
      (Both.start stored now window devices w) trace s) :
    (∀ entry ∈ trace, ¬ Commits phoneKey entry.2.committed) ∧
    (∀ p t noted, s.step services codec config phoneKey daemonKey (.phone (.save p)) ≠
      some (t, noted)) ∧
    ∀ daemon, s.phone.stored = some daemon ∨ s.phone.daemon = some daemon →
      ∃ old, stored = some old ∧ old.untimed = daemon.untimed := by
  have hsound := run_sound hencode hreads hrun
  obtain ⟨-, hnone⟩ := known_run hrun hknown
  have hdisagree : ∀ n, ¬ Agreed phoneKey trace s n := by
    rintro n ⟨-, entry, hmem, hcommits⟩
    exact hnone entry hmem hcommits
  refine ⟨hnone, fun p t noted hstep => ?_, fun daemon hdaemon => ?_⟩
  · obtain ⟨out, hphone⟩ := phone_of_stepPhone (stepPhone_of_step hstep)
    have hconfirming := hsound.phone.confirming p
    dsimp only [Inner.step] at hphone
    split at hphone
    · next daemon htask =>
        rw [htask] at hconfirming
        obtain ⟨-, n, -, hagreed⟩ := hconfirming
        exact hdisagree n hagreed
    · cases hphone
  · rcases hsound.phone.records daemon (hdaemon.imp id Or.inl) with hold | ⟨-, n, hagreed⟩
    · exact hold
    · exact absurd hagreed (hdisagree n)

/-- A phone asks to be registered, and its connection is gone when it was. -/
def losesReply : List Event :=
  [.acceptPhone 0 phoneSas, .phone (.startPairing 0), .handshake 0 (.replicate 9) [] phoneSas,
    .phone (.startConfirm 1), .phone (.session 0 (.register 0)), .send 1 "phone" false,
    .serve 5 false false]

/-- The phone whose reply was lost tries again in another window. -/
theorem known_key_refused_lost :
    ∃ trace s trace' s', Run (Both.step Router.bareServices phoneCodec Router.sampleDaemon
        (.replicate 1) (.replicate 9)) unguarded (Both.start none 0 10 .empty ⟨(), []⟩) trace s ∧
      Run (Both.step Router.bareServices phoneCodec Router.sampleDaemon (.replicate 1)
        (.replicate 9)) unguarded (Both.start none 20 10 s.loop.devices ⟨(), []⟩) trace' s' ∧
      trace'.map Prod.fst = losesReply ∧ s'.phone.stored = none := by
  have hexec : ((exec (Both.step Router.bareServices phoneCodec Router.sampleDaemon
      (.replicate 1) (.replicate 9)) unguarded losesReply [] (Both.start none 0 10 .empty
        ⟨(), []⟩)).bind fun r => (exec (Both.step Router.bareServices phoneCodec
          Router.sampleDaemon (.replicate 1) (.replicate 9)) unguarded losesReply []
            (Both.start none 20 10 r.2.loop.devices ⟨(), []⟩)).map fun _ =>
              decide (r.2.loop.devices.Knows (.replicate 1))) = some true := by
    decide +kernel
  obtain ⟨⟨trace, s⟩, hlost, hagain⟩ := Option.bind_eq_some_iff.mp hexec
  obtain ⟨⟨trace', s'⟩, hretry, hknown⟩ := Option.map_eq_some_iff.mp hagain
  have hencode : Router.EncodesRegistration phoneCodec := fun result => Option.some_ne_none _
  obtain ⟨-, -, hrecords⟩ := known_key_refused hencode readsBack_phoneCodec
    (of_decide_eq_true hknown) (run_of_exec _ hretry)
  have hnone : s'.phone.stored = none := by
    rw [Option.eq_none_iff_forall_ne_some]
    intro daemon hdaemon
    obtain ⟨old, hold, -⟩ := hrecords daemon (.inl hdaemon)
    cases hold
  exact ⟨trace, s, trace', s', run_of_exec _ hlost, run_of_exec _ hretry,
    events_of_exec hretry, hnone⟩

end Agreement
