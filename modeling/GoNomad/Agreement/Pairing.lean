import GoNomad.Agreement.Invariant

/-!
# A pairing is agreed on

A phone that has a daemon was recorded by it before, over a connection whose
digits both sides derived.

* `refused_keeps` — a confirmation that is refused leaves the record as it was;
* `committed_of_answered` — a registration is recorded before it is answered;
* `pairing_agreed` — what holds of every run.
-/

namespace Agreement

open Proto Store Server Transition
open Client (Inner PairedDaemon Pairing)

variable {σ : Type} {services : Services σ} {codec : Codec} {config : Daemon}
  {phoneKey daemonKey : PublicKey} {s t : Both σ} {event : Event} {noted : Noted}
  {trace : List (Event × Noted)} {stored : Option PairedDaemon}

/-! ### A confirmation that is refused -/

/-- The task that an event moves, where it writes the record. -/
def Event.writer : Event → Option Nat
  | .phone e => e.writer
  | _ => none

/-- A confirmation that is refused, from its start to its return; no other task
writes the record meanwhile. -/
def Refused (p : Nat) (segment : List (Event × Noted)) (t : Both σ) : Prop :=
  ∃ device first last during,
    segment = (.phone (.startConfirm p), first) :: during ++ [(.phone (.registered p device), last)] ∧
      (∀ entry ∈ during, ∀ device, entry.1 ≠ .phone (.registered p device)) ∧
      (∀ entry ∈ segment, ∀ q, entry.1.writer = some q → q = p) ∧ t.phone.task p = .idle

theorem stepPhone_of_step {e : Inner.Event}
    (hstep : s.step services codec config phoneKey daemonKey (.phone e) = some (t, noted)) :
    s.stepPhone e = some (t, noted) := by
  dsimp only [Both.step] at hstep
  split at hstep
  · cases hstep
  · split_ifs at hstep
    exact hstep
  · split_ifs at hstep
    exact hstep
  · exact hstep

theorem phone_of_stepPhone {e : Inner.Event} (hstep : s.stepPhone e = some (t, noted)) :
    ∃ out, s.phone.step e = some (t.phone, out) := by
  unfold Both.stepPhone at hstep
  split at hstep
  · cases hstep
  · next phone out htaken =>
      cases hstep
      exact ⟨out, htaken⟩

theorem phone_of_stepLoop {e : PairingEvent} {taken : Both σ × Seen}
    (hstep : s.stepLoop services codec config e = some taken) : taken.1.phone = s.phone := by
  unfold Both.stepLoop at hstep
  split at hstep
  · cases hstep
  · cases hstep
    rfl

/-- **What a step does to the phone**: nothing, a step of the phone, or the end of a
task that could not write. -/
theorem phone_step
    (hstep : s.step services codec config phoneKey daemonKey event = some (t, noted)) :
    t.phone = s.phone ∨
      (∃ e out, s.phone.step e = some (t.phone, out) ∧
        (event = .phone e ∨ e.writer = none ∧ e.registers = none)) ∨
      ∃ q, t.phone = s.phone.goto q .idle ∧
        ∀ pairing r, s.phone.task q ≠ .registering pairing r := by
  cases event with
  | phone e =>
      obtain ⟨out, hphone⟩ := phone_of_stepPhone (stepPhone_of_step hstep)
      exact .inr (.inl ⟨e, out, hphone, .inl rfl⟩)
  | handshake p nodeId addrHints sas =>
      dsimp only [Both.step] at hstep
      split at hstep
      · cases hstep
      · next phone out htaken =>
          cases hstep
          exact .inr (.inl ⟨_, out, htaken, .inr ⟨rfl, rfl⟩⟩)
  | send p deviceName fails =>
      dsimp only [Both.step] at hstep
      split at hstep
      · cases hstep
      · split at hstep
        · cases hstep
        · next phone out htaken =>
            cases hstep
            exact .inr (.inl ⟨_, out, htaken, .inr ⟨rfl, rfl⟩⟩)
  | arrive n =>
      dsimp only [Both.step] at hstep
      split at hstep
      · cases hstep
      · split at hstep
        · cases hstep
        · next phone out htaken =>
            cases hstep
            exact .inr (.inl ⟨_, out, htaken, .inr ⟨rfl, rfl⟩⟩)
  | saveFails p =>
      dsimp only [Both.step] at hstep
      split at hstep
      · next daemon htask =>
          cases hstep
          exact .inr (.inr ⟨p, rfl, fun pairing r => htask ▸ nofun⟩)
      · cases hstep
  | touchFails p =>
      dsimp only [Both.step] at hstep
      split at hstep
      · next daemon htask =>
          cases hstep
          exact .inr (.inr ⟨p, rfl, fun pairing r => htask ▸ nofun⟩)
      · cases hstep
  | loop e =>
      left
      dsimp only [Both.step] at hstep
      split at hstep
      · cases hstep
      · split_ifs at hstep
        obtain ⟨taken, htaken, heq⟩ := Option.map_eq_some_iff.mp hstep
        cases heq
        exact phone_of_stepLoop htaken
      · obtain ⟨taken, htaken, heq⟩ := Option.map_eq_some_iff.mp hstep
        cases heq
        exact phone_of_stepLoop htaken
  | accept peer sas keysMatch =>
      left
      obtain ⟨taken, htaken, heq⟩ := Option.map_eq_some_iff.mp hstep
      cases heq
      exact phone_of_stepLoop htaken
  | acceptPhone n sas =>
      left
      dsimp only [Both.step] at hstep
      split_ifs at hstep
      obtain ⟨taken, htaken, heq⟩ := Option.map_eq_some_iff.mp hstep
      cases heq
      exact phone_of_stepLoop htaken
  | serve wallMs storeFails sendFails =>
      left
      dsimp only [Both.step] at hstep
      split at hstep
      · cases hstep
      · split at hstep
        · cases hstep
        · obtain ⟨taken, htaken, heq⟩ := Option.map_eq_some_iff.mp hstep
          cases heq
          exact phone_of_stepLoop htaken

/-- A task that registers leaves the record alone, and goes on by learning of it. -/
theorem registering_step {p r : Nat} {pairing : Pairing}
    (hstep : s.step services codec config phoneKey daemonKey event = some (t, noted))
    (hp : s.phone.task p = .registering pairing r)
    (hwriter : ∀ q, event.writer = some q → q = p) :
    t.phone.stored = s.phone.stored ∧ t.phone.daemon = s.phone.daemon ∧
      (t.phone.task p = .registering pairing r ∨
        ∃ device, event = .phone (.registered p device)) := by
  rcases phone_step hstep with hsame | ⟨e, out, htaken, hevent⟩ | ⟨q, hgoto, hq⟩
  · rw [hsame]
    exact ⟨rfl, rfl, .inl hp⟩
  · have hwrites : ∀ q, e.writer = some q → q = p := by
      intro q hq
      rcases hevent with rfl | ⟨hnone, -⟩
      · exact hwriter q hq
      · rw [hnone] at hq
        cases hq
    obtain ⟨hstored, hdaemon, hnext⟩ := Inner.record_registering htaken hp hwrites
    refine ⟨hstored, hdaemon, hnext.imp id fun hregisters => ?_⟩
    rcases hevent with rfl | ⟨-, hnone⟩
    · unfold Inner.Event.registers at hregisters
      split at hregisters
      · next q device =>
          cases hregisters
          exact ⟨device, rfl⟩
      · cases hregisters
    · rw [hnone] at hregisters
      cases hregisters
  · have hne : p ≠ q := fun hpq => hq pairing r (hpq ▸ hp)
    rw [hgoto]
    refine ⟨rfl, rfl, .inl ?_⟩
    rw [Inner.goto_task, if_neg hne]
    exact hp

/-- Through a run too, until it learns of it. -/
theorem registering_run {p r : Nat} {pairing : Pairing} {segment : List (Event × Noted)}
    (hrun : Run (Both.step services codec config phoneKey daemonKey) unguarded s segment t)
    (hp : s.phone.task p = .registering pairing r)
    (hlearns : ∀ entry ∈ segment, ∀ device, entry.1 ≠ .phone (.registered p device))
    (hwriter : ∀ entry ∈ segment, ∀ q, entry.1.writer = some q → q = p) :
    t.phone.stored = s.phone.stored ∧ t.phone.daemon = s.phone.daemon ∧
      t.phone.task p = .registering pairing r := by
  induction hrun with
  | nil => exact ⟨rfl, rfl, hp⟩
  | @snoc before u v event noted _ _ taken ih =>
      obtain ⟨hstored, hdaemon, htask⟩ := ih
        (fun entry hmem => hlearns entry (List.mem_append_left _ hmem))
        (fun entry hmem => hwriter entry (List.mem_append_left _ hmem))
      have hlast : (event, noted) ∈ before ++ [(event, noted)] :=
        List.mem_append_right before (List.mem_singleton_self _)
      obtain ⟨hstored', hdaemon', hnext⟩ :=
        registering_step taken htask (hwriter _ hlast)
      refine ⟨hstored'.trans hstored, hdaemon'.trans hdaemon, ?_⟩
      rcases hnext with hsame | ⟨device, hevent⟩
      · exact hsame
      · exact absurd hevent (hlearns _ hlast device)

/-- **A confirmation that is refused** leaves the record as it was. -/
theorem refused_keeps {p : Nat} {segment : List (Event × Noted)}
    (hrun : Run (Both.step services codec config phoneKey daemonKey) unguarded s segment t)
    (hrefused : Refused p segment t) :
    t.phone.stored = s.phone.stored ∧ t.phone.daemon = s.phone.daemon := by
  obtain ⟨device, first, last, during, rfl, hlearns, hwriter, -⟩ := hrefused
  obtain ⟨v, hfront, hback⟩ := hrun.parts
  obtain ⟨u, hstart, hduring⟩ := hfront.uncons
  obtain ⟨t', hend, hnil⟩ := hback.uncons
  rw [hnil.eq_init]
  obtain ⟨out, hconfirm⟩ := phone_of_stepPhone hstart
  obtain ⟨out', hreturn⟩ := phone_of_stepPhone hend
  obtain ⟨pairing, r, htask⟩ := Inner.registering_of_startConfirm hconfirm
  obtain ⟨hfirst, hfirst', -⟩ := @Inner.frame_step _ _ _ _ none hconfirm rfl
  obtain ⟨hstored, hdaemon, -⟩ := registering_run hduring htask hlearns fun entry hmem =>
    hwriter entry (List.mem_append_left _ (List.mem_cons_of_mem _ hmem))
  obtain ⟨hlast, hlast', -⟩ := @Inner.frame_step _ _ _ _ none hreturn rfl
  exact ⟨(hlast.trans hstored).trans hfirst, (hlast'.trans hdaemon).trans hfirst'⟩

/-! ### The answer to a registration -/

/-- A registration that the loop answers with a result was recorded. -/
theorem committed_of_stepLoop {request : Request} {wallMs : Int} {storeFails sendFails : Bool}
    {seen : Seen} {answer : Request × Response} {result : List UInt8}
    (hstep : s.stepLoop services codec config
      (.received (some (.request request)) wallMs storeFails sendFails) = some (t, seen))
    (hanswer : answerOf request seen = some answer) (hmethod : answer.1.method = Method.sysRegister)
    (hok : answer.2.body = .ok result) :
    ∃ session, s.loop.phase = .serving session true ∧
      Commits session.router.peerKey (committedIn t.loop.devices seen) := by
  obtain ⟨hsent, hrequest⟩ := sent_of_answerOf hanswer
  rw [hrequest] at hmethod
  unfold Both.stepLoop at hstep
  split at hstep
  · cases hstep
  · next loop seen' hloop =>
      cases hstep
      dsimp only [PairingLoop.step] at hloop
      split at hloop
      · next session hphase =>
          obtain ⟨rfl, rfl⟩ := Prod.ext_iff.mp (Option.some.inj hloop)
          exact ⟨session, hphase, PairingLoop.receive_registered hmethod hsent hok⟩
      · cases hloop

/-- **A registration that is answered with a result** was recorded in the same step. -/
theorem committed_of_answered {request : Request} {response : Response} {result : List UInt8}
    (hstep : s.step services codec config phoneKey daemonKey event = some (t, noted))
    (hanswered : noted.answered = some (request, response))
    (hmethod : request.method = Method.sysRegister) (hok : response.body = .ok result) :
    ∃ session, s.loop.phase = .serving session true ∧
      Commits session.router.peerKey noted.committed := by
  cases event with
  | loop e =>
      dsimp only [Both.step] at hstep
      split at hstep
      · cases hstep
      · split_ifs at hstep
        obtain ⟨⟨u, seen⟩, htaken, heq⟩ := Option.map_eq_some_iff.mp hstep
        cases heq
        exact committed_of_stepLoop htaken hanswered hmethod hok
      · obtain ⟨⟨u, seen⟩, htaken, heq⟩ := Option.map_eq_some_iff.mp hstep
        cases heq
        cases hanswered
  | serve wallMs storeFails sendFails =>
      dsimp only [Both.step] at hstep
      split at hstep
      · cases hstep
      · split at hstep
        · cases hstep
        · obtain ⟨⟨u, seen⟩, htaken, heq⟩ := Option.map_eq_some_iff.mp hstep
          cases heq
          exact committed_of_stepLoop htaken hanswered hmethod hok
  | phone e =>
      have htaken := stepPhone_of_step hstep
      unfold Both.stepPhone at htaken
      split at htaken <;> cases htaken
      cases hanswered
  | accept peer sas keysMatch =>
      obtain ⟨taken, -, heq⟩ := Option.map_eq_some_iff.mp hstep
      cases heq
      cases hanswered
  | acceptPhone n sas =>
      dsimp only [Both.step] at hstep
      split_ifs at hstep
      obtain ⟨taken, -, heq⟩ := Option.map_eq_some_iff.mp hstep
      cases heq
      cases hanswered
  | handshake p nodeId addrHints sas =>
      dsimp only [Both.step] at hstep
      split at hstep <;> cases hstep
      cases hanswered
  | send p deviceName fails =>
      dsimp only [Both.step] at hstep
      split at hstep
      · cases hstep
      · split at hstep <;> cases hstep
        cases hanswered
  | arrive n =>
      dsimp only [Both.step] at hstep
      split at hstep
      · cases hstep
      · split at hstep <;> cases hstep
        cases hanswered
  | _ =>
      dsimp only [Both.step] at hstep
      split at hstep <;> cases hstep
      cases hanswered

/-- **A pairing is agreed on.**  Every record that the phone has, on disk or in
memory, it had from the beginning, but for its time, or its key is the daemon's,
both sides derived the same digits, and the daemon recorded the phone before.
-/
theorem pairing_agreed {now window : Nat} {devices : Devices} {w : World σ}
    (hencode : Router.EncodesRegistration codec) (hreads : ReadsBack codec)
    (hrun : Run (Both.step services codec config phoneKey daemonKey) unguarded
      (Both.start stored now window devices w) trace s) :
    (∀ daemon, s.phone.stored = some daemon ∨ s.phone.daemon = some daemon →
      Recorded (Agreed phoneKey trace s) stored daemonKey daemon) ∧
    (∀ p t noted, s.step services codec config phoneKey daemonKey (.phone (.save p)) =
        some (t, noted) →
      ∃ daemon n, t.phone.stored = some daemon ∧ daemon.noiseKey = daemonKey ∧
        s.origin p = some n ∧ Agreed phoneKey trace s n) ∧
    (∀ event t noted request response result,
      s.step services codec config phoneKey daemonKey event = some (t, noted) →
      noted.answered = some (request, response) → request.method = Method.sysRegister →
      response.body = .ok result →
        ∃ session, s.loop.phase = .serving session true ∧
          Commits session.router.peerKey noted.committed) ∧
    ∀ p segment t, Run (Both.step services codec config phoneKey daemonKey) unguarded s segment t →
      Refused p segment t →
        t.phone.stored = s.phone.stored ∧ t.phone.daemon = s.phone.daemon := by
  have hsound := run_sound hencode hreads hrun
  refine ⟨fun daemon hdaemon => hsound.phone.records daemon ?_, fun p t noted hstep => ?_,
    fun event t noted request response result hstep hanswered hmethod hok => ?_,
    fun p segment t hsegment hrefused => refused_keeps hsegment hrefused⟩
  · exact hdaemon.imp id Or.inl
  · obtain ⟨out, hphone⟩ := phone_of_stepPhone hstep
    have hconfirming := hsound.phone.confirming p
    dsimp only [Inner.step] at hphone
    split at hphone
    · next daemon htask =>
        rw [htask] at hconfirming
        obtain ⟨hkey, n, horigin, hagreed⟩ := hconfirming
        have hsaved : some daemon = t.phone.stored :=
          congrArg (fun moved => moved.1.stored) (Option.some.inj hphone)
        exact ⟨daemon, n, hsaved.symm, hkey, horigin, hagreed⟩
    · cases hphone
  · exact committed_of_answered hstep hanswered hmethod hok

/-! ### A phone that pairs -/

/-- What a phone says about itself. -/
def phoneParams : SysRegisterParams := ⟨"phone", none, "123456"⟩

/-- The encoding, on the registration of this phone. -/
def phoneCodec : Codec :=
  { Router.sampleCodec with
    register := fun bytes =>
      if bytes = MethodCbor.registerParams phoneParams then some phoneParams else none }

theorem readsBack_phoneCodec : ReadsBack phoneCodec := by
  intro params decoded h
  dsimp only [phoneCodec] at h
  split_ifs at h with hbytes
  cases h
  have hlen : (MethodCbor.registerParams phoneParams).length ≤ Cbor.u64Max := by decide +kernel
  exact MethodCbor.registerParams_injective hlen hbytes.symm

/-- The digits of the handshake. -/
def phoneSas : Core.Sas := ⟨123456, by decide⟩

/-- A phone pairs, and does not learn the name of the daemon. -/
def phonePairs : List Event :=
  [.acceptPhone 0 phoneSas, .phone (.startPairing 0), .handshake 0 (.replicate 9) [] phoneSas,
    .phone (.startConfirm 1), .phone (.session 0 (.register 0)), .send 1 "phone" false,
    .serve 5 false false, .arrive 0, .phone (.session 0 .hand),
    .phone (.session 0 (.wake 0 true)), .phone (.registered 1 "me"),
    .phone (.session 0 (.register 1)), .phone (.session 0 (.sendFails 1)),
    .phone (.session 0 (.takeBack 1)), .phone (.named 1 "desk" 7), .phone (.save 1)]

theorem pairing_agreed_phone :
    ∃ trace s daemon, Run (Both.step Router.bareServices phoneCodec Router.sampleDaemon
        (.replicate 1) (.replicate 9)) unguarded
        (Both.start none 0 10 .empty ⟨(), []⟩) trace s ∧
      s.phone.stored = some daemon ∧ daemon.noiseKey = .replicate 9 ∧
      ∃ n, Agreed (.replicate 1) trace s n := by
  have hexec : ((exec (Both.step Router.bareServices phoneCodec Router.sampleDaemon
      (.replicate 1) (.replicate 9)) unguarded phonePairs [] (Both.start none 0 10 .empty
        ⟨(), []⟩)).map fun r => r.2.phone.stored.map fun daemon => daemon.name) =
        some (some "Your machine") := by
    decide +kernel
  obtain ⟨⟨trace, s⟩, hrun, hstored⟩ := Option.map_eq_some_iff.mp hexec
  obtain ⟨daemon, hdaemon, -⟩ := Option.map_eq_some_iff.mp hstored
  have hencode : Router.EncodesRegistration phoneCodec := fun result => Option.some_ne_none _
  have hrun' := run_of_exec _ hrun
  obtain ⟨hrecords, -⟩ := pairing_agreed hencode readsBack_phoneCodec hrun'
  rcases hrecords daemon (.inl hdaemon) with ⟨old, hold, -⟩ | ⟨hkey, hagreed⟩
  · cases hold
  · exact ⟨trace, s, daemon, hrun', hdaemon, hkey, hagreed⟩

end Agreement
