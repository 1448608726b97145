import GoNomad.Agreement.Advance

/-!
# A pairing that completes

While nothing fails in a pairing, whatever the other tasks of the phone do meanwhile,
there is always a next step to take, and eighteen of them lead to the end.

* `stands_of_other`, `stands_step` — a step of a pairing in which nothing fails;
* `separate_run` — only a task that pairs uses the connection of a pairing;
* `completes` — **a pairing without faults completes**.
-/

namespace Agreement

open Proto Store Server Transition
open Core (Sas)
open Client (Inner Leg PairedDaemon)

namespace Attempt

variable {σ : Type} {services : Services σ} {codec : Codec} {config : Daemon}
  {phoneKey daemonKey : PublicKey} {a : Attempt} {rung : Rung} {question : Question}
  {s t : Both σ} {event : Event} {noted : Noted} {phone : Inner} {out : Option Client.Returned}

/-! ### What happens meanwhile changes nothing -/

theorem Holds.frame {phone' : Inner} (h : a.Holds daemonKey phone rung)
    (hsession : phone'.sessions a.session = phone.sessions a.session)
    (hpairing : phone'.pairing = phone.pairing) (hstored : phone'.stored = phone.stored)
    (hdaemon : phone'.daemon = phone.daemon) : a.Holds daemonKey phone' rung := by
  cases rung <;> simp only [Holds, Ended, hsession, hpairing, hstored, hdaemon] at h ⊢ <;> exact h

/-- **A step that does not take the pairing further** leaves it where it is. -/
theorem stands_of_other (h : a.Stands config phoneKey daemonKey rung s)
    (hstep : s.step services codec config phoneKey daemonKey event = some (t, noted))
    (hsmooth : a.smooth event = true) (hother : a.works event = false) :
    a.Stands config phoneKey daemonKey rung t := by
  cases event with
  | phone e =>
      have htaken := stepPhone_of_step hstep
      unfold Both.stepPhone at htaken
      split at htaken
      · cases htaken
      · next phone out hphone =>
          cases htaken
          by_cases haside : e.aside a.task = true
          · obtain ⟨htask, hsession, hpairing, hstored, hdaemon, hreserved⟩ :=
              Inner.aside_step hphone haside h.reserved
            exact { h with
              task := htask.trans h.task
              reserved := hreserved
              holds := h.holds.frame hsession hpairing hstored hdaemon }
          · cases e with
            | session n e =>
                have hn : n ≠ a.session := of_decide_eq_false hother
                obtain ⟨session, outcome, -, rfl⟩ := Inner.session_of_step hphone
                exact { h with
                  reserved := h.reserved.own rfl rfl fun _ _ => rfl
                  holds := h.holds.frame (Function.update_of_ne hn.symm ..) rfl rfl rfl }
            | startConfirm p => cases hother
            | registered p device => cases hother
            | named p hostName now => cases hother
            | save p => cases hother
            | cache p => cases hother
            | confirm p => cases hother
            | _ => exact absurd hsmooth haside
  | arrive n =>
      have hn : n ≠ a.session := of_decide_eq_false hother
      dsimp only [Both.step] at hstep
      split at hstep
      · cases hstep
      · split at hstep
        · cases hstep
        · next phone out hphone =>
            cases hstep
            obtain ⟨session, outcome, -, rfl⟩ := Inner.session_of_step hphone
            exact { h with
              reserved := h.reserved.own rfl rfl fun _ _ => rfl
              holds := h.holds.frame (Function.update_of_ne hn.symm ..) rfl rfl rfl
              hears := (Function.update_of_ne hn.symm ..).trans h.hears }
  | loop e =>
      cases e with
      | tick elapsed =>
          cases hstep
          have hserves : a.Serves config phoneKey
              { s.loop with now := s.loop.now + elapsed } rung.recorded := by
            have hserves := h.serves
            cases hrecorded : rung.recorded <;> rw [hrecorded] at hserves <;> exact hserves
          exact { h with serves := hserves }
      | _ => cases hsmooth
  | send p deviceName fails => cases hother
  | serve wallMs storeFails sendFails => cases hother
  | _ => cases hsmooth

/-- **A step of the pairing**: what is left gets less with each step that takes it
further, and with no other. -/
theorem stands_step (hencode : Router.EncodesRegistration codec) (hreads : a.Reads codec)
    (h : a.Stands config phoneKey daemonKey rung s) (hsmooth : a.smooth event = true)
    (hstep : s.step services codec config phoneKey daemonKey event = some (t, noted)) :
    ∃ rung', a.Stands config phoneKey daemonKey rung' t ∧
      rung'.left + (a.works event).toNat = rung.left := by
  cases hworks : a.works event with
  | false => exact ⟨rung, stands_of_other h hstep hsmooth hworks, rfl⟩
  | true =>
      obtain ⟨rung', ⟨t', noted', htaken, hstands⟩, hleft⟩ :=
        advance hencode hreads h (due_of_step h hstep hsmooth hworks)
      rw [hstep] at htaken
      cases htaken
      exact ⟨rung', hstands, hleft⟩

/-- Before the end something is due. -/
theorem exists_due (a : Attempt) (hleft : 0 < rung.left) : ∃ event, a.Due rung event ∧
    a.smooth event = true ∧ a.works event = true := by
  cases rung with
  | ready => exact ⟨_, .start, by simp [smooth], rfl⟩
  | asking question leg =>
      cases leg with
      | numbered => exact ⟨_, .register question, by simp [smooth, Client.Session.Event.answers],
          by simp [works]⟩
      | sending => exact ⟨_, .send question, by simp [smooth], rfl⟩
      | asked => exact ⟨_, .serve question 0, rfl, rfl⟩
      | answered reply => exact ⟨_, .arrive question reply, rfl, by simp [works]⟩
      | holding reply => exact ⟨_, .hand question reply,
          by simp [smooth, Client.Session.Event.answers], by simp [works]⟩
      | told reply => exact ⟨_, .wake question reply,
          by simp [smooth, Client.Session.Event.answers], by simp [works]⟩
      | returned reply =>
          cases question with
          | register => exact ⟨_, .registered reply "", by simp [smooth], rfl⟩
          | name device result => exact ⟨_, .named device result reply "" 0, by simp [smooth], rfl⟩
  | saving daemon => exact ⟨_, .save daemon, by simp [smooth], rfl⟩
  | caching daemon => exact ⟨_, .cache daemon, by simp [smooth], rfl⟩
  | confirmed daemon => exact ⟨_, .confirm daemon, by simp [smooth], rfl⟩
  | paired daemon => simp [Rung.left] at hleft

/-- Both sides have what they need of each other: the phone a record of the daemon, on
disk and in memory, the daemon an active row for the phone; and the daemon is done with
the window when the connection ends. -/
def Paired (a : Attempt) (services : Services σ) (codec : Codec) (config : Daemon)
    (phoneKey daemonKey : PublicKey) (s : Both σ) : Prop :=
  (∃ daemon, a.Records daemonKey daemon ∧ s.phone.stored = some daemon ∧
    s.phone.daemon = some daemon) ∧
  s.phone.task a.task = .idle ∧ s.phone.pairing = none ∧ s.loop.devices.Active phoneKey ∧
  ∃ t, s.step services codec config phoneKey daemonKey (.loop .closed) = some (t, .nothing) ∧
    t.loop.phase = .returned (some (a.device phoneKey))

theorem paired_of_left (h : a.Stands config phoneKey daemonKey rung s) (hleft : rung.left = 0) :
    a.Paired services codec config phoneKey daemonKey s := by
  have hend : ∃ daemon, rung = .paired daemon := by
    cases rung with
    | paired daemon => exact ⟨daemon, rfl⟩
    | asking question leg => cases question <;> simp [Rung.left] at hleft
    | _ => simp [Rung.left] at hleft
  obtain ⟨daemon, rfl⟩ := hend
  obtain ⟨-, hrecords, hstored, hdaemon, hpairing⟩ := h.holds
  obtain ⟨hphase, hactive⟩ := h.serves
  refine ⟨⟨daemon, hrecords, hstored, hdaemon⟩, h.task, hpairing, hactive, ?_⟩
  have hloop : s.loop.step services codec config .closed =
      some ({ s.loop with phase := .returned (some (a.device phoneKey)) }, .nothing) := by
    dsimp only [PairingLoop.step]
    rw [hphase]
  refine ⟨{ s with loop := { s.loop with phase := .returned (some (a.device phoneKey)) } }, ?_, rfl⟩
  dsimp only [Both.step, Both.stepLoop]
  rw [hloop]
  rfl

/-! ### Before the pairing is confirmed -/

/-- Digits are shown by a handshake only. -/
theorem shown_step
    (hstep : s.step services codec config phoneKey daemonKey event = some (t, noted)) :
    t.shown = s.shown ∨ ∃ p nodeId addrHints sas, event = .handshake p nodeId addrHints sas := by
  have hloop : ∀ {e : PairingEvent} {taken : Both σ × Seen},
      s.stepLoop services codec config e = some taken → taken.1.shown = s.shown := by
    intro e taken htaken
    unfold Both.stepLoop at htaken
    split at htaken <;> cases htaken
    rfl
  cases event with
  | phone e =>
      have htaken := stepPhone_of_step hstep
      unfold Both.stepPhone at htaken
      split at htaken <;> cases htaken
      exact .inl rfl
  | handshake p nodeId addrHints sas => exact .inr ⟨p, nodeId, addrHints, sas, rfl⟩
  | send p deviceName fails =>
      dsimp only [Both.step] at hstep
      split at hstep
      · cases hstep
      · split at hstep <;> cases hstep
        exact .inl rfl
  | arrive n =>
      dsimp only [Both.step] at hstep
      split at hstep
      · cases hstep
      · split at hstep <;> cases hstep
        exact .inl rfl
  | saveFails p =>
      dsimp only [Both.step] at hstep
      split at hstep <;> cases hstep
      exact .inl rfl
  | touchFails p =>
      dsimp only [Both.step] at hstep
      split at hstep <;> cases hstep
      exact .inl rfl
  | loop e =>
      dsimp only [Both.step] at hstep
      split at hstep
      · cases hstep
      · split_ifs at hstep
        obtain ⟨taken, htaken, heq⟩ := Option.map_eq_some_iff.mp hstep
        cases heq
        exact .inl (hloop htaken)
      · obtain ⟨taken, htaken, heq⟩ := Option.map_eq_some_iff.mp hstep
        cases heq
        exact .inl (hloop htaken)
  | accept peer sas keysMatch =>
      obtain ⟨taken, htaken, heq⟩ := Option.map_eq_some_iff.mp hstep
      cases heq
      exact .inl (hloop htaken)
  | acceptPhone n sas =>
      dsimp only [Both.step] at hstep
      split_ifs at hstep
      obtain ⟨taken, htaken, heq⟩ := Option.map_eq_some_iff.mp hstep
      cases heq
      exact .inl (hloop htaken)
  | serve wallMs storeFails sendFails =>
      dsimp only [Both.step] at hstep
      split at hstep
      · cases hstep
      · split at hstep
        · cases hstep
        · obtain ⟨taken, htaken, heq⟩ := Option.map_eq_some_iff.mp hstep
          cases heq
          exact .inl (hloop htaken)

/-- Connections are numbered as they come, and only a task that pairs uses the
connection of a pairing. -/
structure Separate (shown : Nat → Option Sas) (phone : Inner) : Prop where
  numbered : ∀ n, shown n ≠ none → n < phone.established
  live : ∀ n, phone.live = some n → n < phone.established ∧ shown n = none
  uses : ∀ q n, (phone.task q).uses = some n → n < phone.established ∧ shown n = none

theorem Separate.step {shown : Nat → Option Sas} {phone phone' : Inner} {e : Inner.Event}
    (h : Separate shown phone) (hstep : phone.step e = some (phone', out)) :
    Separate shown phone' := by
  have hmore := Inner.established_step hstep
  refine ⟨fun n hn => (h.numbered n hn).trans_le hmore, fun n hn => ?_, fun q n hn => ?_⟩
  · obtain ⟨-, hsame | ⟨hnone, -⟩ | ⟨hnew, hnext, -⟩⟩ := Inner.live_step hstep
    · obtain ⟨hlt, hshown⟩ := h.live n (hsame.symm.trans hn)
      exact ⟨hlt.trans_le hmore, hshown⟩
    · rw [hnone] at hn
      cases hn
    · rw [hnew] at hn
      cases hn
      refine ⟨hnext, ?_⟩
      by_contra hshown
      exact absurd (h.numbered _ hshown) (by omega)
  · rcases Inner.uses_step hstep hn with hbefore | hlive
    · obtain ⟨hlt, hshown⟩ := h.uses q n hbefore
      exact ⟨hlt.trans_le hmore, hshown⟩
    · obtain ⟨hlt, hshown⟩ := h.live n hlive
      exact ⟨hlt.trans_le hmore, hshown⟩

/-- A handshake gets a connection of its own. -/
theorem Separate.handshake {p : Nat} {nodeId : PublicKey} {addrHints : List String} {sas : Sas}
    {shown : Nat → Option Sas} {phone phone' : Inner} (h : Separate shown phone)
    (hstep : phone.step (.scanned p daemonKey nodeId addrHints) = some (phone', out)) :
    Separate (Function.update shown phone.established (some sas)) phone' := by
  dsimp only [Inner.step] at hstep
  split at hstep
  · cases hstep
    have hother : ∀ {n : Nat}, n < phone.established ∧ shown n = none →
        n < phone.established + 1 ∧
          Function.update shown phone.established (some sas) n = none := by
      rintro n ⟨hlt, hshown⟩
      exact ⟨by omega, (Function.update_of_ne (by omega) ..).trans hshown⟩
    refine ⟨fun n hn => ?_, fun n hn => hother (h.live n hn), fun q n hn => ?_⟩
    · change n < phone.established + 1
      by_cases hnew : n = phone.established
      · omega
      · rw [Function.update_of_ne hnew] at hn
        have hold := h.numbered n hn
        omega
    · rw [Inner.goto_task] at hn
      split_ifs at hn
      · cases hn
      · exact hother (h.uses q n hn)
  · cases hstep

/-- In every run only a task that pairs uses the connection of a pairing. -/
theorem separate_run {stored : Option PairedDaemon} {now window : Nat} {devices : Devices}
    {w : World σ} {trace : List (Event × Noted)}
    (hrun : Run (Both.step services codec config phoneKey daemonKey) unguarded
      (Both.start stored now window devices w) trace s) : Separate s.shown s.phone := by
  induction hrun with
  | nil =>
      constructor
      · exact fun n hn => absurd rfl hn
      · exact fun n hn => nomatch hn
      · exact fun q n hn => nomatch hn
  | @snoc trace s t event noted _ _ taken ih =>
      rcases shown_step taken with hshown | ⟨p, nodeId, addrHints, sas, rfl⟩
      · rw [hshown]
        rcases phone_step taken with hsame | ⟨e, out, hphone, -⟩ | ⟨q, hidle, -⟩
        · rw [hsame]
          exact ih
        · exact ih.step hphone
        · rw [hidle]
          refine ⟨ih.numbered, ih.live, fun q' n hn => ?_⟩
          rw [Inner.goto_task] at hn
          split_ifs at hn
          · cases hn
          · exact ih.uses q' n hn
      · dsimp only [Both.step] at taken
        split at taken
        · cases taken
        · next phone out hphone =>
            cases taken
            exact ih.handshake hphone

/-- The state of both sides before a pairing is confirmed: the handshake is over, nothing
has been asked on its connection, and the daemon serves it and can record the phone. -/
structure Ready (a : Attempt) (config : Daemon) (phoneKey daemonKey : PublicKey) (s : Both σ) :
    Prop where
  idle : s.phone.task a.task = .idle
  pairing : s.phone.pairing = some (a.pairing daemonKey)
  fresh : s.phone.sessions a.session = .start
  shown : s.shown a.session = some a.sas
  serving : s.serving = some a.session
  phase : s.loop.phase = .serving ⟨.forPairing config phoneKey a.sas.digits, none⟩ true
  admits : s.loop.devices.Admits phoneKey
  asks : s.toDaemon a.session = []
  hears : s.toPhone a.session = []

theorem stands_of_ready (hseparate : Separate s.shown s.phone)
    (h : a.Ready config phoneKey daemonKey s) :
    a.Stands config phoneKey daemonKey .ready s where
  task := h.idle
  reserved := by
    have hshown : ¬ s.shown a.session = none := by
      rw [h.shown]
      exact Option.some_ne_none _
    exact ⟨hseparate.numbered _ hshown, fun hlive => hshown (hseparate.live _ hlive).2,
      fun q _ huses => hshown (hseparate.uses q _ huses).2⟩
  holds := ⟨h.fresh, h.pairing⟩
  shown := h.shown
  serving := h.serving
  serves := ⟨h.phase, h.admits⟩
  asks := h.asks
  hears := h.hears

/-- A phone that pairs by itself. -/
def sample : Attempt := ⟨1, 0, .replicate 9, [], phoneSas, "phone"⟩

/-- What leads to its confirmation. -/
def sampleBefore : List Event :=
  [.acceptPhone 0 phoneSas, .phone (.startPairing 0), .handshake 0 (.replicate 9) [] phoneSas]

/-- Its steps, while another task looks for a connection. -/
def sampleSteps : List Event :=
  [.phone (.startConfirm 1), .phone (.startCall 2 .call), .phone (.session 0 (.register 0)),
    .send 1 "phone" false, .loop (.tick 20), .serve 5 false false, .arrive 0,
    .phone (.session 0 .hand), .phone (.look 2), .phone (.session 0 (.wake 0 true)),
    .phone (.registered 1 "me"), .phone (.session 0 (.register 1)), .send 1 "phone" false,
    .serve 6 false false, .arrive 0, .phone (.session 0 .hand), .phone (.session 0 (.wake 1 true)),
    .phone (.named 1 "desk" 7), .phone (.save 1), .phone (.cache 1), .phone (.confirm 1)]

theorem sampleBefore_runs : (exec (Both.step Router.bareServices phoneCodec Router.sampleDaemon
    (.replicate 1) (.replicate 9)) unguarded sampleBefore [] (Both.start none 0 10 .empty
      ⟨(), []⟩)).isSome = true := by
  decide +kernel

/-- Both sides before it. -/
def sampleReady : List (Event × Noted) × Both Unit := Option.get _ sampleBefore_runs

end Attempt

end Agreement
