import GoNomad.Agreement.Rungs

/-!
# The next step of a pairing

What is due in a pairing is possible, and takes it one step further.

* `advance_session`, `advance_send`, `advance_serve`, `advance_arrive` — a request and
  its reply;
* `advance_own` — what the task does between them;
* `advance` — **every step that is due**.
-/

namespace Agreement

open Proto Store Server Transition
open Core (Sas)
open Client (Inner Leg PairedDaemon)

namespace Attempt

variable {σ : Type} {services : Services σ} {codec : Codec} {config : Daemon}
  {phoneKey daemonKey : PublicKey} {a : Attempt} {rung : Rung} {question : Question}
  {s t : Both σ} {event : Event} {noted : Noted} {phone : Inner} {out : Option Client.Returned}

/-! ### What is due is possible -/

/-- The pairing goes on from one rung to the next. -/
def Advances (a : Attempt) (services : Services σ) (codec : Codec) (config : Daemon)
    (phoneKey daemonKey : PublicKey) (s : Both σ) (event : Event) (rung : Rung) : Prop :=
  ∃ t noted, s.step services codec config phoneKey daemonKey event = some (t, noted) ∧
    a.Stands config phoneKey daemonKey rung t

theorem stepPhone_session {n : Nat} {e : Client.Session.Event} {session : Client.Session}
    {outcome : Option (Nat × Client.Outcome)} (hnumber : e ≠ .number) (hdrop : ∀ r, e ≠ .drop r)
    (hstep : (s.phone.sessions n).step e = some (session, outcome)) :
    s.stepPhone (.session n e) =
      some ({ s with phone := s.phone.setSession n session }, .nothing) := by
  unfold Both.stepPhone
  rw [Inner.step_session hnumber hdrop hstep]
  dsimp only
  rw [registeredOn_session]

theorem setSession_self (phone : Inner) (n : Nat) (session : Client.Session) :
    (phone.setSession n session).sessions n = session := Function.update_self ..

/-- A step of the connection that is no message. -/
theorem advance_session {leg leg' : Leg} {e : Client.Session.Event}
    {outcome : Option (Nat × Client.Outcome)}
    (h : a.Stands config phoneKey daemonKey (.asking question leg) s) (he : e.answers = true)
    (hstep : (question.session leg).step e = some (question.session leg', outcome))
    (hreply : leg'.reply = leg.reply)
    (hasks : a.asks (.asking question leg') = a.asks (.asking question leg))
    (hhears : (Rung.asking question leg').hears = (Rung.asking question leg).hears) :
    a.Advances services codec config phoneKey daemonKey s (.phone (.session a.session e))
      (.asking question leg') := by
  have hrecorded : (Rung.asking question leg').recorded = (Rung.asking question leg).recorded := by
    cases question with
    | register => exact congrArg Option.isSome hreply
    | name device result => rfl
  have hfits : question.Fits leg' := by
    cases question with
    | register =>
        intro reply hleg
        exact h.holds.2 reply (hreply.symm.trans hleg)
    | name device result => trivial
  have hsession := h.holds.1
  rw [← hsession] at hstep
  have htaken : s.step services codec config phoneKey daemonKey
      (.phone (.session a.session e)) = s.stepPhone (.session a.session e) := by
    cases e with
    | sent r => cases he
    | receive message => cases he
    | _ => rfl
  refine ⟨_, _, htaken.trans (stepPhone_session (by rintro rfl; cases he)
    (by rintro r rfl; cases he) hstep), ?_⟩
  exact {
    task := by
      cases question <;> exact h.task
    reserved := h.reserved.own rfl rfl fun _ _ => rfl
    holds := ⟨setSession_self .., hfits⟩
    shown := h.shown
    serving := h.serving
    serves := hrecorded ▸ h.serves
    asks := hasks ▸ h.asks
    hears := hhears ▸ h.hears }

theorem advance_send (h : a.Stands config phoneKey daemonKey (.asking question .sending) s) :
    a.Advances services codec config phoneKey daemonKey s (.send a.task a.deviceName false)
      (.asking question .asked) := by
  have hstep : (s.phone.sessions a.session).step (.sent question.number) =
      some (question.session .asked, none) := by
    rw [h.holds.1]
    exact Leg.step_sent
  have hid : ((s.phone.sessions a.session).call question.number).id = question.id := by
    rw [h.holds.1]
    exact congrArg Client.Call.id Client.Session.asking_call
  have hrequest : (⟨question.id, (a.request question).method, (a.request question).params⟩ :
      Request) = a.request question := by
    cases question <;> rfl
  have hphone := Inner.step_session (s := s.phone) (by simp) (by simp) hstep
  have htaken : s.step services codec config phoneKey daemonKey (.send a.task a.deviceName false) =
      some ({ s with
        phone := s.phone.setSession a.session (question.session .asked)
        toDaemon := Function.update s.toDaemon a.session
          (s.toDaemon a.session ++ [a.request question]) }, .nothing) := by
    dsimp only [Both.step]
    rw [h.task, requestOf_asking h.shown]
    dsimp only
    rw [if_neg (by simp), hphone]
    dsimp only
    rw [hid, hrequest]
  refine ⟨_, _, htaken, ?_⟩
  exact {
    task := by
      cases question <;> exact h.task
    reserved := h.reserved.own rfl rfl fun _ _ => rfl
    holds := ⟨setSession_self .., by cases question <;> exact h.holds.2⟩
    shown := h.shown
    serving := h.serving
    serves := by
      cases question <;> exact h.serves
    asks := by
      dsimp only
      rw [Function.update_self, h.asks]
      rfl
    hears := h.hears }

/-- **The daemon answers**: it records the phone first. -/
theorem advance_serve (hencode : Router.EncodesRegistration codec) (hreads : a.Reads codec)
    (h : a.Stands config phoneKey daemonKey (.asking question .asked) s) (wallMs : Int) :
    ∃ reply, a.Advances services codec config phoneKey daemonKey s (.serve wallMs false false)
      (.asking question (.answered reply)) := by
  have hserves := h.serves
  have htaken : ∀ {session : Server.Session}, s.loop.phase = .serving session true →
      s.step services codec config phoneKey daemonKey (.serve wallMs false false) =
        some ({ s with
          loop := (s.loop.receive services codec session (.request (a.request question)) wallMs
            false false).1
          toDaemon := Function.update s.toDaemon a.session []
          toPhone := Function.update s.toPhone a.session (s.toPhone a.session ++
            (answerOf (a.request question) (s.loop.receive services codec session
              (.request (a.request question)) wallMs false false).2).toList.map Prod.snd) },
          ⟨committedIn (s.loop.receive services codec session (.request (a.request question)) wallMs
            false false).1.devices (s.loop.receive services codec session
              (.request (a.request question)) wallMs false false).2,
            answerOf (a.request question) (s.loop.receive services codec session
              (.request (a.request question)) wallMs false false).2⟩) := by
    intro session hphase
    have hasks := h.asks
    have hserving := h.serving
    obtain ⟨phone, loop, serving, shown, expected, toDaemon, toPhone, origin⟩ := s
    cases hserving
    dsimp only at hasks hphase
    dsimp only [Both.step]
    rw [hasks]
    dsimp only [asks, Both.stepLoop, PairingLoop.step]
    rw [hphase]
    rfl
  -- What was answered is on the way to the phone.
  have hhears : ∀ {seen : Seen} {response : Response}, seen.sent = some (.response response) →
      s.toPhone a.session ++ (answerOf (a.request question) seen).toList.map Prod.snd =
        [response] := by
    intro seen response hsent
    unfold answerOf
    rw [hsent, h.hears]
    rfl
  cases question with
  | register =>
      obtain ⟨hphase, hadmits⟩ := hserves
      obtain ⟨db, result, hloop, hsent, hactive⟩ := @PairingLoop.receive_admitted σ services codec
        config phoneKey a.sas.digits (a.request .register) a.params s.loop wallMs hencode rfl hreads
        (asciiDigits_digits a.sas) hadmits
      refine ⟨.ok result, _, _, htaken hphase, ?_⟩
      exact {
        task := h.task
        reserved := h.reserved
        holds := ⟨h.holds.1, fun reply hreply => ⟨result, by cases hreply; rfl⟩⟩
        shown := h.shown
        serving := h.serving
        serves := by
          dsimp only
          rw [hloop]
          exact ⟨rfl, hactive⟩
        asks := Function.update_self ..
        hears := by
          dsimp only
          rw [Function.update_self, hhears hsent]
          rfl }
  | name device result =>
      obtain ⟨hphase, hactive⟩ := hserves
      obtain ⟨world, reply, hloop, hsent⟩ := @PairingLoop.receive_answers σ services codec s.loop
        wallMs ⟨.paired config phoneKey, some (a.device phoneKey)⟩ rfl
        (a.request (.name device result))
      refine ⟨reply, _, _, htaken hphase, ?_⟩
      exact {
        task := h.task
        reserved := h.reserved
        holds := ⟨h.holds.1, trivial⟩
        shown := h.shown
        serving := h.serving
        serves := by
          dsimp only
          rw [hloop]
          exact ⟨rfl, hactive⟩
        asks := Function.update_self ..
        hears := by
          dsimp only
          rw [Function.update_self, hhears hsent]
          cases reply <;> rfl }

theorem advance_arrive {reply : Client.Reply}
    (h : a.Stands config phoneKey daemonKey (.asking question (.answered reply)) s) :
    a.Advances services codec config phoneKey daemonKey s (.arrive a.session)
      (.asking question (.holding reply)) := by
  obtain ⟨response, hhears, hid, hbody⟩ : ∃ response, s.toPhone a.session = [response] ∧
      response.correlationId = question.id ∧ Client.replyOf response.body = some reply := by
    rw [h.hears]
    cases reply <;> exact ⟨_, rfl, rfl, rfl⟩
  have hstep : (s.phone.sessions a.session).step (.receive (some (.response response))) =
      some (question.session (.holding reply), none) := by
    rw [h.holds.1]
    exact Leg.step_receive hid hbody
  have hphone := Inner.step_session (s := s.phone) (by simp) (by simp) hstep
  have htaken : s.step services codec config phoneKey daemonKey (.arrive a.session) =
      some ({ s with
        phone := s.phone.setSession a.session (question.session (.holding reply))
        toPhone := Function.update s.toPhone a.session [] }, .nothing) := by
    dsimp only [Both.step]
    rw [hhears]
    dsimp only
    rw [hphone]
  refine ⟨_, _, htaken, ?_⟩
  exact {
    task := by
      cases question <;> exact h.task
    reserved := h.reserved.own rfl rfl fun _ _ => rfl
    holds := ⟨setSession_self .., by cases question <;> exact h.holds.2⟩
    shown := h.shown
    serving := h.serving
    serves := by
      cases question <;> exact h.serves
    asks := h.asks
    hears := Function.update_self .. }

/-- A step of the task that confirms, which leaves the daemon alone. -/
theorem advance_own {rung' : Rung} {e : Inner.Event}
    (h : a.Stands config phoneKey daemonKey rung s)
    (hsame : s.step services codec config phoneKey daemonKey (.phone e) = s.stepPhone e)
    (hstep : s.phone.step e = some (phone, out))
    (htask : phone.task a.task = a.taskAt daemonKey rung')
    (hestablished : phone.established = s.phone.established) (hlive : phone.live = s.phone.live)
    (hothers : ∀ q ≠ a.task, phone.task q = s.phone.task q) (hholds : a.Holds daemonKey phone rung')
    (hrecorded : rung'.recorded = rung.recorded) (hasks : a.asks rung' = a.asks rung)
    (hhears : rung'.hears = rung.hears) :
    a.Advances services codec config phoneKey daemonKey s (.phone e) rung' := by
  have htaken : s.stepPhone e =
      some ({ s with phone, origin := registeredOn s.phone s.origin e }, .nothing) := by
    unfold Both.stepPhone
    rw [hstep]
  refine ⟨_, _, hsame.trans htaken, ?_⟩
  exact {
    task := htask
    reserved := h.reserved.own hestablished hlive hothers
    holds := hholds
    shown := h.shown
    serving := h.serving
    serves := hrecorded ▸ h.serves
    asks := hasks ▸ h.asks
    hears := hhears ▸ h.hears }

theorem issue_eq {n : Nat} {session : Client.Session} {outcome : Option (Nat × Client.Outcome)}
    (h : (phone.sessions n).step .number = some (session, outcome)) :
    phone.issue n = phone.setSession n session := by
  unfold Inner.issue
  rw [h]

theorem goto_others {p q : Nat} {task : Client.Task} (h : q ≠ p) :
    (phone.goto p task).task q = phone.task q := Function.update_of_ne h ..

theorem advance_start (h : a.Stands config phoneKey daemonKey .ready s) :
    a.Advances services codec config phoneKey daemonKey s (.phone (.startConfirm a.task))
      (.asking .register .numbered) := by
  obtain ⟨hsession, hpairing⟩ := h.holds
  have hissue : s.phone.issue a.session =
      s.phone.setSession a.session (Question.register.session .numbered) :=
    issue_eq (by rw [hsession]; rfl)
  have hidle : (s.phone.issue a.session).task a.task = .idle := by
    rw [Inner.issue_task]
    exact h.task
  have hstep : ∃ phone, s.phone.step (.startConfirm a.task) = some (phone, none) ∧
      phone = { (s.phone.setSession a.session (Question.register.session .numbered)).goto a.task
        (.registering (a.pairing daemonKey) 0) with
          aborted := Function.update s.phone.aborted a.task false } := by
    refine ⟨_, ?_, rfl⟩
    dsimp only [Inner.step]
    rw [hpairing]
    dsimp only [pairing]
    unfold Inner.begin
    rw [if_pos hidle, hsession, hissue]
    rfl
  obtain ⟨phone, hstep, rfl⟩ := hstep
  exact advance_own h rfl hstep (Function.update_self ..) rfl rfl (fun q hq => goto_others hq)
    ⟨setSession_self .., fun reply hreply => by cases hreply⟩ rfl rfl rfl

theorem advance_registered {reply : Client.Reply} (device : String)
    (h : a.Stands config phoneKey daemonKey (.asking .register (.returned reply)) s) :
    ∃ result, a.Advances services codec config phoneKey daemonKey s
      (.phone (.registered a.task device)) (.asking (.name device result) .numbered) := by
  obtain ⟨hsession, hfits⟩ := h.holds
  obtain ⟨result, rfl⟩ := hfits reply rfl
  have hissue : s.phone.issue a.session =
      s.phone.setSession a.session ((Question.name device result).session .numbered) :=
    issue_eq (by rw [hsession]; rfl)
  have hstage : ((s.phone.sessions a.session).call 0).stage = .returned (.ok result) := by
    rw [hsession]
    exact Leg.session_call _
  have htask := h.task
  have hstep : s.phone.step (.registered a.task device) =
      some ((s.phone.setSession a.session ((Question.name device result).session .numbered)).goto
        a.task (.naming (a.pairing daemonKey) device 1), none) := by
    dsimp only [Inner.step]
    rw [htask]
    dsimp only [taskAt, pairing]
    rw [hstage]
    dsimp only
    rw [hissue, hsession]
    rfl
  exact ⟨result, advance_own h rfl hstep (Function.update_self ..) rfl rfl
    (fun q hq => goto_others hq) ⟨setSession_self .., trivial⟩ rfl rfl rfl⟩

theorem advance_named {device : String} {result : List UInt8} {reply : Client.Reply}
    (hostName : String) (now : Int)
    (h : a.Stands config phoneKey daemonKey (.asking (.name device result) (.returned reply)) s) :
    a.Advances services codec config phoneKey daemonKey s (.phone (.named a.task hostName now))
      (.saving (Inner.record (a.pairing daemonKey) device
        (Inner.nameOf reply.outcome hostName a.addrHints) now)) := by
  obtain ⟨hsession, -⟩ := h.holds
  have hstage : ((s.phone.sessions a.session).call 1).stage = .returned reply.outcome := by
    rw [hsession]
    exact Leg.session_call _
  have htask := h.task
  have hstep : s.phone.step (.named a.task hostName now) =
      some (s.phone.goto a.task (.saving (Inner.record (a.pairing daemonKey) device
        (Inner.nameOf reply.outcome hostName a.addrHints) now)), none) := by
    dsimp only [Inner.step]
    rw [htask]
    dsimp only [taskAt, pairing]
    rw [hstage]
  exact advance_own h rfl hstep (Function.update_self ..) rfl rfl (fun q hq => goto_others hq)
    ⟨⟨device, result, reply, hsession⟩, rfl, rfl, rfl⟩ rfl rfl rfl

theorem advance_save {daemon : PairedDaemon}
    (h : a.Stands config phoneKey daemonKey (.saving daemon) s) :
    a.Advances services codec config phoneKey daemonKey s (.phone (.save a.task))
      (.caching daemon) := by
  obtain ⟨hended, hrecords⟩ := h.holds
  have htask := h.task
  have hstep : s.phone.step (.save a.task) =
      some (({ s.phone with stored := some daemon } : Inner).goto a.task (.caching daemon),
        none) := by
    dsimp only [Inner.step]
    rw [htask]
    rfl
  exact advance_own h rfl hstep (Function.update_self ..) rfl rfl (fun q hq => goto_others hq)
    ⟨hended, hrecords, rfl⟩ rfl rfl rfl

theorem advance_cache {daemon : PairedDaemon}
    (h : a.Stands config phoneKey daemonKey (.caching daemon) s) :
    a.Advances services codec config phoneKey daemonKey s (.phone (.cache a.task))
      (.confirmed daemon) := by
  obtain ⟨hended, hrecords, hstored⟩ := h.holds
  have htask := h.task
  have hstep : s.phone.step (.cache a.task) =
      some (({ s.phone with daemon := some daemon } : Inner).goto a.task (.confirmed daemon),
        none) := by
    dsimp only [Inner.step]
    rw [htask]
    rfl
  exact advance_own h rfl hstep (Function.update_self ..) rfl rfl (fun q hq => goto_others hq)
    ⟨hended, hrecords, hstored, rfl⟩ rfl rfl rfl

theorem advance_confirm {daemon : PairedDaemon}
    (h : a.Stands config phoneKey daemonKey (.confirmed daemon) s) :
    a.Advances services codec config phoneKey daemonKey s (.phone (.confirm a.task))
      (.paired daemon) := by
  obtain ⟨hended, hrecords, hstored, hdaemon⟩ := h.holds
  have htask := h.task
  have hstep : s.phone.step (.confirm a.task) =
      some (s.phone.cancelPairing.goto a.task .idle, some (.confirmed daemon)) := by
    dsimp only [Inner.step]
    rw [htask]
    rfl
  exact advance_own h rfl hstep (Function.update_self ..) rfl rfl (fun q hq => goto_others hq)
    ⟨hended, hrecords, hstored, hdaemon, rfl⟩ rfl rfl rfl

/-- **What is due is possible**, and takes the pairing one step further. -/
theorem advance (hencode : Router.EncodesRegistration codec) (hreads : a.Reads codec)
    (h : a.Stands config phoneKey daemonKey rung s) (hdue : a.Due rung event) :
    ∃ rung', a.Advances services codec config phoneKey daemonKey s event rung' ∧
      rung'.left + 1 = rung.left := by
  cases hdue with
  | start => exact ⟨_, advance_start h, rfl⟩
  | register question =>
      exact ⟨.asking question .sending, advance_session h rfl Leg.step_register rfl rfl rfl,
        by cases question <;> rfl⟩
  | send question => exact ⟨_, advance_send h, by cases question <;> rfl⟩
  | serve question wallMs =>
      obtain ⟨reply, hadvances⟩ := advance_serve hencode hreads h wallMs
      exact ⟨_, hadvances, by cases question <;> rfl⟩
  | arrive question reply => exact ⟨_, advance_arrive h, by cases question <;> rfl⟩
  | hand question reply =>
      exact ⟨.asking question (.told reply), advance_session h rfl Leg.step_hand rfl rfl rfl,
        by cases question <;> rfl⟩
  | wake question reply =>
      exact ⟨.asking question (.returned reply), advance_session h rfl Leg.step_wake rfl rfl rfl,
        by cases question <;> rfl⟩
  | registered reply device =>
      obtain ⟨result, hadvances⟩ := advance_registered device h
      exact ⟨_, hadvances, rfl⟩
  | named device result reply hostName now => exact ⟨_, advance_named hostName now h, rfl⟩
  | save daemon => exact ⟨_, advance_save h, rfl⟩
  | cache daemon => exact ⟨_, advance_cache h, rfl⟩
  | confirm daemon => exact ⟨_, advance_confirm h, rfl⟩

end Attempt

end Agreement
