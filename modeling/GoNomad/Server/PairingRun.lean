import GoNomad.Core.PairingWindow
import GoNomad.Lib.Fallible
import GoNomad.Server.Pairing
import GoNomad.Server.PairingInert

/-!
# What a pairing window promises

A device is recorded by a registration that a pairing connection confirms, and by
nothing else.  The loop looks at the deadline between connections only, does not
count the attempts that fail, and forgets a registration whose connection fails:
what the window promises holds where these make no difference.

* `registered_of_handle` — what a registration says about the request;
* `persisted_of_step` — what recording a device says about the step;
* `window_closes`, `registered_late` — recording in time;
* `attempts_bounded`, `registered_after_failures` — recording after failures;
* `paired_once`, `paired_twice` — recording once.
-/

namespace Server

open Core Proto Policy Store Transition

variable {σ : Type} {services : Services σ} {codec : Codec} {daemon : Daemon}

/-! ### One request -/

namespace Router

/-- Registration goes through on a pairing router that is shown its digits. -/
theorem registered_of_sysRegister {r r' : Router} {request : Request} {result : List UInt8}
    {effect : Effect} (h : r.sysRegister codec request = (.ok (result, effect), r')) :
    ∃ sas params, r.state = .pairing sas ∧ codec.register request.params = some params ∧
      asciiDigits params.sas = sas ∧
      effect = .registered r.peerKey params.deviceName params.deviceModel ∧
      r'.state = .established := by
  unfold sysRegister Codec.decode Codec.encode at h
  cases hparams : codec.register request.params with
  | none => simp [hparams] at h
  | some params =>
      cases hstate : r.state with
      | established => simp [hparams, hstate] at h
      | pairing sas =>
          simp only [hparams, hstate] at h
          split_ifs at h with hdigits
          · cases h
          · refine ⟨sas, params, rfl, rfl, not_not.mp hdigits, ?_⟩
            split at h
            · cases h
            · next hresult =>
                cases h
                exact ⟨rfl, rfl⟩

/-- **A request that registers a device** is a registration with the right digits,
on a connection that was pairing and is no more. -/
theorem registered_of_handle {r r' : Router} {request : Request} {w w' : World σ}
    {response : Response} {key : PublicKey} {name : String} {model : Option String}
    (h : r.handle services codec request w = ((response, .registered key name model), r', w')) :
    key = r.peerKey ∧ r'.state = .established ∧ r.confirmedBy codec (.request request) = true := by
  unfold handle dispatch at h
  split_ifs at h with hknown hother hestablished hregister
  · cases h
  · cases h
  · rcases hsys : r.sysRegister codec request with ⟨result, next⟩
    rw [hsys] at h
    cases result with
    | error error => cases h
    | ok answer =>
        obtain ⟨bytes, effect⟩ := answer
        obtain ⟨sas, params, hstate, hparams, hdigits, heffect, hnext⟩ :=
          registered_of_sysRegister hsys
        obtain ⟨⟨-, rfl⟩, rfl, -⟩ := by simpa using h
        obtain ⟨rfl, -, -⟩ := Effect.registered.inj heffect
        exact ⟨rfl, hnext, by simp [confirmedBy, asked, hregister, hstate, hparams, hdigits]⟩
  · rcases hserve : r.serve services codec request w with ⟨result, next⟩
    rw [hserve] at h
    cases result <;> cases h
  · cases h

/-- An established router stays as it is and registers nobody. -/
theorem handle_established {r : Router} (hstate : r.state = .established) (request : Request)
    (w : World σ) :
    ∃ response w', r.handle services codec request w = ((response, .none), r, w') := by
  rcases hstep : r.handle services codec request w with ⟨⟨response, effect⟩, r', w'⟩
  obtain ⟨rfl, rfl⟩ := @effect_of_established σ services codec r hstate w request (r', w')
    (response, effect) (by simp [step, hstep])
  exact ⟨response, w', rfl⟩

end Router

/-! ### One message -/

/-- What recording a device on a connection says. -/
theorem recorded_of_serveMessage {δ : Type}
    {onRegister : PublicKey → String → Option String → δ → Except StoreError δ}
    {session : Session} {w : World σ} {store : δ} {message : ControlMessage} {device : PairedDevice}
    (h : (serveMessage services codec onRegister session w store message).recorded = some device) :
    session.router.confirmedBy codec message = true ∧ device.key = session.router.peerKey ∧
      ∃ model store', onRegister device.key device.name model store = .ok store' := by
  cases message with
  | request request =>
      simp only [serveMessage] at h
      split at h
      · cases h
      · next response key name model r' w' hhandle =>
          obtain ⟨hkey, -, hconfirmed⟩ := Router.registered_of_handle hhandle
          split at h
          · cases h
          · next store' hstore =>
              cases h
              exact ⟨hconfirmed, hkey, model, store', hstore⟩
  | _ => cases h

namespace Session

/-- A connection on which a device was registered: it serves that device. -/
def Settled (session : Session) : Prop :=
  session.registered.isSome = true ∧ session.router.state = .established

variable {δ : Type} {onRegister : PublicKey → String → Option String → δ → Except StoreError δ}
  {session : Session} {w : World σ} {store : δ} {message : ControlMessage}

/-- Nobody else registers on it, and it goes on. -/
theorem Settled.serveMessage (h : session.Settled) :
    let turn := Server.serveMessage services codec onRegister session w store message
    turn.session.Settled ∧ turn.recorded = none ∧ ∀ error, turn.outcome ≠ .error error := by
  cases message with
  | request request =>
      obtain ⟨response, w', hhandle⟩ :=
        @Router.handle_established σ services codec session.router h.2 request w
      simp only [Server.serveMessage, hhandle]
      exact ⟨h, trivial, fun error => nofun⟩
  | _ => exact ⟨h, rfl, fun error => nofun⟩

/-- The connection on which a device is recorded serves it from there on. -/
theorem settled_of_recorded
    (h : (Server.serveMessage services codec onRegister session w store message).recorded ≠ none) :
    let turn := Server.serveMessage services codec onRegister session w store message
    turn.session.Settled ∧ ∀ error, turn.outcome ≠ .error error := by
  cases message with
  | request request =>
      simp only [Server.serveMessage] at h ⊢
      split at h
      · exact absurd rfl h
      · next response key name model r' w' hhandle =>
          obtain ⟨-, hestablished, -⟩ := Router.registered_of_handle hhandle
          split at h
          · exact absurd rfl h
          · exact ⟨⟨rfl, hestablished⟩, fun error => nofun⟩
  | _ => exact absurd rfl h

end Session

/-! ### One step of the loop -/

namespace PairingLoop

variable {s s' : PairingLoop σ} {e : PairingEvent} {seen : Seen}

/-- The trace of a pairing window. -/
abbrev Trace := List (PairingEvent × Seen)

/-- A registration with the right digits, from a device that is not in the table. -/
def confirms (codec : Codec) (s : PairingLoop σ) : PairingEvent → Bool
  | .received (some message) _ _ _ =>
      match s.phase with
      | .serving session true =>
          session.router.confirmedBy codec message &&
            (s.devices.findByPublicKey session.router.peerKey).isNone
      | _ => false
  | _ => false

@[simp] theorem again_deadline : s.again.deadline = s.deadline := rfl

/-- What a message does to the clock, the deadline and the phase. -/
theorem receive_cases (session : Session) (message : ControlMessage) (wallMs : Int)
    (storeFails sendFails : Bool) :
    let turn :=
      serveMessage services codec (persist wallMs storeFails) session s.world s.devices message
    let s' : PairingLoop σ :=
      { s with devices := turn.store, world := turn.world, phase := .serving turn.session true }
    let received := s.receive services codec session message wallMs storeFails sendFails
    received.2.persisted = turn.recorded.map (fun device => (device, s.now)) ∧
      received.2.failed = session.router.mismatchedBy codec message ∧
      (received.1 = s' ∨
        received.1 = s'.again ∧ (sendFails = true ∨ turn.recorded = none)) := by
  dsimp only
  unfold receive
  dsimp only
  split
  · next error houtcome =>
      refine ⟨rfl, rfl, .inr ⟨rfl, .inr ?_⟩⟩
      cases message with
      | request request =>
          simp only [serveMessage] at houtcome ⊢
          split at houtcome
          · cases houtcome
          · split at houtcome
            · rfl
            · cases houtcome
      | _ => rfl
  · exact ⟨rfl, rfl, .inl rfl⟩
  · split_ifs with hsend
    · exact ⟨rfl, rfl, .inr ⟨rfl, .inl hsend⟩⟩
    · exact ⟨rfl, rfl, .inl rfl⟩

/-- Only a message changes what is recorded. -/
theorem received_of_persisted (hstep : s.step services codec daemon e = some (s', seen))
    (hpersisted : seen.persisted ≠ none) :
    ∃ session message wallMs storeFails sendFails,
      e = .received (some message) wallMs storeFails sendFails ∧ s.phase = .serving session true ∧
        s.receive services codec session message wallMs storeFails sendFails = (s', seen) := by
  cases e with
  | received message wallMs storeFails sendFails =>
      dsimp only [step] at hstep
      split at hstep
      · next session hphase =>
          cases message with
          | none =>
              cases hstep
              exact absurd rfl hpersisted
          | some message =>
              exact ⟨session, message, wallMs, storeFails, sendFails, rfl, hphase,
                Option.some.inj hstep⟩
      · cases hstep
  | tick elapsed =>
      cases hstep
      exact absurd rfl hpersisted
  | timeout =>
      dsimp only [step] at hstep
      split at hstep
      · split_ifs at hstep
        cases hstep
        exact absurd rfl hpersisted
      · cases hstep
  | closed =>
      dsimp only [step] at hstep
      split at hstep
      · split at hstep <;> cases hstep <;> exact absurd rfl hpersisted
      · cases hstep
  | _ =>
      dsimp only [step] at hstep
      split at hstep <;> cases hstep
      exact absurd rfl hpersisted

/-- A database takes a device that it does not know yet. -/
theorem fresh_of_persist {wallMs : Int} {storeFails : Bool} {key : PublicKey} {name : String}
    {model : Option String} {devices devices' : Devices}
    (h : persist wallMs storeFails key name model devices = .ok devices') :
    devices.findByPublicKey key = none := by
  unfold persist at h
  split_ifs at h
  obtain ⟨⟨db, device⟩, hpair, -⟩ := Except.map_eq_ok.mp h
  unfold Devices.pair at hpair
  split at hpair
  · cases hpair
  · assumption

/-- **What recording a device says about the step**: it is a confirmed
registration, and it is recorded at once. -/
theorem persisted_of_step (hstep : s.step services codec daemon e = some (s', seen))
    {device : PairedDevice} {t : Nat} (hpersisted : seen.persisted = some (device, t)) :
    s.confirms codec e = true ∧ t = s.now := by
  obtain ⟨session, message, wallMs, storeFails, sendFails, rfl, hphase, hreceive⟩ :=
    received_of_persisted hstep (by rw [hpersisted]; exact Option.some_ne_none _)
  obtain ⟨hrecorded, -, -⟩ := @receive_cases σ services codec s session message wallMs storeFails
    sendFails
  rw [hreceive] at hrecorded
  obtain ⟨recorded, hdevice, hpair⟩ := Option.map_eq_some_iff.mp (hrecorded.symm.trans hpersisted)
  obtain ⟨rfl, rfl⟩ := Prod.mk.inj hpair
  obtain ⟨hconfirmed, hkey, model, store', hstore⟩ := recorded_of_serveMessage hdevice
  refine ⟨?_, rfl⟩
  have hfresh := fresh_of_persist hstore
  rw [hkey] at hfresh
  simp [confirms, hphase, hconfirmed, hfresh]

/-- The deadline is that of the start. -/
theorem deadline_of_step (hstep : s.step services codec daemon e = some (s', seen)) :
    s'.deadline = s.deadline := by
  cases e with
  | received message wallMs storeFails sendFails =>
      dsimp only [step] at hstep
      split at hstep
      · next session hphase =>
          cases message with
          | none =>
              cases hstep
              rfl
          | some message =>
              obtain ⟨-, -, hnext⟩ := @receive_cases σ services codec s session message wallMs
                storeFails sendFails
              rw [Option.some.inj hstep] at hnext
              rcases hnext with rfl | ⟨rfl, -⟩ <;> rfl
      · cases hstep
  | tick elapsed =>
      cases hstep
      rfl
  | timeout =>
      dsimp only [step] at hstep
      split at hstep
      · split_ifs at hstep
        cases hstep
        rfl
      · cases hstep
  | closed =>
      dsimp only [step] at hstep
      split at hstep
      · split at hstep <;> cases hstep <;> rfl
      · cases hstep
  | _ =>
      dsimp only [step] at hstep
      split at hstep <;> cases hstep
      rfl

/-! ### In time -/

/-- No registration is confirmed once the window has expired. -/
def inTime (codec : Codec) (_ : Trace) (s : PairingLoop σ) (e : PairingEvent) : Prop :=
  s.deadline < s.now → s.confirms codec e = false

instance (trace : Trace) (s : PairingLoop σ) (e : PairingEvent) :
    Decidable (inTime codec trace s e) :=
  inferInstanceAs (Decidable (_ → _))

/-- A phone that shows these digits asks to be registered. -/
def sampleRegister (sas : String) : PairingEvent :=
  .received (some (.request ⟨1, Method.sysRegister, MethodCbor.registerParams
    (Router.sampleParams sas)⟩)) 0 false false

/-- A window of ten ticks over an empty table. -/
def sampleStart : PairingLoop Unit := start 0 10 .empty ⟨(), []⟩

/-- A phone connects, and registers after so much time. -/
def slowPhone (elapsed : Nat) : List PairingEvent :=
  [.accepted (.replicate 1) "123456" true, .tick elapsed, sampleRegister "123 456"]

/-- What is recorded, of a run. -/
def recordedIn (trace : Trace) : List (PairedDevice × Nat) :=
  trace.filterMap fun entry => entry.2.persisted

theorem mem_of_recordedIn {trace : Trace} {pair : PairedDevice × Nat}
    (h : pair ∈ recordedIn trace) : ∃ entry ∈ trace, entry.2.persisted = some pair :=
  List.mem_filterMap.mp h

/-- The attempts that have failed. -/
def failures (trace : Trace) : Nat := trace.countP fun entry => entry.2.failed

/-- No registration is confirmed once enough attempts have failed. -/
def withinAttempts (codec : Codec) (trace : Trace) (s : PairingLoop σ) (e : PairingEvent) : Prop :=
  MAX_PAIRING_ATTEMPTS ≤ failures trace → s.confirms codec e = false

instance (trace : Trace) (s : PairingLoop σ) (e : PairingEvent) :
    Decidable (withinAttempts codec trace s e) :=
  inferInstanceAs (Decidable (_ → _))

/-- What is recorded is recorded before enough attempts have failed. -/
def FewFailures (trace : Trace) : Prop :=
  ∀ before after entry, trace = before ++ entry :: after →
    MAX_PAIRING_ATTEMPTS ≤ failures before → entry.2.persisted = none

/-- **A secret survives few failures**, as long as nobody confirms a registration
after them; and a `PairingWindow` lets few attempts through at all. -/
theorem attempts_bounded {now window : Nat} {devices : Devices} {w : World σ} {trace : Trace}
    (hrun : Run (step services codec daemon) (withinAttempts codec) (start now window devices w)
      trace s) :
    FewFailures trace ∧
      ∀ openedAtMs calls counter, Run PairingWindow.step unguarded (PairingWindow.open openedAtMs)
        calls counter → PairingWindow.Bounded openedAtMs calls := by
  refine ⟨fun before after entry htrace hfailures => ?_, fun _ _ _ h =>
    PairingWindow.window_bounds h⟩
  subst htrace
  obtain ⟨t, t', -, hguard, htaken⟩ := hrun.split
  have hrefused := hguard hfailures
  cases hpersisted : entry.2.persisted with
  | none => rfl
  | some pair =>
      obtain ⟨device, t⟩ := pair
      obtain ⟨hconfirms, -⟩ := persisted_of_step htaken hpersisted
      rw [hconfirms] at hrefused
      cases hrefused

/-- Two wrong codes and the right one. -/
theorem attempts_bounded_sample :
    ∃ trace s, Run (step Router.bareServices Router.sampleCodec Router.sampleDaemon)
        (withinAttempts Router.sampleCodec) sampleStart trace s ∧
      failures trace = 2 ∧ recordedIn trace = [(⟨"phone", .replicate 1⟩, 0)] ∧
      FewFailures trace := by
  have hexec : ((exec (step Router.bareServices Router.sampleCodec Router.sampleDaemon)
      (withinAttempts Router.sampleCodec)
      [.accepted (.replicate 2) "" false, .broken, .accepted (.replicate 1) "123456" true,
        sampleRegister "654 321", sampleRegister "123 456"] [] sampleStart).map fun r =>
        (failures r.1, recordedIn r.1)) = some (2, [(⟨"phone", .replicate 1⟩, 0)]) := by
    decide +kernel
  obtain ⟨⟨trace, s⟩, hrun, hpair⟩ := Option.map_eq_some_iff.mp hexec
  obtain ⟨hfailures, hrecorded⟩ := Prod.mk.inj hpair
  exact ⟨trace, s, run_of_exec _ hrun, hfailures, hrecorded, (attempts_bounded (run_of_exec _ hrun)).1⟩

/-- **Nobody counts the failures**: after any number of wrong codes the right one
registers the device. -/
theorem registered_after_failures :
    ¬ ∀ (now window : Nat) (devices : Devices) (w : World Unit) (trace : Trace)
      (s : PairingLoop Unit),
      Run (step Router.bareServices Router.sampleCodec Router.sampleDaemon) unguarded
        (start now window devices w) trace s → FewFailures trace := by
  intro hall
  have hexec : ((exec (step Router.bareServices Router.sampleCodec Router.sampleDaemon) unguarded
      [.accepted (.replicate 1) "123456" true, sampleRegister "654 321", sampleRegister "654 321",
        sampleRegister "654 321", sampleRegister "123 456"] [] sampleStart).map fun r =>
        (failures (r.1.take 4), (r.1.drop 4).map fun entry => entry.2.persisted)) =
        some (3, [some (⟨"phone", .replicate 1⟩, 0)]) := by
    decide +kernel
  obtain ⟨⟨trace, s⟩, hrun, hpair⟩ := Option.map_eq_some_iff.mp hexec
  obtain ⟨hfailures, hpersisted⟩ := Prod.mk.inj hpair
  obtain ⟨entry, hlast, hentry⟩ := List.map_eq_singleton_iff.mp hpersisted
  have hnone := hall 0 10 _ _ trace s (run_of_exec _ hrun) (trace.take 4) [] entry
    (by rw [← hlast, List.take_append_drop]) (by rw [hfailures]; decide)
  rw [hnone] at hentry
  cases hentry

/-! ### Once -/

/-- The connection fails: a frame holds no message, a reply is not sent, or the
stream breaks. -/
def fails : PairingEvent → Bool
  | .received message _ _ sendFails => message.isNone || sendFails
  | .broken => true
  | _ => false

/-- A device has been registered on the connection that is served, or is now. -/
def registers (codec : Codec) (s : PairingLoop σ) (e : PairingEvent) : Bool :=
  match s.phase with
  | .serving session _ => session.registered.isSome || s.confirms codec e
  | _ => false

/-- While the window is open, no connection fails on which a device registers. -/
def endsCleanly (codec : Codec) (_ : Trace) (s : PairingLoop σ) (e : PairingEvent) : Prop :=
  s.now < s.deadline → s.registers codec e = true → fails e = false

instance (trace : Trace) (s : PairingLoop σ) (e : PairingEvent) :
    Decidable (endsCleanly codec trace s e) :=
  inferInstanceAs (Decidable (_ → _ → _))

/-- A device is recorded. -/
def persists (entry : PairingEvent × Seen) : Bool := entry.2.persisted.isSome

/-- The loop is over, or serves the device that was registered. -/
def Settled (s : PairingLoop σ) : Prop :=
  match s.phase with
  | .accepting => False
  | .serving session _ => session.Settled
  | .returned _ => True

theorem settled_again (h : s.deadline ≤ s.now) : s.again.Settled := by
  simp [again, Settled, h]

/-- A message on a connection that is settled, or settles now, leaves the loop
settled, unless the connection fails in an open window. -/
theorem settled_of_receive {session : Session} {message : ControlMessage} {wallMs : Int}
    {storeFails sendFails : Bool} (hclean : s.now < s.deadline → sendFails = false)
    (hsettled : (serveMessage services codec (persist wallMs storeFails) session s.world s.devices
      message).session.Settled)
    (hreply : ∀ error, (serveMessage services codec (persist wallMs storeFails) session s.world
      s.devices message).outcome ≠ .error error) :
    (s.receive services codec session message wallMs storeFails sendFails).1.Settled := by
  unfold receive
  dsimp only
  split
  · next error houtcome => exact absurd houtcome (hreply error)
  · exact hsettled
  · split_ifs with hsend
    · refine settled_again ?_
      by_contra hopen
      have hsent := hclean (Nat.lt_of_not_le hopen)
      rw [hsend] at hsent
      cases hsent
    · exact hsettled

/-- A loop that is settled stays settled and records nobody. -/
theorem settled_of_step (hsettled : s.Settled) {trace : Trace} (hguard : endsCleanly codec trace s e)
    (hstep : s.step services codec daemon e = some (s', seen)) :
    s'.Settled ∧ seen.persisted = none := by
  cases hphase : s.phase with
  | accepting => simp [Settled, hphase] at hsettled
  | returned device =>
      have hsame : s'.phase = .returned device ∧ seen = .nothing := by
        cases e <;> simp only [step, hphase, reduceCtorEq] at hstep
        · cases hstep
          exact ⟨rfl, rfl⟩
        · split at hstep <;> cases hstep
          exact ⟨rfl, rfl⟩
      simp [Settled, hsame, Seen.nothing]
  | serving session keysMatch =>
      have hsession : session.Settled := by simpa [Settled, hphase] using hsettled
      have hregisters : s.registers codec e = true := by simp [registers, hphase, hsession.1]
      have hfails : fails e = true → s.again.Settled := by
        intro hfails
        refine settled_again ?_
        by_contra hopen
        rw [hguard (Nat.lt_of_not_le hopen) hregisters] at hfails
        cases hfails
      cases e <;> simp only [step, hphase, reduceCtorEq] at hstep
      case tick elapsed =>
        cases hstep
        exact ⟨by simpa [Settled, hphase] using hsession, rfl⟩
      case received message wallMs storeFails sendFails =>
        cases keysMatch with
        | false => cases hstep
        | true =>
            cases message with
            | none =>
                cases hstep
                exact ⟨hfails rfl, rfl⟩
            | some message =>
                obtain ⟨hturn, hrecorded, hreply⟩ := @Session.Settled.serveMessage σ services codec
                  _ (persist wallMs storeFails) session s.world s.devices message hsession
                obtain ⟨hpersisted, -, -⟩ := @receive_cases σ services codec s session message
                  wallMs storeFails sendFails
                have hclean : s.now < s.deadline → sendFails = false :=
                  fun hopen => by simpa [fails] using hguard hopen hregisters
                have hnext := settled_of_receive hclean hturn hreply
                rw [Option.some.inj hstep] at hpersisted hnext
                exact ⟨hnext, hpersisted.trans (by rw [hrecorded]; rfl)⟩
      case closed =>
        obtain ⟨device, hdevice⟩ := Option.isSome_iff_exists.mp hsession.1
        simp only [hdevice] at hstep
        cases hstep
        exact ⟨trivial, rfl⟩
      case broken =>
        cases hstep
        exact ⟨hfails rfl, rfl⟩
      case commit op =>
        split at hstep <;> cases hstep
        exact ⟨by simpa [Settled, hphase] using hsession, rfl⟩

/-- A step that records a device settles the loop. -/
theorem settled_of_persisted {trace : Trace} (hguard : endsCleanly codec trace s e)
    (hstep : s.step services codec daemon e = some (s', seen)) (hpersisted : seen.persisted ≠ none) :
    s'.Settled := by
  obtain ⟨⟨device, t⟩, hpair⟩ := Option.ne_none_iff_exists'.mp hpersisted
  obtain ⟨hconfirms, -⟩ := persisted_of_step hstep hpair
  obtain ⟨session, message, wallMs, storeFails, sendFails, rfl, hphase, hreceive⟩ :=
    received_of_persisted hstep hpersisted
  obtain ⟨hrecorded, -, -⟩ := @receive_cases σ services codec s session message wallMs storeFails
    sendFails
  rw [hreceive] at hrecorded
  have hsome : (serveMessage services codec (persist wallMs storeFails) session s.world s.devices
      message).recorded ≠ none := by
    intro hnone
    rw [hnone] at hrecorded
    exact hpersisted hrecorded
  have hclean : s.now < s.deadline → sendFails = false := fun hopen => by
    simpa [fails] using hguard hopen (by simp [registers, hphase, hconfirms])
  obtain ⟨hturn, hreply⟩ := Session.settled_of_recorded hsome
  have hnext := settled_of_receive hclean hturn hreply
  rw [hreceive] at hnext
  exact hnext

/-- **A secret is used once**, as long as no connection fails in an open window on
which a device registers: at most one device is recorded. -/
theorem paired_once {now window : Nat} {devices : Devices} {w : World σ} {trace : Trace}
    (hrun : Run (step services codec daemon) (endsCleanly codec) (start now window devices w)
      trace s) :
    trace.countP persists ≤ 1 := by
  have hinvariant : trace.countP persists = 0 ∨ trace.countP persists = 1 ∧ s.Settled := by
    refine hrun.invariant (fun trace s => trace.countP persists = 0 ∨
      trace.countP persists = 1 ∧ s.Settled) (.inl rfl) ?_
    intro trace s e s' seen h hguard hstep
    rw [List.countP_append, List.countP_singleton]
    rcases h with hzero | ⟨hone, hsettled⟩
    · by_cases hpersisted : seen.persisted = none
      · left
        simp [persists, hzero, hpersisted]
      · right
        refine ⟨?_, settled_of_persisted hguard hstep hpersisted⟩
        simp [persists, hzero, Option.isSome_iff_ne_none.mpr hpersisted]
    · right
      obtain ⟨hnext, hpersisted⟩ := settled_of_step hsettled hguard hstep
      exact ⟨by simp [persists, hone, hpersisted], hnext⟩
  omega

theorem paired_once_sample :
    ∃ trace s, Run (step Router.bareServices Router.sampleCodec Router.sampleDaemon)
        (endsCleanly Router.sampleCodec) sampleStart trace s ∧
      recordedIn trace = [(⟨"phone", .replicate 1⟩, 5)] ∧ trace.countP persists ≤ 1 := by
  have hexec : ((exec (step Router.bareServices Router.sampleCodec Router.sampleDaemon)
      (endsCleanly Router.sampleCodec) (slowPhone 5 ++ [.closed]) [] sampleStart).map fun r =>
        recordedIn r.1) = some [(⟨"phone", .replicate 1⟩, 5)] := by
    decide +kernel
  obtain ⟨⟨trace, s⟩, hrun, hrecorded⟩ := Option.map_eq_some_iff.mp hexec
  exact ⟨trace, s, run_of_exec _ hrun, hrecorded, paired_once (run_of_exec _ hrun)⟩

/-- **A failing connection takes its registration with it**: the loop accepts
another device. -/
theorem paired_twice :
    ¬ ∀ (now window : Nat) (devices : Devices) (w : World Unit) (trace : Trace)
      (s : PairingLoop Unit),
      Run (step Router.bareServices Router.sampleCodec Router.sampleDaemon) unguarded
        (start now window devices w) trace s → trace.countP persists ≤ 1 := by
  intro hall
  have hexec : ((exec (step Router.bareServices Router.sampleCodec Router.sampleDaemon) unguarded
      [.accepted (.replicate 1) "123456" true, sampleRegister "123 456", .broken,
        .accepted (.replicate 2) "123456" true, sampleRegister "123 456"] [] sampleStart).map fun r =>
        r.1.countP persists) = some 2 := by
    decide +kernel
  obtain ⟨⟨trace, s⟩, hrun, htwice⟩ := Option.map_eq_some_iff.mp hexec
  have honce := hall 0 10 _ _ trace s (run_of_exec _ hrun)
  have htwice : trace.countP persists = 2 := htwice
  omega

end PairingLoop

end Server
