import GoNomad.Server.PairingRun

/-!
# What a pairing connection answers

A device is recorded before its registration is answered, and a connection that
registered nobody answers with errors.

* `committed_of_recorded` — what is recorded;
* `phase_step` — where the connection comes from that is served;
* `receive_pairing`, `receive_established` — a request on it;
* `receive_registered` — a registration that is answered with a result.
-/

namespace Server

open Proto Store

/-- The row of a device that was recorded, with its grant. -/
def committedIn (devices : Devices) (seen : Seen) : Option (Device × CapabilitySet) :=
  seen.persisted.bind fun recorded =>
    (devices.findByPublicKey recorded.1.key).map fun row => (row, devices.grants row.id)

/-- The device with this key was recorded, with the default grant. -/
def Commits (key : PublicKey) (committed : Option (Device × CapabilitySet)) : Prop :=
  ∃ row, committed = some (row, .defaultGrant) ∧ row.publicKey = key ∧ row.revokedAtMs = none

namespace PairingLoop

variable {σ : Type} {services : Services σ} {codec : Codec} {config : Daemon}
  {s t : PairingLoop σ} {seen : Seen} {phoneKey : PublicKey} {digits : String}

/-- What a message leaves in the store is what the loop goes on with. -/
theorem devices_receive {session : Server.Session} {message : ControlMessage} {wallMs : Int}
    {storeFails sendFails : Bool} :
    (s.receive services codec session message wallMs storeFails sendFails).1.devices =
      (serveMessage services codec (persist wallMs storeFails) session s.world s.devices
        message).store := by
  unfold receive
  dsimp only
  split
  · rfl
  · rfl
  · split_ifs
    · rfl
    · rfl

/-- What a message recorded was recorded by the store. -/
theorem store_of_recorded {δ : Type}
    {onRegister : PublicKey → String → Option String → δ → Except StoreError δ}
    {session : Server.Session} {w : World σ} {store : δ} {message : ControlMessage}
    {device : PairedDevice}
    (h : (serveMessage services codec onRegister session w store message).recorded = some device) :
    ∃ model, onRegister device.key device.name model store =
      .ok (serveMessage services codec onRegister session w store message).store := by
  cases message with
  | request request =>
      unfold serveMessage at h ⊢
      dsimp only at h ⊢
      split at h
      · cases h
      · next response key name model router w' hhandle =>
          cases hstore : onRegister key name model store with
          | error error =>
              rw [hstore] at h
              cases h
          | ok store' =>
              rw [hstore] at h
              cases h
              exact ⟨model, hstore⟩
  | _ => cases h

/-- **A device that was recorded** has its row, with the default grant. -/
theorem committed_of_recorded {session : Server.Session} {message : ControlMessage} {wallMs : Int}
    {storeFails sendFails : Bool} {device : PairedDevice}
    (h : (serveMessage services codec (persist wallMs storeFails) session s.world s.devices
      message).recorded = some device) :
    let received := s.receive services codec session message wallMs storeFails sendFails
    Commits device.key (committedIn received.1.devices received.2) := by
  dsimp only
  obtain ⟨hpersisted, -, -⟩ := @receive_cases σ services codec s session message wallMs storeFails
    sendFails
  rw [h, Option.map_some] at hpersisted
  obtain ⟨model, hstore⟩ := store_of_recorded h
  rw [← @devices_receive σ services codec s session message wallMs storeFails sendFails] at hstore
  unfold persist at hstore
  split_ifs at hstore
  obtain ⟨⟨db, row⟩, hpair, hdb⟩ := Except.map_eq_ok.mp hstore
  obtain ⟨hfind, hkey, hlive, hgrants⟩ := Devices.pair_row hpair
  have hdefault : db.grants row.id = .defaultGrant :=
    hgrants.trans (CapabilitySet.ofList_iter Capability.defaultGrant)
  refine ⟨row, ?_, hkey, hlive⟩
  unfold committedIn
  rw [hpersisted, Option.bind_some, ← hdb, hfind, Option.map_some, hdefault]

theorem again_phase (session : Server.Session) (keysMatch : Bool) :
    s.again.phase ≠ .serving session keysMatch := by
  unfold PairingLoop.again
  dsimp only
  split
  · exact fun h => (nomatch h)
  · exact fun h => (nomatch h)

/-- A connection that goes on after a message goes on with the session of the turn. -/
theorem receive_phase {session session' : Server.Session} {message : ControlMessage} {wallMs : Int}
    {storeFails sendFails keysMatch : Bool}
    (h : (s.receive services codec session message wallMs storeFails sendFails).1.phase =
      .serving session' keysMatch) :
    keysMatch = true ∧ session' = (serveMessage services codec (persist wallMs storeFails) session
      s.world s.devices message).session := by
  obtain ⟨-, -, hnext⟩ := @PairingLoop.receive_cases σ services codec s session message wallMs
    storeFails sendFails
  rcases hnext with hnext | ⟨hnext, -⟩
  · rw [hnext] at h
    cases h
    exact ⟨rfl, rfl⟩
  · rw [hnext] at h
    exact absurd h (again_phase _ _)

/-- **Where the phase of the loop comes from.** -/
theorem phase_step {session' : Server.Session} {keysMatch : Bool} {event : PairingEvent}
    (hstep : s.step services codec config event = some (t, seen))
    (hphase : t.phase = .serving session' keysMatch) :
    s.phase = .serving session' keysMatch ∨
      (∃ peer sas, event = .accepted peer sas keysMatch ∧
        session' = ⟨.forPairing config peer sas, none⟩) ∨
      ∃ request wallMs storeFails sendFails,
        event = .received (some (.request request)) wallMs storeFails sendFails := by
  cases event with
  | received message wallMs storeFails sendFails =>
      dsimp only [PairingLoop.step] at hstep
      split at hstep
      · next session hserving =>
          cases message with
          | none =>
              cases hstep
              exact absurd hphase (again_phase _ _)
          | some message =>
              cases message with
              | request request => exact .inr (.inr ⟨request, wallMs, storeFails, sendFails, rfl⟩)
              | _ =>
                  -- The session does not change.
                  have hreceive := congrArg Prod.fst (Option.some.inj hstep)
                  dsimp only at hreceive
                  rw [← hreceive] at hphase
                  obtain ⟨rfl, rfl⟩ := receive_phase hphase
                  exact .inl hserving
      · cases hstep
  | accepted peer sas keysMatch' =>
      dsimp only [PairingLoop.step] at hstep
      split at hstep
      · cases hstep
        cases hphase
        exact .inr (.inl ⟨peer, sas, rfl, rfl⟩)
      · cases hstep
  | tick elapsed =>
      cases hstep
      exact .inl hphase
  | commit op =>
      dsimp only [PairingLoop.step] at hstep
      split at hstep
      · cases hstep
        exact .inl hphase
      · cases hstep
  | timeout =>
      dsimp only [PairingLoop.step] at hstep
      split at hstep
      · split_ifs at hstep
        cases hstep
        cases hphase
      · cases hstep
  | closed =>
      dsimp only [PairingLoop.step] at hstep
      split at hstep
      · split at hstep
        · cases hstep
          cases hphase
        · cases hstep
          exact absurd hphase (again_phase _ _)
      · cases hstep
  | _ =>
      dsimp only [PairingLoop.step] at hstep
      split at hstep
      · cases hstep
        exact absurd hphase (again_phase _ _)
      · cases hstep

/-- **A request on a pairing connection**: refused, and the connection goes on as it
was; or a registration with the right digits, that ends the connection without a
response if it is not recorded. -/
theorem receive_pairing (hencode : Router.EncodesRegistration codec) {session : Server.Session}
    (hrouter : session.router = .forPairing config phoneKey digits) (request : Request)
    (wallMs : Int) (storeFails sendFails : Bool) :
    let received := s.receive services codec session (.request request) wallMs storeFails sendFails
    (∀ response, received.2.sent = some (.response response) → ∃ error, response.body = .error error) ∧
        (∀ session' keysMatch, received.1.phase = .serving session' keysMatch →
          session'.router = .forPairing config phoneKey digits) ∨
      (request.method = Method.sysRegister ∧ ∃ params, codec.register request.params = some params ∧
        asciiDigits params.sas = digits) ∧
      Commits phoneKey (committedIn received.1.devices received.2) ∧
        ∀ session' keysMatch, received.1.phase = .serving session' keysMatch →
          session'.router.state = .established := by
  dsimp only
  have hphase := fun session' keysMatch => @receive_phase σ services codec s session session'
    (.request request) wallMs storeFails sendFails keysMatch
  rcases @Router.dispatch_pairing σ services codec config phoneKey digits hencode request s.world
    with ⟨error, hdispatch⟩ | ⟨hmethod, params, result, hparams, hdigits, hdispatch⟩
  · left
    have hturn : serveMessage services codec (persist wallMs storeFails) session s.world s.devices
        (.request request) = ⟨{ session with router := .forPairing config phoneKey digits }, s.world,
          s.devices, none, .ok (some (.response ⟨request.correlationId, .error error⟩))⟩ := by
      simp only [serveMessage, Router.handle, hrouter, hdispatch]
    refine ⟨fun response hsent => ?_, fun session' keysMatch hserving => ?_⟩
    · unfold PairingLoop.receive at hsent
      rw [hturn] at hsent
      dsimp only at hsent
      split_ifs at hsent
      cases hsent
      exact ⟨error, rfl⟩
    · obtain ⟨-, rfl⟩ := hphase session' keysMatch hserving
      rw [hturn]
  · cases hstore : persist wallMs storeFails phoneKey params.deviceName params.deviceModel s.devices
    with
    | error error =>
        left
        have hturn : (serveMessage services codec (persist wallMs storeFails) session s.world
            s.devices (.request request)).outcome = .error error := by
          simp only [serveMessage, Router.handle, hrouter, hdispatch, hstore]
        refine ⟨fun response hsent => ?_, fun session' keysMatch hserving => ?_⟩
        · unfold PairingLoop.receive at hsent
          dsimp only at hsent
          rw [hturn] at hsent
          cases hsent
        · unfold PairingLoop.receive at hserving
          dsimp only at hserving
          rw [hturn] at hserving
          exact absurd hserving (again_phase _ _)
    | ok devices =>
        right
        have hturn : serveMessage services codec (persist wallMs storeFails) session s.world s.devices
            (.request request) = ⟨⟨.paired config phoneKey, some ⟨params.deviceName, phoneKey⟩⟩,
              s.world, devices, some ⟨params.deviceName, phoneKey⟩,
              .ok (some (.response ⟨request.correlationId, .ok result⟩))⟩ := by
          simp only [serveMessage, Router.handle, hrouter, hdispatch, hstore]
        refine ⟨⟨hmethod, params, hparams, hdigits⟩, ?_, fun session' keysMatch hserving => ?_⟩
        · exact committed_of_recorded (congrArg Turn.recorded hturn)
        · obtain ⟨-, rfl⟩ := hphase session' keysMatch hserving
          rw [hturn]
          rfl

/-- A connection that is established stays so. -/
theorem receive_established {session session' : Server.Session}
    (hstate : session.router.state = .established) {request : Request} {wallMs : Int}
    {storeFails sendFails keysMatch : Bool}
    (hphase : (s.receive services codec session (.request request) wallMs storeFails
      sendFails).1.phase = .serving session' keysMatch) :
    session'.router.state = .established := by
  obtain ⟨-, rfl⟩ := receive_phase hphase
  obtain ⟨response, w', hhandle⟩ :=
    @Router.handle_established σ services codec session.router hstate request s.world
  simp only [serveMessage, hhandle]
  exact hstate

/-- A registration that is answered with a result registers. -/
theorem registered_of_ok {r r' : Router} {request : Request} {w w' : World σ} {response : Response}
    {effect : Effect} {result : List UInt8} (hmethod : request.method = Method.sysRegister)
    (hhandle : r.handle services codec request w = ((response, effect), r', w'))
    (hok : response.body = .ok result) :
    ∃ name model, effect = .registered r.peerKey name model := by
  unfold Router.handle Router.dispatch at hhandle
  rw [hmethod, if_neg (by decide)] at hhandle
  split_ifs at hhandle with hother hestablished hregister
  · exact absurd rfl hother.2
  · cases hhandle
    cases hok
  · rcases hsys : r.sysRegister codec request with ⟨answer, next⟩
    rw [hsys] at hhandle
    cases answer with
    | error error =>
        cases hhandle
        cases hok
    | ok answer =>
        obtain ⟨-, params, -, -, -, heffect, -⟩ := Router.registered_of_sysRegister hsys
        cases hhandle
        exact ⟨_, _, heffect⟩
  · exact absurd rfl hregister

/-- **A registration that is answered with a result** was recorded before. -/
theorem receive_registered {session : Server.Session} {request : Request} {wallMs : Int}
    {storeFails sendFails : Bool} {response : Response} {result : List UInt8}
    (hmethod : request.method = Method.sysRegister)
    (hsent : (s.receive services codec session (.request request) wallMs storeFails
      sendFails).2.sent = some (.response response)) (hok : response.body = .ok result) :
    Commits session.router.peerKey
      (committedIn (s.receive services codec session (.request request) wallMs storeFails
          sendFails).1.devices
        (s.receive services codec session (.request request) wallMs storeFails sendFails).2) := by
  rcases hhandle : session.router.handle services codec request s.world with
    ⟨⟨answer, effect⟩, r', w'⟩
  cases effect with
  | none =>
      have hturn : serveMessage services codec (persist wallMs storeFails) session s.world s.devices
          (.request request) = ⟨{ session with router := r' }, w', s.devices, none,
            .ok (some (.response answer))⟩ := by
        simp only [serveMessage, hhandle]
      unfold receive at hsent
      rw [hturn] at hsent
      dsimp only at hsent
      split_ifs at hsent
      cases hsent
      obtain ⟨name, model, heffect⟩ := registered_of_ok hmethod hhandle hok
      cases heffect
  | registered key name model =>
      obtain ⟨rfl, -, -⟩ := Router.registered_of_handle hhandle
      cases hstore : persist wallMs storeFails session.router.peerKey name model s.devices with
      | error error =>
          have hturn : (serveMessage services codec (persist wallMs storeFails) session s.world
              s.devices (.request request)).outcome = .error error := by
            simp only [serveMessage, hhandle, hstore]
          unfold receive at hsent
          dsimp only at hsent
          rw [hturn] at hsent
          cases hsent
      | ok devices =>
          have hturn : (serveMessage services codec (persist wallMs storeFails) session s.world
              s.devices (.request request)).recorded = some ⟨name, session.router.peerKey⟩ := by
            simp only [serveMessage, hhandle, hstore]
          exact committed_of_recorded hturn

end PairingLoop

end Server
