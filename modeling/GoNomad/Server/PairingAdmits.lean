import GoNomad.Server.PairingReply

/-!
# A registration that goes through

The daemon records a key once.  A registration with the right digits is recorded and
answered where the table has neither the key nor its identifier, and what a
connection asks for afterwards is answered too.

* `pair_of_admits` — which keys can be recorded;
* `receive_admitted` — **what becomes of the registration**;
* `receive_answers` — what becomes of a later request.
-/

namespace Store.Devices

open Proto

variable {db : Devices} {key : PublicKey} {name : String} {model : Option String}
  {grants : CapabilitySet} {now : Int}

/-- The table has neither the key nor the identifier of the key. -/
def Admits (db : Devices) (key : PublicKey) : Prop :=
  db.findByPublicKey key = none ∧ fromPublicKey key ∉ db.rows.map Device.id

instance (db : Devices) (key : PublicKey) : Decidable (db.Admits key) :=
  inferInstanceAs (Decidable (_ ∧ _))

theorem pair_of_admits (h : db.Admits key) :
    ∃ result, db.pair key name model grants now = .ok result := by
  unfold pair
  split
  · next existing hfind =>
      rw [h.1] at hfind
      cases hfind
  · dsimp only
    rw [dif_neg h.2]
    exact ⟨_, rfl⟩

/-- The key has a row that is not revoked, with the default grant. -/
def Active (db : Devices) (key : PublicKey) : Prop :=
  ∃ row, db.findByPublicKey key = some row ∧ row.revokedAtMs = none ∧
    db.grants row.id = .defaultGrant

end Store.Devices

namespace Server

open Proto Store

variable {σ : Type} {services : Services σ} {codec : Codec} {config : Daemon}
  {key : PublicKey} {digits : String} {request : Request} {params : SysRegisterParams}

theorem persist_of_admits {devices : Devices} {wallMs : Int} {name : String}
    {model : Option String} (h : devices.Admits key) :
    ∃ db, persist wallMs false key name model devices = .ok db ∧ db.Active key := by
  obtain ⟨⟨db, row⟩, hpair⟩ :=
    @Devices.pair_of_admits devices key name model .defaultGrant wallMs h
  obtain ⟨hfind, -, hlive, hgrants⟩ := Devices.pair_row hpair
  refine ⟨db, ?_, row, hfind, hlive, ?_⟩
  · unfold persist
    rw [hpair]
    rfl
  · exact hgrants.trans (CapabilitySet.ofList_iter Capability.defaultGrant)

/-- A registration with the right digits is confirmed. -/
theorem Router.dispatch_registers (hencode : EncodesRegistration codec)
    (hmethod : request.method = Method.sysRegister)
    (hparams : codec.register request.params = some params)
    (hdigits : asciiDigits params.sas = digits) (w : World σ) :
    ∃ result, (forPairing config key digits).dispatch services codec request w =
      (.ok (result, .registered key params.deviceName params.deviceModel),
        paired config key, w) := by
  have hother : ¬ (¬ (forPairing config key digits).isPairing = true ∧
      request.method = Method.sysRegister) := fun h => h.1 rfl
  have hknown : ¬ request.method ∉ Method.all := by
    rw [hmethod]
    decide
  unfold dispatch
  rw [if_neg hknown, if_neg fun h => h.2 hmethod, if_neg hother, if_pos hmethod]
  obtain ⟨result, hresult⟩ := Option.ne_none_iff_exists'.mp
    (hencode ⟨(fromPublicKey key).toHex, .defaultGrant⟩)
  refine ⟨result, ?_⟩
  unfold sysRegister Codec.decode Codec.encode
  rw [hparams]
  dsimp only [forPairing]
  rw [if_neg (not_not.mpr hdigits), hresult]
  rfl

/-- The body of a response that is a result or an error. -/
def replyBody : Except ProtoError (List UInt8) → ResponseBody
  | .ok result => .ok result
  | .error error => .error error

/-- What a router answers is a result or an error. -/
theorem Router.handle_reply (r : Router) (w : World σ) :
    ∃ reply, (r.handle services codec request w).1.1 =
      ⟨request.correlationId, replyBody reply⟩ := by
  unfold handle
  rcases r.dispatch services codec request w with ⟨answer, next⟩
  cases answer with
  | ok answer => exact ⟨.ok answer.1, rfl⟩
  | error error => exact ⟨.error error, rfl⟩

namespace PairingLoop

variable {s : PairingLoop σ} {wallMs : Int}

/-- **A registration with the right digits**, of a key that can be recorded, is recorded
and answered with a result, and the connection goes on. -/
theorem receive_admitted (hencode : Router.EncodesRegistration codec)
    (hmethod : request.method = Method.sysRegister)
    (hparams : codec.register request.params = some params)
    (hdigits : asciiDigits params.sas = digits) (hadmits : s.devices.Admits key) :
    ∃ db result,
      (s.receive services codec ⟨.forPairing config key digits, none⟩ (.request request) wallMs
        false false).1 = { s with
          devices := db
          phase := .serving ⟨.paired config key, some ⟨params.deviceName, key⟩⟩ true } ∧
      (s.receive services codec ⟨.forPairing config key digits, none⟩ (.request request) wallMs
        false false).2.sent = some (.response ⟨request.correlationId, .ok result⟩) ∧
      db.Active key := by
  obtain ⟨result, hdispatch⟩ := @Router.dispatch_registers σ services codec config key digits
    request params hencode hmethod hparams hdigits s.world
  obtain ⟨db, hpersist, hactive⟩ :=
    @persist_of_admits key s.devices wallMs params.deviceName params.deviceModel hadmits
  have hturn : serveMessage services codec (persist wallMs false)
      ⟨.forPairing config key digits, none⟩ s.world s.devices (.request request) =
        ⟨⟨.paired config key, some ⟨params.deviceName, key⟩⟩, s.world, db,
          some ⟨params.deviceName, key⟩,
          .ok (some (.response ⟨request.correlationId, .ok result⟩))⟩ := by
    simp only [serveMessage, Router.handle, hdispatch, hpersist]
  refine ⟨db, result, ?_, ?_, hactive⟩
  · unfold receive
    rw [hturn]
    rfl
  · unfold receive
    rw [hturn]
    rfl

/-- **A later request** is answered, and changes no row. -/
theorem receive_answers {session : Server.Session} (hstate : session.router.state = .established)
    (request : Request) :
    ∃ world reply,
      (s.receive services codec session (.request request) wallMs false false).1 =
        { s with world, phase := .serving session true } ∧
      (s.receive services codec session (.request request) wallMs false false).2.sent =
        some (.response ⟨request.correlationId, replyBody reply⟩) := by
  obtain ⟨response, w', hhandle⟩ :=
    @Router.handle_established σ services codec session.router hstate request s.world
  obtain ⟨reply, hreply⟩ := @Router.handle_reply σ services codec request session.router s.world
  rw [hhandle] at hreply
  dsimp only at hreply
  have hturn : serveMessage services codec (persist wallMs false) session s.world s.devices
      (.request request) = ⟨session, w', s.devices, none, .ok (some (.response response))⟩ := by
    simp only [serveMessage, hhandle]
  refine ⟨w', reply, ?_, ?_⟩
  · unfold receive
    rw [hturn]
    rfl
  · unfold receive
    rw [hturn, hreply]
    rfl

end PairingLoop

end Server
