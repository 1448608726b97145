import GoNomad.Client.Call
import GoNomad.Server.Answers
import GoNomad.Server.Perform

/-!
# Calls from the app to the daemon and back

The app encodes a call, the daemon decodes it, serves it and encodes the response,
and the app decodes that.  Nothing of this is seen from outside: the app has the
result that the method would have returned to it.

* `request_arrives` — the daemon serves the request that the app made;
* `response_arrives` — the app has what the daemon answered;
* `conversation_performs` — every sequence of calls on one connection.
-/

namespace Agreement

open Proto Policy Store Server Client Transition Cbor

variable {σ δ : Type}

/-! ### One call -/

/-- What the frame of a call says. -/
theorem request_arrives {id : UInt64} {call : MethodCall} {frame : Frame}
    (h : encodeRequest id call.method call.params = .ok frame) :
    frame.decodeCbor Decode.controlMessage = .ok (.request ⟨id, call.method, call.params⟩) ∧
      call.params.length ≤ Cbor.u64Max := by
  unfold encodeRequest at h
  split at h
  · cases h
  · next frame' hframe =>
      split_ifs at h
      obtain rfl := Except.ok.inj h
      refine ⟨Decode.decodeCbor_of_frame rfl hframe, ?_⟩
      have hpayload := Decode.payload_le frame'
      have hmessage : frame'.payload =
          MethodCbor.controlMessage (.request ⟨id, call.method, call.params⟩) := by
        unfold Frame.new at hframe
        split_ifs at hframe
        cases hframe
        rfl
      have hfield : (MethodCbor.bytes call.params).length ≤ frame'.payload.length := by
        rw [hmessage]
        exact MethodCbor.length_le_struct (.tail _ (.tail _ (.tail _ (.head _))))
      exact (MethodCbor.length_le_bytes call.params).trans (hfield.trans hpayload)

/-- The request of a call. -/
def callRequest (call : UInt64 × MethodCall) : Request := ⟨call.1, call.2.method, call.2.params⟩

/-- A result as the app has it. -/
def asReceived (result : Except ProtoError MethodResult) : Except CallError MethodResult :=
  result.mapError .remote

/-- The app made a call, and the daemon decoded a frame of it. -/
def Asked (call : UInt64 × MethodCall) (message : Option ControlMessage) : Prop :=
  ∃ frame, encodeRequest call.1 call.2.method call.2.params = .ok frame ∧
    (frame.decodeCbor Decode.controlMessage).toOption = message

/-- Every call can be made whose request is small enough. -/
theorem asked_of_fits {call : UInt64 × MethodCall}
    (h : Binding.tcp.Fits (.request (callRequest call))) :
    Asked call (some (.request (callRequest call))) := by
  obtain ⟨hframe, hmux⟩ := le_min_iff.mp h
  refine ⟨⟨.last, _, hframe⟩, ?_, ?_⟩
  · unfold callRequest at hframe
    unfold encodeRequest Frame.new
    rw [dif_pos hframe]
    exact if_neg (Nat.not_lt.mpr hmux)
  · rw [@Decode.decodeCbor_of_frame .last _ _ rfl (dif_pos hframe)]
    rfl

/-- The app decodes a frame of the reply, and it has a result for its call. -/
def Told (call : UInt64 × MethodCall) (reply : Option ControlMessage)
    (result : Except ProtoError MethodResult) : Prop :=
  ∃ message frame response, reply = some message ∧ frameOf message = .ok frame ∧
    frame.decodeCbor Decode.controlMessage = .ok (.response response) ∧
    response.correlationId = call.1 ∧ received call.2 response.body = some (asReceived result)

/-- The body of the response to what was done. -/
def bodyOf : Except ProtoError (List UInt8 × Effect) → ResponseBody
  | .ok (bytes, _) => .ok bytes
  | .error error => .error error

/-- **A response that is sent arrives** as what was done. -/
theorem response_arrives {binding : Binding} {call : UInt64 × MethodCall}
    {x : Except ProtoError (List UInt8 × Effect)} {y : Except ProtoError (MethodResult × Effect)}
    (h : Router.Performed call.2 x y)
    (hsend : binding.send (.response ⟨call.1, bodyOf x⟩) = true) :
    Told call (some (.response ⟨call.1, bodyOf x⟩)) (y.map Prod.fst) := by
  unfold Binding.send at hsend
  split at hsend
  · cases hsend
  · next frame hframe =>
      refine ⟨_, frame, _, rfl, hframe, Decode.decodeCbor_of_frame rfl hframe, rfl, ?_⟩
      cases h with
      | error error => rfl
      | @ok bytes result effect codes =>
          have hlen : bytes.length ≤ Cbor.u64Max := by
            have hfits := (send_iff binding (.response ⟨call.1, .ok bytes⟩)).mp (by
              unfold Binding.send
              rw [show frameOf (.response ⟨call.1, .ok bytes⟩) = .ok frame from hframe]
              exact hsend)
            have hbody := MethodCbor.length_le_response call.1 bytes
            have hpayload := Decode.payload_le frame
            unfold Binding.Fits at hfits
            unfold maxPayloadLen at hfits
            unfold Cbor.u64Max
            omega
          have hread := Decode.fromReader_of_codes codes hlen []
          rw [List.append_nil] at hread
          simp [received, replyOf, bodyOf, decodeResult, hread, asReceived, Except.map,
            Except.mapError]

/-! ### Every call -/

variable (services : Services σ)
  (onRegister : PublicKey → String → Option String → δ → Except StoreError δ)

/-- A call and its result, with no bytes in between; a device that registers is
recorded, or there is no result. -/
def perform (s : Served σ δ) (call : UInt64 × MethodCall) :
    Option (Served σ δ × Except ProtoError MethodResult) :=
  match s.session.router.perform services call.2 s.world with
  | (.ok (result, .registered key name model), router, world) =>
      match onRegister key name model s.store with
      | .error _ => none
      | .ok store => some (⟨⟨router, some ⟨name, key⟩⟩, world, store⟩, .ok result)
  | (result, router, world) =>
      some (⟨{ s.session with router }, world, s.store⟩, result.map Prod.fst)

variable {services} {onRegister} {binding : Binding}

/-- **One call** over the loop is the call itself. -/
theorem step_performs {s t : Served σ δ} {message reply : Option ControlMessage}
    {call : UInt64 × MethodCall} (hasked : Asked call message)
    (h : s.step services Codec.cbor onRegister binding.send message = some (t, reply)) :
    ∃ result, perform services onRegister s call = some (t, result) ∧ Told call reply result := by
  obtain ⟨frame, hframe, hmessage⟩ := hasked
  obtain ⟨hdecode, hlen⟩ := request_arrives hframe
  rw [hdecode] at hmessage
  obtain rfl : some _ = message := hmessage
  obtain ⟨hdone, hstate⟩ :=
    Router.dispatch_perform services s.session.router call.2 call.1 hlen s.world
  simp only [Served.step, serveMessage, Router.handle] at h
  unfold perform
  revert hdone hstate h
  rcases s.session.router.dispatch services Codec.cbor ⟨call.1, call.2.method, call.2.params⟩
    s.world with ⟨x, r, w⟩
  rcases s.session.router.perform services call.2 s.world with ⟨y, r', w'⟩
  rintro h hdone hstate
  obtain ⟨rfl, rfl⟩ := Prod.mk.inj hstate
  have harrives := @response_arrives binding call x y hdone
  cases hdone with
  | error error =>
      dsimp only at h
      split_ifs at h with hsend
      cases h
      exact ⟨_, rfl, harrives hsend⟩
  | @ok bytes result effect codes =>
      cases effect with
      | none =>
          dsimp only at h
          split_ifs at h with hsend
          cases h
          exact ⟨_, rfl, harrives hsend⟩
      | registered key name model =>
          dsimp only at h ⊢
          cases hrecord : onRegister key name model s.store with
          | error error =>
              rw [hrecord] at h
              cases h
          | ok store =>
              rw [hrecord] at h
              dsimp only at h
              split_ifs at h with hsend
              cases h
              exact ⟨_, rfl, harrives hsend⟩

/-- **Every conversation** over one connection is the calls themselves: each result
is what the app has for that call, and the daemon is where they take it. -/
theorem conversation_performs {s₀ s : Served σ δ} {conversation : Conversation}
    {calls : List (UInt64 × MethodCall)}
    (hrun : Run (Served.step services Codec.cbor onRegister binding.send) unguarded s₀
      conversation s)
    (hasked : List.Forall₂ Asked calls (conversation.map Prod.fst)) :
    ∃ trace, Run (perform services onRegister) unguarded s₀ trace s ∧
      trace.map Prod.fst = calls ∧
      List.Forall₂ (fun entry exchange => Told exchange.1 entry.2 exchange.2) conversation trace :=
  hrun.lockstep Asked (fun entry exchange => Told exchange.1 entry.2 exchange.2)
    (fun _ _ _ _ _ hasked h => step_performs hasked h) hasked

/-- Asking what the machine is and for its terminals. -/
def sampleCalls : List (UInt64 × MethodCall) := [(1, .sysInfo), (2, .ptyList)]

/-- A known phone makes two calls. -/
theorem conversation_performs_sample :
    ∃ conversation s, Run (Served.step Router.bareServices Codec.cbor noRegistration
        Binding.tcp.send) unguarded sampleServed conversation s ∧
      ∃ trace, Run (perform Router.bareServices noRegistration) unguarded sampleServed trace s ∧
        trace.map Prod.fst = sampleCalls ∧
        List.Forall₂ (fun entry exchange => Told exchange.1 entry.2 exchange.2)
          conversation trace := by
  obtain ⟨⟨conversation, s⟩, hexec⟩ := Option.isSome_iff_exists.mp
    (show (exec (Served.step Router.bareServices Codec.cbor noRegistration Binding.tcp.send)
      unguarded (sampleCalls.map fun call => some (.request (callRequest call))) []
      sampleServed).isSome = true by decide +kernel)
  have hevents := events_of_exec hexec
  have hrun := run_of_exec _ hexec
  refine ⟨conversation, s, hrun, conversation_performs hrun ?_⟩
  rw [hevents]
  exact .cons (asked_of_fits (by decide +kernel)) (.cons (asked_of_fits (by decide +kernel)) .nil)

end Agreement
