import GoNomad.Lib.Transaction
import GoNomad.Proto.ControlCbor
import GoNomad.Server.Connection
import GoNomad.Transport.Quic

/-!
# Every request has its response

The loop answers a request and goes on, unless the answer cannot be sent.  A
message is sent in one frame, and a frame has a largest payload: the protocol's,
and over the multiplexer a smaller one.  The link stays up and the peer reads.

* `tcp_starts`, `iroh_seals` — what the transports refuse;
* `answers_iff` — all requests are answered where all responses fit;
* `read_answered_iff` — what that means for reading a file;
* `large_file` — a file that can be read and ends the connection.
-/

namespace Server

open Proto Policy Store Transition
open Transport (TransportError)

/-! ### Sending a message -/

/-- What carries the frames of a connection. -/
inductive Binding
  /-- The multiplexer. -/
  | tcp
  | iroh
  deriving DecidableEq

/-- The largest payload of a frame, with the default configuration. -/
def Binding.maxFrameLen : Binding → Nat
  | .tcp => Mux.MuxConfig.default.maxFrameLen
  | .iroh => maxPayloadLen

/-- The one frame of a message. -/
def frameOf (message : ControlMessage) : Except FrameError Frame :=
  Frame.new .last (MethodCbor.controlMessage message)

/-- Whether a message is sent: both the frame and the transport take it. -/
def Binding.send (binding : Binding) (message : ControlMessage) : Bool :=
  match frameOf message with
  | .error _ => false
  | .ok frame => frame.payload.length ≤ binding.maxFrameLen

/-- A message is small enough to be sent. -/
def Binding.Fits (binding : Binding) (message : ControlMessage) : Prop :=
  (MethodCbor.controlMessage message).length ≤ min maxPayloadLen binding.maxFrameLen

instance (binding : Binding) (message : ControlMessage) : Decidable (binding.Fits message) :=
  inferInstanceAs (Decidable (_ ≤ _))

theorem send_iff (binding : Binding) (message : ControlMessage) :
    binding.send message = true ↔ binding.Fits message := by
  unfold Binding.send Binding.Fits frameOf Frame.new
  by_cases hlen : (MethodCbor.controlMessage message).length ≤ maxPayloadLen
  · rw [dif_pos hlen]
    simp [hlen]
  · rw [dif_neg hlen]
    simp [hlen]

/-- **What the multiplexer refuses** is what the binding refuses. -/
theorem tcp_starts {e : Mux.Endpoint} (hcfg : e.cfg = .default) (i : Nat) (stream : Mux.Stream)
    {message : ControlMessage} {frame : Frame} (hframe : frameOf message = .ok frame) :
    (e.sendStart i stream frame).2 = .sendStarted stream.id frame ↔
      Binding.tcp.send message = true := by
  have hsend : Binding.tcp.send message = true ↔
      frame.payload.length ≤ Mux.MuxConfig.default.maxFrameLen := by
    unfold Binding.send
    rw [hframe]
    exact decide_eq_true_iff
  unfold Mux.Endpoint.sendStart
  rw [hsend, hcfg]
  split_ifs with hlarge
  · exact ⟨fun h => (nomatch h), fun h => absurd hlarge (Nat.not_lt.mpr h)⟩
  · exact ⟨fun _ => Nat.not_lt.mp hlarge, fun _ => rfl⟩

/-- Over iroh no frame is too large. -/
theorem iroh_seals {κ : Type} (noise : Mux.Noise κ) (s : Quic.QuicSend κ Binding.iroh.maxFrameLen)
    (frame : Frame) :
    (s.send noise frame).2 =
      (Quic.sealChunks noise s.cipher (BigEndian.chunks Mux.maxPlaintextLen frame.encode)).2 := by
  have hfits : ¬ Binding.iroh.maxFrameLen < frame.payload.length := Nat.not_lt.mpr frame.payload_le
  unfold Quic.QuicSend.send
  rw [if_neg hfits]

/-! ### Serving requests -/

section Serving

variable {σ δ : Type} (services : Services σ) (codec : Codec)
  (onRegister : PublicKey → String → Option String → δ → Except StoreError δ) (binding : Binding)

/-- A request, and what was sent in answer to it. -/
def Answered (request : Request) (entry : Option ControlMessage × Option ControlMessage) : Prop :=
  entry.1 = some (.request request) ∧
    ∃ response, entry.2 = some (.response response) ∧
      response.correlationId = request.correlationId

/-- Each request is answered by one response, in order, and the loop goes on. -/
def AnswersAll (s₀ : Served σ δ) (requests : List Request) : Prop :=
  ∃ conversation s,
    Run (Served.step services codec onRegister binding.send) unguarded s₀ conversation s ∧
      List.Forall₂ Answered requests conversation

/-- Every response fits, each in the state in which it is made. -/
def ResponsesFit (r : Router) : World σ → List Request → Prop
  | _, [] => True
  | w, request :: requests =>
      binding.Fits (.response (r.handle services codec request w).1.1) ∧
        ResponsesFit r (r.handle services codec request w).2.2 requests

end Serving

variable {σ δ : Type} {services : Services σ} {codec : Codec}
  {onRegister : PublicKey → String → Option String → δ → Except StoreError δ} {binding : Binding}

/-- **One request on an established connection**: answered if the response fits. -/
theorem step_request {r : Router} (hstate : r.state = .established)
    (registered : Option PairedDevice) (w : World σ) (store : δ) (request : Request) :
    (⟨⟨r, registered⟩, w, store⟩ : Served σ δ).step services codec onRegister binding.send
        (some (.request request)) =
      if binding.Fits (.response (r.handle services codec request w).1.1) then
        some (⟨⟨r, registered⟩, (r.handle services codec request w).2.2, store⟩,
          some (.response (r.handle services codec request w).1.1))
      else none := by
  obtain ⟨response, w', hhandle⟩ := @Router.handle_established σ services codec r hstate request w
  simp only [Served.step, serveMessage, hhandle, send_iff]

/-- **Every request is answered** exactly where every response fits. -/
theorem answers_iff (services : Services σ) (codec : Codec)
    (onRegister : PublicKey → String → Option String → δ → Except StoreError δ) (binding : Binding)
    {r : Router} (hstate : r.state = .established) (registered : Option PairedDevice)
    (w : World σ) (store : δ) (requests : List Request) :
    AnswersAll services codec onRegister binding ⟨⟨r, registered⟩, w, store⟩ requests ↔
      ResponsesFit services codec binding r w requests := by
  induction requests generalizing w with
  | nil =>
      refine ⟨fun _ => trivial, fun _ => ⟨[], _, .nil, .nil⟩⟩
  | cons request requests ih =>
      have hstep := @step_request σ δ services codec onRegister binding r hstate registered w store
        request
      constructor
      · rintro ⟨conversation, s, hrun, hanswered⟩
        cases hanswered with
        | @cons _ entry _ rest hentry hrest =>
            obtain ⟨t, htaken, hrun⟩ := hrun.uncons
            rw [hentry.1, hstep] at htaken
            split_ifs at htaken with hfits
            obtain ⟨rfl, -⟩ := Prod.mk.inj (Option.some.inj htaken)
            exact ⟨hfits, (ih _).mp ⟨rest, s, hrun, hrest⟩⟩
      · rintro ⟨hfits, hrest⟩
        obtain ⟨conversation, s, hrun, hanswered⟩ := (ih _).mpr hrest
        rw [if_pos hfits] at hstep
        exact ⟨_, s, hrun.cons hstep,
          .cons ⟨rfl, _, rfl, Router.correlationId_of_handle r request w⟩ hanswered⟩

/-! ### Reading a file -/

/-- The response to a request that reads a file. -/
theorem handle_fsRead {r : Router} (hstate : r.state = .established) {request : Request}
    (hmethod : request.method = Method.fsRead) {params : FsPathParams}
    (hparams : codec.fsPath request.params = some params) {w : World σ} {content : FsReadResult}
    (hread : services.read r.grant params.path w.machine = .ok content) {result : List UInt8}
    (hresult : codec.result (.fsRead content) = some result) :
    (r.handle services codec request w).1.1 = ⟨request.correlationId, .ok result⟩ := by
  have hpairing : r.isPairing = false := by
    unfold Router.isPairing
    rw [hstate]
  have hserve : r.serve services codec request w =
      (.ok result, ⟨w.machine, w.calls ++ [.fsRead r.grant params.path]⟩) := by
    have hdecode : Codec.decode codec.fsPath request.params = .ok params := by
      unfold Codec.decode
      rw [hparams]
    have hencode : codec.encode (.fsRead content) = .ok result := by
      unfold Codec.encode
      rw [hresult]
    have hask : Program.exec (Handler.ask (.fsRead r.grant params.path)
        (services.read r.grant params.path)) w =
          (.ok (.ok content), ⟨w.machine, w.calls ++ [.fsRead r.grant params.path]⟩) := by
      rw [← hread]
      rfl
    show Program.exec (r.serve services codec request) w = _
    unfold Router.serve
    rw [hmethod, if_neg (by decide), if_neg (by decide), if_pos rfl]
    unfold Router.fsRead
    rw [hdecode, Program.exec_bind_ok (Program.exec_check _ w), Program.exec_bind_ok hask,
      Program.exec_bind_ok (Program.exec_check _ _), hencode, Program.exec_check]
  have hdispatch : r.dispatch services codec request w =
      (.ok (result, .none), r, ⟨w.machine, w.calls ++ [.fsRead r.grant params.path]⟩) := by
    unfold Router.dispatch
    rw [hserve, hpairing, hmethod, if_neg (by decide), if_neg (by decide), if_neg (by decide),
      if_neg (by decide)]
    rfl
  unfold Router.handle
  rw [hdispatch]

/-- **A request that reads a file is answered** exactly where the file fits. -/
theorem read_answered_iff {r : Router} (hstate : r.state = .established) {request : Request}
    (hmethod : request.method = Method.fsRead) {params : FsPathParams}
    (hparams : codec.fsPath request.params = some params) {w : World σ} {content : FsReadResult}
    (hread : services.read r.grant params.path w.machine = .ok content) {result : List UInt8}
    (hresult : codec.result (.fsRead content) = some result) (registered : Option PairedDevice)
    (store : δ) :
    AnswersAll services codec onRegister binding ⟨⟨r, registered⟩, w, store⟩ [request] ↔
      binding.Fits (.response ⟨request.correlationId, .ok result⟩) := by
  rw [answers_iff services codec onRegister binding hstate registered w store [request],
    ResponsesFit, handle_fsRead hstate hmethod hparams hread hresult]
  exact and_iff_left trivial

/-! ### A file that is read and not sent -/

def sampleFile : FsPathParams := ⟨"/w/log"⟩

/-- The encoding, for the path of one file. -/
def fileCodec : Codec :=
  { Router.sampleCodec with
    fsPath := fun params =>
      if params = MethodCbor.struct [("path", MethodCbor.text sampleFile.path)] then some sampleFile
      else none
    result := fun result => some (MethodCbor.result result) }

/-- A machine on which every file has the same text. -/
def fileServices (text : String) : Services Unit :=
  { Router.bareServices with
    read := fun _ path _ => .ok ⟨path, text, .of (utf8 text), false⟩ }

/-- A request for the file. -/
def readFile : Request :=
  ⟨1, Method.fsRead, MethodCbor.struct [("path", MethodCbor.text sampleFile.path)]⟩

theorem answers_iff_sample :
    AnswersAll (fileServices "ok") fileCodec noRegistration .tcp sampleServed [readFile, readFile] :=
  (answers_iff (fileServices "ok") fileCodec noRegistration .tcp rfl none ⟨(), []⟩ ()
    [readFile, readFile]).mpr ⟨by decide +kernel, by decide +kernel, trivial⟩

/-- 300 KiB of text: less than a read may return, more than a frame over the
multiplexer holds. -/
def largeText : String := String.ofList (List.replicate (300 * 1024) 'a')

theorem length_largeText : (utf8 largeText).length = 300 * 1024 := by
  unfold largeText
  rw [utf8_ofList, List.length_flatMap, List.map_replicate, List.sum_replicate_nat]
  rfl

/-- **A file that ends the connection**: it is read, and the response is too
large for a frame. -/
theorem large_file :
    ¬ ∀ (services : Services Unit) (codec : Codec) (binding : Binding) (s₀ : Served Unit Unit)
        (requests : List Request), s₀.session.router.state = .established →
      AnswersAll services codec noRegistration binding s₀ requests := by
  intro hall
  have hanswered := hall (fileServices largeText) fileCodec .tcp sampleServed [readFile] rfl
  have hparams : fileCodec.fsPath readFile.params = some sampleFile := by decide +kernel
  let content : FsReadResult := ⟨sampleFile.path, largeText, .of (utf8 largeText), false⟩
  have hread (grant : Option DeviceGrant) :
      (fileServices largeText).read grant sampleFile.path () = .ok content := rfl
  have hresult : fileCodec.result (.fsRead content) = some (MethodCbor.fsReadResult content) := rfl
  have hfits : Binding.tcp.Fits (.response ⟨1, .ok (MethodCbor.fsReadResult content)⟩) :=
    (read_answered_iff rfl rfl hparams (hread _) hresult none ()).mp hanswered
  have hlen : (utf8 largeText).length ≤ Mux.MuxConfig.default.maxFrameLen :=
    calc (utf8 largeText).length
        ≤ (MethodCbor.fsReadResult content).length := MethodCbor.length_le_fsReadResult content
      _ ≤ _ := MethodCbor.length_le_response 1 _
      _ ≤ _ := hfits
      _ ≤ Mux.MuxConfig.default.maxFrameLen := Nat.min_le_right _ _
  rw [length_largeText] at hlen
  exact absurd hlen (by decide)

end Server
