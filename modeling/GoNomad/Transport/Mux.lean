import Mathlib.Tactic.Common
import GoNomad.Lib.Semaphore
import GoNomad.Transport.Error

/-!
# One endpoint of the channel multiplexer

The state behind one end of a connection and every operation on it: the local
ones (`open_bi`, `accept_bi`, sending and receiving on a stream, finishing and
dropping its halves), the writer's choice of the next segment, and the handling
of a decrypted segment.  An operation that fails may have changed the state
before it failed, so it returns the state beside its result.

A send is a future: it advances chunk by chunk, parks when the channel is out
of credit and can be dropped while it waits.  `SendHalf` and `RecvHalf` say how
far the future in progress has come.  The objects behind a channel's two halves
(its semaphore and its queue of reassembled frames) are shared between the
halves and the channel map; `Endpoint.streams` holds them, and a `ChannelState`
names the one it shares.
-/

namespace Mux

open Proto Transport

/-! ### Constants -/

/-- Identifies one logical stream inside a connection. -/
abbrev ChannelId := UInt32

/-- The control channel: the first stream the initiator opens. -/
def controlChannel : ChannelId := 0

/-- Bytes of mux segment header: the channel id plus the kind byte. -/
def segmentHeaderLen : Nat := 5

/-- Bytes a sealed record is longer than its plaintext. -/
def noiseTagLen : Nat := 16

/-- Largest plaintext one Noise record holds. -/
def maxPlaintextLen : Nat := 65535 - noiseTagLen

/-- Largest DATA body that fits in one Noise record. -/
def maxSegmentBody : Nat := maxPlaintextLen - segmentHeaderLen

def kindOpen : UInt8 := 0
def kindData : UInt8 := 1
def kindWindow : UInt8 := 2
def kindReset : UInt8 := 3

/-- How many closed channel ids are remembered. -/
def retiredMemory : Nat := 4096

/-- Most permits a semaphore can represent. -/
def maxPermits : Nat := (2 ^ 64 - 1) / 8

/-! ### Roles and configuration -/

/-- Which side of the connection an endpoint is. -/
inductive Role
  /-- The dialling side; opens even channel ids. -/
  | initiator
  /-- The listening side; opens odd channel ids. -/
  | responder
  deriving DecidableEq, Repr

namespace Role

/-- The first channel id this side may allocate. -/
def firstChannel : Role → ChannelId
  | initiator => 0
  | responder => 1

/-- The low bit every channel id opened by the peer must have. -/
def peerParity : Role → UInt32
  | initiator => 1
  | responder => 0

def other : Role → Role
  | initiator => responder
  | responder => initiator

@[simp] theorem other_other (r : Role) : r.other.other = r := by cases r <;> rfl

theorem other_ne (r : Role) : r.other ≠ r := by cases r <;> simp [other]

end Role

/-- Tuning for the multiplexer. -/
structure MuxConfig where
  initialWindow : UInt32
  maxFrameLen : Nat
  maxChannels : Nat
  deriving DecidableEq, Repr

namespace MuxConfig

/-- The window as a `usize`, for semaphore accounting. -/
def window (cfg : MuxConfig) : Nat := cfg.initialWindow.toNat

/-- The defaults. -/
def default : MuxConfig where
  initialWindow := 512 * 1024
  maxFrameLen := 256 * 1024
  maxChannels := 64

/-- Checks the invariants the multiplexer relies on. -/
def validate (cfg : MuxConfig) : Except TransportError Unit :=
  if cfg.maxChannels = 0 then
    .error (.config "max_channels must be at least 1")
  else if cfg.maxFrameLen = 0 then
    .error (.config "max_frame_len must be at least 1")
  else if maxPermits < cfg.window then
    .error (.config "initial_window exceeds the maximum representable credit")
  -- The deadlock guard: one whole frame, header included, must fit.
  else if cfg.window < cfg.maxFrameLen + headerLen then
    .error (.config "initial_window must be at least max_frame_len + frame header")
  else
    .ok ()

end MuxConfig

/-! ### Segments -/

/-- One segment queued for the writer. -/
structure Segment where
  channel : ChannelId
  kind : UInt8
  body : Bytes
  deriving DecidableEq, Repr

namespace Segment

def «open» (channel : ChannelId) : Segment := ⟨channel, kindOpen, []⟩

def reset (channel : ChannelId) : Segment := ⟨channel, kindReset, []⟩

def window (channel : ChannelId) (credit : UInt32) : Segment :=
  ⟨channel, kindWindow, BigEndian.ofU32 credit⟩

def data (channel : ChannelId) (body : Bytes) : Segment := ⟨channel, kindData, body⟩

def encode (seg : Segment) : Bytes :=
  BigEndian.ofU32 seg.channel ++ seg.kind :: seg.body

end Segment

/-! ### State -/

/-- Per-channel receive state.  `inst` is the stream whose semaphore and inbound
queue this entry shares. -/
structure ChannelState where
  inst : Nat
  inbound : Bool
  assembler : Bytes
  unacked : Nat
  deriving DecidableEq, Repr

/-- Where a send is between two suspension points: about to acquire credit for
the first of its remaining chunks, parked in that acquisition, or holding the
credit with the chunk not yet pushed. -/
inductive Stage
  | acquiring
  | parked
  | acquired
  deriving DecidableEq, Repr

/-- The write half of a stream and its send in progress. -/
inductive SendHalf
  | idle
  | sending (stage : Stage) (frame : Frame) (chunks : List Bytes)
  deriving DecidableEq

/-- The read half of a stream: between two receives, or holding a frame whose
credit has not been returned yet. -/
inductive RecvHalf
  | idle
  | popped (frame : Frame)
  deriving DecidableEq

/-- The objects behind the two halves of a stream; a half that was dropped or
finished is `none`. -/
structure Stream where
  id : ChannelId
  credit : Semaphore
  rx : List Frame
  send : Option SendHalf
  recv : Option RecvHalf
  deriving DecidableEq

/-- Everything both tasks and every stream handle of one end share. -/
structure Endpoint where
  cfg : MuxConfig
  role : Role
  nextLocal : ChannelId
  urgent : List Segment
  out : Std.ExtTreeMap ChannelId (List Segment)
  cursor : ChannelId
  channels : Std.ExtTreeMap ChannelId ChannelState
  retired : Std.ExtTreeSet ChannelId
  retiredOrder : List ChannelId
  acceptTx : Bool
  acceptRx : List Nat
  closed : Bool
  closeErr : Option TransportError
  streams : List Stream

namespace Endpoint

/-- A fresh endpoint, for a configuration that passes its checks. -/
def spawn (cfg : MuxConfig) (role : Role) : Except TransportError Endpoint :=
  match cfg.validate with
  | .error err => .error err
  | .ok () => .ok
      { cfg := cfg
        role := role
        nextLocal := role.firstChannel
        urgent := []
        out := ∅
        cursor := 0
        channels := ∅
        retired := ∅
        retiredOrder := []
        acceptTx := true
        acceptRx := []
        closed := false
        closeErr := none
        streams := [] }

/-! ### Shared operations -/

/-- The error a stream should report once the link is gone. -/
def closeError (e : Endpoint) : TransportError := e.closeErr.getD .closed

/-- Puts a segment at the end of its channel's outbound queue. -/
def enqueue (e : Endpoint) (seg : Segment) : Endpoint :=
  { e with out := e.out.insert seg.channel (e.out[seg.channel]?.getD [] ++ [seg]) }

/-- Registers a channel and hands back its stream. -/
def insertChannel (e : Endpoint) (id : ChannelId) : Endpoint × Nat :=
  let inst := e.streams.length
  ({ e with
      channels := e.channels.insert id ⟨inst, true, [], 0⟩
      out := e.out.insertIfNew id []
      streams := e.streams ++ [⟨id, .new e.cfg.window, [], some .idle, some .idle⟩] }, inst)

/-- Allocates the next local channel id and announces it.  The id is used up
even when the open is refused. -/
def openLocal (e : Endpoint) : Endpoint × Except TransportError Nat :=
  let id := e.nextLocal
  let e := { e with nextLocal := id + 2 }
  if e.closed then
    (e, .error e.closeError)
  else if e.cfg.maxChannels ≤ e.channels.size then
    (e, .error (.tooManyChannels e.cfg.maxChannels))
  else if e.channels.contains id || e.retired.contains id then
    (e, .error (.tooManyChannels e.cfg.maxChannels))
  else
    let (e, inst) := e.insertChannel id
    (e.enqueue (.open id), .ok inst)

/-- Queues one chunk of a channel's frame stream. -/
def pushData (e : Endpoint) (id : ChannelId) (chunk : Bytes) :
    Endpoint × Except TransportError Unit :=
  if e.closed then
    (e, .error e.closeError)
  else if !e.channels.contains id then
    (e, .error .streamClosed)
  else
    (e.enqueue (.data id chunk), .ok ())

/-- Gives the peer back credit for bytes the application has consumed. -/
def returnCredit (e : Endpoint) (id : ChannelId) (bytes : Nat) : Endpoint :=
  if 2 ^ 32 ≤ bytes then
    e
  else if e.closed then
    e
  else
    match e.channels[id]? with
    | none => e
    | some state =>
        { e with
          channels := e.channels.insert id { state with unacked := state.unacked - bytes }
          urgent := e.urgent ++ [.window id (UInt32.ofNat bytes)] }

/-- Forgets the oldest retired ids while there are more than are remembered. -/
def trimRetired :
    List ChannelId → Std.ExtTreeSet ChannelId → List ChannelId × Std.ExtTreeSet ChannelId
  | [], retired => ([], retired)
  | old :: order, retired =>
      if retiredMemory < (old :: order).length then
        trimRetired order (retired.erase old)
      else
        (old :: order, retired)

/-- Remembers a closed id. -/
def retire (e : Endpoint) (id : ChannelId) : Endpoint :=
  if e.retired.contains id then
    e
  else
    let (order, retired) := trimRetired (e.retiredOrder ++ [id]) (e.retired.insert id)
    { e with retired := retired, retiredOrder := order }

/-- Whether closing a channel now would do anything. -/
def holds (e : Endpoint) (id : ChannelId) : Bool := !e.closed && e.channels.contains id

/-- Tears down a channel locally and tells the peer.  The RESET goes behind
whatever the channel has queued. -/
def closeChannel (e : Endpoint) (id : ChannelId) : Endpoint :=
  if e.holds id then
    ({ e with channels := e.channels.erase id }.retire id).enqueue (.reset id)
  else
    e

/-- The channel the writer serves next: the control channel, else the first
nonempty queue from the cursor on, else the first nonempty queue. -/
def pick (e : Endpoint) : Option ChannelId :=
  if e.out[controlChannel]?.getD [] ≠ [] then
    some controlChannel
  else
    match e.out.toList.find? fun entry => e.cursor ≤ entry.1 && !entry.2.isEmpty with
    | some entry => some entry.1
    | none => (e.out.toList.find? fun entry => !entry.2.isEmpty).map (·.1)

/-- The cursor after serving `id`. -/
def advance (cursor id : ChannelId) : ChannelId :=
  if id = controlChannel then cursor else if id = 0xFFFFFFFF then id else id + 1

/-- Picks the next segment to write, or `none` when there is nothing to do. -/
def takeNext (e : Endpoint) : Option (Segment × Endpoint) :=
  match e.urgent with
  | seg :: rest => some (seg, { e with urgent := rest })
  | [] =>
      match e.pick with
      | none => none
      | some id =>
          match e.out[id]? with
          | some (seg :: rest) =>
              -- A closed channel's queue is reclaimed with its last segment.
              let out :=
                if rest.isEmpty && !e.channels.contains id then
                  e.out.erase id
                else
                  e.out.insert id rest
              some (seg, { e with cursor := advance e.cursor id, out := out })
          | _ => none

/-- Marks the link dead and wakes everything waiting on it. -/
def shutdown (e : Endpoint) (err : Option TransportError) : Endpoint :=
  if e.closed then
    e
  else
    { e with
      closed := true
      closeErr := err
      urgent := []
      out := ∅
      acceptTx := false
      channels := ∅
      streams := e.streams.mapIdx fun i stream =>
        if e.channels.toList.any fun entry => entry.2.inst == i then
          { stream with credit := stream.credit.close }
        else
          stream }

/-! ### Handling a segment from the peer -/

/-- Replaces a stream. -/
def setStream (e : Endpoint) (i : Nat) (stream : Stream) : Endpoint :=
  { e with streams := e.streams.set i stream }

/-- Dropping both halves of a stream nobody accepted closes its channel. -/
def dropPair (e : Endpoint) (i : Nat) : Endpoint :=
  match e.streams[i]? with
  | none => e
  | some stream => (e.setStream i { stream with send := none, recv := none }).closeChannel stream.id

def peerOpen (e : Endpoint) (channel : ChannelId) : Endpoint × Except TransportError Unit :=
  if channel % 2 ≠ e.role.peerParity then
    (e, .error (.protocol (.wrongChannelParity channel)))
  else if e.closed || e.retired.contains channel then
    (e, .ok ())
  else if e.channels.contains channel then
    (e, .error (.protocol (.duplicateChannel channel)))
  else if e.cfg.maxChannels ≤ e.channels.size then
    (e, .error (.protocol (.tooManyChannels e.cfg.maxChannels)))
  else
    let (e, inst) := e.insertChannel channel
    if e.acceptTx then
      ({ e with acceptRx := e.acceptRx ++ [inst] }, .ok ())
    else
      (e.dropPair inst, .ok ())

/-- The payload length announced at the front of the assembler, when it is more
than this binding reassembles. -/
def oversized (maxFrame : Nat) (assembler : Bytes) : Option Nat :=
  match assembler with
  | a :: b :: c :: d :: _ :: _ =>
      let declared := Frame.declaredLen a b c d
      if maxFrame < declared then some declared else none
  | _ => none

/-- Cuts complete frames off the assembler, handing each to the reader or, with
no reader left, adding its cost to the refund.  Every round consumes a header
at least, so as many rounds as there are bytes are enough. -/
def reassemble (maxFrame : Nat) :
    Nat → ChannelState → Stream → Nat →
      (ChannelState × Stream × Nat) × Except TransportError Unit
  | 0, state, stream, refund => ((state, stream, refund), .ok ())
  | rounds + 1, state, stream, refund =>
      match oversized maxFrame state.assembler with
      | some declared =>
          ((state, stream, refund), .error (.protocol (.oversizedFrame declared maxFrame)))
      | none =>
          match Frame.decode state.assembler with
          | .error err => ((state, stream, refund), .error (.framing err))
          | .ok none => ((state, stream, refund), .ok ())
          | .ok (some (frame, used)) =>
              let state := { state with assembler := state.assembler.drop used }
              if state.inbound && stream.recv.isSome then
                reassemble maxFrame rounds state { stream with rx := stream.rx ++ [frame] } refund
              else
                reassemble maxFrame rounds { state with inbound := false } stream (refund + used)

def peerData (e : Endpoint) (channel : ChannelId) (body : Bytes) :
    Endpoint × Except TransportError Unit :=
  if body.isEmpty then
    (e, .ok ())
  else if e.closed || e.retired.contains channel then
    (e, .ok ())
  else
    match e.channels[channel]? with
    | none => (e, .error (.protocol (.unknownChannel channel)))
    | some state =>
        match e.streams[state.inst]? with
        | none => (e, .ok ())
        | some stream =>
            let state := { state with unacked := state.unacked + body.length }
            if e.cfg.window < state.unacked then
              ({ e with channels := e.channels.insert channel state },
                .error (.protocol (.flowControlExceeded channel)))
            else
              let state := { state with assembler := state.assembler ++ body }
              let ((state, stream, refund), result) :=
                reassemble e.cfg.maxFrameLen (state.assembler.length + 1) state stream 0
              match result with
              | .error err =>
                  ({ e with channels := e.channels.insert channel state }.setStream
                    state.inst stream, .error err)
              | .ok () =>
                  let state := { state with unacked := state.unacked - refund }
                  let e := { e with channels := e.channels.insert channel state }.setStream
                    state.inst stream
                  if 0 < refund && refund < 2 ^ 32 then
                    ({ e with urgent := e.urgent ++ [.window channel (UInt32.ofNat refund)] },
                      .ok ())
                  else
                    (e, .ok ())

def peerWindow (e : Endpoint) (channel : ChannelId) (body : Bytes) :
    Endpoint × Except TransportError Unit :=
  match body with
  | [a, b, c, d] =>
      let granted := (BigEndian.toU32 a b c d).toNat
      if e.closed || e.retired.contains channel then
        (e, .ok ())
      else
        match e.channels[channel]? with
        | none => (e, .ok ())
        | some state =>
            match e.streams[state.inst]? with
            | none => (e, .ok ())
            | some stream =>
                if e.cfg.window < stream.credit.permits + granted then
                  (e, .error (.protocol (.flowControlInflated channel)))
                else
                  (e.setStream state.inst { stream with credit := stream.credit.addPermits granted },
                    .ok ())
  | _ => (e, .error (.protocol (.malformedWindowUpdate channel)))

def peerReset (e : Endpoint) (channel : ChannelId) : Endpoint :=
  if e.closed then
    e
  else
    let e' :=
      match e.channels[channel]? with
      | none => e
      | some state =>
          match e.streams[state.inst]? with
          | none => { e with channels := e.channels.erase channel }
          | some stream =>
              { e with channels := e.channels.erase channel }.setStream state.inst
                { stream with credit := stream.credit.close }
    { e' with out := e'.out.erase channel }.retire channel

/-- Dispatches one decrypted segment. -/
def handleSegment (e : Endpoint) (segment : Bytes) : Endpoint × Except TransportError Unit :=
  match segment with
  | a :: b :: c :: d :: kind :: body =>
      let channel := BigEndian.toU32 a b c d
      if kind = kindOpen then
        e.peerOpen channel
      else if kind = kindData then
        e.peerData channel body
      else if kind = kindWindow then
        e.peerWindow channel body
      else if kind = kindReset then
        (e.peerReset channel, .ok ())
      else
        (e, .error (.protocol (.unknownSegmentKind kind)))
  | _ => (e, .error (.protocol (.malformedSegment segment.length segmentHeaderLen)))

/-! ### Operations of the application -/

/-- What one step of an endpoint shows to the outside. -/
inductive Obs
  | silent
  | opened (id : ChannelId)
  | openFailed (err : TransportError)
  | accepted (id : ChannelId)
  | acceptFailed (err : TransportError)
  | sendStarted (id : ChannelId) (frame : Frame)
  /-- A chunk was queued: whether it was the first, and the last, of its frame.
  The last one completes the send. -/
  | pushed (id : ChannelId) (frame : Frame) (first last : Bool)
  | sendFailed (id : ChannelId) (frame : Frame) (err : TransportError)
  | sendCancelled (id : ChannelId) (frame : Frame) (torn : Bool)
  | sendDropped (id : ChannelId) (closed : Bool)
  | recvDropped (id : ChannelId) (unread : List Frame) (closed : Bool)
  | received (id : ChannelId) (frame : Frame)
  | ended (id : ChannelId)
  | recvFailed (id : ChannelId) (err : TransportError)
  | taken (segment : Segment)
  | delivered (result : Except TransportError Unit)

/-- What the application may do with one endpoint.  Streams are named by the
place of their object; a send or a receive takes several steps. -/
inductive LocalOp
  | openBi
  | acceptBi
  | sendStart (i : Nat) (frame : Frame)
  | sendStep (i : Nat)
  | sendCancel (i : Nat)
  | finish (i : Nat)
  | dropSend (i : Nat)
  | dropRecv (i : Nat)
  | recvPop (i : Nat)
  | recvCredit (i : Nat)
  | recvEnd (i : Nat)
  | close
  deriving DecidableEq

/-- The stream behind a handle the application holds: one still waiting to be
accepted is not in its hands yet. -/
def stream? (e : Endpoint) (i : Nat) : Option Stream :=
  if i ∈ e.acceptRx then none else e.streams[i]?

/-- The error of a send whose semaphore was closed. -/
def closedError (e : Endpoint) : TransportError :=
  if e.closed then e.closeError else .streamClosed

def openBi (e : Endpoint) : Endpoint × Obs :=
  match e.openLocal with
  | (e', .ok _) => (e', .opened e.nextLocal)
  | (e', .error err) => (e', .openFailed err)

/-- Waits for the peer to open a channel; `none` while it waits. -/
def acceptBi (e : Endpoint) : Option (Endpoint × Obs) :=
  match e.acceptRx with
  | i :: rest =>
      match e.streams[i]? with
      | none => none
      | some stream => some ({ e with acceptRx := rest }, .accepted stream.id)
  | [] => if e.acceptTx then none else some (e, .acceptFailed e.closeError)

/-- A send begins: the frame is checked against the cap and cut into chunks. -/
def sendStart (e : Endpoint) (i : Nat) (stream : Stream) (frame : Frame) : Endpoint × Obs :=
  if e.cfg.maxFrameLen < frame.payload.length then
    (e, .sendFailed stream.id frame
      (.frameTooLarge frame.payload.length e.cfg.maxFrameLen))
  else
    (e.setStream i
      { stream with
        send := some (.sending .acquiring frame
          (BigEndian.chunks maxSegmentBody frame.encode)) },
      .sendStarted stream.id frame)

/-- What a poll of the acquisition for the next chunk makes of the send. -/
def sendPolled (e : Endpoint) (i : Nat) (stream : Stream) (frame : Frame) (chunks : List Bytes)
    (polled : Semaphore × Semaphore.Poll) : Endpoint × Obs :=
  match polled with
  | (credit, .acquired) =>
      (e.setStream i
        { stream with credit := credit, send := some (.sending .acquired frame chunks) }, .silent)
  | (credit, .pending) =>
      (e.setStream i
        { stream with credit := credit, send := some (.sending .parked frame chunks) }, .silent)
  | (credit, .closed) =>
      (e.setStream i { stream with credit := credit, send := some .idle },
        .sendFailed stream.id frame e.closedError)

/-- The chunk whose credit was acquired is pushed. -/
def sendPush (e : Endpoint) (i : Nat) (stream : Stream) (frame : Frame) (chunk : Bytes)
    (rest : List Bytes) : Endpoint × Obs :=
  match e.pushData stream.id chunk with
  | (e, .error err) =>
      (e.setStream i { stream with send := some .idle }, .sendFailed stream.id frame err)
  | (e, .ok ()) =>
      (e.setStream i
        { stream with
          send := some (if rest.isEmpty then .idle else .sending .acquiring frame rest) },
        .pushed stream.id frame ((chunk :: rest).flatten == frame.encode) rest.isEmpty)

/-- One step of the send in progress; `none` while it is parked. -/
def sendStep (e : Endpoint) (i : Nat) (stream : Stream) : Option (Endpoint × Obs) :=
  match stream.send with
  | some (.sending .acquiring frame (chunk :: rest)) =>
      some (e.sendPolled i stream frame (chunk :: rest) (stream.credit.acquireMany chunk.length))
  | some (.sending .parked frame (chunk :: rest)) =>
      if stream.credit.poll.2 = .pending then
        none
      else
        some (e.sendPolled i stream frame (chunk :: rest) stream.credit.poll)
  | some (.sending .acquired frame (chunk :: rest)) =>
      some (e.sendPush i stream frame chunk rest)
  | _ => none

/-- The send in progress is dropped at a suspension point. -/
def sendCancel (e : Endpoint) (i : Nat) (stream : Stream) : Option (Endpoint × Obs) :=
  match stream.send with
  | some (.sending .acquired _ _) => none
  | some (.sending _ frame chunks) =>
      some (e.setStream i { stream with credit := stream.credit.cancel, send := some .idle },
        .sendCancelled stream.id frame (chunks.flatten != frame.encode))
  | _ => none

/-- `finish` closes the channel and consumes the write half; with the read half
gone too, dropping the last handle closes once more. -/
def finish (e : Endpoint) (i : Nat) (stream : Stream) : Option (Endpoint × Obs) :=
  match stream.send with
  | some .idle =>
      let closed := (e.setStream i { stream with send := none }).closeChannel stream.id
      some (if stream.recv.isNone then closed.closeChannel stream.id else closed,
        .sendDropped stream.id (e.holds stream.id))
  | _ => none

def dropSend (e : Endpoint) (i : Nat) (stream : Stream) : Option (Endpoint × Obs) :=
  match stream.send with
  | some .idle =>
      let e' := e.setStream i { stream with send := none }
      some (if stream.recv.isNone then e'.closeChannel stream.id else e',
        .sendDropped stream.id (stream.recv.isNone && e.holds stream.id))
  | _ => none

def dropRecv (e : Endpoint) (i : Nat) (stream : Stream) : Option (Endpoint × Obs) :=
  match stream.recv with
  | some .idle =>
      let e' := e.setStream i { stream with recv := none, rx := [] }
      some (if stream.send.isNone then e'.closeChannel stream.id else e',
        .recvDropped stream.id stream.rx (stream.send.isNone && e.holds stream.id))
  | _ => none

/-- `recv` takes a frame out of the queue. -/
def recvPop (e : Endpoint) (i : Nat) (stream : Stream) : Option (Endpoint × Obs) :=
  match stream.recv, stream.rx with
  | some .idle, frame :: rest =>
      some (e.setStream i { stream with recv := some (.popped frame), rx := rest }, .silent)
  | _, _ => none

/-- `recv` returns the credit of the frame it took, and the frame. -/
def recvCredit (e : Endpoint) (i : Nat) (stream : Stream) : Option (Endpoint × Obs) :=
  match stream.recv with
  | some (.popped frame) =>
      some ((e.setStream i { stream with recv := some .idle }).returnCredit
        stream.id frame.wireLen, .received stream.id frame)
  | _ => none

/-- Whether the sending end of a stream's inbound queue is still held. -/
def inboundOpen (e : Endpoint) (i : Nat) (stream : Stream) : Bool :=
  match e.channels[stream.id]? with
  | some state => state.inst == i && state.inbound
  | none => false

/-- `recv` finds its queue empty and its sending end dropped. -/
def recvEnd (e : Endpoint) (i : Nat) (stream : Stream) : Option (Endpoint × Obs) :=
  match stream.recv, stream.rx with
  | some .idle, [] =>
      if e.inboundOpen i stream then
        none
      else if e.closed then
        match e.closeError with
        | .closed => some (e, .ended stream.id)
        | err => some (e, .recvFailed stream.id err)
      else
        some (e, .ended stream.id)
  | _, _ => none

/-- One step of the application. -/
def perform (e : Endpoint) : LocalOp → Option (Endpoint × Obs)
  | .openBi => some e.openBi
  | .acceptBi => e.acceptBi
  | .sendStart i frame => do
      let stream ← e.stream? i
      if stream.send = some .idle then some (e.sendStart i stream frame) else none
  | .sendStep i => do e.sendStep i (← e.stream? i)
  | .sendCancel i => do e.sendCancel i (← e.stream? i)
  | .finish i => do e.finish i (← e.stream? i)
  | .dropSend i => do e.dropSend i (← e.stream? i)
  | .dropRecv i => do e.dropRecv i (← e.stream? i)
  | .recvPop i => do e.recvPop i (← e.stream? i)
  | .recvCredit i => do e.recvCredit i (← e.stream? i)
  | .recvEnd i => do e.recvEnd i (← e.stream? i)
  | .close => some (e.shutdown none, .silent)

end Endpoint

end Mux
