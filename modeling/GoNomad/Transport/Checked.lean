import GoNomad.Transport.Changes

/-!
# The handlers with every check written out

The handlers as they run on machine words: an index or a slice out of bounds, a
semaphore with more permits than it can represent, and an addition or a
subtraction that would saturate end in `none`.

* `Checked.handleSegment_eq` — none of this happens on an endpoint within its
  bounds;
* `Checked.returnCredit_eq` — nor when a stream returns credit of its own.
-/

namespace Mux

open Proto Transport

namespace Checked

/-- An addition that would saturate at the largest word. -/
def add (a b : Nat) : Option Nat := if a + b < 2 ^ 64 then some (a + b) else none

/-- A subtraction that would saturate at zero. -/
def sub (a b : Nat) : Option Nat := if b ≤ a then some (a - b) else none

/-- The bytes from a position on. -/
def slice (xs : Bytes) (start : Nat) : Option Bytes :=
  if start ≤ xs.length then some (xs.drop start) else none

/-- Permits are added up to what a semaphore can represent. -/
def addPermits (s : Semaphore) (n : Nat) : Option Semaphore :=
  if s.permits + n ≤ maxPermits then some (s.addPermits n) else none

/-- The big-endian word at the front. -/
def word (xs : Bytes) : Option UInt32 := do
  let a ← xs[0]?
  let b ← xs[1]?
  let c ← xs[2]?
  let d ← xs[3]?
  return BigEndian.toU32 a b c d

/-- The payload length announced at the front of the assembler, when it is more
than this binding reassembles. -/
def oversized (maxFrame : Nat) (assembler : Bytes) : Option (Option Nat) :=
  if headerLen ≤ assembler.length then do
    let declared := (← word assembler).toNat
    return if maxFrame < declared then some declared else none
  else
    return none

def reassemble (maxFrame : Nat) :
    Nat → ChannelState → Stream → Nat →
      Option ((ChannelState × Stream × Nat) × Except TransportError Unit)
  | 0, state, stream, refund => some ((state, stream, refund), .ok ())
  | rounds + 1, state, stream, refund => do
      match ← oversized maxFrame state.assembler with
      | some declared =>
          return ((state, stream, refund), .error (.protocol (.oversizedFrame declared maxFrame)))
      | none =>
          match Frame.decode state.assembler with
          | .error err => return ((state, stream, refund), .error (.framing err))
          | .ok none => return ((state, stream, refund), .ok ())
          | .ok (some (frame, used)) =>
              let state := { state with assembler := ← slice state.assembler used }
              if state.inbound && stream.recv.isSome then
                reassemble maxFrame rounds state { stream with rx := stream.rx ++ [frame] } refund
              else
                reassemble maxFrame rounds { state with inbound := false } stream
                  (← add refund used)

def peerData (e : Endpoint) (channel : ChannelId) (body : Bytes) :
    Option (Endpoint × Except TransportError Unit) :=
  if body.isEmpty then
    some (e, .ok ())
  else if e.closed || e.retired.contains channel then
    some (e, .ok ())
  else
    match e.channels[channel]? with
    | none => some (e, .error (.protocol (.unknownChannel channel)))
    | some state =>
        match e.streams[state.inst]? with
        | none => some (e, .ok ())
        | some stream => do
            let state := { state with unacked := ← add state.unacked body.length }
            if e.cfg.window < state.unacked then
              return ({ e with channels := e.channels.insert channel state },
                .error (.protocol (.flowControlExceeded channel)))
            let state := { state with assembler := state.assembler ++ body }
            let ((state, stream, refund), result) ←
              reassemble e.cfg.maxFrameLen (state.assembler.length + 1) state stream 0
            match result with
            | .error err =>
                return (({ e with channels := e.channels.insert channel state } : Endpoint).setStream
                  state.inst stream, .error err)
            | .ok () =>
                let state := { state with unacked := ← sub state.unacked refund }
                let e := ({ e with channels := e.channels.insert channel state } : Endpoint).setStream
                  state.inst stream
                if 0 < refund && refund < 2 ^ 32 then
                  return ({ e with urgent := e.urgent ++ [.window channel (UInt32.ofNat refund)] },
                    .ok ())
                return (e, .ok ())

def peerWindow (e : Endpoint) (channel : ChannelId) (body : Bytes) :
    Option (Endpoint × Except TransportError Unit) :=
  if body.length ≠ 4 then
    some (e, .error (.protocol (.malformedWindowUpdate channel)))
  else do
    let granted := (← word body).toNat
    if e.closed || e.retired.contains channel then
      return (e, .ok ())
    match e.channels[channel]? with
    | none => return (e, .ok ())
    | some state =>
        match e.streams[state.inst]? with
        | none => return (e, .ok ())
        | some stream =>
            if e.cfg.window < (← add stream.credit.permits granted) then
              return (e, .error (.protocol (.flowControlInflated channel)))
            return (e.setStream state.inst
              { stream with credit := ← addPermits stream.credit granted }, .ok ())

/-- Dispatches one decrypted segment. -/
def handleSegment (e : Endpoint) (segment : Bytes) :
    Option (Endpoint × Except TransportError Unit) :=
  if segment.length < segmentHeaderLen then
    some (e, .error (.protocol (.malformedSegment segment.length segmentHeaderLen)))
  else do
    let channel ← word segment
    let kind ← segment[4]?
    let body ← slice segment segmentHeaderLen
    if kind = kindOpen then
      return e.peerOpen channel
    else if kind = kindData then
      peerData e channel body
    else if kind = kindWindow then
      peerWindow e channel body
    else if kind = kindReset then
      return (e.peerReset channel, .ok ())
    else
      return (e, .error (.protocol (.unknownSegmentKind kind)))

/-- Gives the peer back credit for bytes the application has consumed. -/
def returnCredit (e : Endpoint) (id : ChannelId) (bytes : Nat) : Option Endpoint :=
  if 2 ^ 32 ≤ bytes then
    some e
  else if e.closed then
    some e
  else
    match e.channels[id]? with
    | none => some e
    | some state => do
        return { e with
          channels := e.channels.insert id { state with unacked := ← sub state.unacked bytes }
          urgent := e.urgent ++ [.window id (UInt32.ofNat bytes)] }

/-! ### None of it happens -/

theorem add_eq {a b : Nat} (h : a + b < 2 ^ 64) : add a b = some (a + b) := if_pos h

theorem sub_eq {a b : Nat} (h : b ≤ a) : sub a b = some (a - b) := if_pos h

theorem slice_eq {xs : Bytes} {start : Nat} (h : start ≤ xs.length) :
    slice xs start = some (xs.drop start) := if_pos h

theorem oversized_eq (maxFrame : Nat) (assembler : Bytes) :
    oversized maxFrame assembler = some (Endpoint.oversized maxFrame assembler) := by
  match assembler with
  | [] => rfl
  | [_] => rfl
  | [_, _] => rfl
  | [_, _, _] => rfl
  | [_, _, _, _] => rfl
  | a :: b :: c :: d :: bits :: body =>
      have hlen : headerLen ≤ (a :: b :: c :: d :: bits :: body).length := by
        unfold headerLen
        simp only [List.length_cons]
        omega
      unfold oversized
      rw [if_pos hlen]
      rfl

/-- The loop drains no more than it has. -/
theorem reassemble_eq {maxFrame : Nat} {rounds : Nat} {state : ChannelState} {stream : Stream}
    {refund : Nat} (h : refund + state.assembler.length < 2 ^ 64) :
    reassemble maxFrame rounds state stream refund =
      some (Endpoint.reassemble maxFrame rounds state stream refund) := by
  induction rounds generalizing state stream refund with
  | zero => rfl
  | succ rounds ih =>
      unfold reassemble Endpoint.reassemble
      rw [oversized_eq]
      cases Endpoint.oversized maxFrame state.assembler with
      | some declared => rfl
      | none =>
          cases hdecode : Frame.decode state.assembler with
          | error err => simp only [Option.bind_eq_bind, Option.bind_some]; rfl
          | ok cut =>
              cases cut with
              | none => simp only [Option.bind_eq_bind, Option.bind_some]; rfl
              | some cut =>
                  obtain ⟨frame, used⟩ := cut
                  obtain ⟨hused, hbytes⟩ := Frame.decode_some hdecode
                  have hlen := congrArg List.length hbytes
                  rw [List.length_append, Frame.length_encode, List.length_drop] at hlen
                  have hle : used ≤ state.assembler.length := by omega
                  simp only [Option.bind_eq_bind, Option.bind_some, slice_eq hle]
                  split_ifs
                  · exact ih (by rw [List.length_drop]; omega)
                  · rw [add_eq (by omega), Option.bind_some]
                    exact ih (by dsimp only; rw [List.length_drop]; omega)

variable {e : Endpoint} {id : ChannelId}

theorem window_lt (cfg : MuxConfig) : cfg.window < 2 ^ 32 := cfg.initialWindow.toNat_lt

theorem peerData_eq (h : e.Tight False) {body : Bytes} (hfit : body.length < 2 ^ 63) :
    peerData e id body = some (e.peerData id body) := by
  unfold peerData Endpoint.peerData
  split_ifs
  · rfl
  · rfl
  cases hstate : e.channels[id]? with
  | none => rfl
  | some state =>
      obtain ⟨stream, hi, -, -, hin, hcovered⟩ := h.entry id state hstate
      have hunacked := hcovered.unacked
      have hwithin := hcovered.within.resolve_left not_false
      have hwindow := window_lt e.cfg
      dsimp only
      rw [hi]
      dsimp only
      rw [add_eq (by omega)]
      simp only [Option.bind_eq_bind, Option.bind_some]
      by_cases hbig : e.cfg.window < state.unacked + body.length
      · rw [if_pos hbig, if_pos hbig]
        rfl
      rw [if_neg hbig, if_neg hbig]
      obtain ⟨fs, state', stream', refund, result, heq, hcut, -, -⟩ :=
        @Endpoint.reassemble_spec e.cfg.maxFrameLen ((state.assembler ++ body).length + 1)
          { state with assembler := state.assembler ++ body,
                       unacked := state.unacked + body.length } stream 0
          (Nat.lt_succ_self _) hin
      have hconserved := hcut.conserved
      have hsame := hcut.unacked
      dsimp only at hconserved hsame
      rw [List.length_append] at hconserved
      rw [reassemble_eq (by dsimp only; rw [List.length_append]; omega), heq]
      cases result with
      | error err => rfl
      | ok u =>
          have hle : refund ≤ state'.unacked := by omega
          simp only [Option.bind_some, sub_eq hle]
          split_ifs <;> rfl

theorem peerWindow_eq (h : e.Tight False) (body : Bytes) :
    peerWindow e id body = some (e.peerWindow id body) := by
  match body with
  | [] => rfl
  | [_] => rfl
  | [_, _] => rfl
  | [_, _, _] => rfl
  | _ :: _ :: _ :: _ :: _ :: _ => rfl
  | [a, b, c, d] =>
      unfold peerWindow Endpoint.peerWindow
      rw [if_neg (by simp)]
      show (do _ : Option _) = _
      have hgranted : (BigEndian.toU32 a b c d).toNat < 2 ^ 32 := UInt32.toNat_lt _
      simp only [word, List.getElem?_cons_zero, List.getElem?_cons_succ, Option.bind_eq_bind,
        Option.bind_some, Option.pure_def]
      split_ifs
      · rfl
      cases hstate : e.channels[id]? with
      | none => rfl
      | some state =>
          obtain ⟨stream, hi, -, hopen, -, -⟩ := h.entry id state hstate
          have hcredit := (h.credit.resolve_left not_false) stream (List.mem_of_getElem? hi) hopen
          have hwindow := window_lt e.cfg
          dsimp only
          rw [hi]
          dsimp only
          rw [add_eq (by omega), Option.bind_some]
          split_ifs with hbig
          · rfl
          · unfold addPermits
            rw [if_pos (by unfold maxPermits; omega)]
            rfl

/-- **No segment makes the handler panic or saturate.** -/
theorem handleSegment_eq (h : e.Tight False) {segment : Bytes} (hfit : segment.length < 2 ^ 63) :
    handleSegment e segment = some (e.handleSegment segment) := by
  match segment with
  | [] => rfl
  | [_] => rfl
  | [_, _] => rfl
  | [_, _, _] => rfl
  | [_, _, _, _] => rfl
  | a :: b :: c :: d :: kind :: body =>
      have hlen : ¬ (a :: b :: c :: d :: kind :: body).length < segmentHeaderLen := by
        unfold segmentHeaderLen
        simp only [List.length_cons]
        omega
      have hbody : body.length < 2 ^ 63 := by
        simp only [List.length_cons] at hfit
        omega
      unfold handleSegment Endpoint.handleSegment
      rw [if_neg hlen, slice_eq (by omega)]
      simp only [word, segmentHeaderLen, List.getElem?_cons_zero, List.getElem?_cons_succ,
        Option.bind_eq_bind, Option.bind_some, Option.pure_def, List.drop_succ_cons,
        List.drop_zero]
      split_ifs
      · rfl
      · exact peerData_eq h hbody
      · exact peerWindow_eq h body
      · rfl
      · rfl

/-- **A stream returns no more credit than its own entry has to give.** -/
theorem returnCredit_eq (h : e.Tight False) {i : Nat} {stream stream' : Stream} {frame : Frame}
    (hi : e.streams[i]? = some stream) (hrecv : stream.recv = some (.popped frame))
    (hown : ∀ state, e.channels[stream.id]? = some state → state.inst = i) :
    returnCredit (e.setStream i stream') stream.id frame.wireLen =
      some ((e.setStream i stream').returnCredit stream.id frame.wireLen) := by
  unfold returnCredit Endpoint.returnCredit
  split_ifs
  · rfl
  · rfl
  cases hstate : e.channels[stream.id]? with
  | none =>
      rw [show (e.setStream i stream').channels[stream.id]? = none from hstate]
  | some state =>
      obtain ⟨own, hi', -, -, -, hcovered⟩ := h.entry stream.id state hstate
      rw [hown state hstate, hi] at hi'
      cases hi'
      have hunacked := hcovered.unacked
      have hcost : Link.cost stream.undelivered = frame.wireLen + Link.cost stream.rx := by
        unfold Stream.undelivered Link.cost
        rw [hrecv]
        rfl
      rw [show (e.setStream i stream').channels[stream.id]? = some state from hstate]
      dsimp only
      rw [sub_eq (by omega)]
      rfl

end Checked

end Mux
