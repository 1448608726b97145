import GoNomad.Transport.Simulation

/-!
# Delivering a segment simulates the channel

The writer's choice is invisible to every channel: a segment only moves from a
queue to the wire.  Handling a segment takes the abstract end of its channel
one action further, or, when the handler refuses it, halts every channel.

`reassemble_spec` says what cutting frames off the received bytes does;
`sim_receive` is the simulation of the reader.
-/

namespace Mux

open Proto Transport CreditChannel

namespace Endpoint

variable {cfg : MuxConfig} {s : Role} {e e' : Endpoint} {c id : ChannelId} {i : Nat}

/-! ### Cutting frames off -/

/-- What `reassemble` did: it cut `fs` off the assembler, gave them to the
reader or counted their cost, and stopped where no complete frame is left. -/
structure Cut (state : ChannelState) (stream : Stream) (refund : Nat) (fs : List Frame)
    (state' : ChannelState) (stream' : Stream) (refund' : Nat) : Prop where
  bytes : state.assembler = Frame.code.encAll fs ++ state'.assembler
  inst : state'.inst = state.inst
  unacked : state'.unacked = state.unacked
  inbound : stream.recv.isSome = true → state'.inbound = true
  queue : stream' = if stream.recv.isSome then { stream with rx := stream.rx ++ fs } else stream
  cost : refund' = refund + if stream.recv.isSome then 0 else (Frame.code.encAll fs).length

theorem Cut.refl (state : ChannelState) (stream : Stream) (refund : Nat)
    (hin : stream.recv.isSome = true → state.inbound = true) :
    Cut state stream refund [] state stream refund where
  bytes := rfl
  inst := rfl
  unacked := rfl
  inbound := hin
  queue := by simp
  cost := by simp

/-- One round of the loop, and what the rest of it did. -/
theorem Cut.round {state state' : ChannelState} {stream stream' : Stream} {refund refund' : Nat}
    {frame : Frame} {fs : List Frame} {used : Nat} {inbound : Bool}
    (hdecode : Frame.decode state.assembler = .ok (some (frame, used)))
    (hcut : Cut { state with assembler := state.assembler.drop used, inbound := inbound }
      (if stream.recv.isSome then { stream with rx := stream.rx ++ [frame] } else stream)
      (refund + if stream.recv.isSome then 0 else used) fs state' stream' refund') :
    Cut state stream refund (frame :: fs) state' stream' refund' := by
  obtain ⟨rfl, hbytes⟩ := Frame.decode_some hdecode
  have hlen := frame.length_encode
  have hrest := hcut.bytes
  dsimp only at hrest
  have hreader := hcut.inbound
  have hqueue := hcut.queue
  have hcost := hcut.cost
  constructor
  · rw [hbytes, hrest]
    simp
  · exact hcut.inst
  · exact hcut.unacked
  · intro hr
    rw [if_pos hr] at hreader
    exact hreader hr
  · by_cases hr : stream.recv.isSome = true
    · rw [if_pos hr] at hqueue ⊢
      rw [if_pos hr] at hqueue
      simpa using hqueue
    · rw [if_neg hr] at hqueue ⊢
      rw [if_neg hr] at hqueue
      exact hqueue
  · by_cases hr : stream.recv.isSome = true
    · simp only [if_pos hr] at hcost ⊢
      exact hcost
    · simp only [if_neg hr] at hcost ⊢
      rw [hcost, PrefixCode.encAll_cons, List.length_append, Frame.code_enc, hlen]
      omega

/-- The ways a frame can be refused. -/
def BadFrame (maxFrame : Nat) (err : TransportError) : Prop :=
  (∃ declared, err = .protocol (.oversizedFrame declared maxFrame)) ∨ ∃ bad, err = .framing bad

/-- **The reassembly loop.**  Given enough rounds it cuts off every complete
frame, or stops at a header it refuses. -/
theorem reassemble_spec {maxFrame : Nat} :
    ∀ (rounds : Nat) (state : ChannelState) (stream : Stream) (refund : Nat),
      state.assembler.length < rounds →
      (stream.recv.isSome = true → state.inbound = true) →
      ∃ fs state' stream' refund' result,
        reassemble maxFrame rounds state stream refund = ((state', stream', refund'), result) ∧
        Cut state stream refund fs state' stream' refund' ∧
        (result = .ok () → Frame.code.Stuck state'.assembler) ∧
        (∀ err, result = .error err → BadFrame maxFrame err) := by
  intro rounds
  induction rounds with
  | zero => intro state stream refund hlt; omega
  | succ rounds ih =>
      intro state stream refund hlt hin
      unfold reassemble
      cases hover : oversized maxFrame state.assembler with
      | some declared =>
          exact ⟨[], state, stream, refund, .error (.protocol (.oversizedFrame declared maxFrame)),
            rfl, .refl _ _ _ hin, (fun h => nomatch h),
            fun err h => Or.inl ⟨declared, (Except.error.inj h).symm⟩⟩
      | none =>
          cases hdecode : Frame.decode state.assembler with
          | error err =>
              exact ⟨[], state, stream, refund, .error (.framing err), rfl, .refl _ _ _ hin,
                (fun h => nomatch h), fun _ h => Or.inr ⟨err, (Except.error.inj h).symm⟩⟩
          | ok cut =>
              cases cut with
              | none =>
                  exact ⟨[], state, stream, refund, .ok (), rfl, .refl _ _ _ hin,
                    fun _ => Frame.stuck_of_decode_none hdecode, fun err h => nomatch h⟩
              | some cut =>
                  obtain ⟨frame, used⟩ := cut
                  obtain ⟨hused, hbytes⟩ := Frame.decode_some hdecode
                  have hlen : (state.assembler.drop used).length < rounds := by
                    have hpos : 0 < used := by
                      rw [hused]
                      unfold Frame.wireLen headerLen
                      omega
                    have hne : state.assembler ≠ [] := by
                      rw [hbytes]
                      simp [Frame.encode_ne_nil]
                    have := List.length_pos_of_ne_nil hne
                    rw [List.length_drop]
                    omega
                  by_cases hr : stream.recv.isSome = true
                  · have hboth : (state.inbound && stream.recv.isSome) = true := by
                      rw [hin hr, hr]
                      rfl
                    obtain ⟨fs, state', stream', refund', result, heq, hcut, hresult⟩ :=
                      ih { state with assembler := state.assembler.drop used }
                        { stream with rx := stream.rx ++ [frame] } refund hlen hin
                    refine ⟨frame :: fs, state', stream', refund', result, ?_, ?_, hresult⟩
                    · dsimp only
                      rw [if_pos hboth]
                      exact heq
                    · refine @Cut.round state state' stream stream' refund refund' frame fs used
                        state.inbound hdecode ?_
                      rw [if_pos hr, if_pos hr]
                      exact hcut
                  · have hboth : ¬ (state.inbound && stream.recv.isSome) = true := by
                      simp [hr]
                    obtain ⟨fs, state', stream', refund', result, heq, hcut, hresult⟩ :=
                      ih { state with assembler := state.assembler.drop used, inbound := false }
                        stream (refund + used) hlen (fun h => absurd h hr)
                    refine ⟨frame :: fs, state', stream', refund', result, ?_, ?_, hresult⟩
                    · dsimp only
                      rw [if_neg hboth]
                      exact heq
                    · refine @Cut.round state state' stream stream' refund refund' frame fs used
                        false hdecode ?_
                      rw [if_neg hr, if_neg hr]
                      exact hcut

theorem oversized_of_le_encode {maxFrame : Nat} {f : Frame} {buf t : Bytes}
    (h : buf <+: f.encode ++ t) (hle : f.payload.length ≤ maxFrame) :
    oversized maxFrame buf = none := by
  unfold oversized
  split
  · obtain ⟨hlen, -, -⟩ := Frame.header_of_le_encode h
    dsimp only
    rw [if_neg (by omega)]
  · rfl

/-- On the start of a stream of frames within the cap the loop finds nothing to
refuse. -/
theorem reassemble_ok {maxFrame : Nat} :
    ∀ (rounds : Nat) (state : ChannelState) (stream : Stream) (refund : Nat) (gs : List Frame),
      state.assembler <+: Frame.code.encAll gs →
      (∀ g ∈ gs, g.payload.length ≤ maxFrame) →
      (reassemble maxFrame rounds state stream refund).2 = .ok () := by
  intro rounds
  induction rounds with
  | zero => intro state stream refund gs _ _; rfl
  | succ rounds ih =>
      intro state stream refund gs hpre hle
      have hnever : oversized maxFrame state.assembler = none ∧
          ∀ err, Frame.decode state.assembler ≠ .error err := by
        cases gs with
        | nil =>
            rw [PrefixCode.encAll_nil, List.prefix_nil] at hpre
            rw [hpre]
            exact ⟨rfl, fun err h => nomatch h⟩
        | cons g gs =>
            rw [PrefixCode.encAll_cons, Frame.code_enc] at hpre
            exact ⟨oversized_of_le_encode hpre (hle g (by simp)), Frame.decode_of_le_encode hpre⟩
      unfold reassemble
      rw [hnever.1]
      cases hdecode : Frame.decode state.assembler with
      | error err => exact absurd hdecode (hnever.2 err)
      | ok cut =>
          cases cut with
          | none => rfl
          | some cut =>
              obtain ⟨frame, used⟩ := cut
              obtain ⟨-, hbytes⟩ := Frame.decode_some hdecode
              have hsplit : Frame.code.encAll [frame] ++ state.assembler.drop used <+:
                  Frame.code.encAll gs := by
                rw [PrefixCode.encAll_cons, PrefixCode.encAll_nil, List.append_nil,
                  Frame.code_enc, ← hbytes]
                exact hpre
              obtain ⟨hs, hgs, hrest⟩ := Frame.code.encAll_append_cut hsplit
              have hle' : ∀ g ∈ hs, g.payload.length ≤ maxFrame := fun g hg =>
                hle g (by rw [hgs]; exact List.mem_append_right _ hg)
              dsimp only
              split
              · exact ih _ _ _ hs hrest hle'
              · exact ih _ _ _ hs hrest hle'

/-! ### The handler of data -/

/-- An endpoint whose entry and stream of one channel were replaced together. -/
def setEntry (e : Endpoint) (id : ChannelId) (inst : Nat) (state' : ChannelState)
    (stream' : Stream) : Endpoint :=
  ({ e with channels := e.channels.insert id state' } : Endpoint).setStream inst stream'

/-- What the handler of a data segment does. -/
theorem peerData_cases (h : e.Wf cfg s) (id : ChannelId) {body : Bytes} (hbody : body ≠ []) :
    (e.peerData id body = (e, .ok ()) ∧ (e.closed = true ∨ e.retired.contains id = true)) ∨
    (e.peerData id body = (e, .error (.protocol (.unknownChannel id))) ∧ e.closed = false ∧
      e.retired.contains id = false ∧ e.channels[id]? = none) ∨
    ∃ state stream, e.channels[id]? = some state ∧ e.streams[state.inst]? = some stream ∧
      stream.id = id ∧
      (cfg.window < state.unacked + body.length ∨
        ∃ fs state' stream' refund result,
          reassemble cfg.maxFrameLen ((state.assembler ++ body).length + 1)
            { state with assembler := state.assembler ++ body,
                         unacked := state.unacked + body.length } stream 0 =
            ((state', stream', refund), result) ∧
          Cut { state with assembler := state.assembler ++ body,
                           unacked := state.unacked + body.length } stream 0 fs state' stream'
            refund ∧
          ((∃ err, result = .error err ∧ BadFrame cfg.maxFrameLen err ∧
              e.peerData id body = (e.setEntry id state.inst state' stream', .error err)) ∨
            (result = .ok () ∧ Frame.code.Stuck state'.assembler ∧
              e.peerData id body =
                (let e' := e.setEntry id state.inst
                  { state' with unacked := state'.unacked - refund } stream'
                if 0 < refund && refund < 2 ^ 32 then
                  { e' with urgent := e'.urgent ++ [.window id (UInt32.ofNat refund)] }
                else e', .ok ())))) := by
  have hempty : body.isEmpty = false := by
    cases body with
    | nil => exact absurd rfl hbody
    | cons => rfl
  obtain rfl := h.cfg_eq
  unfold peerData
  rw [hempty]
  simp only [Bool.false_eq_true, if_false]
  by_cases hignore : (e.closed || e.retired.contains id) = true
  · rw [if_pos hignore]
    exact Or.inl ⟨rfl, Bool.or_eq_true_iff.mp hignore⟩
  rw [if_neg hignore]
  have hopen : e.closed = false ∧ e.retired.contains id = false := by
    simpa only [Bool.or_eq_true, not_or, Bool.not_eq_true] using hignore
  cases hstate : e.channels[id]? with
  | none => exact Or.inr (Or.inl ⟨rfl, hopen.1, hopen.2, rfl⟩)
  | some state =>
      obtain ⟨stream, hi, hid, -, -, hin⟩ := h.entry_stream hstate
      refine Or.inr (Or.inr ⟨state, stream, rfl, hi, hid, ?_⟩)
      dsimp only
      rw [hi]
      dsimp only
      by_cases hbig : e.cfg.window < state.unacked + body.length
      · exact Or.inl hbig
      · rw [if_neg hbig]
        obtain ⟨fs, state', stream', refund, result, heq, hcut, hstuck, hbad⟩ :=
          @reassemble_spec e.cfg.maxFrameLen ((state.assembler ++ body).length + 1)
            { state with assembler := state.assembler ++ body,
                         unacked := state.unacked + body.length } stream 0
            (Nat.lt_succ_self _) hin
        refine Or.inr ⟨fs, state', stream', refund, result, heq, hcut, ?_⟩
        rw [heq]
        have hinst : state'.inst = state.inst := hcut.inst
        cases result with
        | error err =>
            refine Or.inl ⟨err, rfl, hbad err rfl, ?_⟩
            dsimp only
            rw [hinst]
            rfl
        | ok u =>
            refine Or.inr ⟨rfl, hstuck rfl, ?_⟩
            dsimp only
            rw [hinst]
            split <;> rfl

/-! ### Endpoints after a segment -/

section setEntry

variable {state state' : ChannelState} {stream stream' : Stream}

theorem Wf.setEntry (h : e.Wf cfg s) (hstate : e.channels[id]? = some state)
    (hi : e.streams[state.inst]? = some stream) (hinst : state'.inst = state.inst)
    (hin : stream.recv.isSome = true → state'.inbound = true) {fs : List Frame}
    (hqueue : stream' = if stream.recv.isSome then { stream with rx := stream.rx ++ fs }
      else stream) :
    (e.setEntry id state.inst state' stream').Wf cfg s := by
  have hupdated : Wf cfg s { e with channels := e.channels.insert id state' } :=
    h.updateEntry hstate hinst (by
      intro t ht hr
      rw [hi] at ht
      cases ht
      exact hin hr)
  have hwf := h.stream_wf hi
  unfold Endpoint.setEntry
  by_cases hr : stream.recv.isSome = true
  · rw [if_pos hr] at hqueue
    rw [hqueue]
    exact hupdated.setStream hi rfl (hwf.deliver hr _) (fun ho _ => ho) (fun hr => hr)
  · rw [if_neg hr] at hqueue
    rw [hqueue]
    exact hupdated.setStream hi rfl hwf (fun ho _ => ho) (fun hr => hr)

theorem view_setEntry (h : e.Wf cfg s) (state' : ChannelState)
    (hi : e.streams[state.inst]? = some stream) (hid : stream.id = id) (hsid : stream'.id = stream.id) :
    (e.setEntry id state.inst state' stream').view c =
      if id = c then { e.view c with stream := some stream', entry := some state' }
      else e.view c := by
  have hu : ({ e with channels := e.channels.insert id state' } : Endpoint).UniqueIds := h.unique
  have hview : (e.setEntry id state.inst state' stream').view c = _ :=
    view_setStream (e := { e with channels := e.channels.insert id state' }) hu hi hsid
  rw [hview, hid]
  by_cases hc : id = c
  · rw [if_pos hc, if_pos hc]
    unfold view
    dsimp only
    rw [lookup_insert, if_pos hc]
    rfl
  · rw [if_neg hc, if_neg hc]
    unfold view
    dsimp only
    rw [lookup_insert, if_neg hc]
    rfl

theorem ids_setEntry (hi : e.streams[state.inst]? = some stream) (hsid : stream'.id = stream.id) :
    (e.setEntry id state.inst state' stream').ids = e.ids :=
  ids_setStream (e := { e with channels := e.channels.insert id state' }) hi hsid

theorem Cut.same_id {refund refund' : Nat} {fs : List Frame} {start : ChannelState}
    (h : Cut start stream refund fs state' stream' refund') : stream'.id = stream.id := by
  rw [h.queue]
  split <;> rfl

theorem Cut.same_send {refund refund' : Nat} {fs : List Frame} {start : ChannelState}
    (h : Cut start stream refund fs state' stream' refund') : stream'.send = stream.send := by
  rw [h.queue]
  split <;> rfl

theorem SendKept.setEntry (h : e.Wf cfg s) (hstate : e.channels[stream.id]? = some state)
    (hi : e.streams[state.inst]? = some stream) (hid : stream'.id = stream.id)
    (hsend : stream'.send = stream.send) :
    SendKept c e (e.setEntry stream.id state.inst state' stream') := by
  have hview := view_setEntry (c := c) h state' hi rfl hid
  by_cases hc : stream.id = c
  · subst hc
    have hs : (e.view stream.id).stream = some stream := h.unique.streamOf hi
    have hentry : (e.view stream.id).entry = some state := hstate
    rw [if_pos rfl] at hview
    refine Or.inl ⟨?_, ?_⟩
    · rw [hview, hs]
      exact congrArg some hsend
    · rw [hentry]
      exact fun _ => rfl
  · rw [if_neg hc] at hview
    exact .of_view hview

end setEntry

theorem SendKept.setStream (h : e.Wf cfg s) {stream stream' : Stream}
    (hi : e.streams[i]? = some stream) (hid : stream'.id = stream.id)
    (hsend : stream'.send = stream.send) : SendKept c e (e.setStream i stream') := by
  have hview : (e.setStream i stream').view c = _ := view_setStream h.unique hi hid
  by_cases hc : stream.id = c
  · subst hc
    have hs : (e.view stream.id).stream = some stream := h.unique.streamOf hi
    rw [if_pos rfl] at hview
    refine Or.inl ⟨?_, ?_⟩
    · rw [hview, hs]
      exact congrArg some hsend
    · rw [hview]
      exact fun hentry => hentry
  · rw [if_neg hc] at hview
    exact .of_view hview

theorem view_pushUrgent {n : UInt32} :
    ({ e with urgent := e.urgent ++ [.window id n] } : Endpoint).view c =
      { e.view c with
        grants := (e.view c).grants ++ if id = c then [n.toNat] else [] } := by
  unfold view
  dsimp only
  rw [Segment.creditsOf_append]
  by_cases hc : id = c
  · subst hc
    have hself := Segment.creditsOf_self (.window id n)
    rw [Segment.channel_window, Segment.credit?_window] at hself
    rw [hself, if_pos rfl]
    rfl
  · rw [Segment.creditsOf_other (by simpa using hc), if_neg hc]
    rfl

theorem ids_retire : (e.retire id).ids = e.ids := by
  unfold retire
  split <;> rfl

theorem ids_peerReset (h : e.Wf cfg s) : (e.peerReset id).ids = e.ids := by
  unfold peerReset
  by_cases hclosed : e.closed = true
  · rw [if_pos hclosed]
  rw [if_neg hclosed]
  dsimp only
  rw [ids_retire]
  cases hstate : e.channels[id]? with
  | none => rfl
  | some state =>
      obtain ⟨stream, hi, -, -, -, -⟩ := h.entry_stream hstate
      dsimp only
      rw [hi]
      exact ids_setStream (e := { e with channels := e.channels.erase id }) hi rfl

theorem view_peerReset (h : e.Wf cfg s) (id : ChannelId) :
    (e.peerReset id).view c =
      if id = c ∧ e.closed = false then
        { e.view c with
          stream := match e.channels[id]? with
            | none => (e.view c).stream
            | some _ => (e.view c).stream.map fun t => { t with credit := t.credit.close }
          entry := none
          flight := [] }
      else e.view c := by
  unfold peerReset
  by_cases hclosed : e.closed = true
  · rw [if_pos hclosed, if_neg (by simp [hclosed])]
  rw [if_neg hclosed]
  have hopen : e.closed = false := by simpa using hclosed
  dsimp only
  rw [view_retire]
  have hqueue : ∀ e' : Endpoint, ({ e' with out := e'.out.erase id } : Endpoint).queue c =
      if id = c then [] else e'.queue c := by
    intro e'
    unfold queue
    dsimp only
    rw [lookup_erase]
    split_ifs <;> rfl
  cases hstate : e.channels[id]? with
  | none =>
      dsimp only
      by_cases hc : id = c
      · subst hc
        rw [if_pos ⟨rfl, hopen⟩]
        have hq := hqueue e
        rw [if_pos rfl] at hq
        unfold view
        rw [hq, ← hstate]
        rfl
      · rw [if_neg (fun hh => hc hh.1)]
        have hq := hqueue e
        rw [if_neg hc] at hq
        unfold view
        rw [hq]
        rfl
  | some state =>
      obtain ⟨stream, hi, hid, hof, -, -⟩ := h.entry_stream hstate
      dsimp only
      rw [hi]
      dsimp only
      have hu : ({ e with channels := e.channels.erase id } : Endpoint).UniqueIds := h.unique
      have hset : (({ e with channels := e.channels.erase id } : Endpoint).setStream state.inst
          { stream with credit := stream.credit.close }).view c = _ :=
        view_setStream (e := { e with channels := e.channels.erase id }) hu hi rfl
      have hq := hqueue (({ e with channels := e.channels.erase id } : Endpoint).setStream
        state.inst { stream with credit := stream.credit.close })
      by_cases hc : id = c
      · subst hc
        rw [if_pos ⟨rfl, hopen⟩]
        rw [if_pos hid] at hset
        rw [if_pos rfl] at hq
        have hentry : ((({ e with channels := e.channels.erase id } : Endpoint).setStream
            state.inst { stream with credit := stream.credit.close }).view id).entry = none := by
          rw [hset]
          unfold view
          dsimp only
          rw [lookup_erase, if_pos rfl]
        have hs : (e.view id).stream = some stream := hof
        rw [hs]
        unfold view at hset hentry ⊢
        dsimp only at hentry
        rw [hq]
        injection hset with h1 h2 h3 h4 h5
        dsimp only
        congr 1
      · rw [if_neg (fun hh => hc hh.1)]
        rw [if_neg (fun hh => hc (hid.symm.trans hh))] at hset
        rw [if_neg hc] at hq
        have herased : ({ e with channels := e.channels.erase id } : Endpoint).view c =
            e.view c := by
          unfold view
          dsimp only
          rw [lookup_erase, if_neg hc]
          rfl
        rw [← herased, ← hset]
        unfold view
        rw [hq]
        rfl

theorem SendKept.peerReset (h : e.Wf cfg s) : SendKept c e (e.peerReset id) := by
  have hview := view_peerReset (c := c) h id
  by_cases hc : id = c ∧ e.closed = false
  · rw [if_pos hc] at hview
    refine Or.inl ⟨?_, ?_⟩
    · rw [hview]
      cases e.channels[id]? with
      | none => rfl
      | some state => cases (e.view c).stream <;> rfl
    · rw [hview]
      exact fun hentry => nomatch hentry
  · rw [if_neg hc] at hview
    exact .of_view hview

end Endpoint

end Mux
