import GoNomad.Transport.Credit

/-!
# Cancelled sends

A send queues its frame chunk by chunk and can be dropped before each of them.
What was queued stays queued.  `Intact` says what a receiver may expect of a
direction all the same: every frame it gets was passed to a send, whole and in
order, no chunk is refused for the frame it is part of, and what was sent
arrives.

* `intact_of_wholeFrames`: this holds in every run in which no frame follows one
  that was given up half queued;
* `torn_frame_joins`: otherwise the next frame completes the torn one, and the
  receiver is handed a frame that nobody sent.
-/

namespace Mux

open Proto Transport CreditChannel

/-! ### Which of the frames started are begun -/

namespace Book

open Endpoint

/-- The frames begun are some of those started, in their order; a send whose
first chunk has not been queued is the last one started and none of them. -/
structure Selected (b : Book) (v : View) : Prop where
  began : b.began.Sublist b.started
  waiting : ∀ stream stage f chunks, v.stream = some stream →
    stream.send = some (.sending stage f chunks) → chunks.flatten = f.encode →
      ∃ fs, b.started = fs ++ [f] ∧ b.began.Sublist fs

variable {cfg : MuxConfig} {s : Role} {e e' : Endpoint} {c : ChannelId} {b : Book}
variable {r : Endpoint × Obs}

theorem Selected.kept (hb : b.Selected (e.view c)) (h : SendKept c e e') :
    b.Selected (e'.view c) := by
  refine ⟨hb.began, fun stream' stage f chunks hs' hsend' hwhole => ?_⟩
  rcases h with ⟨hsame, -⟩ | ⟨-, hidle⟩
  · rw [hs', Option.map_some] at hsame
    obtain ⟨stream, hs, hsend⟩ := Option.map_eq_some_iff.mp hsame.symm
    exact hb.waiting stream stage f chunks hs (hsend.trans hsend') hwhole
  · rw [hs', Option.map_some, Option.some.injEq, hsend'] at hidle
    cases hidle

/-- A book whose send is not in progress. -/
theorem Selected.idle {b' : Book} {v : View} {stream : Stream} (hs : v.stream = some stream)
    (hidle : ∀ stage f chunks, stream.send ≠ some (.sending stage f chunks))
    (hbegan : b'.began.Sublist b'.started) : b'.Selected v := by
  refine ⟨hbegan, fun t stage f chunks ht hsend _ => ?_⟩
  rw [hs] at ht
  cases ht
  exact absurd hsend (hidle stage f chunks)

/-- Every operation queues frames in the order in which they were started. -/
theorem Selected.step (h : e.Wf cfg s) (heff : SendEffect c e r) (hb : b.Selected (e.view c)) :
    (b.after c r.2).Selected (r.1.view c) := by
  rcases heff with ⟨hkept, hobs⟩ | ⟨stream, stream', hs, hs', -, hmove⟩
  · rw [after_unrelated hobs]
    exact hb.kept hkept
  have hwf := h.streams stream (streamOf_mem hs)
  have hsofar := hb.waiting stream
  generalize hhalf : stream.send = half at hmove hsofar
  generalize hhalf' : stream'.send = half' at hmove
  generalize r.2 = obs at hmove ⊢
  cases hmove with
  | start f _ =>
      rw [after_started]
      refine ⟨hb.began.trans (List.sublist_append_left _ _), fun t stage g chunks ht hsend _ => ?_⟩
      rw [hs'] at ht
      cases ht
      rw [hhalf'] at hsend
      cases hsend
      exact ⟨b.started, rfl, hb.began⟩
  | poll stage stage' f chunks =>
      refine ⟨hb.began, fun t stage'' g chunks' ht hsend hwhole => ?_⟩
      rw [hs'] at ht
      cases ht
      rw [hhalf'] at hsend
      cases hsend
      exact hsofar stage f chunks hs rfl hwhole
  | push _ f chunk rest =>
      obtain ⟨-, hsuf, hall, -⟩ := hwf.task _ hhalf
      have hrest := rest_ne (hall chunk (by simp)).1 hsuf
      rw [after_pushed]
      constructor
      · dsimp only
        by_cases hfirst : (chunk :: rest).flatten = f.encode
        · -- The first chunk: until now the frame was the last one started.
          obtain ⟨fs, hstarted, hbegan⟩ := hsofar .acquired f _ hs rfl hfirst
          rw [hfirst, beq_self_eq_true, if_pos rfl, hstarted]
          exact hbegan.append_right [f]
        · have hbeq : ((chunk :: rest).flatten == f.encode) = false := by simpa using hfirst
          rw [hbeq, if_neg Bool.false_ne_true, List.append_nil]
          exact hb.began
      · intro t stage g chunks ht hsend hwhole
        rw [hs'] at ht
        cases ht
        rw [hhalf'] at hsend
        split at hsend
        · cases hsend
        · cases hsend
          exact absurd hwhole hrest
  | fail _ stage f chunks err =>
      refine .idle hs' (fun _ _ _ hsend => ?_) hb.began
      rw [hhalf'] at hsend
      cases hsend
  | cancel stage f chunks torn =>
      rw [after_cancel]
      refine .idle hs' (fun _ _ _ hsend => ?_) hb.began
      rw [hhalf'] at hsend
      cases hsend
  | drop closed =>
      refine .idle hs' (fun _ _ _ hsend => ?_) hb.began
      rw [hhalf'] at hsend
      cases hsend

theorem stable_selected : Stable Selected where
  blank v hv := by
    refine ⟨List.Sublist.refl _, fun stream _ _ _ hs => ?_⟩
    rw [hv] at hs
    cases hs
  kept hkept h := h.kept hkept
  step hwf heff h := h.step hwf heff

end Book

/-! ### What a receiver may expect -/

namespace Endpoint

/-- The application holds the read half of channel `c`, waits for a frame and
finds none. -/
def awaiting (e : Endpoint) (c : ChannelId) : Bool :=
  match e.channels[c]? with
  | none => false
  | some state =>
      match e.streams[state.inst]? with
      | none => false
      | some stream => stream.recv = some .idle && stream.rx.isEmpty

end Endpoint

namespace Link

variable {cfg : MuxConfig} {l l' l₀ : Link} {trace : Trace} {ev : Event} {obs : Endpoint.Obs}
variable {s : Role} {c : ChannelId}

/-- What the peer of side `s` makes of the frames sent on channel `c`. -/
structure Intact (trace : Trace) (l : Link) (s : Role) (c : ChannelId) : Prop where
  /-- Frames are queued in the order in which they were passed to a send. -/
  passed : (began s c trace).Sublist (started s c trace)
  /-- Every frame received is one of these, whole, and none is left out. -/
  whole : received s.other c trace <+: began s c trace
  /-- No chunk is refused for the frame it belongs to. -/
  framed : ∀ maxFrame err, .error err ∈ deliveries s.other trace → ¬ Endpoint.BadFrame maxFrame err
  /-- Once everything queued has been delivered, every frame has been received. -/
  complete : l.quiet = true → (l.ends.get s).channels.contains c = true →
    (l.ends.get s).unsent c = none → (l.ends.get s.other).awaiting c = true →
    torn s c trace = false → received s.other c trace = began s c trace

/-- An application that waits for a frame reads the channel. -/
theorem Safe.awaiting_reads (h : Safe cfg trace l) (hup : (l.ends.get s).awaiting c = true) :
    (absEnd s c l trace).phase = .live ∧ (absEnd s c l trace).reading = true ∧
      (absEnd s c l trace).ready = [] := by
  unfold Endpoint.awaiting at hup
  cases hstate : (l.ends.get s).channels[c]? with
  | none =>
      rw [hstate] at hup
      cases hup
  | some state =>
      obtain ⟨stream, hi, -, hof, -, -⟩ := (h.wf s).entry_stream hstate
      rw [hstate] at hup
      dsimp only at hup
      rw [hi] at hup
      simp only [Bool.and_eq_true, decide_eq_true_eq, List.isEmpty_iff] at hup
      obtain ⟨hrecv, hrx⟩ := hup
      refine ⟨absEnd_live.mpr (contains_iff.mpr ⟨state, hstate⟩), ?_, ?_⟩
      · change ((l.ends.get s).streamOf c).elim _ _ = true
        rw [hof]
        change stream.recv.isSome = true
        rw [hrecv]
        rfl
      · change ((l.ends.get s).streamOf c).elim _ _ = []
        rw [hof]
        change readyOf stream = []
        unfold readyOf
        rw [hrecv]
        exact hrx

/-- Nothing is left to push of a channel without a send in progress. -/
theorem Safe.nothing_unsent (h : Safe cfg trace l)
    (hs : (l.ends.get s).channels.contains c = true) (hnone : (l.ends.get s).unsent c = none) :
    (absEnd s c l trace).pend = [] := by
  obtain ⟨state, hstate⟩ := contains_iff.mp hs
  obtain ⟨stream, hi, -, hof, -, -⟩ := (h.wf s).entry_stream hstate
  change ((l.ends.get s).streamOf c).elim _ _ = []
  rw [hof]
  change pending stream.send = []
  unfold Endpoint.unsent at hnone
  rw [hstate] at hnone
  dsimp only at hnone
  rw [hi] at hnone
  dsimp only at hnone
  split at hnone
  · cases hnone
  · next hidle =>
      unfold pending
      split
      · next stage f chunks hsend => exact absurd hsend (hidle stage f chunks)
      · rfl

/-- The frames of an unspoiled link are received as they were sent. -/
theorem Safe.intact (h : Safe cfg trace l) (hclean : Unspoiled trace)
    (hselected : ∀ s c, (bookOf s c trace).Selected ((l.ends.get s).view c))
    (hframed : ∀ s maxFrame err, .error err ∈ deliveries s trace →
      ¬ Endpoint.BadFrame maxFrame err) :
    Intact trace l s c where
  passed := by
    have hbegan := (hselected s c).began
    rwa [bookOf_eq] at hbegan
  whole := by
    have hgot := (h.channel s c).got_sent (hclean s c)
    rwa [absEnd_got, absEnd_sent] at hgot
  framed := hframed s.other
  complete := by
    intro hquiet hs hunsent hup htorn
    obtain ⟨hlive, hreading, hready⟩ := h.awaiting_reads hup
    have hall := (h.channel s c).delivered (hclean s c) (by rw [absEnd_torn]; exact htorn)
      (absEnd_live.mpr hs) hlive (quiet_flight hquiet) (h.nothing_unsent hs hunsent) hreading hready
    rwa [absEnd_got, absEnd_sent] at hall

/-! ### Runs -/

/-- The steps that open channels under fresh ids only, and begin no frame on a
stream on which one was given up half queued. -/
def framing (trace : Trace) (l : Link) (ev : Event) : Bool :=
  freshIds trace l ev && wholeFrames trace l ev

/-- A chunk of an unspoiled stream is not refused for its frame. -/
theorem not_garbled (h : Safe cfg trace l) (hclean : Unspoiled trace) {seg : Segment}
    {rest : List Segment} (hwire : l.wire.get s.other = seg :: rest) {err : TransportError}
    (herr : (receive (l.ends.get s) seg).2 = .error err) (maxFrame : Nat) :
    ¬ Endpoint.BadFrame maxFrame err := by
  have hrefusal := (h.outcome hwire).refusal err herr
  have hspoiled : (absEnd s.other seg.channel l trace).spoiled = false := hclean _ _
  cases hrefusal with
  | full _ _ _ => rintro (⟨declared, hbad⟩ | ⟨bad, hbad⟩) <;> cases hbad
  | forgotten _ _ _ _ => rintro (⟨declared, hbad⟩ | ⟨bad, hbad⟩) <;> cases hbad
  | garbled hbad _ =>
      change (absEnd s.other _ l trace).spoiled = true at hbad
      rw [hspoiled] at hbad
      cases hbad

/-- **Cancelled sends leave the stream framed.**  In every run in which no frame
follows one that was given up half queued, every direction of every channel
stays intact. -/
theorem intact_of_wholeFrames (hinit : spawn cfg = .ok l₀)
    (hrun : Runs (fun trace l ev => framing trace l ev) l₀ trace l) (s : Role) (c : ChannelId) :
    Intact trace l s c := by
  have hfresh : ∀ trace l ev, framing trace l ev = true → freshIds trace l ev = true :=
    fun trace l ev hok => ((Bool.and_eq_true _ _).mp hok).1
  have hall := hrun.invariant (fun trace l => Safe cfg trace l ∧ Unspoiled trace ∧
    ∀ s maxFrame err, .error err ∈ deliveries s trace → ¬ Endpoint.BadFrame maxFrame err)
    ⟨safe_spawn hinit, fun _ _ => rfl, fun _ _ _ h => nomatch h⟩ ?_
  · obtain ⟨hsafe, hclean, hframed⟩ := hall
    exact hsafe.intact hclean (runs_books Book.stable_selected hinit hfresh hrun) hframed
  · rintro trace l ev l' obs ⟨hsafe, hclean, hframed⟩ hok hstep
    have hwhole := ((Bool.and_eq_true _ _).mp hok).2
    refine ⟨hsafe.step (hfresh _ _ _ hok) hstep, hclean.step hwhole hstep, ?_⟩
    intro s maxFrame err hmem
    rcases mem_deliveries hmem hstep with hmem | ⟨seg, rest, rfl, hwire, herr⟩
    · exact hframed s maxFrame err hmem
    · exact not_garbled hsafe hclean hwire herr.symm maxFrame

/-- A send is dropped while it waits for credit, with nothing queued; the frames
before and after it arrive. -/
theorem intact_cancelled :
    ∃ l₀ trace l, spawn smallest = .ok l₀ ∧
      Runs (fun trace l ev => framing trace l ev) l₀ trace l ∧
      cancelled .initiator 0 trace = [false] ∧ received .responder 0 trace = [dot, dot] ∧
      Intact trace l .initiator 0 := by
  obtain ⟨l₀, hspawn, hrun⟩ := @runs_of_exec (fun trace l ev => framing trace l ev) _ smallest
    [.op .initiator .openBi, .op .initiator (.sendStart 0 dot), .op .initiator (.sendStep 0),
      .op .initiator (.sendStep 0), .op .initiator (.sendStart 0 dot),
      .op .initiator (.sendStep 0), .op .initiator (.sendCancel 0), .take .initiator,
      .take .initiator, .deliver .responder, .deliver .responder, .op .responder .acceptBi,
      .op .responder (.recvPop 0), .op .responder (.recvCredit 0), .take .responder,
      .deliver .initiator, .op .initiator (.sendStart 0 dot), .op .initiator (.sendStep 0),
      .op .initiator (.sendStep 0), .take .initiator, .deliver .responder,
      .op .responder (.recvPop 0), .op .responder (.recvCredit 0)] _ _ rfl
  exact ⟨l₀, _, _, hspawn, hrun, rfl, rfl, intact_of_wholeFrames hspawn hrun .initiator 0⟩

end Link

/-! ### A frame given up half queued -/

namespace Endpoint

variable {e : Endpoint} {i inst n : Nat} {c : ChannelId} {f : Frame} {chunk body asm rest : Bytes}
variable {chunks : List Bytes} {stream stream' : Stream} {credit : Semaphore} {u : Nat}

theorem perform_start (hstream : e.stream? i = some stream) (hidle : stream.send = some .idle)
    (hle : f.payload.length ≤ e.cfg.maxFrameLen)
    (hchunks : BigEndian.chunks maxSegmentBody f.encode = chunks) :
    e.perform (.sendStart i f) =
      some (e.setStream i { stream with send := some (.sending .acquiring f chunks) },
        .sendStarted stream.id f) := by
  simp only [perform, sendStart, hstream, Option.bind_eq_bind, Option.bind_some, hidle, if_true,
    Nat.not_lt.mpr hle, if_false, hchunks]

theorem perform_acquire (hstream : e.stream? i = some stream)
    (hsend : stream.send = some (.sending .acquiring f (chunk :: chunks)))
    (hcredit : stream.credit = ⟨n, false, none⟩) (hlen : chunk.length = n) :
    e.perform (.sendStep i) =
      some (e.setStream i
        { stream with
          credit := ⟨0, false, none⟩
          send := some (.sending .acquired f (chunk :: chunks)) }, .silent) := by
  have hacquire : stream.credit.acquireMany chunk.length = (⟨0, false, none⟩, .acquired) := by
    rw [hcredit, hlen]
    unfold Semaphore.acquireMany
    simp
  simp only [perform, sendStep, hstream, Option.bind_eq_bind, Option.bind_some, hsend, hacquire]
  rfl

/-- Reassembly stops at a frame of which a part is missing. -/
theorem reassemble_part {maxFrame rounds refund : Nat} {state : ChannelState}
    (hasm : f.encode = state.assembler ++ rest) (hrest : rest ≠ [])
    (hle : f.payload.length ≤ maxFrame) :
    reassemble maxFrame (rounds + 1) state stream refund = ((state, stream, refund), .ok ()) := by
  have hpre : state.assembler <+: f.encode ++ [] := by
    rw [hasm, List.append_assoc]
    exact List.prefix_append _ _
  have hdecode : Frame.decode state.assembler = .ok none := by
    cases h : Frame.decode state.assembler with
    | error err => exact absurd h (Frame.decode_of_le_encode hpre err)
    | ok found =>
        cases found with
        | none => rfl
        | some found =>
            obtain ⟨g, used⟩ := found
            obtain ⟨-, hbytes⟩ := Frame.decode_some h
            have hcode : Frame.code.enc f ++ [] =
                Frame.code.enc g ++ (state.assembler.drop used ++ rest) := by
              rw [List.append_nil, Frame.code_enc, Frame.code_enc, ← List.append_assoc, ← hbytes]
              exact hasm
            have hfg := Frame.code.prefix_free hcode
            subst hfg
            have hlen := congrArg List.length hasm
            rw [hbytes, List.length_append, List.length_append] at hlen
            have := List.length_pos_of_ne_nil hrest
            omega
  rw [reassemble, oversized_of_le_encode hpre hle, hdecode]

/-- Reassembly of exactly one frame, for a reader. -/
theorem reassemble_frame {maxFrame rounds : Nat} {state : ChannelState}
    (hasm : state.assembler = f.encode) (hle : f.payload.length ≤ maxFrame)
    (hin : state.inbound = true) (hrecv : stream.recv.isSome = true) (hrounds : 2 ≤ rounds) :
    reassemble maxFrame rounds state stream 0 =
      (({ state with assembler := [] }, { stream with rx := stream.rx ++ [f] }, 0), .ok ()) := by
  obtain ⟨rounds, rfl⟩ := Nat.exists_eq_add_of_le' hrounds
  have hwhole : state.assembler = f.encode ++ [] := by rw [hasm, List.append_nil]
  have hover : oversized maxFrame state.assembler = none :=
    oversized_of_le_encode (t := []) (hwhole ▸ List.prefix_rfl) hle
  have hdecode : Frame.decode state.assembler = .ok (some (f, f.wireLen)) := by
    rw [hwhole]
    exact Frame.decode_encode_append f []
  have hdrop : state.assembler.drop f.wireLen = [] := by
    rw [hasm, ← f.length_encode, List.drop_length]
  rw [reassemble, hover, hdecode]
  simp only [hin, hrecv, Bool.and_self, if_true, hdrop]
  rfl

/-- A chunk that fits the window and is reassembled without a refusal. -/
theorem peerData_fits {a : Bytes} {state' : ChannelState} (hopen : e.closed = false)
    (hkept : e.retired.contains c = false) (hstate : e.channels[c]? = some ⟨i, true, a, u⟩)
    (hstream : e.streams[i]? = some stream) (hbody : body.isEmpty = false)
    (hunacked : u + body.length = n) (hfits : n ≤ e.cfg.window)
    (hcut : reassemble e.cfg.maxFrameLen ((a ++ body).length + 1) ⟨i, true, a ++ body, n⟩ stream 0 =
        ((state', stream', 0), .ok ())) :
    e.peerData c body = (e.setEntry c state'.inst state' stream', .ok ()) := by
  subst hunacked
  have hnew : ¬ (e.closed || e.retired.contains c) = true := by simp [hopen, hkept]
  unfold peerData
  rw [hbody, if_neg Bool.false_ne_true, if_neg hnew, hstate]
  dsimp only
  rw [hstream]
  dsimp only
  rw [if_neg (Nat.not_lt.mpr hfits), hcut]
  rfl

end Endpoint

namespace Link

variable {l : Link} {s : Role} {c : ChannelId} {e' : Endpoint} {body : Bytes}
variable {rest : List Segment}

/-- The reader handles data that is not refused. -/
theorem step_data (hwire : l.wire.get s.other = .data c body :: rest)
    (hreader : l.reader.get s = true)
    (hdata : (l.ends.get s).peerData c body = (e', .ok ())) :
    step l (.deliver s) = some
      ({ ends := l.ends.set s e'
         wire := l.wire.set s.other rest
         reader := l.reader.set s true }, .delivered (.ok ())) := by
  unfold step receive
  simp only [hwire, hreader, Endpoint.handle_data, hdata, if_true]

theorem step_op {o : Endpoint.LocalOp} {obs : Endpoint.Obs}
    (hperform : (l.ends.get s).perform o = some (e', obs)) :
    step l (.op s o) = some ({ l with ends := l.ends.set s e' }, obs) := by
  unfold step
  simp only [hperform]
  rfl

/-- A window that a frame of one full chunk and five bytes fills. -/
def tight : MuxConfig where
  initialWindow := 65519
  maxFrameLen := 65514
  maxChannels := 1

/-- A frame without a payload. -/
def hollow : Frame := ⟨.none, [], by decide⟩

/-- A frame that takes one full chunk and five bytes. -/
def twoChunks (x : Bytes) (hx : x.length = 65509) (tail : Bytes) (htail : tail.length = 5) :
    Frame :=
  ⟨.none, x ++ tail, by rw [List.length_append, hx, htail]; decide⟩

/-- The first chunk of such a frame. -/
def fullChunk (x : Bytes) : Bytes := 0 :: 0 :: 255 :: 234 :: 0 :: x

section twoChunks

variable {x tail : Bytes} {hx : x.length = 65509} {htail : tail.length = 5}

theorem length_fullChunk (hx : x.length = 65509) : (fullChunk x).length = 65514 := by
  unfold fullChunk
  simp only [List.length_cons, hx]

theorem payload_twoChunks : (twoChunks x hx tail htail).payload.length = 65514 := by
  unfold twoChunks
  rw [List.length_append, hx, htail]

theorem encode_twoChunks : (twoChunks x hx tail htail).encode = fullChunk x ++ tail := by
  unfold Frame.encode
  rw [payload_twoChunks]
  rfl

theorem chunks_twoChunks :
    BigEndian.chunks maxSegmentBody (twoChunks x hx tail htail).encode = [fullChunk x, tail] := by
  rw [encode_twoChunks]
  refine BigEndian.chunks_two (length_fullChunk hx) (by decide) ?_ (by rw [htail]; decide)
  intro hnil
  rw [hnil] at htail
  cases htail

end twoChunks

/-- The link with its first channel open at both ends: the credit of the
initiator, what it has on the wire, and what the responder holds of it. -/
def midway (permits : Nat) (flight : List Segment) (assembler : Bytes) (unacked : Nat)
    (rx : List Frame) : Link where
  ends :=
    { initiator :=
        { cfg := tight
          role := .initiator
          nextLocal := 2
          urgent := []
          out := (∅ : Std.ExtTreeMap ChannelId (List Segment)).insert 0 []
          cursor := 0
          channels := (∅ : Std.ExtTreeMap ChannelId ChannelState).insert 0 ⟨0, true, [], 0⟩
          retired := ∅
          retiredOrder := []
          acceptTx := true
          acceptRx := []
          closed := false
          closeErr := none
          streams := [⟨0, ⟨permits, false, none⟩, [], some .idle, some .idle⟩] }
      responder :=
        { cfg := tight
          role := .responder
          nextLocal := 1
          urgent := []
          out := (∅ : Std.ExtTreeMap ChannelId (List Segment)).insert 0 []
          cursor := 0
          channels := (∅ : Std.ExtTreeMap ChannelId ChannelState).insert 0
            ⟨0, true, assembler, unacked⟩
          retired := ∅
          retiredOrder := []
          acceptTx := true
          acceptRx := []
          closed := false
          closeErr := none
          streams := [⟨0, .new 65519, rx, some .idle, some .idle⟩] } }
  wire := ⟨flight, []⟩
  reader := ⟨true, true⟩

theorem torn_begin :
    ∃ l₀ trace, spawn tight = .ok l₀ ∧
      Runs Transition.unguarded l₀ trace (midway 65514 [] [] 5 [hollow]) ∧
      started .initiator 0 trace = [hollow] ∧ received .responder 0 trace = [] := by
  obtain ⟨l₀, hspawn, hrun⟩ := @runs_of_exec Transition.unguarded _ tight
    [.op .initiator .openBi, .op .initiator (.sendStart 0 hollow), .op .initiator (.sendStep 0),
      .op .initiator (.sendStep 0), .take .initiator, .take .initiator, .deliver .responder,
      .deliver .responder, .op .responder .acceptBi] _ (midway 65514 [] [] 5 [hollow]) rfl
  exact ⟨l₀, _, hspawn, hrun, rfl, rfl⟩

/-- A frame is given up after its first chunk was queued. -/
theorem torn_cancel (x : Bytes) (hx : x.length = 65509) :
    ∃ trace, Runs Transition.unguarded (midway 65514 [] [] 5 [hollow]) trace
        (midway 0 [.data 0 (fullChunk x)] [] 5 [hollow]) ∧
      started .initiator 0 trace = [twoChunks x hx [7, 7, 7, 7, 7] rfl] ∧
      received .responder 0 trace = [] := by
  have hrun := (@Transition.Run.nil _ _ _ step Transition.unguarded
    (midway 65514 [] [] 5 [hollow])).snoc trivial (step_op (s := .initiator)
    (Endpoint.perform_start (i := 0) (f := twoChunks x hx [7, 7, 7, 7, 7] rfl) rfl rfl
      payload_twoChunks.le chunks_twoChunks))
  have hrun := hrun.snoc trivial (step_op (s := .initiator)
    (Endpoint.perform_acquire (i := 0) (n := 65514) rfl rfl rfl (length_fullChunk hx)))
  have hrun := @Transition.Run.exec _ _ _ _ _ _ _ [.op .initiator (.sendStep 0),
      .op .initiator (.sendStep 0), .op .initiator (.sendCancel 0), .take .initiator] _ _ _
      (midway 0 [.data 0 (fullChunk x)] [] 5 [hollow]) hrun rfl
  exact ⟨_, hrun, rfl, rfl⟩

/-- The receiver takes the frame before it, and the next send fills the rest of
the window. -/
theorem torn_next (x : Bytes) (hx : x.length = 65509) :
    ∃ trace, Runs Transition.unguarded (midway 0 [.data 0 (fullChunk x)] [] 5 [hollow]) trace
        (midway 0 [.data 0 hollow.encode] (fullChunk x) 65514 []) ∧
      started .initiator 0 trace = [hollow] ∧ received .responder 0 trace = [hollow] := by
  have hrun := (@Transition.Run.nil _ _ _ step Transition.unguarded
    (midway 0 [.data 0 (fullChunk x)] [] 5 [hollow])).snoc trivial (step_data (s := .responder) rfl
      rfl (Endpoint.peerData_fits (n := 65519) (i := 0) (a := []) (u := 5) rfl rfl rfl rfl rfl
        (by rw [length_fullChunk hx]) (Nat.le_refl 65519)
        (Endpoint.reassemble_part (f := twoChunks x hx [7, 7, 7, 7, 7] rfl) encode_twoChunks
          (by decide) payload_twoChunks.le)))
  have hrun := @Transition.Run.exec _ _ _ _ _ _ _ [.op .responder (.recvPop 0),
      .op .responder (.recvCredit 0), .take .responder, .deliver .initiator,
      .op .initiator (.sendStart 0 hollow), .op .initiator (.sendStep 0),
      .op .initiator (.sendStep 0), .take .initiator] _ _ _
      (midway 0 [.data 0 hollow.encode] (fullChunk x) 65514 []) hrun rfl
  exact ⟨_, hrun, rfl, rfl⟩

/-- What the receiver cuts off its assembler is one frame made of two. -/
theorem torn_join (x : Bytes) (hx : x.length = 65509) :
    ∃ trace l, Runs Transition.unguarded
        (midway 0 [.data 0 hollow.encode] (fullChunk x) 65514 []) trace l ∧
      started .initiator 0 trace = [] ∧
      received .responder 0 trace = [twoChunks x hx hollow.encode rfl] := by
  have hrounds : 2 ≤ (fullChunk x ++ hollow.encode).length + 1 := by
    rw [List.length_append, length_fullChunk hx]
    omega
  have hrun := (@Transition.Run.nil _ _ _ step Transition.unguarded
    (midway 0 [.data 0 hollow.encode] (fullChunk x) 65514 [])).snoc trivial
      (step_data (s := .responder) rfl rfl
        (Endpoint.peerData_fits (n := 65519) (i := 0) (a := fullChunk x) (u := 65514) rfl rfl rfl
          rfl rfl rfl (Nat.le_refl 65519)
          (Endpoint.reassemble_frame (f := twoChunks x hx hollow.encode rfl)
            encode_twoChunks.symm payload_twoChunks.le rfl rfl hrounds)))
  have hrun := @Transition.Run.exec _ _ _ _ _ _ _ [.op .responder (.recvPop 0),
      .op .responder (.recvCredit 0)] _ _ _ _ hrun rfl
  exact ⟨_, _, hrun, rfl, rfl⟩

theorem started_append (s : Role) (c : ChannelId) (t t' : Trace) :
    started s c (t ++ t') = started s c t ++ started s c t' := List.filterMap_append

theorem received_append (s : Role) (c : ChannelId) (t t' : Trace) :
    received s c (t ++ t') = received s c t ++ received s c t' := List.filterMap_append

/-- **The next frame completes the torn one.**  A frame is given up after its
first chunk; the five bytes of the next frame end it, and the receiver is handed
a frame that was never passed to a send. -/
theorem torn_frame_joins :
    ¬ ∀ (cfg : MuxConfig) (l₀ : Link), spawn cfg = .ok l₀ →
      ∀ trace l, Runs Transition.unguarded l₀ trace l → ∀ s c, Intact trace l s c := by
  intro h
  have hx : (List.replicate 65509 (7 : UInt8)).length = 65509 := List.length_replicate
  generalize List.replicate 65509 (7 : UInt8) = x at hx
  obtain ⟨l₀, t₁, hspawn, hrun₁, hs₁, hr₁⟩ := torn_begin
  obtain ⟨t₂, hrun₂, hs₂, hr₂⟩ := torn_cancel x hx
  obtain ⟨t₃, hrun₃, hs₃, hr₃⟩ := torn_next x hx
  obtain ⟨t₄, l, hrun₄, hs₄, hr₄⟩ := torn_join x hx
  have hintact := h tight l₀ hspawn _ _ (((hrun₁.trans hrun₂).trans hrun₃).trans hrun₄)
    .initiator 0
  have hsub := hintact.whole.sublist.trans hintact.passed
  change List.Sublist (received .responder 0 _) _ at hsub
  simp only [started_append, received_append, hs₁, hs₂, hs₃, hs₄, hr₁, hr₂, hr₃, hr₄,
    List.nil_append, List.append_nil, List.cons_append] at hsub
  -- The frame received is longer than the empty ones and ends in other bytes than the torn one.
  have hmem := hsub.subset (List.mem_cons_of_mem _ (List.mem_singleton.mpr rfl))
  simp only [List.mem_cons, List.not_mem_nil, or_false] at hmem
  have hlong : twoChunks x hx hollow.encode rfl ≠ hollow := by
    intro heq
    exact absurd (payload_twoChunks.symm.trans (congrArg (fun f => f.payload.length) heq))
      (by decide)
  rcases hmem with hmem | hmem | hmem
  · exact hlong hmem
  · have htail := List.append_cancel_left (congrArg Frame.payload hmem)
    cases htail
  · exact hlong hmem

end Link

end Mux
