import GoNomad.Transport.Delivery

/-!
# The reader simulates the channel

A segment that arrives carries at most one item and one grant of its channel.
`Arrival` is what the simulation needs to know of one channel at that moment:
the end that handles the segment, and a peer with the segment first on its way.

`sim_receive` is the simulation of one delivery: every channel takes some
number of actions, the endpoint stays well formed, and the only segments a
handler refuses are an opening at the channel limit, data for a channel it has
forgotten, and data after a torn frame.
-/

namespace Mux

open Proto Transport CreditChannel

variable {cfg : MuxConfig} {s : Role} {e e' : Endpoint} {seg : Segment} {c id : ChannelId}

/-- One channel when `seg` arrives at `e`. -/
structure Arrival (cfg : MuxConfig) (s : Role) (e : Endpoint) (seg : Segment) (c : ChannelId) where
  items : List (Item UInt8)
  credits : List Nat
  past : Past
  peer : End Frame UInt8
  flight : List (Item UInt8)
  grants : List Nat
  flight_eq : peer.flight = Segment.itemsOf c [seg] ++ flight
  grants_eq : peer.grants = Segment.creditsOf c [seg] ++ grants
  inv : Inv Frame.code cfg.window ((e.view c).toEnd (owns s c) items credits past) peer
  cap : ∀ f ∈ peer.sent, f.payload.length ≤ cfg.maxFrameLen

namespace Arrival

/-- The end of the channel at an endpoint. -/
def here (a : Arrival cfg s e seg c) (e' : Endpoint) : End Frame UInt8 :=
  (e'.view c).toEnd (owns s c) a.items a.credits a.past

/-- The peer once the segment has been handled. -/
def there (a : Arrival cfg s e seg c) : End Frame UInt8 :=
  { a.peer with flight := a.flight, grants := a.grants }

/-- The channel follows its endpoint to `e'`. -/
def Simulates (a : Arrival cfg s e seg c) (e' : Endpoint) : Prop :=
  Steps Frame.code cfg.window (a.here e) a.peer (a.here e') a.there

/-! ### A segment the channel ignores -/

/-- A segment of another channel. -/
theorem other (a : Arrival cfg s e seg c) (hc : seg.channel ≠ c) (hview : e'.view c = e.view c) :
    a.Simulates e' := by
  have hflight := a.flight_eq
  have hgrants := a.grants_eq
  rw [Segment.itemsOf_other hc, List.nil_append] at hflight
  rw [Segment.creditsOf_other hc, List.nil_append] at hgrants
  refine Steps.of_eq _ _ ?_ ?_
  · unfold here
    rw [hview]
  · unfold there
    rw [← hflight, ← hgrants]

/-- An item of the stream arrives: the peer's side of it. -/
theorem there_item (a : Arrival cfg s e seg c) (hc : seg.channel = c) {item : Item UInt8}
    (hitem : seg.item? = some item) (hcredit : seg.credit? = none) :
    a.peer.flight = item :: a.flight ∧ a.there = { a.peer with flight := a.flight } := by
  subst hc
  have hflight := a.flight_eq
  have hgrants := a.grants_eq
  rw [Segment.itemsOf_self, hitem] at hflight
  rw [Segment.creditsOf_self, hcredit] at hgrants
  refine ⟨hflight, ?_⟩
  unfold there
  rw [← show a.peer.grants = a.grants from hgrants]

/-- A grant arrives: the peer's side of it. -/
theorem there_grant (a : Arrival cfg s e seg c) (hc : seg.channel = c) {n : Nat}
    (hitem : seg.item? = none) (hcredit : seg.credit? = some n) :
    a.peer.grants = n :: a.grants ∧ a.there = { a.peer with grants := a.grants } := by
  subst hc
  have hflight := a.flight_eq
  have hgrants := a.grants_eq
  rw [Segment.itemsOf_self, hitem] at hflight
  rw [Segment.creditsOf_self, hcredit] at hgrants
  refine ⟨hgrants, ?_⟩
  unfold there
  rw [← show a.peer.flight = a.flight from hflight]

/-- An item that arrives at an end that no longer cares. -/
theorem skip (a : Arrival cfg s e seg c) (hc : seg.channel = c) {item : Item UInt8}
    (hitem : seg.item? = some item) (hcredit : seg.credit? = none) {e₀ : Endpoint}
    (hcare : (a.here e₀).halted = true ∨ (a.here e₀).phase = .gone ∧ item ≠ .closing) :
    Steps Frame.code cfg.window (a.here e₀) a.peer (a.here e₀) a.there := by
  obtain ⟨hflight, hthere⟩ := a.there_item hc hitem hcredit
  rw [hthere]
  exact (Act.skip hflight hcare).steps

/-- Every segment of a well-formed endpoint's peer carries one item or one
grant. -/
theorem formed_cases (h : seg.Formed) :
    (∃ item, seg.item? = some item ∧ seg.credit? = none) ∨
      ∃ n, seg.item? = none ∧ seg.credit? = some n := by
  cases h with
  | opening c => exact Or.inl ⟨.opening, rfl, rfl⟩
  | data c hne hle => exact Or.inl ⟨.data _, rfl, rfl⟩
  | window c n => exact Or.inr ⟨n.toNat, rfl, Segment.credit?_window c n⟩
  | reset c => exact Or.inl ⟨.closing, rfl, rfl⟩

/-- A closed endpoint has no live channel. -/
theorem not_live (h : e'.Wf cfg s) (hclosed : e'.closed = true) (a : Arrival cfg s e seg c) :
    (a.here e').phase ≠ .live := by
  intro hlive
  have hentry := (Endpoint.live_iff (v := e'.view c)).mp hlive
  have hnone : (e'.view c).entry = none := (h.quiet hclosed).1 c
  rw [hnone] at hentry
  cases hentry

/-- A closed endpoint ignores whatever arrives. -/
theorem drain (hseg : seg.Formed) (a : Arrival cfg s e seg c) {e₀ : Endpoint}
    (h : e₀.Wf cfg s) (hclosed : e₀.closed = true) :
    Steps Frame.code cfg.window (a.here e₀) a.peer (a.here e₀) a.there := by
  by_cases hc : seg.channel = c
  · rcases formed_cases hseg with ⟨item, hitem, hcredit⟩ | ⟨n, hitem, hcredit⟩
    · exact a.skip hc hitem hcredit (Or.inl hclosed)
    · obtain ⟨hgrants, hthere⟩ := a.there_grant hc hitem hcredit
      rw [hthere]
      exact (Act.skipGrant (not_live h hclosed a) hgrants).steps
  · refine Steps.of_eq _ _ rfl ?_
    have hflight := a.flight_eq
    have hgrants := a.grants_eq
    rw [Segment.itemsOf_other hc, List.nil_append] at hflight
    rw [Segment.creditsOf_other hc, List.nil_append] at hgrants
    unfold there
    rw [← hflight, ← hgrants]

theorem closed_shutdown {err : Option TransportError} : (e.shutdown err).closed = true := by
  by_cases hclosed : e.closed = true
  · rw [Endpoint.shutdown_closed hclosed]
    exact hclosed
  · unfold Endpoint.shutdown
    rw [if_neg hclosed]

/-- A handler that refused the segment and changed nothing: the link goes away
under this end. -/
theorem refused (h : e.Wf cfg s) (hseg : seg.Formed) (a : Arrival cfg s e seg c)
    {err : Option TransportError} : a.Simulates (e.shutdown err) := by
  have hhalt : Steps Frame.code cfg.window (a.here e) a.peer (a.here (e.shutdown err)) a.peer :=
    Endpoint.sim_shutdown h a.items a.credits a.past a.peer
  exact hhalt.trans (a.drain hseg h.shutdown closed_shutdown)

/-- The link goes away after the segment was handled. -/
theorem Simulates.shutdown {a : Arrival cfg s e seg c} (h : a.Simulates e') (hwf : e'.Wf cfg s)
    {err : Option TransportError} : a.Simulates (e'.shutdown err) :=
  Steps.trans h (Endpoint.sim_shutdown hwf a.items a.credits a.past a.there)

end Arrival

/-! ### The handlers -/

namespace Endpoint

section dispatch

theorem handleSegment_encode (e : Endpoint) (seg : Segment) :
    e.handleSegment seg.encode =
      if seg.kind = kindOpen then e.peerOpen seg.channel
      else if seg.kind = kindData then e.peerData seg.channel seg.body
      else if seg.kind = kindWindow then e.peerWindow seg.channel seg.body
      else if seg.kind = kindReset then (e.peerReset seg.channel, .ok ())
      else (e, .error (.protocol (.unknownSegmentKind seg.kind))) := by
  unfold handleSegment Segment.encode BigEndian.ofU32
  dsimp only [List.cons_append, List.nil_append]
  rw [BigEndian.toU32_ofU32]

theorem handle_open (e : Endpoint) (c : ChannelId) :
    e.handleSegment (Segment.open c).encode = e.peerOpen c :=
  e.handleSegment_encode (.open c)

theorem handle_data (e : Endpoint) (c : ChannelId) (body : Bytes) :
    e.handleSegment (Segment.data c body).encode = e.peerData c body :=
  e.handleSegment_encode (.data c body)

theorem handle_window (e : Endpoint) (c : ChannelId) (n : UInt32) :
    e.handleSegment (Segment.window c n).encode = e.peerWindow c (BigEndian.ofU32 n) :=
  e.handleSegment_encode (.window c n)

theorem handle_reset (e : Endpoint) (c : ChannelId) :
    e.handleSegment (Segment.reset c).encode = (e.peerReset c, .ok ()) :=
  e.handleSegment_encode (.reset c)

end dispatch

theorem phase_fresh (h : e.Wf cfg s) : (e.view c).phase = .fresh ↔ e.streamOf c = none := by
  unfold View.phase view
  dsimp only
  cases hentry : e.channels[c]? with
  | none => cases e.streamOf c <;> simp
  | some state =>
      obtain ⟨t, -, -, hof, -⟩ := h.entry_stream hentry
      simp [hof]

theorem phase_gone :
    (e.view c).phase = .gone ↔ e.channels[c]? = none ∧ e.streamOf c ≠ none := by
  unfold View.phase view
  dsimp only
  cases e.channels[c]? <;> cases e.streamOf c <;> simp

end Endpoint

/-- Why a segment of a conforming peer can be refused: the channel limit, a
forgotten channel, or bytes behind a torn frame. -/
inductive Refusal (cfg : MuxConfig) (e : Endpoint) (spoiled : Bool) :
    Segment → TransportError → Prop
  | full {c : ChannelId} (hopen : e.closed = false) (hnew : e.streamOf c = none)
      (hfull : cfg.maxChannels ≤ e.channels.size) :
      Refusal cfg e spoiled (.open c) (.protocol (.tooManyChannels cfg.maxChannels))
  | forgotten {c : ChannelId} {body : Bytes} (hopen : e.closed = false)
      (hforgot : e.retired.contains c = false) (hgone : e.channels[c]? = none)
      (hold : e.streamOf c ≠ none) :
      Refusal cfg e spoiled (.data c body) (.protocol (.unknownChannel c))
  | garbled {c : ChannelId} {body : Bytes} {err : TransportError} (hspoiled : spoiled = true)
      (hbad : Endpoint.BadFrame cfg.maxFrameLen err) :
      Refusal cfg e spoiled (.data c body) err

namespace Arrival

open Endpoint

/-- What one delivery does, for all channels at once. -/
structure Outcome (a : ∀ c, Arrival cfg s e seg c) (r : Endpoint × Except TransportError Unit) :
    Prop where
  wf : r.1.Wf cfg s
  simulates : ∀ c, (a c).Simulates r.1
  ids : ∀ c ∈ r.1.ids, c ∈ e.ids ∨ owns s.other c = true
  sends : ∀ c, SendKept c e r.1
  refusal : ∀ err, r.2 = .error err → Refusal cfg e (a seg.channel).peer.spoiled seg err

/-- No id is new. -/
theorem known (h : e'.ids = e.ids) : ∀ c ∈ e'.ids, c ∈ e.ids ∨ owns s.other c = true :=
  fun _ hc => Or.inl (h ▸ hc)

theorem Outcome.ok {a : ∀ c, Arrival cfg s e seg c} (hwf : e'.Wf cfg s)
    (hsim : ∀ c, (a c).Simulates e') (hids : ∀ c ∈ e'.ids, c ∈ e.ids ∨ owns s.other c = true)
    (hsends : ∀ c, SendKept c e e') : Outcome a (e', .ok ()) :=
  ⟨hwf, hsim, hids, hsends, fun _ h => nomatch h⟩

/-- An endpoint that ignores the segment. -/
theorem Outcome.ignored {a : ∀ c, Arrival cfg s e seg c} (h : e.Wf cfg s)
    (hself : (a seg.channel).Simulates e) : Outcome a (e, .ok ()) := by
  refine .ok h (fun c => ?_) (known rfl) fun c => .of_view rfl
  by_cases hc : seg.channel = c
  · subst hc
    exact hself
  · exact (a c).other hc rfl

theorem Outcome.refused {a : ∀ c, Arrival cfg s e seg c} (h : e.Wf cfg s) (hseg : seg.Formed)
    {err : TransportError} (hwhy : Refusal cfg e (a seg.channel).peer.spoiled seg err) :
    Outcome a (e.shutdown (some err), .error err) := by
  refine ⟨h.shutdown, fun c => (a c).refused h hseg, known ids_shutdown,
    fun c => SendKept.shutdown (.of_view rfl) h.unique, ?_⟩
  intro err' herr
  cases herr
  exact hwhy

/-! #### An opening -/

theorem owns_parity (h : owns s.other id = true) : id % 2 = s.peerParity := by
  unfold owns at h
  cases s
  · exact eq_of_beq h
  · exact eq_of_beq h

theorem view_accepted (h : e.Wf cfg s) (hnew : e.streamOf id = none) :
    ({ (e.insertChannel id).1 with acceptRx := e.acceptRx ++ [e.streams.length] } :
      Endpoint).view c =
      if id = c then
        { e.view c with stream := some ⟨c, .new cfg.window, [], some .idle, some .idle⟩
                        entry := some e.newEntry }
      else e.view c := by
  have hview : (e.insertChannel id).1.view c = _ := view_insertChannel hnew
  by_cases hc : id = c
  · subst hc
    rw [if_pos rfl] at hview ⊢
    rw [← h.cfg_eq]
    exact hview
  · rw [if_neg hc] at hview ⊢
    exact hview

/-- An opening is accepted, refused at the channel limit, or ignored. -/
theorem outcome_open (h : e.Wf cfg s) (a : ∀ c, Arrival cfg s e (.open id) c) :
    Outcome a (Link.receive e (.open id)) := by
  obtain ⟨hflight, hthere⟩ := (a id).there_item rfl rfl rfl
  have hforeign : owns s.other id = true := by
    have howner := (a id).inv.out.owners
    rw [(a id).inv.opening_owner hflight] at howner
    have hnot : owns s id = false := howner
    rw [owns_other, hnot]
    rfl
  have hparity : id % 2 = s.peerParity := owns_parity hforeign
  have hfresh : e.closed = false → e.streamOf id = none := fun hopen =>
    (phase_fresh h).mp ((a id).inv.opening_fresh hopen hflight)
  unfold Link.receive
  rw [handle_open]
  rcases peerOpen_cases h id with ⟨heq, hignore⟩ | ⟨v, heq, hv⟩ | ⟨heq, -, hopen, -⟩
  · rw [heq]
    refine .ignored h ?_
    by_cases hclosed : e.closed = true
    · exact (a id).drain (.opening id) h hclosed
    · rcases hignore with hc | hret
      · exact absurd hc hclosed
      · exact absurd (hfresh (by simpa using hclosed)) (h.retired id hret).2
  · rw [heq]
    rcases hv with ⟨-, hwrong⟩ | ⟨-, hopen, hdup⟩ | ⟨rfl, hopen, -, -, hfull⟩
    · exact absurd hparity hwrong
    · cases hstate : e.channels[id]? with
      | none => exact absurd hstate hdup
      | some state =>
          obtain ⟨t, -, -, hof, -⟩ := h.entry_stream hstate
          rw [hfresh hopen] at hof
          cases hof
    · exact .refused h (.opening id) (.full hopen (hfresh hopen) hfull)
  · rw [heq]
    have hnew := hfresh hopen
    refine .ok (h.peerOpen_ok hopen hnew) (fun c => ?_) (fun c hc => ?_) fun c => ?_
    · have hview := view_accepted (c := c) h hnew
      by_cases hc : id = c
      · subst hc
        rw [if_pos rfl] at hview
        have hact := @Act.accept _ _ Frame.code cfg.window ((a id).here e) (a id).peer (a id).flight
          hopen ((phase_fresh h).mpr hnew) hflight
        unfold Simulates
        rw [hthere]
        convert hact.steps using 1
        unfold here View.toEnd
        rw [hview]
        have hs : (e.view id).stream = none := hnew
        have hentry : (e.view id).entry = none := by
          cases hstate : (e.view id).entry with
          | none => rfl
          | some state =>
              obtain ⟨t, -, -, hof, -⟩ := h.entry_stream hstate
              rw [hnew] at hof
              cases hof
        simp [hs, hentry, View.avail, View.phase, newEntry, readyOf]
      · rw [if_neg hc] at hview
        exact (a c).other hc hview
    · have hmem : c ∈ e.ids ++ [id] := by
        unfold ids insertChannel at hc
        simpa [ids] using hc
      rcases List.mem_append.mp hmem with hmem | hmem
      · exact Or.inl hmem
      · rw [List.mem_singleton.mp hmem]
        exact Or.inr hforeign
    · have hview := view_accepted (c := c) h hnew
      by_cases hc : id = c
      · subst hc
        rw [if_pos rfl] at hview
        refine Or.inr ⟨hnew, ?_⟩
        rw [hview]
        rfl
      · rw [if_neg hc] at hview
        exact .of_view hview

/-! #### A grant -/

/-- A grant reaches the stream's semaphore or a channel that is not there. -/
theorem outcome_window (h : e.Wf cfg s) {n : UInt32}
    (a : ∀ c, Arrival cfg s e (.window id n) c) :
    Outcome a (Link.receive e (.window id n)) := by
  obtain ⟨hgrants, hthere⟩ := (a id).there_grant rfl rfl (Segment.credit?_window id n)
  unfold Link.receive
  rw [handle_window]
  rcases peerWindow_cases h id n with ⟨heq, hnone⟩ | ⟨state, stream, hstate, hi, hid, hor⟩
  · rw [heq]
    have hself : (a id).Simulates e := by
      by_cases hclosed : e.closed = true
      · exact (a id).drain (.window id n) h hclosed
      have hentry : e.channels[id]? = none := hnone.resolve_left hclosed
      have hphase : ((a id).here e).phase ≠ .live := by
        intro hlive
        have hsome := (live_iff (v := e.view id)).mp hlive
        unfold view at hsome
        rw [hentry] at hsome
        cases hsome
      have hskip := @Act.skipGrant _ _ Frame.code cfg.window _ _ _ _ hphase hgrants
      unfold Simulates
      rw [hthere]
      exact hskip.steps
    exact .ignored h hself
  · subst hid
    have hs : (e.view stream.id).stream = some stream := view_stream h hi
    have hentry : (e.view stream.id).entry = some state := hstate
    have hfits := (a stream.id).inv.grant_fits hgrants
    unfold View.toEnd View.avail at hfits
    rw [hs, hentry] at hfits
    dsimp only at hfits
    have hheld := stream.credit.permits_le_held
    rcases hor with ⟨hbig, -⟩ | ⟨-, heq⟩
    · omega
    · rw [heq]
      refine .ok (h.addPermits hi n.toNat) (fun c => ?_) (known (ids_setStream hi rfl))
        fun c => .setStream h hi rfl rfl
      by_cases hc : stream.id = c
      · subst hc
        have hlive : ((a stream.id).here e).phase = .live := live_iff.mpr (by rw [hentry]; rfl)
        have hact := @Act.grant _ _ Frame.code cfg.window _ _ _ _ hlive hgrants
        unfold Simulates
        rw [hthere]
        convert hact.steps using 1
        have hview : (e.setStream state.inst
            { stream with credit := stream.credit.addPermits n.toNat }).view stream.id = _ :=
          view_setStream_self h hi rfl
        unfold here View.toEnd View.avail View.phase
        rw [hview, hs, hentry]
        dsimp only
        rw [Semaphore.held_addPermits, Nat.add_right_comm]
        rfl
      · exact (a c).other hc (view_setStream_other h hi rfl hc)

/-! #### A closing -/

/-- A closing ends the channel, unless the link is gone already. -/
theorem outcome_reset (h : e.Wf cfg s) (a : ∀ c, Arrival cfg s e (.reset id) c) :
    Outcome a (Link.receive e (.reset id)) := by
  obtain ⟨hflight, hthere⟩ := (a id).there_item rfl rfl rfl
  unfold Link.receive
  rw [handle_reset]
  by_cases hclosed : e.closed = true
  · have hsame : e.peerReset id = e := by
      unfold peerReset
      rw [if_pos hclosed]
    rw [hsame]
    exact .ignored h ((a id).drain (.reset id) h hclosed)
  have hopen : e.closed = false := by simpa using hclosed
  have hphase : ((a id).here e).phase ≠ .fresh :=
    (a id).inv.item_not_fresh hopen hflight (by simp)
  have hstream : e.streamOf id ≠ none := fun hnone => hphase ((phase_fresh h).mpr hnone)
  refine .ok (h.peerReset hstream) (fun c => ?_) (known (ids_peerReset h)) fun c => .peerReset h
  by_cases hc : id = c
  · subst hc
    have hact := @Act.closed _ _ Frame.code cfg.window _ _ _ (a id).items hopen hphase hflight
      (List.prefix_append _ _)
    unfold Simulates
    rw [hthere]
    convert hact.steps using 1
    unfold here View.toEnd
    rw [view_peerReset h _, if_pos ⟨rfl, hopen⟩]
    cases hs : (e.view id).stream with
    | none => exact absurd hs hstream
    | some stream =>
        cases hstate : e.channels[id]? with
        | none =>
            simp [View.avail, View.phase, End.release]
        | some state =>
            simp [View.avail, View.phase, End.release, readyOf]
  · refine (a c).other hc ?_
    rw [view_peerReset h _, if_neg (fun hh => hc hh.1)]

/-! #### Data -/

section data

variable {body : Bytes} {state state' : ChannelState} {stream stream' : Stream} {refund : Nat}
variable {fs : List Frame}

/-- What cutting off frames changes at the end of the channel. -/
theorem here_setEntry (a : Arrival cfg s e seg stream.id) (h : e.Wf cfg s)
    (hi : e.streams[state.inst]? = some stream) (hstate : e.channels[stream.id]? = some state)
    (hcut : Cut { state with assembler := state.assembler ++ body,
                             unacked := state.unacked + body.length } stream 0 fs state' stream'
      refund) (unacked : Nat) :
    a.here (e.setEntry stream.id state.inst { state' with unacked := unacked } stream') =
      { a.here e with
        asm := state'.assembler
        unacked := unacked
        ready := if (a.here e).reading then (a.here e).ready ++ fs else (a.here e).ready } := by
  have hview := view_setEntry (c := stream.id) h { state' with unacked := unacked } hi rfl
    hcut.same_id
  rw [if_pos rfl] at hview
  have hs : (e.view stream.id).stream = some stream := view_stream h hi
  have hentry : (e.view stream.id).entry = some state := hstate
  have hqueue := hcut.queue
  unfold here View.toEnd View.avail View.phase
  rw [hview, hs, hentry]
  by_cases hr : stream.recv.isSome = true
  · rw [if_pos hr] at hqueue
    rw [hqueue]
    cases hrecv : stream.recv with
    | none => simp [hrecv] at hr
    | some half => cases half <;> simp [hrecv, readyOf]
  · rw [if_neg hr] at hqueue
    rw [hqueue]
    simp [hr]

/-- A grant queued for the peer. -/
theorem here_pushUrgent (a : Arrival cfg s e seg c) (e' : Endpoint) (n : UInt32) :
    a.here { e' with urgent := e'.urgent ++ [.window c n] } =
      { a.here e' with grants := (a.here e').grants ++ [n.toNat] } := by
  unfold here View.toEnd
  rw [view_pushUrgent, if_pos rfl]
  simp [View.avail, View.phase]

/-- Data is handed on frame by frame, ignored, or refused. -/
theorem outcome_data (h : e.Wf cfg s) (hne : body ≠ []) (hle : body.length ≤ maxSegmentBody)
    (a : ∀ c, Arrival cfg s e (.data id body) c) :
    Outcome a (Link.receive e (.data id body)) := by
  have hformed : (Segment.data id body).Formed := .data id hne hle
  obtain ⟨hflight, hthere⟩ := (a id).there_item rfl rfl rfl
  unfold Link.receive
  rw [handle_data]
  rcases peerData_cases h id hne with
    ⟨heq, hignore⟩ | ⟨heq, hopen, hforgot, hgone⟩ | ⟨state, stream, hstate, hi, hid, hor⟩
  · rw [heq]
    refine .ignored h ?_
    by_cases hclosed : e.closed = true
    · exact (a id).drain hformed h hclosed
    · have hret := hignore.resolve_left hclosed
      have hphase : ((a id).here e).phase = .gone := phase_gone.mpr (h.retired id hret)
      exact (a id).skip rfl rfl rfl (Or.inr ⟨hphase, by simp⟩)
  · rw [heq]
    have hphase : ((a id).here e).phase ≠ .fresh :=
      (a id).inv.item_not_fresh hopen hflight (by simp)
    have hold : e.streamOf id ≠ none := fun hnone => hphase ((phase_fresh h).mpr hnone)
    exact .refused h hformed (.forgotten hopen hforgot hgone hold)
  · subst hid
    have hs : (e.view stream.id).stream = some stream := view_stream h hi
    have hentry : (e.view stream.id).entry = some state := hstate
    have hopen : e.closed = false := by
      by_contra hc
      have hnone := (h.quiet (by simpa using hc)).1 stream.id
      rw [hstate] at hnone
      cases hnone
    have hlive : ((a stream.id).here e).phase = .live := live_iff.mpr (by rw [hentry]; rfl)
    have hasm : ((a stream.id).here e).asm = state.assembler := by
      unfold here View.toEnd
      rw [hentry]
      rfl
    have hunacked : ((a stream.id).here e).unacked = state.unacked := by
      unfold here View.toEnd
      rw [hentry]
      rfl
    have hfits := (a stream.id).inv.chunk_fits hflight
    change ((a stream.id).here e).unacked + body.length ≤ cfg.window at hfits
    rw [hunacked] at hfits
    rcases hor with hbig | ⟨fs, state', stream', refund, result, hrun, hcut, hor⟩
    · omega
    have hin : stream.recv.isSome = true → state'.inbound = true := hcut.inbound
    have hset : ∀ n, (e.setEntry stream.id state.inst { state' with unacked := n } stream').Wf
        cfg s := fun n => h.setEntry hstate hi hcut.inst hin hcut.queue
    have hother : ∀ n c, stream.id ≠ c →
        (e.setEntry stream.id state.inst { state' with unacked := n } stream').view c =
          e.view c := by
      intro n c hc
      have hview := view_setEntry (c := c) h { state' with unacked := n } hi rfl
        hcut.same_id
      rwa [if_neg hc] at hview
    have hids : (e.setEntry stream.id state.inst state' stream').ids = e.ids :=
      ids_setEntry hi hcut.same_id
    have hkept : ∀ n c, SendKept c e
        (e.setEntry stream.id state.inst { state' with unacked := n } stream') := fun n c =>
      .setEntry h hstate hi hcut.same_id hcut.same_send
    have hhere := (a stream.id).here_setEntry h hi hstate hcut
    have hreading : ((a stream.id).here e).reading = stream.recv.isSome := by
      unfold here View.toEnd
      rw [hs]
      rfl
    have hbytes : ((a stream.id).here e).asm ++ body = Frame.code.encAll fs ++ state'.assembler := by
      rw [hasm]
      exact hcut.bytes
    rcases hor with ⟨err, rfl, hbad, heq⟩ | ⟨rfl, hstuck, heq⟩
    · -- The bytes after a torn frame need not be frames.
      rw [heq]
      have hlast := hset state'.unacked
      refine ⟨hlast.shutdown, fun c => ?_, known (ids_shutdown.trans hids),
        fun c => (hkept state'.unacked c).shutdown hlast.unique, ?_⟩
      · by_cases hc : stream.id = c
        · subst hc
          have hact := @Act.badData _ _ Frame.code cfg.window _ _ _ _ _ _ (a stream.id).items
            (a stream.id).credits hopen hlive hflight hbytes (List.prefix_append _ _)
            (List.prefix_append _ _)
          unfold Simulates
          rw [hthere]
          convert hact.steps using 1
          have hshut := toEnd_shutdown (c := stream.id) hlast hopen (some err)
            (owns s stream.id) (a stream.id).items (a stream.id).credits (a stream.id).past
          change (a stream.id).here _ = End.halt ((a stream.id).here _) _ _ at hshut
          rw [hhere] at hshut
          exact hshut
        · exact Simulates.shutdown ((a c).other hc (hother _ c hc)) hlast
      · intro err' herr
        cases herr
        refine .garbled ?_ hbad
        by_contra hclean
        obtain ⟨gs, hgs, hpre⟩ := (a stream.id).inv.chunk_stream hlive hflight
          (by simpa using hclean)
        have hok := @reassemble_ok cfg.maxFrameLen ((state.assembler ++ body).length + 1)
          { state with assembler := state.assembler ++ body,
                       unacked := state.unacked + body.length } stream 0 gs
          (by rw [← hasm]; exact hpre) (fun g hg => (a stream.id).cap g (hgs g hg))
        rw [hrun] at hok
        cases hok
    · rw [heq]
      have hact := @Act.data _ _ Frame.code cfg.window _ _ _ _ _ _ hopen hlive hflight hbytes hstuck
      have hcost := hcut.cost
      rw [Nat.zero_add] at hcost
      have hunacked' : state'.unacked = state.unacked + body.length := hcut.unacked
      have hgood := hset (state'.unacked - refund)
      dsimp only
      by_cases hrefund : (0 < refund && refund < 2 ^ 32) = true
      · rw [if_pos hrefund]
        rw [Bool.and_eq_true, decide_eq_true_eq, decide_eq_true_eq] at hrefund
        have hword : (UInt32.ofNat refund).toNat = refund := by
          rw [UInt32.toNat_ofNat']
          omega
        refine .ok (hgood.pushUrgent hopen stream.id _) (fun c => ?_) (known hids) (hkept _)
        by_cases hc : stream.id = c
        · subst hc
          unfold Simulates
          rw [hthere]
          convert hact.steps using 1
          by_cases hr : stream.recv.isSome = true
          · rw [if_pos hr] at hcost
            omega
          · rw [if_neg hr] at hcost
            rw [Bool.not_eq_true] at hr
            rw [hr] at hreading
            have hcut : Frame.code.encAll fs ≠ [] := by
              intro hnil
              rw [hnil, List.length_nil] at hcost
              omega
            rw [here_pushUrgent, hhere, hword, receive_unread hreading, if_neg hcut, hunacked',
              hunacked, hcost, if_neg (ne_true_of_eq_false hreading)]
            rfl
        · refine (a c).other hc ?_
          rw [view_pushUrgent, hother _ c hc, if_neg hc, List.append_nil]
      · rw [if_neg hrefund]
        refine .ok hgood (fun c => ?_) (known hids) (hkept _)
        by_cases hc : stream.id = c
        · subst hc
          unfold Simulates
          rw [hthere]
          convert hact.steps using 1
          rw [hhere, hunacked']
          by_cases hr : stream.recv.isSome = true
          · rw [if_pos hr] at hcost
            rw [hr] at hreading
            rw [receive_read hreading, hunacked, hcost, if_pos hreading]
            rfl
          · rw [if_neg hr] at hcost
            rw [Bool.not_eq_true] at hr
            rw [hr] at hreading
            -- The refund is at most a window, so the guard only rules out zero.
            have hnil : Frame.code.encAll fs = [] := by
              have hlen := congrArg List.length hbytes
              rw [List.length_append, List.length_append] at hlen
              have hheld := (a stream.id).inv.here.unacked_eq hlive
              change ((a stream.id).here e).unacked = ((a stream.id).here e).asm.length + _ + _ at hheld
              have hword : cfg.window < 2 ^ 32 := cfg.initialWindow.toNat_lt
              rw [Bool.and_eq_true, decide_eq_true_eq, decide_eq_true_eq] at hrefund
              refine List.length_eq_zero_iff.mp ?_
              omega
            rw [receive_unread hreading, hunacked, hcost, if_neg (ne_true_of_eq_false hreading),
              if_pos hnil, List.append_nil]
            rfl
        · exact (a c).other hc (hother _ c hc)

end data

/-- **The reader is simulated.**  Whatever segment arrives, every channel takes
some number of actions, and a refusal has one of three reasons. -/
theorem sim_receive (h : e.Wf cfg s) (hseg : seg.Formed) (a : ∀ c, Arrival cfg s e seg c) :
    Outcome a (Link.receive e seg) := by
  cases hseg with
  | opening id => exact outcome_open h a
  | data id hne hle => exact outcome_data h hne hle a
  | window id n => exact outcome_window h a
  | reset id => exact outcome_reset h a

end Arrival

end Mux
