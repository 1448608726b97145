import GoNomad.Transport.Wrap

/-!
# Credit is conserved

The credit of one direction of a channel is in the sender's semaphore or in the
hands of its send, on its way as data, with the receiver unacknowledged, or on
its way back as grants.  `credit_conserved` says that these add up to the
window in every reachable state, and `credit_for_frame` when a sender left
alone with its peer has the credit for the rest of its frame.
-/

namespace Mux

open Proto Transport CreditChannel

/-! ### Where the credit is -/

namespace Segment

/-- The bytes of data that segments carry for channel `c`. -/
def dataLen (c : ChannelId) (segs : List Segment) : Nat :=
  (segs.map fun seg =>
    if seg.channel = c ∧ seg.kind = kindData then seg.body.length else 0).sum

theorem dataLen_append (c : ChannelId) (segs segs' : List Segment) :
    dataLen c (segs ++ segs') = dataLen c segs + dataLen c segs' := by
  unfold dataLen
  rw [List.map_append, List.sum_append]

theorem length_dataBytes (c : ChannelId) (segs : List Segment) :
    (dataBytes (itemsOf c segs)).length = dataLen c segs := by
  induction segs with
  | nil => rfl
  | cons seg segs ih =>
      have hcons : dataLen c (seg :: segs) = dataLen c [seg] + dataLen c segs :=
        dataLen_append c [seg] segs
      rw [itemsOf_cons, dataBytes_append, List.length_append, ih, hcons]
      congr 1
      by_cases hc : seg.channel = c
      · subst hc
        rw [itemsOf_self]
        unfold item? dataLen
        by_cases hdata : seg.kind = kindData
        · have hopen : ¬ seg.kind = kindOpen := by rw [hdata]; decide
          simp [hdata, show kindData ≠ kindOpen by decide]
        · by_cases hopen : seg.kind = kindOpen
          · simp [hopen, show kindOpen ≠ kindData by decide]
          · by_cases hreset : seg.kind = kindReset
            · simp [hreset, show kindReset ≠ kindData by decide, show kindReset ≠ kindOpen by decide]
            · simp [hdata, hopen, hreset]
      · rw [itemsOf_other hc]
        simp [dataLen, hc]

end Segment

namespace Endpoint

/-- Credit an endpoint holds to send on channel `c`: permits available or set
aside for a parked send, and those acquired for a chunk not yet pushed. -/
def sendCredit (e : Endpoint) (c : ChannelId) : Nat :=
  match e.channels[c]? with
  | none => 0
  | some state =>
      match e.streams[state.inst]? with
      | none => 0
      | some stream => stream.credit.held + inHand stream.send

/-- The send in progress on channel `c`: its frame, and what of it is still to be
pushed. -/
def unsent (e : Endpoint) (c : ChannelId) : Option (Frame × Bytes) :=
  match e.channels[c]? with
  | none => none
  | some state =>
      match e.streams[state.inst]? with
      | none => none
      | some stream =>
          match stream.send with
          | some (.sending _ frame chunks) => some (frame, chunks.flatten)
          | _ => none

/-- The application has consumed every frame there is on channel `c`, or has
dropped its read half. -/
def caughtUp (e : Endpoint) (c : ChannelId) : Bool :=
  match e.channels[c]? with
  | none => true
  | some state =>
      match e.streams[state.inst]? with
      | none => true
      | some stream => stream.recv = none || (stream.recv = some .idle && stream.rx.isEmpty)

/-- Bytes received on channel `c` and not yet acknowledged. -/
def unacked (e : Endpoint) (c : ChannelId) : Nat :=
  match e.channels[c]? with
  | none => 0
  | some state => state.unacked

end Endpoint

namespace Link

/-- Bytes of data from side `s` queued or in flight. -/
def dataUnderway (l : Link) (s : Role) (c : ChannelId) : Nat :=
  Segment.dataLen c (l.wire.get s ++ (l.ends.get s).queue c)

/-- Credit granted by side `s` queued or in flight. -/
def creditUnderway (l : Link) (s : Role) (c : ChannelId) : Nat :=
  (Segment.creditsOf c (l.wire.get s ++ (l.ends.get s).urgent)).sum

variable {cfg : MuxConfig} {l l' l₀ : Link} {trace : Trace} {ev : Event} {obs : Endpoint.Obs}
variable {s : Role} {c : ChannelId}

theorem absEnd_avail (h : Safe cfg trace l) :
    (absEnd s c l trace).avail = (l.ends.get s).sendCredit c := by
  unfold absEnd View.toEnd View.avail Endpoint.sendCredit
  dsimp only [Endpoint.view]
  cases hstate : (l.ends.get s).channels[c]? with
  | none => rfl
  | some state =>
      obtain ⟨stream, hi, -, hof, -, -⟩ := (h.wf s).entry_stream hstate
      dsimp only
      rw [hi, hof]

theorem absEnd_unacked : (absEnd s c l trace).unacked = (l.ends.get s).unacked c := by
  unfold absEnd View.toEnd Endpoint.unacked
  dsimp only [Endpoint.view]
  cases (l.ends.get s).channels[c]? <;> rfl

theorem absEnd_data : (dataBytes (absEnd s c l trace).flight).length = l.dataUnderway s c := by
  unfold absEnd View.toEnd dataUnderway
  dsimp only [Endpoint.view]
  rw [dataBytes_append, List.length_append, Segment.length_dataBytes, Segment.length_dataBytes,
    Segment.dataLen_append]

theorem absEnd_grants : (absEnd s c l trace).grants.sum = l.creditUnderway s c := by
  unfold absEnd View.toEnd creditUnderway
  dsimp only [Endpoint.view]
  rw [Segment.creditsOf_append]

theorem absEnd_live : (absEnd s c l trace).phase = .live ↔
    (l.ends.get s).channels.contains c = true := by
  unfold absEnd View.toEnd
  dsimp only
  rw [Endpoint.live_iff]
  unfold Endpoint.view
  dsimp only
  rw [Std.ExtTreeMap.contains_eq_isSome_getElem?]

/-- The credit of one direction adds up. -/
theorem Safe.conserved (h : Safe cfg trace l) (hs : (l.ends.get s).channels.contains c = true)
    (hp : (l.ends.get s.other).channels.contains c = true) :
    (l.ends.get s).sendCredit c + l.dataUnderway s c + (l.ends.get s.other).unacked c +
      l.creditUnderway s.other c = cfg.window := by
  have hinv := h.channel s c
  have hlive : (absEnd s c l trace).phase = .live := absEnd_live.mpr hs
  have hlive' : (absEnd s.other c l trace).phase = .live := absEnd_live.mpr hp
  have hrunning : (absEnd s.other c l trace).halted = false := by
    by_contra hh
    exact hinv.there.halted_not_live (by simpa using hh) hlive'
  have hcredit := hinv.out.credit_eq hlive (by simp [hlive']) hrunning
  unfold outstanding at hcredit
  rw [absEnd_avail h, absEnd_data, absEnd_unacked, absEnd_grants] at hcredit
  exact hcredit

/-- The reader never finds its peer over the window, in either direction. -/
theorem Safe.within_window (h : Safe cfg trace l) {seg : Segment} {rest : List Segment}
    (hwire : l.wire.get s.other = seg :: rest) (id : ChannelId) :
    (receive (l.ends.get s) seg).2 ≠ .error (.protocol (.flowControlExceeded id)) ∧
      (receive (l.ends.get s) seg).2 ≠ .error (.protocol (.flowControlInflated id)) := by
  have hout := h.outcome hwire
  have hnot : ∀ err, Refusal cfg (l.ends.get s) ((h.arrival hwire) seg.channel).peer.spoiled seg
      err → err ≠ .protocol (.flowControlExceeded id) ∧
        err ≠ .protocol (.flowControlInflated id) := by
    intro err hwhy
    cases hwhy with
    | full _ _ _ => exact ⟨fun h => (by cases h), fun h => (by cases h)⟩
    | forgotten _ _ _ _ => exact ⟨fun h => (by cases h), fun h => (by cases h)⟩
    | garbled _ hbad =>
        rcases hbad with ⟨declared, rfl⟩ | ⟨bad, rfl⟩
        · exact ⟨fun h => (by cases h), fun h => (by cases h)⟩
        · exact ⟨fun h => (by cases h), fun h => (by cases h)⟩
  exact ⟨fun herr => (hnot _ (hout.refusal _ herr)).1 rfl,
    fun herr => (hnot _ (hout.refusal _ herr)).2 rfl⟩

/-- **Credit conservation.**  As long as opens take fresh ids, the credit of
every direction of every channel that both sides have adds up to the window,
so no side ever has more than a window outstanding, and flow control is never
violated. -/
theorem credit_conserved (hinit : spawn cfg = .ok l₀)
    (hrun : Runs (fun trace l ev => freshIds trace l ev) l₀ trace l) :
    (∀ s c, (l.ends.get s).channels.contains c = true →
      (l.ends.get s.other).channels.contains c = true →
      (l.ends.get s).sendCredit c + l.dataUnderway s c + (l.ends.get s.other).unacked c +
          l.creditUnderway s.other c = cfg.window ∧
        l.dataUnderway s c + (l.ends.get s.other).unacked c ≤ cfg.window) ∧
    ∀ s id, .error (.protocol (.flowControlExceeded id)) ∉ deliveries s trace ∧
      .error (.protocol (.flowControlInflated id)) ∉ deliveries s trace := by
  have hsafe := runs_safe hinit (fun _ _ _ hok => hok) hrun
  constructor
  · intro s c hs hp
    have hsum := hsafe.conserved hs hp
    exact ⟨hsum, by omega⟩
  · have hpast : ∀ s, ∀ result ∈ deliveries s trace, ∀ id,
        result ≠ .error (.protocol (.flowControlExceeded id)) ∧
          result ≠ .error (.protocol (.flowControlInflated id)) := by
      have hboth := hrun.invariant (fun trace l => Safe cfg trace l ∧
        ∀ s, ∀ result ∈ deliveries s trace, ∀ id,
          result ≠ .error (.protocol (.flowControlExceeded id)) ∧
            result ≠ .error (.protocol (.flowControlInflated id)))
        ⟨safe_spawn hinit, fun _ _ h => nomatch h⟩ ?_
      · exact hboth.2
      · rintro trace l ev l' obs ⟨hsafe, hall⟩ hok hstep
        refine ⟨hsafe.step hok hstep, ?_⟩
        intro s result hmem id
        rcases mem_deliveries hmem hstep with hmem | ⟨seg, rest, rfl, hwire, rfl⟩
        · exact hall s result hmem id
        · exact hsafe.within_window hwire id
    intro s id
    exact ⟨fun hmem => (hpast s _ hmem id).1 rfl, fun hmem => (hpast s _ hmem id).2 rfl⟩

/-- A frame on its way, and the opening of its channel too. -/
theorem credit_conserved_frame :
    ∃ l₀ trace l, spawn smallest = .ok l₀ ∧
      Runs (fun trace l ev => freshIds trace l ev) l₀ trace l ∧
      l.dataUnderway .initiator 0 = 6 ∧
      (l.ends.get .initiator).sendCredit 0 + l.dataUnderway .initiator 0 +
          (l.ends.get .responder).unacked 0 + l.creditUnderway .responder 0 =
        smallest.window := by
  obtain ⟨l₀, hspawn, hrun⟩ := @runs_of_exec (fun trace l ev => freshIds trace l ev) _ smallest
    [.op .initiator .openBi, .op .initiator (.sendStart 0 dot), .op .initiator (.sendStep 0),
      .op .initiator (.sendStep 0), .take .initiator, .take .initiator, .deliver .responder]
    _ _ rfl
  exact ⟨l₀, _, _, hspawn, hrun, rfl,
    ((credit_conserved hspawn hrun).1 .initiator 0 rfl rfl).1⟩

/-- **An id that comes back brings a second window.**  The new channel starts
with a full semaphore while the peer counts what the old one still owes. -/
theorem second_window :
    ¬ ∀ (cfg : MuxConfig) (l₀ : Link), spawn cfg = .ok l₀ →
      ∀ trace l, Runs Transition.unguarded l₀ trace l →
        (∀ s c, (l.ends.get s).channels.contains c = true →
          (l.ends.get s.other).channels.contains c = true →
          (l.ends.get s).sendCredit c + l.dataUnderway s c + (l.ends.get s.other).unacked c +
              l.creditUnderway s.other c = cfg.window ∧
            l.dataUnderway s c + (l.ends.get s.other).unacked c ≤ cfg.window) ∧
        ∀ s id, .error (.protocol (.flowControlExceeded id)) ∉ deliveries s trace ∧
          .error (.protocol (.flowControlInflated id)) ∉ deliveries s trace := by
  intro h
  obtain ⟨l₀, trace, l, hspawn, hrun, hwaiting, hwrapped⟩ := link_wraps
  obtain ⟨i, hentry, hstream⟩ := hwrapped.entry
  have hhere : (l.ends.get .initiator).channels.contains controlChannel = true :=
    contains_iff.mpr ⟨_, hentry⟩
  have hthere : (l.ends.get .responder).channels.contains controlChannel = true :=
    contains_iff.mpr ⟨_, hwaiting.entry⟩
  obtain ⟨hsum, -⟩ := (h lone l₀ hspawn trace l hrun).1 .initiator controlChannel hhere hthere
  have hcredit : (l.ends.get .initiator).sendCredit controlChannel = 12 := by
    unfold Endpoint.sendCredit
    rw [hentry]
    dsimp only
    rw [hstream]
    rfl
  have hunacked : (l.ends.get .responder).unacked controlChannel = 6 := by
    unfold Endpoint.unacked
    rw [hwaiting.entry]
  change _ + _ + (l.ends.get .responder).unacked controlChannel + _ = 12 at hsum
  omega

/-! ### Stalls -/

/-- Nothing is queued or in flight at either side. -/
def quiet (l : Link) : Bool :=
  [Role.initiator, .responder].all fun s =>
    (l.wire.get s).isEmpty && (l.ends.get s).urgent.isEmpty &&
      (l.ends.get s).out.toList.all fun entry => entry.2.isEmpty

theorem quiet_side (h : l.quiet = true) (s : Role) :
    l.wire.get s = [] ∧ (l.ends.get s).urgent = [] ∧ ∀ c, (l.ends.get s).queue c = [] := by
  unfold quiet at h
  rw [List.all_eq_true] at h
  have hs := h s (by cases s <;> simp)
  simp only [Bool.and_eq_true, List.isEmpty_iff, List.all_eq_true] at hs
  obtain ⟨⟨hwire, hurgent⟩, hout⟩ := hs
  refine ⟨hwire, hurgent, fun c => ?_⟩
  unfold Endpoint.queue
  cases hc : (l.ends.get s).out[c]? with
  | none => rfl
  | some segs =>
      exact hout (c, segs) (Std.ExtTreeMap.mem_toList_iff_getElem?_eq_some.mpr hc)

/-- What the frames of a list cost. -/
def cost (fs : List Frame) : Nat := (fs.map Frame.wireLen).sum

theorem length_encAll (fs : List Frame) : (Frame.code.encAll fs).length = cost fs := by
  induction fs with
  | nil => rfl
  | cons f fs ih =>
      unfold cost at ih ⊢
      rw [PrefixCode.encAll_cons, List.length_append, Frame.code_enc, Frame.length_encode, ih,
        List.map_cons, List.sum_cons]

theorem quiet_flight (h : l.quiet = true) : (absEnd s c l trace).flight = [] := by
  obtain ⟨hwire, -, hqueue⟩ := quiet_side h s
  unfold absEnd View.toEnd
  dsimp only [Endpoint.view]
  rw [hwire, hqueue]
  rfl

theorem quiet_grants (h : l.quiet = true) : (absEnd s c l trace).grants = [] := by
  obtain ⟨hwire, hurgent, -⟩ := quiet_side h s
  unfold absEnd View.toEnd
  dsimp only [Endpoint.view]
  rw [hwire, hurgent]
  rfl

theorem caughtUp_ready (h : Safe cfg trace l) (hs : (l.ends.get s).channels.contains c = true)
    (hup : (l.ends.get s).caughtUp c = true) : (absEnd s c l trace).ready = [] := by
  obtain ⟨state, hstate⟩ := contains_iff.mp hs
  obtain ⟨stream, hi, -, hof, -, -⟩ := (h.wf s).entry_stream hstate
  unfold Endpoint.caughtUp at hup
  rw [hstate] at hup
  dsimp only at hup
  rw [hi] at hup
  dsimp only at hup
  unfold absEnd View.toEnd
  dsimp only [Endpoint.view]
  rw [hof]
  change readyOf stream = []
  unfold readyOf
  cases hrecv : stream.recv with
  | none => exact ((h.wf s).stream_wf hi).unread hrecv
  | some half =>
      rw [hrecv] at hup
      cases half with
      | idle => simpa using hup
      | popped frame => simp at hup

/-- The stream behind a send in progress. -/
theorem unsent_stream (h : Safe cfg trace l) {f : Frame} {todo : Bytes}
    (hunsent : (l.ends.get s).unsent c = some (f, todo)) :
    ∃ stream stage chunks, ((l.ends.get s).view c).stream = some stream ∧
      stream.send = some (.sending stage f chunks) ∧ todo = chunks.flatten := by
  unfold Endpoint.unsent at hunsent
  cases hstate : (l.ends.get s).channels[c]? with
  | none =>
      rw [hstate] at hunsent
      cases hunsent
  | some state =>
      obtain ⟨stream, hi, -, hof, -, -⟩ := (h.wf s).entry_stream hstate
      rw [hstate] at hunsent
      dsimp only at hunsent
      rw [hi] at hunsent
      dsimp only at hunsent
      split at hunsent
      · next stage frame chunks hsend =>
          cases hunsent
          exact ⟨stream, stage, chunks, hof, hsend, rfl⟩
      · cases hunsent

/-- The send in progress, as the abstract channel sees it: a whole frame to be
begun, or the rest of the last frame begun. -/
theorem unsent_cases (h : Safe cfg trace l) (htally : Tallied trace l) {f : Frame} {todo : Bytes}
    (hunsent : (l.ends.get s).unsent c = some (f, todo)) :
    ((absEnd s c l trace).pend = [] ∧ todo = Frame.code.enc f) ∨
      ((absEnd s c l trace).pend ≠ [] ∧ todo = (absEnd s c l trace).pend ∧
        ∃ fs, (absEnd s c l trace).sent = fs ++ [f]) := by
  obtain ⟨stream, stage, chunks, hs, hsend, rfl⟩ := unsent_stream h hunsent
  have hpend : (absEnd s c l trace).pend =
      if chunks.flatten = f.encode then [] else chunks.flatten := by
    unfold absEnd View.toEnd
    dsimp only
    rw [hs]
    change pending stream.send = _
    rw [hsend]
    rfl
  by_cases hwhole : chunks.flatten = f.encode
  · rw [if_pos hwhole] at hpend
    exact Or.inl ⟨hpend, hwhole⟩
  · rw [if_neg hwhole] at hpend
    obtain ⟨-, -, hall, chunk, rest, rfl, -⟩ :=
      ((h.wf s).streams stream (Endpoint.streamOf_mem hs)).task _ hsend
    have hne : (chunk :: rest).flatten ≠ [] := by
      intro hnil
      rw [List.flatten_cons, List.append_eq_nil_iff] at hnil
      exact (hall chunk (by simp)).1 hnil.1
    obtain ⟨fs, hbegan⟩ := (htally s c).1 stream stage f _ hs hsend hwhole
    rw [bookOf_eq] at hbegan
    refine Or.inr ⟨by rw [hpend]; exact hne, hpend.symm, fs, ?_⟩
    rw [absEnd_sent]
    exact hbegan

/-- **No stall without a reader that left frames behind.**  With nothing queued
or in flight and the receiver caught up, a sender has the credit for what is
left of its frame exactly when the frame fits into the window together with the
frames that readers of the channel left unread. -/
theorem credit_for_frame (hinit : spawn cfg = .ok l₀)
    (hrun : Runs (fun trace l ev => freshIds trace l ev) l₀ trace l) (hquiet : l.quiet = true)
    (hs : (l.ends.get s).channels.contains c = true)
    (hp : (l.ends.get s.other).channels.contains c = true)
    (hup : (l.ends.get s.other).caughtUp c = true) (htorn : torn s c trace = false)
    {f : Frame} {todo : Bytes} (hunsent : (l.ends.get s).unsent c = some (f, todo)) :
    todo.length ≤ (l.ends.get s).sendCredit c ↔
      f.wireLen + cost (abandoned s.other c trace) ≤ cfg.window := by
  obtain ⟨hsafe, htally⟩ := runs_tallied hinit (fun _ _ _ hok => hok) hrun
  have hinv := hsafe.channel s c
  have hsuffices := hinv.credit_suffices (not_spoiled htorn) (by rw [absEnd_torn]; exact htorn)
    (absEnd_live.mpr hs) (absEnd_live.mpr hp) (quiet_flight hquiet) (quiet_grants hquiet)
    (caughtUp_ready hsafe hp hup)
    (unsent_cases hsafe htally hunsent)
  rw [absEnd_avail hsafe, absEnd_lost, length_encAll, Frame.code_enc, Frame.length_encode]
    at hsuffices
  exact hsuffices

/-- A frame about to be sent on a channel that has just been opened. -/
theorem credit_for_frame_fresh :
    ∃ l₀ trace l f todo, spawn smallest = .ok l₀ ∧
      Runs (fun trace l ev => freshIds trace l ev) l₀ trace l ∧
      (l.ends.get .initiator).unsent 0 = some (f, todo) ∧
      (todo.length ≤ (l.ends.get .initiator).sendCredit 0 ↔
        f.wireLen + cost (abandoned .responder 0 trace) ≤ smallest.window) := by
  obtain ⟨l₀, hspawn, hrun⟩ := @runs_of_exec (fun trace l ev => freshIds trace l ev) _ smallest
    [.op .initiator .openBi, .take .initiator, .deliver .responder,
      .op .initiator (.sendStart 0 dot)] _ _ rfl
  exact ⟨l₀, _, _, dot, dot.encode, hspawn, hrun, rfl,
    credit_for_frame hspawn hrun rfl rfl rfl rfl rfl rfl⟩

/-- **A reader that goes away with a frame unread.**  The frame fills the
window, its cost is never granted back, and the next send is parked for ever. -/
theorem unread_frame_stalls :
    ¬ ∀ (cfg : MuxConfig) (l₀ : Link), spawn cfg = .ok l₀ →
      ∀ trace l, Runs Transition.unguarded l₀ trace l → l.quiet = true →
        ∀ s c f todo, (l.ends.get s).channels.contains c = true →
          (l.ends.get s.other).channels.contains c = true →
          (l.ends.get s.other).caughtUp c = true →
          (l.ends.get s).unsent c = some (f, todo) →
            todo.length ≤ (l.ends.get s).sendCredit c := by
  intro h
  obtain ⟨l₀, hspawn, hrun⟩ := @runs_of_exec Transition.unguarded _ smallest
    [.op .initiator .openBi, .op .initiator (.sendStart 0 dot), .op .initiator (.sendStep 0),
      .op .initiator (.sendStep 0), .take .initiator, .take .initiator, .deliver .responder,
      .deliver .responder, .op .responder .acceptBi, .op .responder (.dropRecv 0),
      .op .initiator (.sendStart 0 dot), .op .initiator (.sendStep 0)] _ _ rfl
  have hcredit := h smallest l₀ hspawn _ _ hrun rfl .initiator 0 dot dot.encode rfl rfl rfl rfl
  exact absurd hcredit (by decide)

end Link

end Mux
