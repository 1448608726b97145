import GoNomad.Transport.Ordered

/-!
# A peer that ends the link with nothing queued

When an end goes away, what it had put on the wire is still delivered.  The
other end cannot tell: `Frozen` is the end of a channel as it was before its
side went away, a partner that has just stopped.  As long as no data was queued
then, every frame of which the whole was queued is on its way or has arrived.

* `Safe.ends_of_step` — the ways the link goes away under one end;
* `Safe.frozen_step` — an end that has stopped stays what it was;
* `parted_of_run` — the invariant of runs in which an end goes away with no data
  queued, and the end of the stream arrives behind everything else;
* `drained_of_run` — what `recv` says at the end of a channel in such runs.
-/

namespace Mux

open Proto Transport CreditChannel

/-! ### How the link goes away -/

namespace Endpoint

variable {cfg : MuxConfig} {s : Role} {e e' : Endpoint} {c id : ChannelId} {i : Nat}
variable {stream stream' : Stream}

/-- The link is as far gone as before. -/
def SameLink (e e' : Endpoint) : Prop := e'.closed = e.closed ∧ e'.closeErr = e.closeErr

theorem SameLink.retire (h : SameLink e e') : SameLink e (e'.retire id) := by
  unfold Endpoint.retire
  split_ifs
  · exact h
  · exact h

theorem SameLink.closeChannel (h : SameLink e e') : SameLink e (e'.closeChannel id) := by
  unfold Endpoint.closeChannel
  split_ifs
  · have herased : SameLink e { e' with channels := e'.channels.erase id } := h
    exact herased.retire
  · exact h

theorem SameLink.returnCredit (h : SameLink e e') {n : Nat} :
    SameLink e (e'.returnCredit id n) := by
  unfold Endpoint.returnCredit
  split_ifs
  · exact h
  · exact h
  · cases e'.channels[id]? with
    | none => exact h
    | some state => exact h

theorem SameLink.sendPolled (frame : Frame) (chunks : List Bytes)
    (polled : Semaphore × Semaphore.Poll) :
    SameLink e (e.sendPolled i stream frame chunks polled).1 := by
  obtain ⟨credit, poll⟩ := polled
  cases poll with
  | acquired => exact ⟨rfl, rfl⟩
  | pending => exact ⟨rfl, rfl⟩
  | closed => exact ⟨rfl, rfl⟩

theorem SameLink.sendPush (frame : Frame) (chunk : Bytes) (rest : List Bytes) :
    SameLink e (e.sendPush i stream frame chunk rest).1 := by
  unfold Endpoint.sendPush pushData
  by_cases hclosed : e.closed = true
  · rw [if_pos hclosed]
    exact ⟨rfl, rfl⟩
  rw [if_neg hclosed]
  by_cases hgone : (!e.channels.contains stream.id) = true
  · rw [if_pos hgone]
    exact ⟨rfl, rfl⟩
  · rw [if_neg hgone]
    exact ⟨rfl, rfl⟩

/-- Of the operations only `close` ends the link. -/
theorem perform_link {o : LocalOp} {r : Endpoint × Obs} (ho : o ≠ .close)
    (hr : e.perform o = some r) : SameLink e r.1 := by
  cases o with
  | close => exact absurd rfl ho
  | openBi =>
      cases hr
      unfold openBi
      rcases openLocal_cases (e := e) with ⟨-, inst, hres⟩ | ⟨-, err, hres⟩
      · rw [hres]
        exact ⟨rfl, rfl⟩
      · rw [hres]
        exact ⟨rfl, rfl⟩
  | acceptBi =>
      change e.acceptBi = _ at hr
      unfold acceptBi at hr
      split at hr
      · split at hr <;> cases hr
        exact ⟨rfl, rfl⟩
      · split at hr <;> cases hr
        exact ⟨rfl, rfl⟩
  | sendStart i frame =>
      obtain ⟨stream, hi, hr⟩ := Option.bind_eq_some_iff.mp hr
      split_ifs at hr
      cases hr
      unfold sendStart
      split_ifs
      · exact ⟨rfl, rfl⟩
      · exact ⟨rfl, rfl⟩
  | sendStep i =>
      obtain ⟨stream, hi, hr⟩ := Option.bind_eq_some_iff.mp hr
      unfold sendStep at hr
      split at hr
      · cases hr
        exact .sendPolled _ _ _
      · split_ifs at hr
        cases hr
        exact .sendPolled _ _ _
      · cases hr
        exact .sendPush _ _ _
      · cases hr
  | sendCancel i =>
      obtain ⟨stream, hi, hr⟩ := Option.bind_eq_some_iff.mp hr
      unfold sendCancel at hr
      split at hr <;> cases hr
      exact ⟨rfl, rfl⟩
  | finish i =>
      obtain ⟨stream, hi, hr⟩ := Option.bind_eq_some_iff.mp hr
      unfold finish at hr
      split at hr
      · cases hr
        dsimp only
        rw [closeChannel_twice, ite_self]
        exact SameLink.closeChannel ⟨rfl, rfl⟩
      · cases hr
  | dropSend i =>
      obtain ⟨stream, hi, hr⟩ := Option.bind_eq_some_iff.mp hr
      unfold dropSend at hr
      split at hr
      · cases hr
        dsimp only
        split_ifs
        · exact SameLink.closeChannel ⟨rfl, rfl⟩
        · exact ⟨rfl, rfl⟩
      · cases hr
  | dropRecv i =>
      obtain ⟨stream, hi, hr⟩ := Option.bind_eq_some_iff.mp hr
      unfold dropRecv at hr
      split at hr
      · cases hr
        dsimp only
        split_ifs
        · exact SameLink.closeChannel ⟨rfl, rfl⟩
        · exact ⟨rfl, rfl⟩
      · cases hr
  | recvPop i =>
      obtain ⟨stream, hi, hr⟩ := Option.bind_eq_some_iff.mp hr
      unfold recvPop at hr
      split at hr <;> cases hr
      exact ⟨rfl, rfl⟩
  | recvCredit i =>
      obtain ⟨stream, hi, hr⟩ := Option.bind_eq_some_iff.mp hr
      unfold recvCredit at hr
      split at hr
      · cases hr
        exact SameLink.returnCredit ⟨rfl, rfl⟩
      · cases hr
  | recvEnd i =>
      obtain ⟨stream, hi, hr⟩ := Option.bind_eq_some_iff.mp hr
      rw [recvEnd_same hr]
      exact ⟨rfl, rfl⟩

theorem takeNext_link {seg : Segment} (h : e.takeNext = some (seg, e')) : SameLink e e' := by
  unfold Endpoint.takeNext at h
  split at h
  · cases h
    exact ⟨rfl, rfl⟩
  · split at h
    · cases h
    · split at h
      · cases h
        exact ⟨rfl, rfl⟩
      · cases h

theorem peerOpen_link : SameLink e (e.peerOpen id).1 := by
  unfold peerOpen
  split_ifs
  · exact ⟨rfl, rfl⟩
  · exact ⟨rfl, rfl⟩
  · exact ⟨rfl, rfl⟩
  · exact ⟨rfl, rfl⟩
  · have hinserted : SameLink e (e.insertChannel id).1 := ⟨rfl, rfl⟩
    dsimp only
    split_ifs
    · exact hinserted
    · unfold dropPair
      split
      · exact hinserted
      · exact SameLink.closeChannel hinserted

theorem peerData_link (body : Bytes) : SameLink e (e.peerData id body).1 := by
  unfold peerData
  split_ifs
  · exact ⟨rfl, rfl⟩
  · exact ⟨rfl, rfl⟩
  cases e.channels[id]? with
  | none => exact ⟨rfl, rfl⟩
  | some state =>
      dsimp only
      cases e.streams[state.inst]? with
      | none => exact ⟨rfl, rfl⟩
      | some stream =>
          dsimp only
          split_ifs
          · exact ⟨rfl, rfl⟩
          · split <;> exact ⟨rfl, rfl⟩
          · split <;> exact ⟨rfl, rfl⟩

theorem peerWindow_link (body : Bytes) : SameLink e (e.peerWindow id body).1 := by
  unfold peerWindow
  split
  · dsimp only
    split_ifs
    · exact ⟨rfl, rfl⟩
    cases e.channels[id]? with
    | none => exact ⟨rfl, rfl⟩
    | some state =>
        dsimp only
        cases e.streams[state.inst]? with
        | none => exact ⟨rfl, rfl⟩
        | some stream =>
            dsimp only
            split_ifs <;> exact ⟨rfl, rfl⟩
  · exact ⟨rfl, rfl⟩

theorem peerReset_link : SameLink e (e.peerReset id) := by
  unfold peerReset
  split_ifs
  · exact ⟨rfl, rfl⟩
  · refine SameLink.retire ?_
    cases e.channels[id]? with
    | none => exact ⟨rfl, rfl⟩
    | some state =>
        dsimp only
        cases e.streams[state.inst]? <;> exact ⟨rfl, rfl⟩

/-- No handler ends the link by itself. -/
theorem handleSegment_link (bytes : Bytes) : SameLink e (e.handleSegment bytes).1 := by
  unfold handleSegment
  split
  · dsimp only
    split_ifs
    · exact peerOpen_link
    · exact peerData_link _
    · exact peerWindow_link _
    · exact peerReset_link
    · exact ⟨rfl, rfl⟩
  · exact ⟨rfl, rfl⟩

end Endpoint

/-! ### The frames completed -/

namespace Book

open Endpoint

/-- The frames completed are among the frames begun, and the frame under way is
not one of them. -/
structure Filed (b : Book) (v : View) : Prop where
  begun : b.completed.Sublist b.began
  underway : ∀ stream stage f chunks, v.stream = some stream →
    stream.send = some (.sending stage f chunks) → chunks.flatten ≠ f.encode →
      ∃ fs, b.began = fs ++ [f] ∧ b.completed.Sublist fs

variable {e e' : Endpoint} {c : ChannelId} {b : Book} {r : Endpoint × Obs}

theorem Filed.kept (hb : b.Filed (e.view c)) (h : SendKept c e e') : b.Filed (e'.view c) := by
  refine ⟨hb.begun, ?_⟩
  intro stream' stage f chunks hs' hsend' hpart
  rcases h with ⟨hsame, -⟩ | ⟨-, hidle⟩
  · rw [hs', Option.map_some] at hsame
    obtain ⟨stream, hs, hsend⟩ := Option.map_eq_some_iff.mp hsame.symm
    exact hb.underway stream stage f chunks hs (hsend.trans hsend') hpart
  · rw [hs', Option.map_some, Option.some.injEq, hsend'] at hidle
    cases hidle

/-- Every operation keeps the frame under way apart. -/
theorem Filed.step (heff : SendEffect c e r) (hb : b.Filed (e.view c)) :
    (b.after c r.2).Filed (r.1.view c) := by
  rcases heff with ⟨hkept, hobs⟩ | ⟨stream, stream', hs, hs', -, hmove⟩
  · rw [after_unrelated hobs]
    exact hb.kept hkept
  have hsofar := hb.underway stream
  have hnew : ∀ b' : Book, b'.completed.Sublist b'.began →
      (∀ stage f chunks, stream'.send = some (.sending stage f chunks) →
        chunks.flatten ≠ f.encode → ∃ fs, b'.began = fs ++ [f] ∧ b'.completed.Sublist fs) →
      b'.Filed (r.1.view c) := by
    intro b' hbegun hunder
    refine ⟨hbegun, fun t stage f chunks ht => ?_⟩
    rw [hs'] at ht
    cases ht
    exact hunder stage f chunks
  generalize stream.send = half at hmove hsofar
  generalize stream'.send = half' at hmove hnew
  generalize r.2 = obs at hmove ⊢
  cases hmove with
  | start g _ =>
      refine hnew _ ?_ ?_
      · rw [after_started]
        exact hb.begun
      · intro stage f chunks hhalf hpart
        cases hhalf
        exact absurd (BigEndian.flatten_chunks (by decide) g.encode) hpart
  | poll stage' stage'' g chunks' =>
      refine hnew _ hb.begun ?_
      intro stage f chunks hhalf hpart
      cases hhalf
      exact hsofar stage' g chunks' hs rfl hpart
  | push _ g chunk rest =>
      rw [after_pushed]
      -- The frame is the last one begun, and none of those completed before.
      have hlast : ∃ fs, b.began ++ (if (chunk :: rest).flatten == g.encode then [g] else []) =
          fs ++ [g] ∧ b.completed.Sublist fs := by
        by_cases hfirst : (chunk :: rest).flatten = g.encode
        · exact ⟨b.began, by simp [hfirst], hb.begun⟩
        · obtain ⟨fs, hfs, hsub⟩ := hsofar .acquired g _ hs rfl hfirst
          have hbeq : ((chunk :: rest).flatten == g.encode) = false := by simpa using hfirst
          exact ⟨fs, by rw [hbeq]; simpa using hfs, hsub⟩
      obtain ⟨fs, hbegan, hsub⟩ := hlast
      rw [hbegan]
      cases rest with
      | nil => exact hnew _ (hsub.append (List.Sublist.refl _)) fun _ _ _ hhalf => by cases hhalf
      | cons next rest =>
          have hall : (b.completed ++ []).Sublist fs := by rwa [List.append_nil]
          refine hnew _ (hall.trans (List.sublist_append_left _ _)) ?_
          intro stage f chunks hhalf _
          cases hhalf
          exact ⟨fs, rfl, hall⟩
  | fail _ stage' g chunks' err => exact hnew _ hb.begun fun _ _ _ hhalf => by cases hhalf
  | cancel stage' g chunks' torn =>
      rw [after_cancel]
      exact hnew _ hb.begun fun _ _ _ hhalf => by cases hhalf
  | drop closed => exact hnew _ hb.begun fun _ _ _ hhalf => by cases hhalf

theorem stable_filed : Stable Filed where
  blank v hv := by
    refine ⟨List.Sublist.refl _, ?_⟩
    intro stream _ _ _ hs
    rw [hv] at hs
    cases hs
  kept hkept h := h.kept hkept
  step _ heff h := h.step heff

end Book

/-- What is refused is not a link that was closed. -/
theorem Refusal.ne_closed {cfg : MuxConfig} {e : Endpoint} {spoiled : Bool} {seg : Segment}
    {err : TransportError} (h : Refusal cfg e spoiled seg err) : err ≠ .closed := by
  cases h with
  | full => simp
  | forgotten => simp
  | garbled _ hbad => rcases hbad with ⟨n, rfl⟩ | ⟨bad, rfl⟩ <;> simp

namespace Link

open Endpoint

variable {cfg : MuxConfig} {l l' l₀ : Link} {trace : Trace} {ev : Event} {obs : Endpoint.Obs}
variable {s t : Role} {c : ChannelId} {x : End Frame UInt8}

/-! ### The ways the link goes away -/

/-- The link goes away under an end that was up: its application closes it, the
socket fails, or a segment is refused. -/
inductive Gone (l : Link) (t : Role) (err : Option TransportError) : Event → Prop
  | close (herr : err = none) : Gone l t err (.op t .close)
  | lose : Gone l t err (.lose t err)
  | refused {e : TransportError} (herr : err = some e) (hne : e ≠ .closed) :
      Gone l t err (.deliver t)

/-- **What a step does to the link** at one end. -/
theorem Safe.ends_of_step (h : Safe cfg trace l) (hstep : Link.step l ev = some (l', obs))
    (t : Role) :
    SameLink (l.ends.get t) (l'.ends.get t) ∨
      (l.ends.get t).closed = false ∧ (l'.ends.get t).closed = true ∧
        Gone l t (l'.ends.get t).closeErr ev := by
  have hshut : ∀ (e : Endpoint) (err : Option TransportError), e.closed = false →
      (e.shutdown err).closed = true ∧ (e.shutdown err).closeErr = err := by
    intro e err hopen
    unfold Endpoint.shutdown
    rw [if_neg (by simp [hopen])]
    exact ⟨rfl, rfl⟩
  rcases step_cases hstep with ⟨s', o, r, rfl, hr, rfl, rfl⟩ | ⟨s', seg, e', rfl, ht, rfl, rfl⟩ |
    ⟨s', seg, rest, rfl, hwire, -, rfl, rfl⟩ | ⟨s', err, rfl, rfl, rfl⟩
  all_goals
    dsimp only
    rcases Sides.eq_or_other s' t with rfl | rfl
    swap
    · rw [Sides.get_set_other]
      exact .inl ⟨rfl, rfl⟩
    rw [Sides.get_set_self]
  · by_cases ho : o = .close
    · subst ho
      cases hr
      by_cases hclosed : (l.ends.get t).closed = true
      · rw [shutdown_closed hclosed]
        exact .inl ⟨rfl, rfl⟩
      · obtain ⟨hnow, herr⟩ := hshut _ none (by simpa using hclosed)
        exact .inr ⟨by simpa using hclosed, hnow, .close herr⟩
    · exact .inl (perform_link ho hr)
  · exact .inl (takeNext_link ht)
  · have hlink := handleSegment_link (e := l.ends.get t) seg.encode
    have hrefusal := (h.outcome hwire).refusal
    unfold receive at hrefusal ⊢
    generalize (l.ends.get t).handleSegment seg.encode = r at hlink hrefusal
    obtain ⟨e', result⟩ := r
    cases result with
    | ok u => exact .inl hlink
    | error err =>
        have hne : err ≠ .closed := (hrefusal err rfl).ne_closed
        by_cases hclosed : e'.closed = true
        · dsimp only
          rw [shutdown_closed hclosed]
          exact .inl hlink
        · obtain ⟨hnow, herr⟩ := hshut e' (some err) (by simpa using hclosed)
          refine .inr ⟨?_, hnow, .refused herr hne⟩
          rw [← hlink.1]
          simpa using hclosed
  · by_cases hclosed : (l.ends.get t).closed = true
    · rw [shutdown_closed hclosed]
      exact .inl ⟨rfl, rfl⟩
    · obtain ⟨hnow, herr⟩ := hshut _ err (by simpa using hclosed)
      refine .inr ⟨by simpa using hclosed, hnow, ?_⟩
      rw [herr]
      exact .lose

/-! ### An end that has stopped -/

/-- The end of channel `c` at side `s` as it was when its side went away.  The
other side still hears from it what is on the wire. -/
structure Frozen (cfg : MuxConfig) (s : Role) (c : ChannelId) (trace : Trace) (l : Link)
    (x : End Frame UInt8) : Prop where
  up : x.halted = false
  flight : ∃ lost, x.flight = Segment.itemsOf c (l.wire.get s) ++ lost ∧ dataBytes lost = []
  grants : Segment.creditsOf c (l.wire.get s) <+: x.grants
  channel : ∃ items credits, Inv Frame.code cfg.window
    (((l.ends.get s.other).view c).toEnd (owns s.other c) items credits
      (pastOf s.other c trace)) x
  cap : ∀ f ∈ x.sent, f.payload.length ≤ cfg.maxFrameLen
  torn : x.torn = true → torn s c trace = true
  spoiled : x.spoiled = true → Link.torn s c trace = true
  filed : (completed s c trace).Sublist x.sent
  underway : x.pend ≠ [] → ∃ fs f, x.sent = fs ++ [f] ∧ (completed s c trace).Sublist fs

theorem torn_mono (h : torn s c trace = true) : torn s c (trace ++ [(ev, obs)]) = true := by
  unfold torn cancelled at h ⊢
  rw [history_snoc, List.any_append, h]
  rfl

theorem completed_other (hside : ev.side ≠ s) :
    completed s c (trace ++ [(ev, obs)]) = completed s c trace := by
  unfold completed
  rw [history_snoc, if_neg hside, List.append_nil]

/-- No data is among some segments. -/
def dataless (segs : List Segment) : Bool := segs.all fun seg => seg.kind != kindData

theorem dataBytes_dataless {segs : List Segment} (h : dataless segs = true) :
    dataBytes (Segment.itemsOf c segs) = [] := by
  induction segs with
  | nil => rfl
  | cons seg segs ih =>
      unfold dataless at h ih
      rw [List.all_cons, Bool.and_eq_true] at h
      have hkind : seg.kind ≠ kindData := by simpa using h.1
      rw [Segment.itemsOf_cons, dataBytes_append, ih h.2, List.append_nil]
      by_cases hc : seg.channel = c
      · subst hc
        rw [Segment.itemsOf_self]
        unfold Segment.item?
        rw [if_neg hkind]
        split_ifs <;> rfl
      · rw [Segment.itemsOf_other hc]
        rfl

/-- An end that is up and has no data queued may stop. -/
theorem Safe.freeze (h : Safe cfg trace l) (hopen : (l.ends.get s).closed = false)
    (hqueue : ∀ c, dataless ((l.ends.get s).queue c) = true)
    (hfiled : (bookOf s c trace).Filed ((l.ends.get s).view c)) :
    Frozen cfg s c trace l (absEnd s c l trace) := by
  have hbegan : (bookOf s c trace).began = (absEnd s c l trace).sent := by
    rw [bookOf_eq, absEnd_sent]
  have hcompleted : (bookOf s c trace).completed = completed s c trace := by rw [bookOf_eq]
  have hbegun := hfiled.begun
  have hunder := hfiled.underway
  rw [hbegan, hcompleted] at hbegun hunder
  refine ⟨hopen, ?_, List.prefix_append _ _, ?_, ?_, ?_, ?_, hbegun, ?_⟩
  · exact ⟨_, rfl, dataBytes_dataless (hqueue c)⟩
  · exact ⟨_, _, (h.channel s c).symm⟩
  · exact h.cap s c
  · rw [absEnd_torn]
    exact fun ht => ht
  · intro hspoiled
    have htorn := spoiled_torn (show (pastOf s c trace).spoiled = true from hspoiled)
    rw [pastOf_eq] at htorn
    exact htorn
  · intro hpend
    change ((l.ends.get s).view c).stream.elim _ _ ≠ _ at hpend
    cases hs : ((l.ends.get s).view c).stream with
    | none =>
        rw [hs] at hpend
        exact absurd rfl hpend
    | some stream =>
        rw [hs] at hpend
        change pending stream.send ≠ [] at hpend
        unfold pending at hpend
        split at hpend
        · next stage f chunks hsend =>
            split_ifs at hpend with hwhole
            · exact absurd rfl hpend
            · obtain ⟨fs, hfs, hsub⟩ := hunder stream stage f chunks hs hsend hwhole
              exact ⟨fs, f, hfs, hsub⟩
        · exact absurd rfl hpend

/-- What the side that stopped does afterwards. -/
theorem Frozen.there (h : Frozen cfg s c trace l x) (hside : ev.side = s)
    (hwire : l'.wire.get s = l.wire.get s)
    (hother : l'.ends.get s.other = l.ends.get s.other)
    (hcompleted : completed s c (trace ++ [(ev, obs)]) = completed s c trace) :
    Frozen cfg s c (trace ++ [(ev, obs)]) l' x where
  up := h.up
  flight := by rw [hwire]; exact h.flight
  grants := by rw [hwire]; exact h.grants
  channel := by rw [hother, pastOf_other hside]; exact h.channel
  cap := h.cap
  torn ht := torn_mono (h.torn ht)
  spoiled ht := torn_mono (h.spoiled ht)
  filed := by rw [hcompleted]; exact h.filed
  underway := by rw [hcompleted]; exact h.underway

/-- What the other side does, when it takes nothing off the wire. -/
theorem Frozen.here (h : Frozen cfg s c trace l x) (hside : ev.side = s.other)
    (hwire : l'.wire.get s = l.wire.get s)
    (hchannel : ∃ items credits, Inv Frame.code cfg.window
      (((l'.ends.get s.other).view c).toEnd (owns s.other c) items credits
        ((pastOf s.other c trace).after c obs)) x) :
    Frozen cfg s c (trace ++ [(ev, obs)]) l' x where
  up := h.up
  flight := by rw [hwire]; exact h.flight
  grants := by rw [hwire]; exact h.grants
  channel := by rw [pastOf_self hside]; exact hchannel
  cap := h.cap
  torn ht := torn_mono (h.torn ht)
  spoiled ht := torn_mono (h.spoiled ht)
  filed := by
    rw [completed_other (by rw [hside]; exact Role.other_ne s)]
    exact h.filed
  underway := by
    rw [completed_other (by rw [hside]; exact Role.other_ne s)]
    exact h.underway

/-- After a side has gone away no send on it completes any more. -/
theorem Safe.completed_closed (h : Safe cfg trace l) (hfresh : freshIds trace l ev)
    (hstep : Link.step l ev = some (l', obs)) (hclosed : (l.ends.get s).closed = true) :
    completed s c (trace ++ [(ev, obs)]) = completed s c trace := by
  by_cases hs : ev.side = s
  swap
  · exact completed_other hs
  unfold completed
  rw [history_snoc, if_pos hs]
  cases obs with
  | pushed id f first last =>
      exfalso
      rcases step_cases hstep with ⟨s', o, r, rfl, hr, hobs, -⟩ | ⟨_, _, _, -, -, hobs, -⟩ |
        ⟨_, _, _, -, -, -, hobs, -⟩ | ⟨_, _, -, hobs, -⟩
      · cases hs
        have heff := Endpoint.sends_perform (c := id) (h.wf s') (h.fresh hfresh rfl) hr
        obtain ⟨e', obs'⟩ := r
        cases hobs
        have hentry := heff.pushed_live
        have hnone : ((l.ends.get s').view id).entry = none := ((h.wf s').quiet hclosed).1 id
        rw [hnone] at hentry
        cases hentry
      all_goals cases hobs
  | _ => exact List.append_nil _

/-- Nothing is taken from the queues of a side that has gone away. -/
theorem Safe.not_taken (h : Safe cfg trace l) (hclosed : (l.ends.get s).closed = true)
    {seg : Segment} {e' : Endpoint} : (l.ends.get s).takeNext ≠ some (seg, e') := by
  intro ht
  obtain ⟨hformed, -, hview⟩ := (h.wf s).takeNext ht
  obtain ⟨-, hqueue, hurgent⟩ := (h.wf s).quiet hclosed
  have hflight := congrArg View.flight (hview seg.channel)
  have hgrants := congrArg View.grants (hview seg.channel)
  change Segment.itemsOf _ ((l.ends.get s).queue _) = _ at hflight
  change Segment.creditsOf _ (l.ends.get s).urgent = _ at hgrants
  rw [hqueue, Segment.itemsOf_self] at hflight
  rw [hurgent, Segment.creditsOf_self] at hgrants
  rcases Arrival.formed_cases hformed with ⟨item, hitem, -⟩ | ⟨n, -, hcredit⟩
  · rw [hitem] at hflight
    cases hflight
  · rw [hcredit] at hgrants
    cases hgrants

/-- The other side handles the oldest segment a stopped end had sent. -/
theorem Safe.frozen_deliver (h : Safe cfg trace l) {seg : Segment} {rest : List Segment}
    (hwire : l.wire.get s = seg :: rest) (hfrozen : ∀ c, ∃ x, Frozen cfg s c trace l x)
    {result : Except TransportError Unit} {r : Sides Bool} :
    ∀ c, ∃ x, Frozen cfg s c (trace ++ [(.deliver s.other, .delivered result)])
      { ends := l.ends.set s.other (receive (l.ends.get s.other) seg).1
        wire := l.wire.set s rest
        reader := r } x := by
  choose x hx using hfrozen
  choose items credits hinv using fun c => (hx c).channel
  have hgrants : ∀ c, ∃ more, (x c).grants =
      Segment.creditsOf c [seg] ++ (Segment.creditsOf c rest ++ more) := by
    intro c
    obtain ⟨more, hmore⟩ := (hx c).grants
    exact ⟨more, by rw [← hmore, hwire, Segment.creditsOf_cons, List.append_assoc]⟩
  choose more hmore using hgrants
  choose lost hflight hlost using fun c => (hx c).flight
  let a : ∀ c, Arrival cfg s.other (l.ends.get s.other) seg c := fun c =>
    { items := items c
      credits := credits c
      past := pastOf s.other c trace
      peer := x c
      flight := Segment.itemsOf c rest ++ lost c
      grants := Segment.creditsOf c rest ++ more c
      flight_eq := by rw [hflight, hwire, Segment.itemsOf_cons, List.append_assoc]
      grants_eq := hmore c
      inv := hinv c
      cap := (hx c).cap }
  have hout := Arrival.sim_receive (h.wf s.other) (h.formed s seg (by rw [hwire]; simp)) a
  have hother : Event.side (.deliver s.other) ≠ s := Role.other_ne s
  intro c
  refine ⟨(a c).there, (hx c).up, ?_, ?_, ⟨items c, credits c, ?_⟩, (hx c).cap,
    fun ht => torn_mono ((hx c).torn ht), fun ht => torn_mono ((hx c).spoiled ht), ?_, ?_⟩
  · dsimp only
    rw [Sides.get_set_self]
    exact ⟨lost c, rfl, hlost c⟩
  · dsimp only
    rw [Sides.get_set_self]
    exact List.prefix_append _ _
  · dsimp only
    rw [Sides.get_set_self, pastOf_self (show (Event.deliver s.other).side = s.other from rfl)]
    exact (hout.simulates c).inv (hinv c)
  · rw [completed_other hother]
    exact (hx c).filed
  · rw [completed_other hother]
    exact (hx c).underway

/-- **A stopped end stays one**, whatever either side does next. -/
theorem Safe.frozen_step (h : Safe cfg trace l) (hfresh : freshIds trace l ev)
    (hstep : Link.step l ev = some (l', obs)) (hclosed : (l.ends.get s).closed = true)
    (hfrozen : ∀ c, ∃ x, Frozen cfg s c trace l x) :
    ∀ c, ∃ x, Frozen cfg s c (trace ++ [(ev, obs)]) l' x := by
  have hthere : ev.side = s → l'.wire.get s = l.wire.get s →
      l'.ends.get s.other = l.ends.get s.other →
      ∀ c, ∃ x, Frozen cfg s c (trace ++ [(ev, obs)]) l' x := fun hside hwire hother c =>
    (hfrozen c).imp fun _ hx =>
      hx.there hside hwire hother (h.completed_closed hfresh hstep hclosed)
  have hhere : ev.side = s.other → l'.wire.get s = l.wire.get s →
      (∀ c items credits, ∃ items' credits', ∀ x, Inv Frame.code cfg.window
        (((l.ends.get s.other).view c).toEnd (owns s.other c) items credits
          (pastOf s.other c trace)) x →
        Inv Frame.code cfg.window (((l'.ends.get s.other).view c).toEnd (owns s.other c) items'
          credits' ((pastOf s.other c trace).after c obs)) x) →
      ∀ c, ∃ x, Frozen cfg s c (trace ++ [(ev, obs)]) l' x := fun hside hwire hkeeps c => by
    obtain ⟨x, hx⟩ := hfrozen c
    obtain ⟨items, credits, hinv⟩ := hx.channel
    obtain ⟨items', credits', hkept⟩ := hkeeps c items credits
    exact ⟨x, hx.here hside hwire ⟨items', credits', hkept x hinv⟩⟩
  rcases step_cases hstep with ⟨t, o, r, rfl, hr, rfl, rfl⟩ | ⟨t, seg, e', rfl, ht, rfl, rfl⟩ |
    ⟨t, seg, rest, rfl, hwire, -, rfl, rfl⟩ | ⟨t, err, rfl, rfl, rfl⟩
  all_goals rcases Sides.eq_or_other s t with rfl | rfl
  · exact hthere rfl rfl (Sides.get_set_other _ _ _)
  · refine hhere rfl rfl fun c items credits => ⟨items, credits, fun x hinv => ?_⟩
    have hsim := Endpoint.sim_perform (c := c) (h.wf s.other) (h.fresh hfresh rfl) hr
    dsimp only
    rw [Sides.get_set_self]
    exact (hsim items credits _ x).inv hinv
  · exact absurd ht (h.not_taken hclosed)
  · refine hhere rfl (Sides.get_other_set _ _ _) fun c items credits =>
      ⟨items ++ Segment.itemsOf c [seg], credits ++ Segment.creditsOf c [seg], fun x hinv => ?_⟩
    obtain ⟨-, -, hview⟩ := (h.wf s.other).takeNext ht
    dsimp only
    rw [Sides.get_set_self]
    rw [hview c] at hinv
    unfold View.toEnd View.phase View.avail at hinv ⊢
    dsimp only at hinv ⊢
    rw [List.append_assoc, List.append_assoc]
    exact hinv
  · exact hthere rfl (Sides.get_other_set _ _ _) (Sides.get_set_other _ _ _)
  · rw [Role.other_other] at hwire ⊢
    exact h.frozen_deliver hwire hfrozen
  · exact hthere rfl rfl (Sides.get_set_other _ _ _)
  · refine hhere rfl rfl fun c items credits => ⟨items, credits, fun x hinv => ?_⟩
    have hsim := @Endpoint.sim_shutdown cfg s.other _ c (h.wf s.other) err
    dsimp only
    rw [Sides.get_set_self]
    exact (hsim items credits _ x).inv hinv

/-! ### A reader whose side has gone -/

/-- The frames handed to the reader of channel `c` at side `s`: those it took
and those that wait for it. -/
def handed (s : Role) (c : ChannelId) (trace : Trace) (l : Link) : List Frame :=
  (absEnd s c l trace).got ++ (absEnd s c l trace).ready

/-- Whether the reader of channel `c` at side `s` is in use. -/
def reading (s : Role) (c : ChannelId) (trace : Trace) (l : Link) : Bool :=
  (absEnd s c l trace).reading

/-- After a side has gone away nothing is handed to its readers any more. -/
theorem Safe.handed_closed (h : Safe cfg trace l) (hfresh : freshIds trace l ev)
    (hstep : Link.step l ev = some (l', obs)) (hclosed : (l.ends.get s).closed = true)
    (hreading : reading s c (trace ++ [(ev, obs)]) l' = true) :
    reading s c trace l = true ∧ handed s c (trace ++ [(ev, obs)]) l' = handed s c trace l := by
  have hothers : ev.side ≠ s → l'.ends.get s = l.ends.get s →
      reading s c trace l = true ∧
        handed s c (trace ++ [(ev, obs)]) l' = handed s c trace l := by
    intro hside hsame
    unfold reading absEnd View.toEnd at hreading
    unfold reading handed absEnd View.toEnd
    rw [hsame] at hreading ⊢
    rw [pastOf_snoc, if_neg hside]
    exact ⟨hreading, rfl⟩
  have hhalted : (absEnd s c l trace).halted = true := hclosed
  have hself : ∀ {e' : Endpoint} {items : List (Item UInt8)} {credits : List Nat}
      {y y' : End Frame UInt8}, ev.side = s → l'.ends.get s = e' →
      Steps Frame.code cfg.window (absEnd s c l trace) y
        ((e'.view c).toEnd (owns s c) items credits ((pastOf s c trace).after c obs)) y' →
      reading s c trace l = true ∧
        handed s c (trace ++ [(ev, obs)]) l' = handed s c trace l := by
    intro e' items credits y y' hside hends hsteps
    unfold reading absEnd at hreading
    unfold reading handed absEnd
    rw [pastOf_self hside, hends] at hreading ⊢
    exact hsteps.unread hhalted hreading
  rcases step_cases hstep with ⟨t, o, r, rfl, hr, rfl, rfl⟩ | ⟨t, seg, e', rfl, ht, rfl, rfl⟩ |
    ⟨t, seg, rest, rfl, hwire, -, rfl, rfl⟩ | ⟨t, err, rfl, rfl, rfl⟩
  all_goals rcases Sides.eq_or_other s t with rfl | rfl
  · have hsim := Endpoint.sim_perform (c := c) (h.wf t) (h.fresh hfresh rfl) hr
    exact hself rfl (Sides.get_set_self _ _ _) (hsim _ _ _ (.blank true))
  · exact hothers (Role.other_ne s) (Sides.get_other_set _ _ _)
  · exact absurd ht (h.not_taken hclosed)
  · exact hothers (Role.other_ne s) (Sides.get_other_set _ _ _)
  · have hsim := (h.outcome hwire).simulates c
    exact hself rfl (Sides.get_set_self _ _ _) hsim
  · exact hothers (Role.other_ne s) (Sides.get_other_set _ _ _)
  · have hsim := @Endpoint.sim_shutdown cfg t _ c (h.wf t) err
    exact hself rfl (Sides.get_set_self _ _ _) (hsim _ _ _ (.blank true))
  · exact hothers (Role.other_ne s) (Sides.get_other_set _ _ _)

/-! ### Runs that leave no data behind -/

/-- Whether a step ends the link at a side. -/
def stops (l : Link) (ev : Event) (s : Role) : Bool :=
  (Link.step l ev).any fun next => !(l.ends.get s).closed && (next.1.ends.get s).closed

/-- The end that goes away first has no data queued, and the end of the stream
arrives once the other end is gone and no data is on the wire. -/
structure Emptied (trace : Trace) (l : Link) (ev : Event) : Prop where
  fresh : freshIds trace l ev = true
  queued : ∀ s, stops l ev s = true → (l.ends.get s.other).closed = false →
    ∀ c, dataless ((l.ends.get s).queue c) = true
  stream : ∀ s err, ev = .lose s err → err.getD .closed = .closed →
    (l.ends.get s).closed = false →
      (l.ends.get s.other).closed = true ∧ dataless (l.wire.get s.other) = true

/-- What holds of the direction from side `s` once one of its ends is gone. -/
structure Parted (cfg : MuxConfig) (s : Role) (trace : Trace) (l : Link) : Prop where
  frozen : (l.ends.get s).closed = true → (l.ends.get s.other).closed = false →
    ∀ c, ∃ x, Frozen cfg s c trace l x
  drained : (l.ends.get s.other).closed = true → (l.ends.get s.other).closeError = .closed →
    (∀ o, (Event.op s.other .close, o) ∉ trace) →
      (l.ends.get s).closed = true ∧ ∀ c, left s.other c trace = false → torn s c trace = false →
        reading s.other c trace l = true →
          (completed s c trace).Sublist (handed s.other c trace l)

/-- A step that ends the link at a side completes no send there. -/
theorem completed_gone (trace : Trace) (c : ChannelId) {err : Option TransportError}
    (hgone : Gone l s err ev) (hstep : Link.step l ev = some (l', obs)) :
    ev.side = s ∧ completed s c (trace ++ [(ev, obs)]) = completed s c trace ∧
      l'.wire.get s = l.wire.get s ∧ l'.ends.get s.other = l.ends.get s.other := by
  have hsilent : (∀ id f first last, obs ≠ .pushed id f first last) →
      completed s c (trace ++ [(ev, obs)]) = completed s c trace := by
    intro hobs
    unfold completed
    rw [history_snoc]
    cases obs with
    | pushed id f first last => exact absurd rfl (hobs id f first last)
    | _ => simp
  rcases step_cases hstep with ⟨t, o, r, rfl, hr, rfl, rfl⟩ | ⟨t, seg, e', rfl, ht, rfl, rfl⟩ |
    ⟨t, seg, rest, rfl, hwire, -, rfl, rfl⟩ | ⟨t, err, rfl, rfl, rfl⟩
  · cases hgone with
    | close herr =>
        cases hr
        exact ⟨rfl, hsilent (by simp), rfl, Sides.get_set_other _ _ _⟩
  · cases hgone
  · cases hgone with
    | refused herr hne =>
        exact ⟨rfl, hsilent (by simp), Sides.get_other_set _ _ _, Sides.get_set_other _ _ _⟩
  · cases hgone with
    | lose => exact ⟨rfl, hsilent (by simp), rfl, Sides.get_set_other _ _ _⟩

/-- The end that stays up, once the other one has gone. -/
theorem Parted.frozen_step (h : Parted cfg s trace l) (hsafe : Safe cfg trace l)
    (hfiled : ∀ s c, (bookOf s c trace).Filed ((l.ends.get s).view c))
    (hok : Emptied trace l ev) (hstep : Link.step l ev = some (l', obs))
    (hclosed : (l'.ends.get s).closed = true) (hopen : (l'.ends.get s.other).closed = false) :
    ∀ c, ∃ x, Frozen cfg s c (trace ++ [(ev, obs)]) l' x := by
  have hother : (l.ends.get s.other).closed = false := by
    by_contra hnot
    rw [hsafe.closed_mono hok.fresh hstep s.other (by simpa using hnot)] at hopen
    cases hopen
  rcases hsafe.ends_of_step hstep s with ⟨hsame, -⟩ | ⟨hbefore, -, hgone⟩
  · have hbefore : (l.ends.get s).closed = true := hsame ▸ hclosed
    exact hsafe.frozen_step hok.fresh hstep hbefore (h.frozen hbefore hother)
  · have hstops : stops l ev s = true := by
      unfold stops
      rw [hstep, Option.any_some, hbefore, hclosed]
      rfl
    intro c
    obtain ⟨hside, hcompleted, hwire, hends⟩ := completed_gone trace c hgone hstep
    have hfrozen := hsafe.freeze hbefore (hok.queued s hstops hother) (hfiled s c)
    exact ⟨_, hfrozen.there hside hwire hends hcompleted⟩

/-- Nobody tore the stream of a stopped end. -/
theorem Frozen.whole (h : Frozen cfg s c trace l x) (htorn : Link.torn s c trace = false) :
    x.spoiled = false ∧ x.torn = false := by
  constructor
  · by_contra hspoiled
    rw [h.spoiled (by simpa using hspoiled)] at htorn
    cases htorn
  · by_contra hx
    rw [h.torn (by simpa using hx)] at htorn
    cases htorn

/-- A side that has not closed the channel has not left it. -/
theorem past_left (hleft : left s c trace = false) : (pastOf s c trace).left = false := by
  rw [pastOf_eq]
  exact hleft

/-- Everything begun was taken from an end that has gone, when the channel was
finished before. -/
theorem Frozen.got_all (h : Frozen cfg s c trace l x)
    (hopen : (l.ends.get s.other).closed = false) (hleft : left s.other c trace = false)
    (htorn : Link.torn s c trace = false) (hgone : (absEnd s.other c l trace).phase = .gone)
    (hreading : (absEnd s.other c l trace).reading = true)
    (hready : (absEnd s.other c l trace).ready = []) :
    (absEnd s.other c l trace).got = x.sent := by
  obtain ⟨items, credits, hinv⟩ := h.channel
  obtain ⟨hspoiled, hwhole⟩ := h.whole htorn
  exact hinv.symm.got_all hspoiled hwhole h.up hopen hgone (past_left hleft) hreading hready

/-- Everything completed was handed to a reader in use when no data is on the
wire from an end that has gone. -/
theorem Frozen.all_handed (h : Frozen cfg s c trace l x)
    (hopen : (l.ends.get s.other).closed = false)
    (hwire : dataless (l.wire.get s) = true) (hleft : left s.other c trace = false)
    (htorn : Link.torn s c trace = false) (hreading : reading s.other c trace l = true) :
    (completed s c trace).Sublist (handed s.other c trace l) := by
  obtain ⟨items, credits, hinv⟩ := h.channel
  obtain ⟨lost, hflight, hlost⟩ := h.flight
  obtain ⟨hspoiled, hwhole⟩ := h.whole htorn
  have hdata : dataBytes x.flight = [] := by
    rw [hflight, dataBytes_append, dataBytes_dataless hwire, hlost, List.append_nil]
  obtain ⟨hidle, hbusy⟩ :=
    hinv.symm.drained hspoiled hwhole h.up hopen (past_left hleft) hreading hdata
  by_cases hpend : x.pend = []
  · have hall : x.sent = handed s.other c trace l := hidle hpend
    rw [← hall]
    exact h.filed
  · obtain ⟨fs, f, hsent, hsub⟩ := h.underway hpend
    have hall : fs = handed s.other c trace l := hbusy fs f hsent hpend
    rw [← hall]
    exact hsub

/-- The end of the stream arrives. -/
theorem Parted.drained_step (h : Parted cfg s trace l) (hsafe : Safe cfg trace l)
    (hok : Emptied trace l ev) (hstep : Link.step l ev = some (l', obs))
    (hclosed : (l'.ends.get s.other).closed = true)
    (herr : (l'.ends.get s.other).closeError = .closed)
    (hnot : ∀ o, (Event.op s.other .close, o) ∉ trace ++ [(ev, obs)]) :
    (l'.ends.get s).closed = true ∧ ∀ c, left s.other c (trace ++ [(ev, obs)]) = false →
      torn s c (trace ++ [(ev, obs)]) = false →
        reading s.other c (trace ++ [(ev, obs)]) l' = true →
          (completed s c (trace ++ [(ev, obs)])).Sublist
            (handed s.other c (trace ++ [(ev, obs)]) l') := by
  have hleft' : ∀ {c}, left s.other c (trace ++ [(ev, obs)]) = false →
      left s.other c trace = false := by
    intro c hleft
    by_contra hl
    rw [left_mono (by simpa using hl)] at hleft
    cases hleft
  have htorn' : ∀ {c}, torn s c (trace ++ [(ev, obs)]) = false → torn s c trace = false := by
    intro c htorn
    by_contra ht
    rw [torn_mono (by simpa using ht)] at htorn
    cases htorn
  rcases hsafe.ends_of_step hstep s.other with ⟨hsame, hsameErr⟩ | ⟨hopen, -, hgone⟩
  · -- It had arrived before: nothing is completed, and nothing more handed out.
    have hbefore : (l.ends.get s.other).closed = true := hsame ▸ hclosed
    have herr' : (l.ends.get s.other).closeError = .closed := by
      unfold Endpoint.closeError at herr ⊢
      rwa [← hsameErr]
    obtain ⟨hthere, hall⟩ := h.drained hbefore herr' fun o hmem =>
      hnot o (List.mem_append_left _ hmem)
    refine ⟨hsafe.closed_mono hok.fresh hstep s hthere, fun c hleft htorn hreading => ?_⟩
    obtain ⟨hreading', hsameHanded⟩ := hsafe.handed_closed hok.fresh hstep hbefore hreading
    rw [hsameHanded, hsafe.completed_closed hok.fresh hstep hthere]
    exact hall c (hleft' hleft) (htorn' htorn) hreading'
  · -- It arrives now.
    have heof : ∃ e, ev = .lose s.other e ∧ e.getD .closed = .closed := by
      cases hgone with
      | close _ => exact absurd (List.mem_append_right _ (List.mem_singleton_self _)) (hnot obs)
      | lose => exact ⟨_, rfl, herr⟩
      | refused hrefused hne =>
          unfold Endpoint.closeError at herr
          rw [hrefused] at herr
          exact absurd herr hne
    obtain ⟨e, rfl, hclean⟩ := heof
    obtain ⟨hthere, hwire⟩ := hok.stream s.other e rfl hclean hopen
    rw [Role.other_other] at hthere hwire
    refine ⟨hsafe.closed_mono hok.fresh hstep s hthere, fun c hleft htorn hreading => ?_⟩
    obtain ⟨x, hx⟩ := h.frozen hthere hopen c
    cases hstep
    have hpast : pastOf s.other c (trace ++ [(.lose s.other e, .silent)]) =
        pastOf s.other c trace := by
      rw [pastOf_self (show (Event.lose s.other e).side = s.other from rfl)]
      rfl
    have hhalt := toEnd_shutdown (c := c) (hsafe.wf s.other) hopen e
    have hhanded : reading s.other c trace l = true ∧
        handed s.other c (trace ++ [(.lose s.other e, .silent)])
          { l with ends := l.ends.set s.other ((l.ends.get s.other).shutdown e) } =
        handed s.other c trace l := by
      unfold reading absEnd at hreading
      unfold reading handed absEnd
      rw [hpast] at hreading ⊢
      dsimp only at hreading ⊢
      rw [Sides.get_set_self, hhalt] at hreading ⊢
      exact ⟨hreading, rfl⟩
    have hside : (Event.lose s.other e).side ≠ s := Role.other_ne s
    rw [hhanded.2, completed_other hside]
    exact hx.all_handed hopen hwire (hleft' hleft) (htorn' htorn) hhanded.1

theorem parted_spawn (hinit : spawn cfg = .ok l₀) : Parted cfg s [] l₀ := by
  have hopen : ∀ t, (l₀.ends.get t).closed = false := by
    intro t
    have hspawn := (spawn_ends hinit).1 t
    unfold Endpoint.spawn at hspawn
    generalize l₀.ends.get t = e at hspawn
    split at hspawn
    · cases hspawn
    · cases hspawn
      rfl
  constructor
  · intro hclosed
    rw [hopen] at hclosed
    cases hclosed
  · intro hclosed
    rw [hopen] at hclosed
    cases hclosed

/-- **Runs that leave no data behind** keep track of what an end that has gone
had completed. -/
theorem parted_of_run (hinit : spawn cfg = .ok l₀) (hrun : Runs Emptied l₀ trace l) :
    (Safe cfg trace l ∧ ∀ s c, (bookOf s c trace).Filed ((l.ends.get s).view c)) ∧
      ∀ s, Parted cfg s trace l := by
  refine hrun.invariant (fun trace l =>
    (Safe cfg trace l ∧ ∀ s c, (bookOf s c trace).Filed ((l.ends.get s).view c)) ∧
      ∀ s, Parted cfg s trace l) ?_ ?_
  · exact ⟨⟨safe_spawn hinit, books_spawn Book.stable_filed hinit⟩, fun s => parted_spawn hinit⟩
  · rintro trace l ev l' obs ⟨⟨hsafe, hfiled⟩, hparted⟩ hok hstep
    refine ⟨⟨hsafe.step hok.fresh hstep,
      books_step Book.stable_filed hfiled hsafe hok.fresh hstep⟩, fun s => ⟨?_, ?_⟩⟩
    · exact (hparted s).frozen_step hsafe hfiled hok hstep
    · exact (hparted s).drained_step hsafe hok hstep

/-- What `recv` saw when it reports the end of a channel of a link that has
gone. -/
theorem recvEnd_gone {e e' : Endpoint} {i : Nat} (h : e.Wf cfg s) (hclosed : e.closed = true)
    (hr : e.perform (.recvEnd i) = some (e', .ended c)) :
    e.closeError = .closed ∧
      ∃ stream, (e.view c).stream = some stream ∧ stream.recv = some .idle ∧ stream.rx = [] := by
  obtain ⟨stream, hi, hr⟩ := Option.bind_eq_some_iff.mp hr
  have hi := Endpoint.stream?_some hi
  unfold Endpoint.recvEnd at hr
  split at hr
  · next hrecv hrx =>
      by_cases hin : e.inboundOpen i stream = true
      · rw [if_pos hin] at hr
        cases hr
      · rw [if_neg hin, if_pos hclosed] at hr
        split at hr
        · next herr =>
            cases hr
            exact ⟨herr, stream, Endpoint.view_stream h hi, hrecv, hrx⟩
        · cases hr
  · cases hr

/-- **Nothing completed is missing at the end of a channel**: in runs that leave
no data behind, when `recv` reports the end of a channel its side has not
closed, and no frame of the sender was torn, every frame whose send completed
has been returned. -/
theorem drained_of_run (hinit : spawn cfg = .ok l₀) (hrun : Runs Emptied l₀ trace l)
    {e' : Endpoint} {i : Nat}
    (hr : (l.ends.get s.other).perform (.recvEnd i) = some (e', .ended c))
    (hleft : left s.other c trace = false) (hnot : ∀ o, (Event.op s.other .close, o) ∉ trace)
    (htorn : torn s c trace = false) :
    (completed s c trace).Sublist (received s.other c trace) := by
  obtain ⟨⟨hsafe, hfiled⟩, hparted⟩ := parted_of_run hinit hrun
  by_cases hthere : (l.ends.get s.other).closed = true
  · -- The reader's side is gone as well.
    obtain ⟨herr, stream, hs, hrecv, hrx⟩ := recvEnd_gone (hsafe.wf s.other) hthere hr
    obtain ⟨hreading, hready⟩ := @absEnd_idle l trace s.other c stream hs hrecv hrx
    have hall := ((hparted s).drained hthere herr hnot).2 c hleft htorn hreading
    unfold handed at hall
    rwa [hready, List.append_nil, absEnd_got] at hall
  have hthere : (l.ends.get s.other).closed = false := by simpa using hthere
  by_cases hhere : (l.ends.get s).closed = true
  · -- The sender's side has gone, and had finished the channel before.
    obtain ⟨stream, hs, hrecv, hrx, hentry⟩ := recvEnd_ended (hsafe.wf s.other) hthere hr
    obtain ⟨hreading, hready⟩ := @absEnd_idle l trace s.other c stream hs hrecv hrx
    obtain ⟨x, hx⟩ := (hparted s).frozen hhere hthere c
    have hall := hx.got_all hthere hleft htorn ?_ hreading hready
    · rw [← absEnd_got, hall]
      exact hx.filed
    · change View.phase _ = _
      unfold View.phase
      rw [hs, hentry]
  · -- Both ends are up: the channel was finished.
    have hhere : (l.ends.get s).closed = false := by simpa using hhere
    obtain ⟨-, hall⟩ := hsafe.ended hr hhere hthere hleft htorn
    have hbegun := (hfiled s c).begun
    rw [bookOf_eq] at hbegun
    rw [hall]
    exact hbegun

end Link

end Mux
