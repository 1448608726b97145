import GoNomad.Transport.Delivery

/-!
# What becomes of a send

`SendMove` lists everything one operation can do to the write half of a channel
and what it shows when it does; `sends_perform` says there is nothing else.
`Balanced` is the bookkeeping that follows: on a channel without cancelled
sends the frames begun are the first frames started, the frames completed are
the first frames begun, and as long as the channel is there the send in
progress accounts for the difference.
-/

namespace Mux

open Proto Transport CreditChannel

namespace Endpoint

variable {cfg : MuxConfig} {s : Role} {e e' : Endpoint} {c id : ChannelId} {i : Nat} {obs : Obs}
variable {stream stream' : Stream} {r : Endpoint × Obs}

/-! ### Moves -/

/-- One move of the write half of channel `c`, which is `live` as long as the
channel map has it. -/
inductive SendMove (c : ChannelId) (live : Bool) :
    Option SendHalf → Obs → Option SendHalf → Prop
  | start (f : Frame) (hle : f.encode ≠ []) :
      SendMove c live (some .idle) (.sendStarted c f)
        (some (.sending .acquiring f (BigEndian.chunks maxSegmentBody f.encode)))
  | poll (stage stage' : Stage) (f : Frame) (chunks : List Bytes) :
      SendMove c live (some (.sending stage f chunks)) .silent (some (.sending stage' f chunks))
  | push (hlive : live = true) (f : Frame) (chunk : Bytes) (rest : List Bytes) :
      SendMove c live (some (.sending .acquired f (chunk :: rest)))
        (.pushed c f ((chunk :: rest).flatten == f.encode) rest.isEmpty)
        (some (if rest.isEmpty then .idle else .sending .acquiring f rest))
  | fail (hgone : live = false) (stage : Stage) (f : Frame) (chunks : List Bytes)
      (err : TransportError) :
      SendMove c live (some (.sending stage f chunks)) (.sendFailed c f err) (some .idle)
  | cancel (stage : Stage) (f : Frame) (chunks : List Bytes) (torn : Bool) :
      SendMove c live (some (.sending stage f chunks)) (.sendCancelled c f torn) (some .idle)
  | drop (closed : Bool) : SendMove c live (some .idle) (.sendDropped c closed) none

/-- An observation that is not about a send of channel `c`. -/
def Unrelated (c : ChannelId) : Obs → Prop
  | .sendStarted id _ => id ≠ c
  | .pushed id _ _ _ => id ≠ c
  | .sendCancelled id _ _ => id ≠ c
  | _ => True

/-- What one operation does to the write half of channel `c`. -/
def SendEffect (c : ChannelId) (e : Endpoint) (r : Endpoint × Obs) : Prop :=
  (SendKept c e r.1 ∧ Unrelated c r.2) ∨
    ∃ stream stream', (e.view c).stream = some stream ∧ (r.1.view c).stream = some stream' ∧
      ((r.1.view c).entry.isSome = true → (e.view c).entry.isSome = true) ∧
      SendMove c (e.view c).entry.isSome stream.send r.2 stream'.send

theorem SendEffect.kept (h : SendKept c e e') (hobs : Unrelated c obs) :
    SendEffect c e (e', obs) := Or.inl ⟨h, hobs⟩

/-- A move of the stream at a place, the channel map being left alone. -/
theorem SendEffect.moved (h : e.Wf cfg s) (hi : e.streams[i]? = some stream)
    (hid : stream'.id = stream.id) (hother : stream.id ≠ c → Unrelated c obs)
    (hmove : SendMove stream.id (e.view stream.id).entry.isSome stream.send obs stream'.send) :
    SendEffect c e (e.setStream i stream', obs) := by
  by_cases hc : stream.id = c
  · subst hc
    have hview := view_setStream_self h hi hid
    refine Or.inr ⟨stream, stream', view_stream h hi, ?_, ?_, hmove⟩
    · rw [hview]
    · rw [hview]
      exact fun hentry => hentry
  · exact .kept (.of_view (view_setStream_other h hi hid hc)) (hother hc)

/-- Closing a channel afterwards takes it out of the map and nothing else. -/
theorem view_closing (e' : Endpoint) (c id : ChannelId) (close : Bool) :
    ((if close then e'.closeChannel id else e').view c).stream = (e'.view c).stream ∧
      (((if close then e'.closeChannel id else e').view c).entry.isSome = true →
        (e'.view c).entry.isSome = true) := by
  cases close with
  | false => exact ⟨rfl, fun h => h⟩
  | true =>
      rw [if_pos rfl, view_closeChannel]
      by_cases hholds : e'.holds id = true ∧ id = c
      · rw [if_pos hholds]
        exact ⟨rfl, fun h => nomatch h⟩
      · rw [if_neg hholds]
        exact ⟨rfl, fun h => h⟩

theorem SendEffect.closing (h : SendEffect c e (e', obs)) (id : ChannelId) (close : Bool) :
    SendEffect c e (if close then e'.closeChannel id else e', obs) := by
  obtain ⟨hstream, hentry⟩ := view_closing e' c id close
  rcases h with ⟨hkept, hobs⟩ | ⟨t, t', hs, hs', hin, hmove⟩
  · refine Or.inl ⟨?_, hobs⟩
    rcases hkept with ⟨hsame, hin⟩ | ⟨hnew, hidle⟩
    · exact Or.inl ⟨by rw [hstream]; exact hsame, fun hsome => hin (hentry hsome)⟩
    · exact Or.inr ⟨hnew, by rw [hstream]; exact hidle⟩
  · exact Or.inr ⟨t, t', hs, hstream.trans hs', fun hsome => hin (hentry hsome), hmove⟩

/-! ### Observations -/

/-- The observations an operation can make. -/
def LocalOp.shows : LocalOp → Obs → Bool
  | .openBi, .opened _ => true
  | .openBi, .openFailed _ => true
  | .acceptBi, .accepted _ => true
  | .acceptBi, .acceptFailed _ => true
  | .sendStart .., .sendStarted .. => true
  | .sendStart .., .sendFailed .. => true
  | .sendStep _, .silent => true
  | .sendStep _, .pushed .. => true
  | .sendStep _, .sendFailed .. => true
  | .sendCancel _, .sendCancelled .. => true
  | .finish _, .sendDropped .. => true
  | .dropSend _, .sendDropped .. => true
  | .dropRecv _, .recvDropped .. => true
  | .recvPop _, .silent => true
  | .recvCredit _, .received .. => true
  | .recvEnd _, .ended _ => true
  | .recvEnd _, .recvFailed .. => true
  | .close, .silent => true
  | _, _ => false

theorem perform_shows {o : LocalOp} (hr : e.perform o = some r) : o.shows r.2 = true := by
  unfold perform at hr
  cases o with
  | openBi =>
      have hr : e.openBi = r := Option.some.inj hr
      unfold openBi at hr
      split at hr <;> cases hr <;> rfl
  | acceptBi =>
      change e.acceptBi = _ at hr
      unfold acceptBi at hr
      split at hr
      · split at hr <;> cases hr
        rfl
      · split at hr <;> cases hr
        rfl
  | sendStart i frame =>
      obtain ⟨stream, hi, hr⟩ := Option.bind_eq_some_iff.mp hr
      unfold sendStart at hr
      split at hr
      · split at hr <;> cases hr <;> rfl
      · cases hr
  | sendStep i =>
      obtain ⟨stream, hi, hr⟩ := Option.bind_eq_some_iff.mp hr
      unfold sendStep at hr
      split at hr
      · cases hr
        unfold sendPolled
        split <;> rfl
      · split at hr
        · cases hr
        · cases hr
          unfold sendPolled
          split <;> rfl
      · cases hr
        unfold sendPush
        split <;> rfl
      · cases hr
  | sendCancel i =>
      obtain ⟨stream, hi, hr⟩ := Option.bind_eq_some_iff.mp hr
      unfold sendCancel at hr
      split at hr <;> cases hr
      rfl
  | finish i =>
      obtain ⟨stream, hi, hr⟩ := Option.bind_eq_some_iff.mp hr
      unfold finish at hr
      split at hr <;> cases hr
      rfl
  | dropSend i =>
      obtain ⟨stream, hi, hr⟩ := Option.bind_eq_some_iff.mp hr
      unfold dropSend at hr
      split at hr <;> cases hr
      rfl
  | dropRecv i =>
      obtain ⟨stream, hi, hr⟩ := Option.bind_eq_some_iff.mp hr
      unfold dropRecv at hr
      split at hr <;> cases hr
      rfl
  | recvPop i =>
      obtain ⟨stream, hi, hr⟩ := Option.bind_eq_some_iff.mp hr
      unfold recvPop at hr
      split at hr <;> cases hr
      rfl
  | recvCredit i =>
      obtain ⟨stream, hi, hr⟩ := Option.bind_eq_some_iff.mp hr
      unfold recvCredit at hr
      split at hr <;> cases hr
      rfl
  | recvEnd i =>
      obtain ⟨stream, hi, hr⟩ := Option.bind_eq_some_iff.mp hr
      unfold recvEnd at hr
      split at hr
      · split_ifs at hr
        · split at hr <;> cases hr <;> rfl
        · cases hr
          rfl
      · cases hr
  | close =>
      cases hr
      rfl

/-! ### The operations -/

theorem sends_openBi (h : e.Wf cfg s)
    (hfresh : e.opens = true → e.streamOf e.nextLocal = none) : SendEffect c e e.openBi := by
  unfold openBi
  rcases openLocal_cases (e := e) with ⟨hopens, inst, hres⟩ | ⟨-, err, hres⟩
  · rw [hres]
    have hnone := hfresh hopens
    have hview := view_openLocal (c := c) h hnone (opens_open hopens).1
    refine .kept ?_ trivial
    by_cases hc : e.nextLocal = c
    · subst hc
      rw [if_pos rfl] at hview
      refine Or.inr ⟨hnone, ?_⟩
      rw [hview]
      rfl
    · rw [if_neg hc] at hview
      exact .of_view hview
  · rw [hres]
    exact .kept (.of_view rfl) trivial

theorem sends_acceptBi (hr : e.acceptBi = some r) : SendEffect c e r := by
  unfold acceptBi at hr
  split at hr
  · split at hr
    · cases hr
    · cases hr
      exact .kept (.of_view rfl) trivial
  · split at hr
    · cases hr
    · cases hr
      exact .kept (.of_view rfl) trivial

theorem sends_sendStart (h : e.Wf cfg s) (hi : e.streams[i]? = some stream)
    (hidle : stream.send = some .idle) (frame : Frame) :
    SendEffect c e (e.sendStart i stream frame) := by
  unfold sendStart
  split
  · exact .kept (.of_view rfl) trivial
  · refine .moved h hi rfl (fun hc => hc) ?_
    rw [hidle]
    exact .start frame frame.encode_ne_nil

theorem sends_sendPolled (h : e.Wf cfg s) (hi : e.streams[i]? = some stream) {stage : Stage}
    {frame : Frame} {chunks : List Bytes} (hsend : stream.send = some (.sending stage frame chunks))
    {polled : Semaphore × Semaphore.Poll} (hclosed : polled.2 = .closed → stream.credit.closed = true) :
    SendEffect c e (e.sendPolled i stream frame chunks polled) := by
  obtain ⟨credit, poll⟩ := polled
  cases poll with
  | acquired =>
      refine .moved h hi rfl (fun _ => trivial) ?_
      rw [hsend]
      exact .poll stage .acquired frame chunks
  | pending =>
      refine .moved h hi rfl (fun _ => trivial) ?_
      rw [hsend]
      exact .poll stage .parked frame chunks
  | closed =>
      refine .moved h hi rfl (fun _ => trivial) ?_
      rw [hsend, not_live_of_closed h hi (hclosed rfl)]
      exact .fail rfl stage frame chunks _

theorem sends_sendPush (h : e.Wf cfg s) (hi : e.streams[i]? = some stream) {frame : Frame}
    {chunk : Bytes} {rest : List Bytes}
    (hsend : stream.send = some (.sending .acquired frame (chunk :: rest))) :
    SendEffect c e (e.sendPush i stream frame chunk rest) := by
  unfold sendPush pushData
  by_cases hclosed : e.closed = true
  · rw [if_pos hclosed]
    refine .moved h hi rfl (fun _ => trivial) ?_
    have hgone : (e.view stream.id).entry = none := (h.quiet hclosed).1 _
    rw [hsend, hgone]
    exact .fail rfl .acquired frame _ _
  rw [if_neg hclosed]
  cases hstate : e.channels[stream.id]? with
  | none =>
      rw [contains_eq_false.mpr hstate]
      refine .moved h hi rfl (fun _ => trivial) ?_
      have hgone : (e.view stream.id).entry = none := hstate
      rw [hsend, hgone]
      exact .fail rfl .acquired frame _ _
  | some state =>
      rw [contains_iff.mpr ⟨state, hstate⟩]
      have hentry : (e.view stream.id).entry = some state := hstate
      simp only [Bool.not_true, Bool.false_eq_true, if_false]
      have hcomm : ∀ t : Stream, (e.enqueue (.data stream.id chunk)).setStream i t =
          (e.setStream i t).enqueue (.data stream.id chunk) := fun _ => rfl
      rw [hcomm]
      have hmoved := @SendEffect.moved cfg s e c i
        (.pushed stream.id frame ((chunk :: rest).flatten == frame.encode) rest.isEmpty) stream
        { stream with
          send := some (if rest.isEmpty then .idle else .sending .acquiring frame rest) } h hi rfl
        (fun hc => hc) (by rw [hsend, hentry]; exact .push rfl frame chunk rest)
      rcases hmoved with ⟨hkept, hobs⟩ | ⟨t, t', hs, hs', hin, hmove⟩
      · refine Or.inl ⟨?_, hobs⟩
        unfold SendKept at hkept ⊢
        dsimp only at hkept ⊢
        rw [view_enqueue]
        exact hkept
      · refine Or.inr ⟨t, t', hs, ?_, ?_, hmove⟩
        · dsimp only at hs' ⊢
          rw [view_enqueue]
          exact hs'
        · dsimp only at hin ⊢
          rw [view_enqueue]
          exact hin

theorem sends_sendStep (h : e.Wf cfg s) (hi : e.streams[i]? = some stream)
    (hr : e.sendStep i stream = some r) : SendEffect c e r := by
  unfold sendStep at hr
  split at hr
  · next frame chunk rest hsend =>
      cases hr
      refine sends_sendPolled h hi hsend fun hp => ?_
      exact (Semaphore.acquireMany_closed (Prod.ext rfl hp)).1
  · next frame chunk rest hsend =>
      split at hr
      · cases hr
      · cases hr
        refine sends_sendPolled h hi hsend fun hp => ?_
        exact (Semaphore.poll_closed (Prod.ext rfl hp)).1
  · next frame chunk rest hsend =>
      cases hr
      exact sends_sendPush h hi hsend
  · cases hr

theorem sends_sendCancel (h : e.Wf cfg s) (hi : e.streams[i]? = some stream)
    (hr : e.sendCancel i stream = some r) : SendEffect c e r := by
  unfold sendCancel at hr
  split at hr
  · cases hr
  · next stage frame chunks _ hsend =>
      cases hr
      refine .moved h hi rfl (fun hc => hc) ?_
      rw [hsend]
      exact .cancel stage frame chunks _
  · cases hr

theorem SendKept.returnCredit (h : SendKept c e e') {n : Nat} :
    SendKept c e (e'.returnCredit id n) := by
  have hsame : ((e'.returnCredit id n).view c).stream = (e'.view c).stream ∧
      (((e'.returnCredit id n).view c).entry.isSome = true → (e'.view c).entry.isSome = true) := by
    by_cases hbig : 2 ^ 32 ≤ n
    · unfold Endpoint.returnCredit
      rw [if_pos hbig]
      exact ⟨rfl, fun h => h⟩
    rw [view_returnCredit (by omega)]
    split_ifs with hc
    · obtain ⟨rfl, -⟩ := hc
      cases hstate : e'.channels[id]? with
      | none => exact ⟨rfl, fun h => h⟩
      | some state =>
          refine ⟨rfl, fun _ => ?_⟩
          have hentry : (e'.view id).entry = some state := hstate
          rw [hentry]
          rfl
    · exact ⟨rfl, fun h => h⟩
  obtain ⟨hstream, hentry⟩ := hsame
  rcases h with ⟨hkept, hin⟩ | ⟨hnew, hidle⟩
  · exact Or.inl ⟨by rw [hstream]; exact hkept, fun hsome => hin (hentry hsome)⟩
  · exact Or.inr ⟨hnew, by rw [hstream]; exact hidle⟩

theorem sends_recvEnd (hr : e.recvEnd i stream = some r) : SendEffect c e r := by
  unfold recvEnd at hr
  split at hr
  · split_ifs at hr
    · split at hr
      · cases hr
        exact .kept (.of_view rfl) trivial
      · cases hr
        exact .kept (.of_view rfl) trivial
    · cases hr
      exact .kept (.of_view rfl) trivial
  · cases hr

/-- **Every operation moves a write half as `SendMove` says**, or not at all. -/
theorem sends_perform (h : e.Wf cfg s) {o : LocalOp}
    (hfresh : o = .openBi → e.opens = true → e.streamOf e.nextLocal = none)
    (hr : e.perform o = some r) : SendEffect c e r := by
  unfold perform at hr
  cases o with
  | openBi =>
      cases hr
      exact sends_openBi h (hfresh rfl)
  | acceptBi => exact sends_acceptBi hr
  | sendStart i frame =>
      obtain ⟨stream, hi, hr⟩ := Option.bind_eq_some_iff.mp hr
      split at hr
      · next hidle =>
          cases hr
          exact sends_sendStart h (stream?_some hi) hidle frame
      · cases hr
  | sendStep i =>
      obtain ⟨stream, hi, hr⟩ := Option.bind_eq_some_iff.mp hr
      exact sends_sendStep h (stream?_some hi) hr
  | sendCancel i =>
      obtain ⟨stream, hi, hr⟩ := Option.bind_eq_some_iff.mp hr
      exact sends_sendCancel h (stream?_some hi) hr
  | finish i =>
      obtain ⟨stream, hi, hr⟩ := Option.bind_eq_some_iff.mp hr
      unfold finish at hr
      split at hr
      · next hidle =>
          cases hr
          have hmoved : SendEffect c e (e.setStream i { stream with send := none },
              .sendDropped stream.id (e.holds stream.id)) := by
            refine .moved h (stream?_some hi) rfl (fun _ => trivial) ?_
            rw [hidle]
            exact .drop _
          have honce := hmoved.closing stream.id true
          rw [if_pos rfl] at honce
          exact honce.closing _ _
      · cases hr
  | dropSend i =>
      obtain ⟨stream, hi, hr⟩ := Option.bind_eq_some_iff.mp hr
      unfold dropSend at hr
      split at hr
      · next hidle =>
          cases hr
          refine SendEffect.closing ?_ _ _
          refine .moved h (stream?_some hi) rfl (fun _ => trivial) ?_
          rw [hidle]
          exact .drop _
      · cases hr
  | dropRecv i =>
      obtain ⟨stream, hi, hr⟩ := Option.bind_eq_some_iff.mp hr
      unfold dropRecv at hr
      split at hr
      · cases hr
        refine SendEffect.closing ?_ _ _
        exact .kept (.setStream h (stream?_some hi) rfl rfl) trivial
      · cases hr
  | recvPop i =>
      obtain ⟨stream, hi, hr⟩ := Option.bind_eq_some_iff.mp hr
      unfold recvPop at hr
      split at hr
      · cases hr
        exact .kept (.setStream h (stream?_some hi) rfl rfl) trivial
      · cases hr
  | recvCredit i =>
      obtain ⟨stream, hi, hr⟩ := Option.bind_eq_some_iff.mp hr
      unfold recvCredit at hr
      split at hr
      · cases hr
        refine .kept (SendKept.returnCredit ?_) trivial
        exact .setStream h (stream?_some hi) rfl rfl
      · cases hr
  | recvEnd i =>
      obtain ⟨stream, hi, hr⟩ := Option.bind_eq_some_iff.mp hr
      exact sends_recvEnd hr
  | close =>
      cases hr
      exact .kept (SendKept.shutdown (.of_view rfl) h.unique) trivial

/-- Only a step of a send that holds the credit for a chunk pushes one. -/
theorem perform_pushed {o : LocalOp} {f : Frame} {first last : Bool}
    (hr : e.perform o = some (e', .pushed id f first last)) :
    ∃ i stream chunks, o = .sendStep i ∧ e.streams[i]? = some stream ∧ stream.id = id ∧
      stream.send = some (.sending .acquired f chunks) ∧ first = (chunks.flatten == f.encode) := by
  have hshows := perform_shows hr
  cases o with
  | sendStep i =>
      obtain ⟨stream, hi, hr⟩ := Option.bind_eq_some_iff.mp hr
      refine ⟨i, stream, ?_⟩
      unfold sendStep at hr
      split at hr
      · next frame chunk rest hsend =>
          unfold sendPolled at hr
          split at hr <;> cases hr
      · next frame chunk rest hsend =>
          split at hr
          · cases hr
          · unfold sendPolled at hr
            split at hr <;> cases hr
      · next frame chunk rest hsend =>
          unfold sendPush at hr
          split at hr
          · cases hr
          · cases hr
            exact ⟨_, rfl, stream?_some hi, rfl, hsend, rfl⟩
      · cases hr
  | _ => cases hshows

/-- A chunk that was pushed belongs to a frame within the cap. -/
theorem SendEffect.pushed_cap (h : e.Wf cfg s) {f : Frame} {first last : Bool}
    (heff : SendEffect c e (e', .pushed c f first last)) :
    f.payload.length ≤ cfg.maxFrameLen := by
  rcases heff with ⟨-, hobs⟩ | ⟨stream, stream', hs, -, -, hmove⟩
  · exact absurd rfl hobs
  · have hwf := h.streams stream (streamOf_mem hs)
    generalize hhalf : stream.send = half at hmove
    generalize stream'.send = half' at hmove
    cases hmove with
    | push _ f chunk rest => exact (hwf.task _ hhalf).1

/-- A chunk is pushed on a channel that is in the map. -/
theorem SendEffect.pushed_live {f : Frame} {first last : Bool}
    (heff : SendEffect c e (e', .pushed c f first last)) : (e.view c).entry.isSome = true := by
  rcases heff with ⟨-, hobs⟩ | ⟨stream, stream', -, -, -, hmove⟩
  · exact absurd rfl hobs
  · generalize stream.send = half at hmove
    generalize stream'.send = half' at hmove
    cases hmove with
    | push hlive _ _ _ => exact hlive

end Endpoint

/-! ### The bookkeeping -/

/-- What the trace says about the sends of one channel at one side. -/
@[ext]
structure Book where
  started : List Frame
  began : List Frame
  completed : List Frame
  cancelled : Bool

namespace Book

open Endpoint

def blank : Book := ⟨[], [], [], false⟩

/-- The book after the side showed `obs`. -/
def after (b : Book) (c : ChannelId) (obs : Obs) : Book :=
  match obs with
  | .sendStarted id f => if id = c then { b with started := b.started ++ [f] } else b
  | .pushed id f first last =>
      if id = c then
        { b with
          began := b.began ++ if first then [f] else []
          completed := b.completed ++ if last then [f] else [] }
      else b
  | .sendCancelled id _ _ => if id = c then { b with cancelled := true } else b
  | _ => b

/-- The send in progress is what was started and not begun, or begun and not
completed. -/
def Settled (b : Book) : Option SendHalf → Prop
  | some (.sending _ f chunks) =>
      if chunks.flatten = f.encode then b.started = b.began ++ [f] ∧ b.began = b.completed
      else b.started = b.began ∧ b.began = b.completed ++ [f]
  | _ => b.started = b.began ∧ b.began = b.completed

/-- The book agrees with what the endpoint knows of the channel. -/
structure Balanced (b : Book) (v : View) : Prop where
  completed : b.completed <+: b.began
  began : b.began <+: b.started
  settled : ∀ stream, v.stream = some stream → v.entry.isSome = true → b.Settled stream.send
  blank : v.stream = none → b = .blank

variable {cfg : MuxConfig} {s : Role} {e e' : Endpoint} {c : ChannelId} {obs : Obs} {b : Book}
variable {r : Endpoint × Obs}

theorem after_unrelated (h : Unrelated c obs) : b.after c obs = b := by
  unfold after
  cases obs with
  | sendStarted id f => exact if_neg h
  | pushed id f first last => exact if_neg h
  | sendCancelled id f torn => exact if_neg h
  | _ => rfl

theorem after_started (f : Frame) :
    b.after c (.sendStarted c f) = { b with started := b.started ++ [f] } := if_pos rfl

theorem after_pushed (f : Frame) (first last : Bool) :
    b.after c (.pushed c f first last) =
      { b with
        began := b.began ++ if first then [f] else []
        completed := b.completed ++ if last then [f] else [] } := if_pos rfl

theorem after_cancel (f : Frame) (torn : Bool) :
    b.after c (.sendCancelled c f torn) = { b with cancelled := true } := if_pos rfl

/-- A move that is not a cancellation comes from a book without one. -/
theorem after_cancelled (h : (b.after c obs).cancelled = false) : b.cancelled = false := by
  unfold after at h
  split at h
  · split at h <;> exact h
  · split at h <;> exact h
  · split at h
    · cases h
    · exact h
  · exact h

theorem Balanced.kept (hb : b.Balanced (e.view c)) (h : SendKept c e e') :
    b.Balanced (e'.view c) := by
  rcases h with ⟨hsame, hin⟩ | ⟨hnew, hidle⟩
  · refine ⟨hb.completed, hb.began, ?_, ?_⟩
    · intro stream' hs' hentry
      rw [hs', Option.map_some] at hsame
      obtain ⟨stream, hs, hsend⟩ := Option.map_eq_some_iff.mp hsame.symm
      rw [← hsend]
      exact hb.settled stream hs (hin hentry)
    · intro hnone
      rw [hnone, Option.map_none] at hsame
      exact hb.blank (Option.map_eq_none_iff.mp hsame.symm)
  · have hblank := hb.blank hnew
    subst hblank
    refine ⟨List.prefix_rfl, List.prefix_rfl, ?_, fun _ => rfl⟩
    intro stream' hs' _
    rw [hs', Option.map_some, Option.some.injEq] at hidle
    rw [hidle]
    exact ⟨rfl, rfl⟩

/-- A frame of which a part has been pushed is the last one begun. -/
def Underway (b : Book) (v : View) : Prop :=
  ∀ stream stage f chunks, v.stream = some stream →
    stream.send = some (.sending stage f chunks) → chunks.flatten ≠ f.encode →
      ∃ fs, b.began = fs ++ [f]

theorem Underway.kept (hb : b.Underway (e.view c)) (h : SendKept c e e') :
    b.Underway (e'.view c) := by
  intro stream' stage f chunks hs' hsend' hpart
  rcases h with ⟨hsame, -⟩ | ⟨-, hidle⟩
  · rw [hs', Option.map_some] at hsame
    obtain ⟨stream, hs, hsend⟩ := Option.map_eq_some_iff.mp hsame.symm
    exact hb stream stage f chunks hs (hsend.trans hsend') hpart
  · rw [hs', Option.map_some, Option.some.injEq, hsend'] at hidle
    cases hidle

/-- Every operation keeps track of the frame under way. -/
theorem Underway.step (heff : SendEffect c e r) (hb : b.Underway (e.view c)) :
    (b.after c r.2).Underway (r.1.view c) := by
  rcases heff with ⟨hkept, hobs⟩ | ⟨stream, stream', hs, hs', -, hmove⟩
  · rw [after_unrelated hobs]
    exact hb.kept hkept
  intro t stage f chunks ht hsend hpart
  rw [hs'] at ht
  cases ht
  rw [hsend] at hmove
  have hsofar := hb stream
  generalize stream.send = half at hmove hsofar
  generalize r.2 = obs at hmove ⊢
  generalize hhalf' : (some (.sending stage f chunks) : Option SendHalf) = half' at hmove
  cases hmove with
  | start g _ =>
      cases hhalf'
      exact absurd (BigEndian.flatten_chunks (by decide) f.encode) hpart
  | poll stage' stage'' g chunks' =>
      cases hhalf'
      exact hsofar stage' f chunks hs rfl hpart
  | push _ g chunk rest =>
      rw [after_pushed]
      cases rest with
      | nil => cases hhalf'
      | cons next rest =>
          cases hhalf'
          by_cases hfirst : (chunk :: next :: rest).flatten = f.encode
          · exact ⟨b.began, by simp [hfirst]⟩
          · obtain ⟨fs, hfs⟩ := hsofar .acquired f _ hs rfl hfirst
            have hbeq : ((chunk :: next :: rest).flatten == f.encode) = false := by
              simpa using hfirst
            exact ⟨fs, by rw [hbeq]; simpa using hfs⟩
  | fail _ stage' g chunks' err => cases hhalf'
  | cancel stage' g chunks' torn => cases hhalf'
  | drop closed => cases hhalf'

/-- What is left of a frame after one of its chunks is not the whole frame. -/
theorem rest_ne {chunk : Bytes} {rest : List Bytes} {f : Frame} (hne : chunk ≠ [])
    (hsuf : (chunk :: rest).flatten <:+ f.encode) : rest.flatten ≠ f.encode := by
  intro heq
  have hlen := hsuf.length_le
  have hpos := List.length_pos_of_ne_nil hne
  rw [List.flatten_cons, List.length_append, heq] at hlen
  omega

/-- **Every operation keeps the book balanced.** -/
theorem Balanced.step (h : e.Wf cfg s) (heff : SendEffect c e r)
    (hb : b.cancelled = false → b.Balanced (e.view c)) :
    (b.after c r.2).cancelled = false → (b.after c r.2).Balanced (r.1.view c) := by
  intro hclean
  have hb := hb (after_cancelled hclean)
  rcases heff with ⟨hkept, hobs⟩ | ⟨stream, stream', hs, hs', hin, hmove⟩
  · rw [after_unrelated hobs]
    exact hb.kept hkept
  have hsettled := hb.settled stream hs
  have hwf := h.streams stream (streamOf_mem hs)
  generalize hlive : (e.view c).entry.isSome = live at hmove hin hsettled
  generalize hhalf : stream.send = half at hmove hsettled
  generalize hhalf' : stream'.send = half' at hmove
  generalize hobs : r.2 = obs at hmove hclean ⊢
  have hnew : ∀ b' : Book, b'.completed <+: b'.began → b'.began <+: b'.started →
      (live = true → b'.Settled half') → b'.Balanced (r.1.view c) := by
    intro b' hco hbe hset
    refine ⟨hco, hbe, ?_, ?_⟩
    · intro t ht hentry
      rw [hs'] at ht
      cases ht
      rw [hhalf']
      exact hset (hin hentry)
    · intro hnone
      rw [hs'] at hnone
      cases hnone
  cases hmove with
  | start f _ =>
      rw [after_started]
      refine hnew _ hb.completed (hb.began.trans (List.prefix_append _ _)) fun hl => ?_
      obtain ⟨hst, hbe⟩ := hsettled hl
      unfold Settled
      dsimp only
      rw [BigEndian.flatten_chunks (by decide), if_pos rfl]
      exact ⟨by rw [hst], hbe⟩
  | poll stage stage' f chunks => exact hnew _ hb.completed hb.began hsettled
  | push hl f chunk rest =>
      obtain ⟨-, hsuf, hall, -⟩ := hwf.task _ hhalf
      have hrest := rest_ne (hall chunk (by simp)).1 hsuf
      have hset := hsettled hl
      unfold Settled at hset
      dsimp only at hset
      rw [after_pushed]
      -- Once a chunk is out, the frame counts as begun, and as completed with its last chunk.
      have hnext : ∀ b' : Book, b'.started = b'.began →
          (rest.isEmpty = true → b'.began = b'.completed) →
          (rest.isEmpty = false → b'.began = b'.completed ++ [f]) →
          b'.Settled (some (if rest.isEmpty then .idle else .sending .acquiring f rest)) := by
        intro b' hst hlast hmore
        cases rest with
        | nil => exact ⟨hst, hlast rfl⟩
        | cons next rest =>
            unfold Settled
            simp only [List.isEmpty_cons, Bool.false_eq_true, if_false]
            rw [if_neg hrest]
            exact ⟨hst, hmore rfl⟩
      by_cases hfirst : (chunk :: rest).flatten = f.encode
      · rw [if_pos hfirst] at hset
        obtain ⟨hst, hbe⟩ := hset
        rw [hfirst, beq_self_eq_true, if_pos rfl]
        refine hnew _ ?_ ?_ fun _ => hnext _ hst ?_ ?_
        · dsimp only
          rw [hbe]
          split
          · exact List.prefix_rfl
          · exact List.prefix_append_right_inj _ |>.mpr (List.nil_prefix)
        · dsimp only
          rw [hst]
        · intro hl
          dsimp only
          rw [hl, if_pos rfl, hbe]
        · intro hl
          dsimp only
          rw [hl, hbe]
          simp
      · have hbeq : ((chunk :: rest).flatten == f.encode) = false := by simpa using hfirst
        rw [if_neg hfirst] at hset
        obtain ⟨hst, hbe⟩ := hset
        rw [hbeq, if_neg Bool.false_ne_true, List.append_nil]
        refine hnew _ ?_ hb.began fun _ => hnext _ hst ?_ ?_
        · dsimp only
          rw [hbe]
          split
          · exact List.prefix_rfl
          · exact List.prefix_append_right_inj _ |>.mpr (List.nil_prefix)
        · intro hl
          dsimp only
          rw [hl, if_pos rfl, hbe]
        · intro hl
          dsimp only
          rw [hl, hbe]
          simp
  | fail hgone stage f chunks err =>
      refine hnew _ hb.completed hb.began fun hl => ?_
      rw [hl] at hgone
      cases hgone
  | cancel stage f chunks torn =>
      rw [after_cancel] at hclean
      cases hclean
  | drop closed => exact hnew _ hb.completed hb.began hsettled

/-! ### What no operation breaks -/

/-- Something said of a book and of what the endpoint knows of the channel that
no operation of the endpoint breaks. -/
structure Stable (P : Book → View → Prop) : Prop where
  blank : ∀ v, v.stream = none → P .blank v
  kept : ∀ {c e e' b}, SendKept c e e' → P b (e.view c) → P b (e'.view c)
  step : ∀ {cfg s c e r b}, e.Wf cfg s → SendEffect c e r → P b (e.view c) →
    P (b.after c r.2) (r.1.view c)

theorem Stable.and {P Q : Book → View → Prop} (hP : Stable P) (hQ : Stable Q) :
    Stable fun b v => P b v ∧ Q b v where
  blank v hv := ⟨hP.blank v hv, hQ.blank v hv⟩
  kept hkept h := ⟨hP.kept hkept h.1, hQ.kept hkept h.2⟩
  step hwf heff h := ⟨hP.step hwf heff h.1, hQ.step hwf heff h.2⟩

theorem stable_underway : Stable Underway where
  blank v hv stream _ _ _ hs := by
    rw [hv] at hs
    cases hs
  kept hkept h := h.kept hkept
  step _ heff h := h.step heff

theorem stable_balanced : Stable fun b v => b.cancelled = false → b.Balanced v where
  blank v hv _ := by
    refine ⟨List.prefix_rfl, List.prefix_rfl, ?_, fun _ => rfl⟩
    intro stream hs
    rw [hv] at hs
    cases hs
  kept hkept h hclean := (h hclean).kept hkept
  step hwf heff h := Balanced.step hwf heff h

end Book

end Mux
