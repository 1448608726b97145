import GoNomad.Transport.Arrival
import GoNomad.Transport.Sends

/-!
# The invariant of the link

`Link.Safe` holds of every state a run reaches as long as no successful open
takes an id its side has issued before (`freshIds`).  It says that both
endpoints are well formed, that only segments of this build are on the wire,
and that the two ends of every channel satisfy the invariant of the abstract
channel, with the histories read off the trace as its past.

The second half relates those pasts to the histories of `GoNomad.Transport.Link`.
-/

namespace Mux

open Proto Transport CreditChannel

/-! ### Ids -/

namespace Endpoint

variable {cfg : MuxConfig} {s : Role} {e e' : Endpoint} {c id : ChannelId} {i : Nat}
variable {stream : Stream} {r : Endpoint × Obs}

theorem ids_closeChannel : (e.closeChannel id).ids = e.ids := by
  unfold closeChannel retire
  split_ifs <;> rfl

theorem ids_returnCredit {n : Nat} : (e.returnCredit id n).ids = e.ids := by
  unfold returnCredit
  split_ifs
  · rfl
  · rfl
  · cases e.channels[id]? <;> rfl

theorem ids_sendPolled (hi : e.streams[i]? = some stream) {frame : Frame} {chunks : List Bytes}
    (polled : Semaphore × Semaphore.Poll) :
    (e.sendPolled i stream frame chunks polled).1.ids = e.ids := by
  obtain ⟨credit, poll⟩ := polled
  cases poll with
  | acquired => exact ids_setStream hi rfl
  | pending => exact ids_setStream hi rfl
  | closed => exact ids_setStream hi rfl

theorem ids_sendPush (hi : e.streams[i]? = some stream) {frame : Frame} {chunk : Bytes}
    {rest : List Bytes} : (e.sendPush i stream frame chunk rest).1.ids = e.ids := by
  unfold sendPush pushData
  by_cases hclosed : e.closed = true
  · rw [if_pos hclosed]
    exact ids_setStream hi rfl
  rw [if_neg hclosed]
  by_cases hgone : (!e.channels.contains stream.id) = true
  · rw [if_pos hgone]
    exact ids_setStream hi rfl
  · rw [if_neg hgone]
    have hq : (e.enqueue (.data stream.id chunk)).streams[i]? = some stream := hi
    exact ids_setStream hq rfl

theorem ids_sendStep (hi : e.streams[i]? = some stream) (hr : e.sendStep i stream = some r) :
    r.1.ids = e.ids := by
  unfold sendStep at hr
  split at hr
  · cases hr
    exact ids_sendPolled hi _
  · split at hr
    · cases hr
    · cases hr
      exact ids_sendPolled hi _
  · cases hr
    exact ids_sendPush hi
  · cases hr

theorem ids_closing (h : e'.ids = e.ids) (close : Bool) :
    (if close then e'.closeChannel id else e').ids = e.ids := by
  cases close with
  | true => exact ids_closeChannel.trans h
  | false => exact h

theorem ids_acceptBi (hr : e.acceptBi = some r) : r.1.ids = e.ids := by
  unfold acceptBi at hr
  split at hr
  · split at hr
    · cases hr
    · cases hr
      rfl
  · split at hr
    · cases hr
    · cases hr
      rfl

/-- Only an open gives an endpoint a stream of its own accord. -/
theorem ids_perform {o : LocalOp} (ho : o ≠ .openBi) (hr : e.perform o = some r) :
    r.1.ids = e.ids := by
  unfold perform at hr
  cases o with
  | openBi => exact absurd rfl ho
  | acceptBi => exact ids_acceptBi hr
  | sendStart i frame =>
      obtain ⟨stream, hi, hr⟩ := Option.bind_eq_some_iff.mp hr
      split at hr
      · cases hr
        unfold sendStart
        split
        · rfl
        · exact ids_setStream (stream?_some hi) rfl
      · cases hr
  | sendStep i =>
      obtain ⟨stream, hi, hr⟩ := Option.bind_eq_some_iff.mp hr
      exact ids_sendStep (stream?_some hi) hr
  | sendCancel i =>
      obtain ⟨stream, hi, hr⟩ := Option.bind_eq_some_iff.mp hr
      unfold sendCancel at hr
      split at hr
      · cases hr
      · cases hr
        exact ids_setStream (stream?_some hi) rfl
      · cases hr
  | finish i =>
      obtain ⟨stream, hi, hr⟩ := Option.bind_eq_some_iff.mp hr
      unfold finish at hr
      split at hr
      · cases hr
        refine ids_closing (ids_closeChannel.trans ?_) _
        exact ids_setStream (stream?_some hi) rfl
      · cases hr
  | dropSend i =>
      obtain ⟨stream, hi, hr⟩ := Option.bind_eq_some_iff.mp hr
      unfold dropSend at hr
      split at hr
      · cases hr
        refine ids_closing ?_ _
        exact ids_setStream (stream?_some hi) rfl
      · cases hr
  | dropRecv i =>
      obtain ⟨stream, hi, hr⟩ := Option.bind_eq_some_iff.mp hr
      unfold dropRecv at hr
      split at hr
      · cases hr
        refine ids_closing ?_ _
        exact ids_setStream (stream?_some hi) rfl
      · cases hr
  | recvPop i =>
      obtain ⟨stream, hi, hr⟩ := Option.bind_eq_some_iff.mp hr
      unfold recvPop at hr
      split at hr
      · cases hr
        exact ids_setStream (stream?_some hi) rfl
      · cases hr
  | recvCredit i =>
      obtain ⟨stream, hi, hr⟩ := Option.bind_eq_some_iff.mp hr
      unfold recvCredit at hr
      split at hr
      · cases hr
        exact ids_returnCredit.trans (ids_setStream (stream?_some hi) rfl)
      · cases hr
  | recvEnd i =>
      obtain ⟨stream, hi, hr⟩ := Option.bind_eq_some_iff.mp hr
      rw [recvEnd_same hr]
  | close =>
      cases hr
      exact ids_shutdown

/-- An open that succeeds gives its id a stream. -/
theorem ids_openBi : e.openBi.1.ids = if e.opens then e.ids ++ [e.nextLocal] else e.ids := by
  unfold openBi
  rcases openLocal_cases (e := e) with ⟨hopens, inst, hres⟩ | ⟨hopens, err, hres⟩
  · rw [hres, hopens, if_pos rfl]
    unfold ids enqueue insertChannel
    simp
  · rw [hres, hopens]
    rfl

theorem openBi_opens (h : e.opens = true) : e.openBi.2 = .opened e.nextLocal := by
  unfold openBi
  rcases openLocal_cases (e := e) with ⟨-, inst, hres⟩ | ⟨hnot, -⟩
  · rw [hres]
  · rw [h] at hnot
    cases hnot

theorem ids_takeNext {seg : Segment} (ht : e.takeNext = some (seg, e')) : e'.ids = e.ids := by
  unfold takeNext at ht
  split at ht
  · cases ht
    rfl
  · split at ht
    · cases ht
    · split at ht
      · cases ht
        rfl
      · cases ht

end Endpoint

/-! ### The invariant -/

namespace Link

variable {cfg : MuxConfig} {l l' l₀ : Link} {trace : Trace} {ev : Event} {obs : Endpoint.Obs}
variable {s : Role} {c : ChannelId}

/-- An open that succeeds takes an id its side has not issued before. -/
def freshIds (trace : Trace) (l : Link) (ev : Event) : Bool :=
  match ev with
  | .op s .openBi =>
      !(l.ends.get s).opens || !(opened s trace).contains (l.ends.get s).nextLocal
  | _ => true

/-- What holds of a link as long as ids are fresh. -/
structure Safe (cfg : MuxConfig) (trace : Trace) (l : Link) : Prop where
  wf : ∀ s, (l.ends.get s).Wf cfg s
  formed : ∀ s, ∀ seg ∈ l.wire.get s, seg.Formed
  channel : ∀ s c, Inv Frame.code cfg.window (absEnd s c l trace) (absEnd s.other c l trace)
  cap : ∀ s c, ∀ f ∈ (pastOf s c trace).sent, f.payload.length ≤ cfg.maxFrameLen
  issued : ∀ s, ∀ c ∈ (l.ends.get s).ids, owns s c = true → c ∈ opened s trace

/-- An invariant that does not care which end comes first. -/
theorem channel_of_side
    (h : ∀ c, Inv Frame.code cfg.window (absEnd s c l trace) (absEnd s.other c l trace)) :
    ∀ s' c, Inv Frame.code cfg.window (absEnd s' c l trace) (absEnd s'.other c l trace) := by
  intro s' c
  rcases Sides.eq_or_other s s' with rfl | rfl
  · exact h c
  · have hback := (h c).symm
    rwa [Role.other_other]

/-- What the other side shows does not change its past. -/
theorem pastOf_other (hside : ev.side = s) :
    pastOf s.other c (trace ++ [(ev, obs)]) = pastOf s.other c trace := by
  rw [pastOf_snoc, if_neg]
  rw [hside]
  exact (Role.other_ne s).symm

theorem pastOf_self (hside : ev.side = s) :
    pastOf s c (trace ++ [(ev, obs)]) = (pastOf s c trace).after c obs := by
  rw [pastOf_snoc, if_pos hside]

/-- Something that holds of every side holds again when it holds of the side
that changed and nothing changed on the other. -/
theorem sides_cases {p q : Role → Prop} (s : Role) (h : ∀ s', p s') (hself : q s)
    (hother : p s.other → q s.other) : ∀ s', q s' := by
  intro s'
  rcases Sides.eq_or_other s s' with rfl | rfl
  · exact hself
  · exact hother (h _)

/-- A fresh endpoint has not heard of any channel. -/
theorem toEnd_spawn {e : Endpoint} (h : Endpoint.spawn cfg s = .ok e) :
    (e.view c).toEnd (owns s c) [] [] .blank = .blank (owns s c) := by
  unfold Endpoint.spawn at h
  split at h
  · cases h
  · cases h
    unfold Endpoint.view Endpoint.streamOf Endpoint.queue
    dsimp only
    rw [lookup_empty, lookup_empty]
    rfl

theorem spawn_ends (h : spawn cfg = .ok l₀) :
    (∀ s, Endpoint.spawn cfg s = .ok (l₀.ends.get s)) ∧ ∀ s, l₀.wire.get s = [] := by
  unfold spawn at h
  cases hi : Endpoint.spawn cfg .initiator with
  | error err => rw [hi] at h; cases h
  | ok ei =>
      cases hr : Endpoint.spawn cfg .responder with
      | error err => rw [hi, hr] at h; cases h
      | ok er =>
          rw [hi, hr] at h
          cases h
          refine ⟨?_, ?_⟩
          · intro s
            cases s
            · exact hi
            · exact hr
          · intro s
            cases s <;> rfl

theorem ids_spawn {e : Endpoint} (h : Endpoint.spawn cfg s = .ok e) : e.ids = [] := by
  unfold Endpoint.spawn at h
  split at h
  · cases h
  · cases h
    rfl

theorem safe_spawn (h : spawn cfg = .ok l₀) : Safe cfg [] l₀ := by
  obtain ⟨hends, hwire⟩ := spawn_ends h
  refine ⟨fun s => Endpoint.spawn_wf (hends s), ?_, ?_, ?_, ?_⟩
  · intro s seg hmem
    rw [hwire s] at hmem
    cases hmem
  · intro s c
    unfold absEnd
    rw [hwire, hwire]
    change Inv Frame.code cfg.window (((l₀.ends.get s).view c).toEnd (owns s c) [] [] .blank)
      (((l₀.ends.get s.other).view c).toEnd (owns s.other c) [] [] .blank)
    rw [toEnd_spawn (hends s), toEnd_spawn (hends s.other), owns_other]
    exact .blank Frame.code cfg.window (owns s c)
  · intro s c f hf
    cases hf
  · intro s c hc
    rw [ids_spawn (hends s)] at hc
    cases hc

/-! ### Steps -/

/-- Everything one step can do. -/
theorem step_cases (hstep : step l ev = some (l', obs)) :
    (∃ s o r, ev = .op s o ∧ (l.ends.get s).perform o = some r ∧ obs = r.2 ∧
      l' = { l with ends := l.ends.set s r.1 }) ∨
    (∃ s seg e', ev = .take s ∧ (l.ends.get s).takeNext = some (seg, e') ∧ obs = .taken seg ∧
      l' = { l with ends := l.ends.set s e', wire := l.wire.set s (l.wire.get s ++ [seg]) }) ∨
    (∃ s seg rest, ev = .deliver s ∧ l.wire.get s.other = seg :: rest ∧ l.reader.get s = true ∧
      obs = .delivered (receive (l.ends.get s) seg).2 ∧
      l' =
        { ends := l.ends.set s (receive (l.ends.get s) seg).1
          wire := l.wire.set s.other rest
          reader := l.reader.set s ((receive (l.ends.get s) seg).2 matches .ok ()) }) ∨
    (∃ s err, ev = .lose s err ∧ obs = .silent ∧
      l' = { l with ends := l.ends.set s ((l.ends.get s).shutdown err) }) := by
  unfold step at hstep
  cases ev with
  | op s o =>
      obtain ⟨r, hr, hstep⟩ := Option.bind_eq_some_iff.mp hstep
      cases hstep
      exact Or.inl ⟨s, o, r, rfl, hr, rfl, rfl⟩
  | take s =>
      obtain ⟨r, hr, hstep⟩ := Option.bind_eq_some_iff.mp hstep
      cases hstep
      exact Or.inr (Or.inl ⟨s, r.1, r.2, rfl, hr, rfl, rfl⟩)
  | deliver s =>
      dsimp only at hstep
      split at hstep
      · cases hstep
      · next seg rest hwire =>
          split at hstep
          · next hreader =>
              cases hstep
              exact Or.inr (Or.inr (Or.inl ⟨s, seg, rest, rfl, hwire, hreader, rfl, rfl⟩))
          · cases hstep
  | lose s err =>
      cases hstep
      exact Or.inr (Or.inr (Or.inr ⟨s, err, rfl, rfl, rfl⟩))

theorem opened_mono {entry : Event × Endpoint.Obs} (h : c ∈ opened s trace) :
    c ∈ opened s (trace ++ [entry]) := by
  unfold opened at h ⊢
  rw [history_snoc]
  exact List.mem_append_left _ h

theorem Safe.capped (h : Safe cfg trace l) (hside : ev.side = s)
    (hcap : ∀ c, ∀ f ∈ ((pastOf s c trace).after c obs).sent,
      f.payload.length ≤ cfg.maxFrameLen) :
    ∀ s' c, ∀ f ∈ (pastOf s' c (trace ++ [(ev, obs)])).sent,
      f.payload.length ≤ cfg.maxFrameLen := by
  refine sides_cases s h.cap ?_ ?_
  · intro c
    rw [pastOf_self hside]
    exact hcap c
  · intro hother c
    rw [pastOf_other hside]
    exact hother c

theorem Safe.issuing (h : Safe cfg trace l) {e' : Endpoint}
    (hissued : ∀ c ∈ e'.ids, owns s c = true → c ∈ opened s (trace ++ [(ev, obs)])) :
    ∀ s', ∀ c ∈ ((l.ends.set s e').get s').ids, owns s' c = true →
      c ∈ opened s' (trace ++ [(ev, obs)]) := by
  refine sides_cases s h.issued ?_ ?_
  · rw [Sides.get_set_self]
    exact hissued
  · intro hother c hc howns
    rw [Sides.get_set_other] at hc
    exact opened_mono (hother c hc howns)

/-- A step of one side that leaves the other side and the wires alone. -/
theorem Safe.local (h : Safe cfg trace l) (hside : ev.side = s) {e' : Endpoint}
    (hwf : e'.Wf cfg s) (hsim : ∀ c, Endpoint.Sim cfg s c (l.ends.get s) (e', obs))
    (hcap : ∀ c, ∀ f ∈ ((pastOf s c trace).after c obs).sent, f.payload.length ≤ cfg.maxFrameLen)
    (hissued : ∀ c ∈ e'.ids, owns s c = true → c ∈ opened s (trace ++ [(ev, obs)])) :
    Safe cfg (trace ++ [(ev, obs)]) { l with ends := l.ends.set s e' } where
  wf := sides_cases s h.wf (by simpa using hwf) (by simp)
  formed := h.formed
  channel := by
    refine channel_of_side (s := s) fun c => ?_
    have hsteps := hsim c (Segment.itemsOf c (l.wire.get s)) (Segment.creditsOf c (l.wire.get s))
      (pastOf s c trace) (absEnd s.other c l trace)
    have hinv := hsteps.inv (h.channel s c)
    unfold absEnd at hinv ⊢
    rw [Sides.get_set_self, Sides.get_set_other, pastOf_self hside, pastOf_other hside]
    exact hinv
  cap := h.capped hside hcap
  issued := h.issuing hissued

/-- Frames within the cap stay within it. -/
theorem cap_after {e : Endpoint} (h : e.Wf cfg s) {r : Endpoint × Endpoint.Obs} {p : Past}
    (heff : Endpoint.SendEffect c e r)
    (hcap : ∀ f ∈ p.sent, f.payload.length ≤ cfg.maxFrameLen) :
    ∀ f ∈ (p.after c r.2).sent, f.payload.length ≤ cfg.maxFrameLen := by
  obtain ⟨e', obs⟩ := r
  intro f hf
  dsimp only at hf
  unfold Past.after at hf
  split at hf
  · next id g _ =>
      split_ifs at hf with hc
      · subst hc
        rcases List.mem_append.mp hf with hf | hf
        · exact hcap f hf
        · rw [List.mem_singleton.mp hf]
          exact heff.pushed_cap h
      · exact hcap f hf
  all_goals first | exact hcap f hf | (split_ifs at hf <;> exact hcap f hf)

theorem Safe.fresh (h : Safe cfg trace l) (hfresh : freshIds trace l ev) {o : Endpoint.LocalOp}
    (hev : ev = .op s o) :
    o = .openBi → (l.ends.get s).opens = true →
      (l.ends.get s).streamOf (l.ends.get s).nextLocal = none := by
  intro ho hopens
  by_contra hold
  have hmem := Endpoint.mem_ids.mpr hold
  have hown : owns s (l.ends.get s).nextLocal = true := Endpoint.owns_nextLocal (h.wf s)
  have hissued := h.issued s _ hmem hown
  rw [hev, ho] at hfresh
  unfold freshIds at hfresh
  simp [hopens, hissued] at hfresh

theorem Safe.op (h : Safe cfg trace l) {o : Endpoint.LocalOp} (hfresh : freshIds trace l (.op s o))
    {r : Endpoint × Endpoint.Obs} (hr : (l.ends.get s).perform o = some r) :
    Safe cfg (trace ++ [(.op s o, r.2)]) { l with ends := l.ends.set s r.1 } := by
  have hnew := h.fresh hfresh rfl
  refine h.local rfl ((h.wf s).perform hnew hr) (fun c => Endpoint.sim_perform (h.wf s) hnew hr)
    (fun c => cap_after (h.wf s) (Endpoint.sends_perform (h.wf s) hnew hr) (h.cap s c)) ?_
  intro c hc howns
  by_cases ho : o = .openBi
  · subst ho
    cases hr
    rw [Endpoint.ids_openBi] at hc
    by_cases hopens : (l.ends.get s).opens = true
    · rw [if_pos hopens] at hc
      rcases List.mem_append.mp hc with hc | hc
      · exact opened_mono (h.issued s c hc howns)
      · rw [List.mem_singleton.mp hc, Endpoint.openBi_opens hopens]
        unfold opened
        rw [history_snoc]
        simp [Event.side]
    · rw [if_neg hopens] at hc
      exact opened_mono (h.issued s c hc howns)
  · rw [Endpoint.ids_perform ho hr] at hc
    exact opened_mono (h.issued s c hc howns)

/-- The socket failing under one side. -/
theorem Safe.lose (h : Safe cfg trace l) (err : Option TransportError) :
    Safe cfg (trace ++ [(.lose s err, .silent)])
      { l with ends := l.ends.set s ((l.ends.get s).shutdown err) } := by
  refine h.local rfl (h.wf s).shutdown (fun c => Endpoint.sim_shutdown (h.wf s)) (h.cap s) ?_
  intro c hc howns
  rw [Endpoint.ids_shutdown] at hc
  exact opened_mono (h.issued s c hc howns)

/-- The writer moves a segment from a queue to the wire. -/
theorem Safe.take (h : Safe cfg trace l) {seg : Segment} {e' : Endpoint}
    (ht : (l.ends.get s).takeNext = some (seg, e')) :
    Safe cfg (trace ++ [(.take s, .taken seg)])
      { l with ends := l.ends.set s e', wire := l.wire.set s (l.wire.get s ++ [seg]) } := by
  obtain ⟨hformed, hwf, hview⟩ := (h.wf s).takeNext ht
  refine ⟨sides_cases s h.wf (by simpa using hwf) (by simp), ?_, ?_, ?_, ?_⟩
  · refine sides_cases s h.formed ?_ ?_
    · intro t ht
      dsimp only at ht
      rw [Sides.get_set_self] at ht
      rcases List.mem_append.mp ht with ht | ht
      · exact h.formed s t ht
      · rw [List.mem_singleton.mp ht]
        exact hformed
    · intro hother t ht
      dsimp only at ht
      rw [Sides.get_set_other] at ht
      exact hother t ht
  · refine channel_of_side (s := s) fun c => ?_
    have hside : (Event.take s).side = s := rfl
    have hinv := h.channel s c
    unfold absEnd at hinv ⊢
    dsimp only
    rw [Sides.get_set_self, Sides.get_set_self, Sides.get_set_other, Sides.get_set_other,
      pastOf_self hside, pastOf_other hside]
    rw [hview c] at hinv
    unfold View.toEnd View.phase View.avail at hinv ⊢
    dsimp only at hinv ⊢
    rw [Segment.itemsOf_append, Segment.creditsOf_append, List.append_assoc, List.append_assoc]
    exact hinv
  · exact h.capped rfl (h.cap s)
  · refine h.issuing fun c hc howns => opened_mono (h.issued s c ?_ howns)
    rwa [Endpoint.ids_takeNext ht] at hc

/-- The channels of the link when a segment arrives. -/
def Safe.arrival (h : Safe cfg trace l) {seg : Segment} {rest : List Segment}
    (hwire : l.wire.get s.other = seg :: rest) (c : ChannelId) :
    Arrival cfg s (l.ends.get s) seg c where
  items := Segment.itemsOf c (l.wire.get s)
  credits := Segment.creditsOf c (l.wire.get s)
  past := pastOf s c trace
  peer := absEnd s.other c l trace
  flight := Segment.itemsOf c rest ++ ((l.ends.get s.other).view c).flight
  grants := Segment.creditsOf c rest ++ ((l.ends.get s.other).view c).grants
  flight_eq := by
    unfold absEnd View.toEnd
    rw [hwire, Segment.itemsOf_cons, List.append_assoc]
  grants_eq := by
    unfold absEnd View.toEnd
    rw [hwire, Segment.creditsOf_cons, List.append_assoc]
  inv := h.channel s c
  cap := h.cap s.other c

/-- What the reader makes of a segment. -/
theorem Safe.outcome (h : Safe cfg trace l) {seg : Segment} {rest : List Segment}
    (hwire : l.wire.get s.other = seg :: rest) :
    Arrival.Outcome (h.arrival hwire) (receive (l.ends.get s) seg) :=
  Arrival.sim_receive (h.wf s) (h.formed s.other seg (by rw [hwire]; simp)) _

/-- The reader handles a segment. -/
theorem Safe.deliver (h : Safe cfg trace l) {seg : Segment} {rest : List Segment}
    (hwire : l.wire.get s.other = seg :: rest) {e' : Endpoint}
    {result : Except TransportError Unit} (hr : receive (l.ends.get s) seg = (e', result))
    {r : Sides Bool} :
    Safe cfg (trace ++ [(.deliver s, .delivered result)])
      { ends := l.ends.set s e', wire := l.wire.set s.other rest, reader := r } := by
  have hout := h.outcome hwire
  rw [hr] at hout
  refine ⟨sides_cases s h.wf (by simpa using hout.wf) (by simp), ?_, ?_, ?_, ?_⟩
  · refine sides_cases s.other h.formed ?_ ?_
    · intro t ht
      dsimp only at ht
      rw [Sides.get_set_self] at ht
      exact h.formed s.other t (by rw [hwire]; exact List.mem_cons_of_mem _ ht)
    · intro hother t ht
      dsimp only at ht
      rw [Sides.get_set_other] at ht
      exact hother t ht
  · refine channel_of_side (s := s) fun c => ?_
    have hside : (Event.deliver s).side = s := rfl
    have hinv := Steps.inv (hout.simulates c) (h.channel s c)
    unfold Arrival.here Arrival.there Safe.arrival at hinv
    unfold absEnd at hinv ⊢
    dsimp only at hinv ⊢
    rw [Sides.get_set_self, Sides.get_other_set, Sides.get_set_self, Sides.get_set_other,
      pastOf_self hside, pastOf_other hside]
    exact hinv
  · exact h.capped rfl (h.cap s)
  · refine h.issuing fun c hc howns => ?_
    rcases hout.ids c hc with hold | hpeer
    · exact opened_mono (h.issued s c hold howns)
    · rw [owns_other, howns] at hpeer
      cases hpeer

/-- **Every step keeps the link safe**, as long as an open takes a fresh id. -/
theorem Safe.step (h : Safe cfg trace l) (hfresh : freshIds trace l ev)
    (hstep : step l ev = some (l', obs)) : Safe cfg (trace ++ [(ev, obs)]) l' := by
  rcases step_cases hstep with ⟨s, o, r, rfl, hr, rfl, rfl⟩ | ⟨s, seg, e', rfl, ht, rfl, rfl⟩ |
    ⟨s, seg, rest, rfl, hwire, -, rfl, rfl⟩ | ⟨s, err, rfl, rfl, rfl⟩
  · exact h.op hfresh hr
  · exact h.take ht
  · exact h.deliver hwire rfl
  · exact h.lose err

/-- **The invariant holds in every reachable state.** -/
theorem runs_safe (hinit : spawn cfg = .ok l₀) {ok : Trace → Link → Event → Prop}
    (hok : ∀ trace l ev, ok trace l ev → freshIds trace l ev) (hrun : Runs ok l₀ trace l) :
    Safe cfg trace l :=
  hrun.invariant (Safe cfg) (safe_spawn hinit)
    fun trace l ev _ _ h hguard hstep => h.step (hok trace l ev hguard) hstep

end Link

end Mux
