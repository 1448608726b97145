import GoNomad.Transport.Histories

/-!
# When a conforming peer ends the link

Both ends run this code with one configuration, so nothing either of them sends
should be a violation to the other.  `race_at_the_limit` shows that it can be:
both sides pass their own check of the channel limit before either opening has
arrived.  `runs_accepted` says what it takes for every segment to be accepted
in every run: besides fresh ids, that an opening finds room, that data finds a
channel that is open or remembered, and that no frame follows a torn one.
-/

namespace Mux

open Proto Transport CreditChannel

namespace Link

variable {cfg : MuxConfig} {l l' l₀ : Link} {trace : Trace} {ev : Event} {obs : Endpoint.Obs}
variable {s : Role} {c : ChannelId}

/-! ### The race -/

/-- The smallest configuration that passes its checks. -/
def smallest : MuxConfig where
  initialWindow := 6
  maxFrameLen := 1
  maxChannels := 1

/-- **Both sides open at the limit.**  Each passes its own check, and the
opening that arrives is then one channel too many. -/
theorem race_at_the_limit :
    ¬ ∀ (cfg : MuxConfig) (l₀ : Link), spawn cfg = .ok l₀ →
      ∀ trace l, Runs Transition.unguarded l₀ trace l →
        ∀ s violation, .error (.protocol violation) ∉ deliveries s trace := by
  intro h
  obtain ⟨l₀, hspawn, hrun⟩ := @runs_of_exec Transition.unguarded _ smallest
    [.op .initiator .openBi, .op .responder .openBi, .take .initiator, .deliver .responder] _ _ rfl
  exact h smallest l₀ hspawn _ _ hrun .responder (.tooManyChannels 1) (List.mem_cons_self ..)

/-- A frame of one byte. -/
def dot : Frame := ⟨.none, [7], by decide⟩

/-! ### The condition -/

/-- An opening that is handled now finds the channel map below its limit, or
the link gone. -/
def findsRoom (l : Link) (ev : Event) : Bool :=
  match ev with
  | .deliver s =>
      match l.wire.get s.other with
      | [] => true
      | seg :: _ =>
          seg.kind != kindOpen || (l.ends.get s).closed ||
            (l.ends.get s).channels.size < (l.ends.get s).cfg.maxChannels
  | _ => true

/-- Data that is handled now belongs to a channel that is open, or closed and
still remembered, or finds the link gone. -/
def findsChannel (l : Link) (ev : Event) : Bool :=
  match ev with
  | .deliver s =>
      match l.wire.get s.other with
      | [] => true
      | seg :: _ =>
          seg.kind != kindData || (l.ends.get s).closed ||
            (l.ends.get s).channels.contains seg.channel ||
            (l.ends.get s).retired.contains seg.channel
  | _ => true

/-- The steps after which both ends still agree. -/
def conforming (trace : Trace) (l : Link) (ev : Event) : Bool :=
  freshIds trace l ev && wholeFrames trace l ev && findsRoom l ev && findsChannel l ev

/-! ### Runs -/

/-- No stream has been spoiled. -/
def Unspoiled (trace : Trace) : Prop := ∀ s c, (pastOf s c trace).spoiled = false

theorem Unspoiled.step (h : Unspoiled trace) (hwhole : wholeFrames trace l ev = true)
    (hstep : Link.step l ev = some (l', obs)) : Unspoiled (trace ++ [(ev, obs)]) := by
  intro s c
  rw [pastOf_snoc]
  by_cases hs : ev.side = s
  · rw [if_pos hs]
    rcases step_cases hstep with ⟨s', o, r, rfl, hr, rfl, -⟩ | ⟨s', seg, e', rfl, -, rfl, -⟩ |
      ⟨s', seg, rest, rfl, -, -, rfl, -⟩ | ⟨s', err, rfl, rfl, -⟩
    · cases hs
      exact not_spoiled_op hr hwhole (h s' c)
    · exact h s c
    · exact h s c
    · exact h s c
  · rw [if_neg hs]
    exact h s c

/-- A delivery of a step is one of the past or the step's own. -/
theorem mem_deliveries {result : Except TransportError Unit}
    (hmem : result ∈ deliveries s (trace ++ [(ev, obs)])) (hstep : Link.step l ev = some (l', obs)) :
    result ∈ deliveries s trace ∨
      ∃ seg rest, ev = .deliver s ∧ l.wire.get s.other = seg :: rest ∧
        result = (receive (l.ends.get s) seg).2 := by
  unfold deliveries at hmem ⊢
  rw [history_snoc, List.mem_append] at hmem
  refine hmem.imp (fun hpast => hpast) fun hnow => ?_
  clear hmem
  by_cases hs : ev.side = s
  · rw [if_pos hs] at hnow
    rcases step_cases hstep with ⟨s', o, r, rfl, hr, rfl, -⟩ | ⟨s', seg, e', rfl, -, rfl, -⟩ |
      ⟨s', seg, rest, rfl, hwire, -, rfl, -⟩ | ⟨s', err, rfl, rfl, -⟩
    · have hshows := Endpoint.perform_shows hr
      generalize r.2 = shown at hnow hshows
      cases shown with
      | delivered result' => cases o <;> cases hshows
      | _ => cases hnow
    · cases hnow
    · cases hs
      exact ⟨seg, rest, rfl, hwire, List.mem_singleton.mp hnow⟩
    · cases hnow
  · rw [if_neg hs] at hnow
    cases hnow

/-- A conforming delivery is not refused. -/
theorem accepted (h : Safe cfg trace l) (hclean : Unspoiled trace)
    (hok : conforming trace l (.deliver s) = true) {seg : Segment} {rest : List Segment}
    (hwire : l.wire.get s.other = seg :: rest) : (receive (l.ends.get s) seg).2 = .ok () := by
  have hout := h.outcome hwire
  cases hresult : (receive (l.ends.get s) seg).2 with
  | ok u => rfl
  | error err =>
      exfalso
      have hrefusal := hout.refusal err hresult
      have hspoiled : (absEnd s.other seg.channel l trace).spoiled = false := hclean _ _
      unfold conforming at hok
      rw [Bool.and_eq_true, Bool.and_eq_true] at hok
      obtain ⟨⟨-, hroom⟩, hchannel⟩ := hok
      unfold findsRoom at hroom
      unfold findsChannel at hchannel
      simp only [hwire] at hroom hchannel
      cases hrefusal with
      | full hopen hnew hfull =>
          rw [← (h.wf s).cfg_eq] at hfull
          rw [hopen] at hroom
          simp [Segment.open, Nat.not_lt.mpr hfull] at hroom
      | @forgotten id body hopen hforgot hgone hold =>
          have hmap : (l.ends.get s).channels.contains id = false := contains_eq_false.mpr hgone
          rw [hopen] at hchannel
          simp [Segment.data, hmap, hforgot] at hchannel
      | garbled hbad _ =>
          change (absEnd s.other _ l trace).spoiled = true at hbad
          rw [hspoiled] at hbad
          cases hbad

theorem runs_unspoiled (hinit : spawn cfg = .ok l₀)
    (hrun : Runs (fun trace l ev => conforming trace l ev) l₀ trace l) :
    Safe cfg trace l ∧ Unspoiled trace ∧ ∀ s, ∀ result ∈ deliveries s trace, result = .ok () := by
  refine hrun.invariant (fun trace l => Safe cfg trace l ∧ Unspoiled trace ∧
    ∀ s, ∀ result ∈ deliveries s trace, result = .ok ()) ?_ ?_
  · exact ⟨safe_spawn hinit, fun _ _ => rfl, fun _ _ h => nomatch h⟩
  · rintro trace l ev l' obs ⟨hsafe, hclean, hall⟩ hok hstep
    have hparts := hok
    unfold conforming at hparts
    simp only [Bool.and_eq_true] at hparts
    obtain ⟨⟨⟨hfresh, hwhole⟩, -⟩, -⟩ := hparts
    refine ⟨hsafe.step hfresh hstep, hclean.step hwhole hstep, ?_⟩
    intro s result hmem
    rcases mem_deliveries hmem hstep with hmem | ⟨seg, rest, rfl, hwire, rfl⟩
    · exact hall s result hmem
    · exact accepted hsafe hclean hok hwire

/-- **A conforming link delivers.**  In every run whose steps are conforming,
no side ever refuses a segment of its peer. -/
theorem runs_accepted (hinit : spawn cfg = .ok l₀)
    (hrun : Runs (fun trace l ev => conforming trace l ev) l₀ trace l) (s : Role) :
    ∀ result ∈ deliveries s trace, result = .ok () :=
  (runs_unspoiled hinit hrun).2.2 s

/-- A channel opened and accepted, a frame sent, received and credited. -/
theorem runs_accepted_frame :
    ∃ l₀ trace l, spawn smallest = .ok l₀ ∧
      Runs (fun trace l ev => conforming trace l ev) l₀ trace l ∧
      deliveries .responder trace = [.ok (), .ok ()] ∧
      ∀ result ∈ deliveries .responder trace, result = .ok () := by
  obtain ⟨l₀, hspawn, hrun⟩ := @runs_of_exec (fun trace l ev => conforming trace l ev) _ smallest
    [.op .initiator .openBi, .op .initiator (.sendStart 0 dot), .op .initiator (.sendStep 0),
      .op .initiator (.sendStep 0), .take .initiator, .take .initiator, .deliver .responder,
      .deliver .responder, .op .responder .acceptBi, .op .responder (.recvPop 0),
      .op .responder (.recvCredit 0), .take .responder, .deliver .initiator] _ _ rfl
  exact ⟨l₀, _, _, hspawn, hrun, rfl, runs_accepted hspawn hrun .responder⟩

end Link

end Mux
