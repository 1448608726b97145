import GoNomad.Transport.Drained
import GoNomad.Transport.Intake

/-!
# A finished transfer and a broken one

`recv` tells its caller that a channel has ended, or that the link broke.
`truncated_finished` shows that the first answer does not say that the transfer
was complete: the part of a frame that had arrived is dropped with its channel,
and an end that closes the link drops what it had queued.  `recv_finished` says
in which runs the answer can be relied on.
-/

namespace Mux

open Proto Transport

/-! ### What the answer should say -/

/-- What `recv` may report of a stream without a frame left: an end, when every
byte that arrived belongs to a frame it has returned, or an error. -/
def Intake.Truthful (i : Nat) (trace : Intake.Trace) (obs : Endpoint.Obs) : Prop :=
  (∃ id, obs = .ended id ∧
    Intake.arrivedOn i trace = Frame.code.encAll (Intake.returnedOn i trace)) ∨
    ∃ id err, obs = .recvFailed id err

/-- When `recv` reports the end of channel `c`, which its own side has closed
neither by itself nor with the link, every frame completed at side `s` has been
returned. -/
def Link.Finished (s : Role) (c : ChannelId) (trace : Link.Trace) (l : Link) : Prop :=
  ∀ i e', (l.ends.get s.other).perform (.recvEnd i) = some (e', .ended c) →
    Link.left s.other c trace = false → (∀ o, (.op s.other .close, o) ∉ trace) →
      (Link.completed s c trace).Sublist (Link.received s.other c trace)

/-! ### Steps that end nothing -/

namespace Intake

/-- A step that ends no channel with a part of a frame waiting. -/
def ordinary (_ : Trace) (e : Endpoint) : Hostile.Event → Bool
  | .op .close | .op (.finish _) | .op (.dropSend _) | .op (.dropRecv _) => false
  | .op _ | .takeNext => true
  | .segment (a :: b :: c :: d :: _ :: _) =>
      !halfway e (BigEndian.toU32 a b c d) && !e.closed &&
        !e.retired.contains (BigEndian.toU32 a b c d)
  | .segment _ => true
  | .shutdown _ => false

theorem whole_of_ordinary {trace : Trace} {e : Endpoint} {event : Hostile.Event}
    (h : ordinary trace e event = true) : Whole trace e event := by
  cases event with
  | op o =>
      cases o with
      | finish i => cases h
      | dropSend i => cases h
      | dropRecv i => cases h
      | close => cases h
      | _ => exact fun c hc => by cases hc
  | takeNext => trivial
  | shutdown err => cases h
  | segment bytes =>
      rcases bytes with - | ⟨a, - | ⟨b, - | ⟨c, - | ⟨d, - | ⟨kind, body⟩⟩⟩⟩⟩
      iterate 5 exact trivial
      unfold ordinary at h
      simp only [Bool.and_eq_true, Bool.not_eq_true'] at h
      obtain ⟨⟨hwhole, hopen⟩, hnew⟩ := h
      exact ⟨fun _ => hwhole, fun _ _ => ⟨fun hclosed => by simp [hopen] at hclosed,
        fun _ => hnew⟩⟩

/-- The peer opens a channel, sends a frame on it and finishes it. -/
def served : List Hostile.Event :=
  [.segment (Segment.open controlChannel).encode, .op .acceptBi,
    .segment (Segment.data controlChannel Link.dash.encode).encode, .op (.recvPop 0),
    .op (.recvCredit 0), .segment (Segment.reset controlChannel).encode]

end Intake

namespace Link

/-- A step at which neither end goes away. -/
def staysUp (trace : Trace) (l : Link) (ev : Event) : Bool :=
  freshIds trace l ev && !stops l ev .initiator && !stops l ev .responder

theorem emptied_of_staysUp {trace : Trace} {l : Link} {ev : Event} (h : staysUp trace l ev = true) :
    Emptied trace l ev := by
  unfold staysUp at h
  simp only [Bool.and_eq_true, Bool.not_eq_true'] at h
  obtain ⟨⟨hfresh, hinitiator⟩, hresponder⟩ := h
  have hnone : ∀ s, stops l ev s = false := fun s => by
    cases s
    · exact hinitiator
    · exact hresponder
  refine ⟨hfresh, fun s hstops => ?_, ?_⟩
  · rw [hnone s] at hstops
    cases hstops
  · intro s err hev _ hopen
    have hstops := hnone s
    subst hev
    unfold stops Link.step at hstops
    simp [hopen, Arrival.closed_shutdown] at hstops

/-- No data is queued when none is in the map of queues. -/
theorem dataless_queues {e : Endpoint}
    (h : (e.out.toList.all fun entry => dataless entry.2) = true) (c : ChannelId) :
    dataless (e.queue c) = true := by
  unfold Endpoint.queue
  cases hqueue : e.out[c]? with
  | none => rfl
  | some segs =>
      have hmem := Std.ExtTreeMap.mem_toList_iff_getElem?_eq_some.mpr hqueue
      exact List.all_eq_true.mp h _ hmem

/-- A frame is sent and read. -/
def sentAndRead : List Event :=
  [.op .initiator .openBi, .op .initiator (.sendStart 0 dot), .op .initiator (.sendStep 0),
    .op .initiator (.sendStep 0), .take .initiator, .take .initiator, .deliver .responder,
    .deliver .responder, .op .responder .acceptBi, .op .responder (.recvPop 0),
    .op .responder (.recvCredit 0)]

end Link

/-! ### A channel that was finished -/

/-- **A channel is reported finished only when it is**: with any peer, in runs
in which no channel ends in the middle of a frame without an error, and between
two ends of this build in runs in which no data is left behind, on directions
on which no frame was torn. -/
theorem recv_finished (cfg : MuxConfig) :
    (∀ (s : Role) (e₀ : Endpoint), Endpoint.spawn cfg s = .ok e₀ → ∀ trace e,
      Transition.Run Intake.step Intake.Whole e₀ trace e →
        ∀ i r, e.perform (.recvEnd i) = some r → Intake.Truthful i trace r.2) ∧
      ∀ l₀, Link.spawn cfg = .ok l₀ → ∀ trace l, Link.Runs Link.Emptied l₀ trace l →
        ∀ s c, Link.torn s c trace = false → Link.Finished s c trace l := by
  constructor
  · intro s e₀ hinit trace e hrun i r hr
    exact Intake.recvEnd_of_run hinit hrun hr
  · intro l₀ hinit trace l hrun s c htorn i e' hr hleft hnot
    exact Link.drained_of_run hinit hrun hr hleft hnot htorn

/-- A frame of a peer that finishes the channel behind it, and one of a peer
that goes away once the frame is sent. -/
theorem recv_finished_frame :
    (∃ (e₀ : Endpoint) (trace : Intake.Trace) (e : Endpoint),
      Endpoint.spawn Link.lone .responder = .ok e₀ ∧
        Transition.Run Intake.step Intake.Whole e₀ trace e ∧
        e.perform (.recvEnd 0) = some (e, .ended controlChannel) ∧
        Intake.arrivedOn 0 trace = Link.dash.encode ∧
        Intake.Truthful 0 trace (.ended controlChannel)) ∧
      ∃ (l₀ : Link) (trace : Link.Trace) (l : Link), Link.spawn Link.lone = .ok l₀ ∧
        Link.Runs Link.Emptied l₀ trace l ∧ (l.ends.get .initiator).closed = true ∧
        (l.ends.get .responder).perform (.recvEnd 0) =
          some (l.ends.get .responder, .ended controlChannel) ∧
        Link.completed .initiator controlChannel trace = [Link.dot] ∧
        Link.Finished .initiator controlChannel trace l := by
  obtain ⟨hpeer, hconforming⟩ := recv_finished Link.lone
  constructor
  · obtain ⟨e₀, trace, e, hinit, hexec, hend, harrived⟩ : ∃ e₀ trace e,
        Endpoint.spawn Link.lone .responder = .ok e₀ ∧
          Transition.exec Intake.step (fun trace e ev => Intake.ordinary trace e ev = true)
            Intake.served [] e₀ = some (trace, e) ∧
          e.perform (.recvEnd 0) = some (e, .ended controlChannel) ∧
          Intake.arrivedOn 0 trace = Link.dash.encode := ⟨_, _, _, rfl, rfl, rfl, rfl⟩
    have hrun := (Transition.run_of_exec Intake.served hexec).mono
      fun _ _ _ => Intake.whole_of_ordinary
    exact ⟨e₀, trace, e, hinit, hrun, hend, harrived,
      hpeer .responder e₀ hinit trace e hrun 0 _ hend⟩
  · obtain ⟨l₀, trace, l, hinit, hexec, hqueues, l₁, o₁, hclose, hqueues₁, hclosed₁, hwire₁, l₂, o₂,
      hlose, hclosed, hend, hcompleted, htorn⟩ : ∃ l₀ trace l, Link.spawn Link.lone = .ok l₀ ∧
        Transition.exec Link.step (fun trace l ev => Link.staysUp trace l ev = true)
          Link.sentAndRead [] l₀ = some (trace, l) ∧
        (∀ s, ((l.ends.get s).out.toList.all fun entry => Link.dataless entry.2) = true) ∧
        ∃ l₁ o₁, Link.step l (.op .initiator .close) = some (l₁, o₁) ∧
          (∀ s, ((l₁.ends.get s).out.toList.all fun entry => Link.dataless entry.2) = true) ∧
          (l₁.ends.get .initiator).closed = true ∧
          Link.dataless (l₁.wire.get .initiator) = true ∧
          ∃ l₂ o₂, Link.step l₁ (.lose .responder none) = some (l₂, o₂) ∧
            (l₂.ends.get .initiator).closed = true ∧
            (l₂.ends.get .responder).perform (.recvEnd 0) =
              some (l₂.ends.get .responder, .ended controlChannel) ∧
            Link.completed .initiator controlChannel (trace ++ [(.op .initiator .close, o₁)] ++
              [(.lose .responder none, o₂)]) = [Link.dot] ∧
            Link.torn .initiator controlChannel (trace ++ [(.op .initiator .close, o₁)] ++
              [(.lose .responder none, o₂)]) = false :=
      ⟨_, _, _, rfl, rfl, fun s => by cases s <;> rfl, _, _, rfl, fun s => by cases s <;> rfl, rfl,
        rfl, _, _, rfl, rfl, rfl, rfl, rfl⟩
    have hrun := (Transition.run_of_exec Link.sentAndRead hexec).mono
      fun _ _ _ => Link.emptied_of_staysUp
    have hgoes : Link.Emptied trace l (.op .initiator .close) :=
      ⟨rfl, fun s _ _ => Link.dataless_queues (hqueues s), fun s err hev => by cases hev⟩
    have heof : Link.Emptied (trace ++ [(.op .initiator .close, o₁)]) l₁
        (.lose .responder none) := by
      refine ⟨rfl, fun s _ _ => Link.dataless_queues (hqueues₁ s), fun s err hev _ _ => ?_⟩
      cases hev
      exact ⟨hclosed₁, hwire₁⟩
    have hall := (hrun.snoc hgoes hclose).snoc heof hlose
    exact ⟨l₀, _, l₂, hinit, hall, hclosed, hend, hcompleted,
      hconforming l₀ hinit _ _ hall .initiator controlChannel htorn⟩

/-! ### A channel that was not -/

/-- The peer resets the channel three bytes into a frame of six. -/
def Intake.cutShort : List Hostile.Event :=
  [.segment (Segment.open controlChannel).encode, .op .acceptBi,
    .segment (Segment.data controlChannel (Link.dash.encode.take 3)).encode,
    .segment (Segment.reset controlChannel).encode]

/-- A send completes, and its side closes the link before the writer has picked
the data. -/
def Link.closedEarly : List Link.Event :=
  [.op .initiator .openBi, .take .initiator, .deliver .responder, .op .responder .acceptBi,
    .op .initiator (.sendStart 0 Link.dot), .op .initiator (.sendStep 0),
    .op .initiator (.sendStep 0), .op .initiator .close, .lose .responder none]

/-- **A truncated transfer that is reported finished**, with a peer that resets
the channel in the middle of a frame and with one that closes the link behind a
completed send. -/
theorem truncated_finished :
    (¬ ∀ (cfg : MuxConfig) (s : Role) (e₀ : Endpoint), Endpoint.spawn cfg s = .ok e₀ →
      ∀ trace e, Transition.Run Intake.step Transition.unguarded e₀ trace e →
        ∀ i r, e.perform (.recvEnd i) = some r → Intake.Truthful i trace r.2) ∧
      ¬ ∀ (cfg : MuxConfig) (l₀ : Link), Link.spawn cfg = .ok l₀ →
        ∀ trace l, Link.Runs Transition.unguarded l₀ trace l →
          ∀ s c, Link.torn s c trace = false → Link.Finished s c trace l := by
  constructor
  · intro h
    obtain ⟨e₀, trace, e, hinit, hexec, hend, harrived, hreturned⟩ : ∃ e₀ trace e,
        Endpoint.spawn Link.lone .responder = .ok e₀ ∧
          Transition.exec Intake.step Transition.unguarded Intake.cutShort [] e₀ =
            some (trace, e) ∧
          e.perform (.recvEnd 0) = some (e, .ended controlChannel) ∧
          Intake.arrivedOn 0 trace = Link.dash.encode.take 3 ∧
          Intake.returnedOn 0 trace = [] := ⟨_, _, _, rfl, rfl, rfl, rfl, rfl⟩
    rcases h Link.lone .responder e₀ hinit trace e (Transition.run_of_exec _ hexec) 0 _ hend with
      ⟨-, -, hall⟩ | ⟨id, err, herr⟩
    · rw [harrived, hreturned] at hall
      exact absurd hall (by decide)
    · cases herr
  · intro h
    obtain ⟨l₀, trace, l, hinit, hexec, hend, hleft, hnot, htorn, hcompleted, hreceived⟩ :
        ∃ l₀ trace l, Link.spawn Link.lone = .ok l₀ ∧
          Transition.exec Link.step Transition.unguarded Link.closedEarly [] l₀ =
            some (trace, l) ∧
          (l.ends.get .responder).perform (.recvEnd 0) =
            some (l.ends.get .responder, .ended controlChannel) ∧
          Link.left .responder controlChannel trace = false ∧
          (trace.map Prod.fst).contains (.op .responder .close) = false ∧
          Link.torn .initiator controlChannel trace = false ∧
          Link.completed .initiator controlChannel trace = [Link.dot] ∧
          Link.received .responder controlChannel trace = [] :=
      ⟨_, _, _, rfl, rfl, rfl, rfl, rfl, rfl, rfl, rfl⟩
    have hfinished := h Link.lone l₀ hinit trace l (Transition.run_of_exec _ hexec) .initiator
      controlChannel htorn 0 _ hend hleft ?_
    · change (Link.completed .initiator controlChannel trace).Sublist
        (Link.received .responder controlChannel trace) at hfinished
      rw [hcompleted, hreceived] at hfinished
      cases hfinished
    · intro o hmem
      have hclose := List.mem_map_of_mem (f := Prod.fst) hmem
      rw [List.contains_eq_mem, decide_eq_false_iff_not] at hnot
      exact hnot hclose

end Mux
