import GoNomad.Transport.WireRefines

/-!
# Reliable delivery over the byte streams

`ordered_delivery` carries the results about the link of segments over to the
bytes: what `recv` returns is a beginning of what was sent, and it reports the
end of a channel only after everything.  `foreign_frame` says why opens must
take fresh ids for it: after the id space has wrapped, a frame that was sent on
an old channel is received on a new one.
-/

namespace Mux

open Proto Transport

namespace Wire

variable {κ : Type} {noise : Noise κ} {Paired : κ → κ → Prop} {w : Wire κ} {s : Role}
variable {cfg : MuxConfig} {sending receiving : Sides κ} {w₀ : Wire κ} {trace : Trace}

/-! ### Runs -/

/-- What a trace is on the link of segments. -/
def onLink (trace : Trace) : Link.Trace := trace.filterMap shows

/-- **A run over bytes is a run over segments.** -/
theorem runs_link (hlaw : noise.Lawful Paired)
    (hkeys : ∀ s : Role, Paired (sending.get s) (receiving.get s.other))
    (hinit : spawn cfg sending receiving = .ok w₀)
    (hrun : Runs noise (fun trace w ev => freshIds trace w ev) w₀ trace w) :
    ∃ l₀ l, Link.spawn cfg = .ok l₀ ∧
      Link.Runs (fun trace l ev => Link.freshIds trace l ev) l₀ (onLink trace) l ∧
      l.ends = w.ends := by
  obtain ⟨l₀, hspawn, hrel⟩ := spawn_refines noise hkeys hinit
  have hsim : ∃ l, Link.Runs (fun trace l ev => Link.freshIds trace l ev) l₀ (onLink trace) l ∧
      Refines noise Paired w l := by
    refine hrun.simulates shows (Refines noise Paired) hrel ?_
    intro trace w ev w' obs l h hfresh hstep
    have hmatched := h.step hlaw hstep
    unfold Matched at hmatched
    split
    · next hshows =>
        rw [hshows] at hmatched
        exact hmatched
    · next ev' obs' hshows =>
        rw [hshows] at hmatched
        refine ⟨?_, hmatched⟩
        cases ev with
        | op s o =>
            cases hshows
            cases o with
            | openBi =>
                unfold freshIds at hfresh
                unfold Link.freshIds
                dsimp only at hfresh ⊢
                rw [h.ends]
                exact hfresh
            | _ => rfl
        | gather s => cases hshows; rfl
        | handle s => cases hshows; rfl
        | sealFails s err => cases hshows; rfl
        | writeFails s => cases hshows; rfl
        | readFails s err => cases hshows; rfl
        | _ => cases hshows
  obtain ⟨l, hlink, hrefines⟩ := hsim
  exact ⟨l₀, l, hspawn, hlink, hrefines.ends⟩

/-- What the two applications may rely on for the direction of channel `c` from
side `s`: what `recv` returned is a beginning of what was started, and when the
link is up and `recv` has reported the end of a channel its side had not left,
it had returned every frame that was ever completed. -/
def Reliable (w : Wire κ) (trace : Trace) (s : Role) (c : ChannelId) : Prop :=
  Link.received s.other c (onLink trace) <+: Link.started s c (onLink trace) ∧
    ((w.ends.get s).closed = false → (w.ends.get s.other).closed = false → ∀ before i after,
      trace = before ++ (.op s.other (.recvEnd i), .ended c) :: after →
      Link.left s.other c (onLink before) = false →
        Link.completed s c (onLink trace) <+: Link.received s.other c (onLink before))

/-- **Reliable ordered delivery over the byte streams**, as long as opens take
fresh ids, on every direction without cancelled sends. -/
theorem ordered_delivery (hlaw : noise.Lawful Paired)
    (hkeys : ∀ s : Role, Paired (sending.get s) (receiving.get s.other))
    (hinit : spawn cfg sending receiving = .ok w₀)
    (hrun : Runs noise (fun trace w ev => freshIds trace w ev) w₀ trace w) (s : Role)
    (c : ChannelId) (hclean : Link.cancelled s c (onLink trace) = []) : Reliable w trace s c := by
  obtain ⟨l₀, l, hspawn, hlink, hends⟩ := runs_link hlaw hkeys hinit hrun
  obtain ⟨hordered, hconcluded⟩ := Link.runs_ordered hspawn hlink
  refine ⟨hordered s c hclean, fun hhere hthere before i after htrace hleft => ?_⟩
  rw [← hends] at hhere hthere
  have hsplit : onLink trace = onLink before ++
      (.op s.other (.recvEnd i), .ended c) :: onLink after := by
    rw [htrace]
    unfold onLink
    rw [List.filterMap_append]
    rfl
  exact (hconcluded s c hclean hhere hthere _ i _ hsplit hleft).2

/-! ### A session that hides nothing -/

/-- A session whose messages are the plaintexts and an empty tag; its state
counts them. -/
def bare : Noise Nat where
  writeMessage k plaintext := .ok (plaintext ++ List.replicate noiseTagLen 0, k + 1)
  readMessage k sealed := .ok (sealed.take (sealed.length - noiseTagLen), k + 1)

theorem bare_lawful : bare.Lawful (· = ·) where
  read := by
    rintro w _ plaintext sealed w' rfl hwrite
    cases hwrite
    refine ⟨w + 1, ?_, rfl⟩
    unfold bare
    dsimp only
    rw [List.length_append, List.length_replicate, Nat.add_sub_cancel, List.take_left]
  length := by
    intro w plaintext sealed w' hwrite
    cases hwrite
    rw [List.length_append, List.length_replicate]

/-- The keys at the start of a session. -/
def freshKeys : Sides Nat := ⟨0, 0⟩

/-- Executing events on two fresh ends makes a run. -/
theorem runs_of_exec {ok : Trace → Wire Nat → Event → Prop}
    [∀ trace w ev, Decidable (ok trace w ev)] (cfg : MuxConfig) (events : List Event)
    {trace : Trace} {w : Wire Nat}
    (h : (spawn cfg freshKeys freshKeys).toOption.bind
      (Transition.exec (step bare) ok events []) = some (trace, w)) :
    ∃ w₀, spawn cfg freshKeys freshKeys = .ok w₀ ∧ Runs bare ok w₀ trace w := by
  cases hspawn : spawn cfg freshKeys freshKeys with
  | error err =>
      rw [hspawn] at h
      cases h
  | ok w₀ =>
      rw [hspawn] at h
      exact ⟨w₀, rfl, Transition.run_of_exec events h⟩

/-- One frame, and the end of the channel behind it, in one batch that the
socket takes in two pieces and the reader in four. -/
def oneFrame : List Event :=
  [.op .initiator .openBi, .op .initiator (.sendStart 0 Link.dot), .op .initiator (.sendStep 0),
    .op .initiator (.sendStep 0), .op .initiator (.finish 0), .gather .initiator,
    .sealNext .initiator, .gather .initiator, .sealNext .initiator, .gather .initiator,
    .sealNext .initiator, .flush .initiator, .write .initiator 30, .write .initiator 45,
    .read .responder 1, .read .responder 28, .handle .responder, .read .responder 40,
    .handle .responder, .read .responder 6, .handle .responder, .op .responder .acceptBi,
    .op .responder (.recvPop 0), .op .responder (.recvCredit 0), .op .responder (.recvEnd 0)]

/-- The frame is received before the end is reported. -/
theorem ordered_delivery_frame :
    ∃ w₀ trace w, spawn Link.smallest freshKeys freshKeys = .ok w₀ ∧
      Runs bare (fun trace w ev => freshIds trace w ev) w₀ trace w ∧
      Link.received .responder 0 (onLink trace) <+: Link.started .initiator 0 (onLink trace) ∧
      ∃ before after, trace = before ++ (.op .responder (.recvEnd 0), .ended 0) :: after ∧
        Link.completed .initiator 0 (onLink trace) = [Link.dot] ∧
        Link.completed .initiator 0 (onLink trace) <+:
          Link.received .responder 0 (onLink before) := by
  obtain ⟨w₀, hspawn, hrun⟩ := @runs_of_exec (fun trace w ev => freshIds trace w ev) _
    Link.smallest oneFrame _ _ rfl
  have hdelivered := ordered_delivery bare_lawful (fun s => by cases s <;> rfl) hspawn hrun
    .initiator 0 rfl
  exact ⟨w₀, _, _, hspawn, hrun, hdelivered.1, _, [], rfl, rfl,
    hdelivered.2 rfl rfl _ 0 [] rfl rfl⟩

/-! ### An id that comes back -/

/-- The greeting of `Link.greeting`, over bytes. -/
def greeting : List Event :=
  [.op .initiator .openBi, .gather .initiator, .sealNext .initiator, .flush .initiator,
    .write .initiator 23, .read .responder 23, .handle .responder, .op .responder .acceptBi,
    .op .responder (.sendStart 0 Link.dash), .op .responder (.sendStep 0),
    .op .responder (.sendStep 0), .gather .responder, .sealNext .responder, .flush .responder,
    .write .responder 29, .read .initiator 29, .handle .initiator,
    .op .initiator (.sendStart 0 Link.dot), .op .initiator (.sendStep 0),
    .op .initiator (.sendStep 0), .gather .initiator, .sealNext .initiator, .flush .initiator,
    .write .initiator 29, .read .responder 29, .handle .responder]

/-- The responder sends another frame, up to the initiator's buffer. -/
def another : List Event :=
  [.op .responder (.sendStart 0 Link.dot), .op .responder (.sendStep 0),
    .op .responder (.sendStep 0), .gather .responder, .sealNext .responder, .flush .responder,
    .write .responder 29, .read .initiator 29]

/-- What the initiator's reader finds when the other frame has arrived. -/
structure Arrived (e : Endpoint) (w : Wire Nat) : Prop where
  ends : w.ends.get .initiator = e
  running : (w.reader.get .initiator).running = true
  front : ∃ sealed, front (w.reader.get .initiator).pending = .record sealed [] ∧
    bare.readMessage (w.reader.get .initiator).cipher sealed =
      .ok ((Segment.data controlChannel Link.dot.encode).encode, 2)

/-- The greeting, and that the responder can send another frame whatever
becomes of the initiator's endpoint. -/
theorem greeted :
    ∃ w₀ trace w more, spawn Link.lone freshKeys freshKeys = .ok w₀ ∧
      Runs bare Transition.unguarded w₀ trace w ∧
      Endpoint.Cycled Link.lone [] [] 0 (w.ends.get .initiator) ∧
      Endpoint.Holding 0 (w.ends.get .initiator) ∧
      (w.ends.get .initiator).nextLocal = UInt32.ofNat (2 * (0 + 1)) ∧
      (∀ e, ∃ w', Runs bare Transition.unguarded { w with ends := w.ends.set .initiator e } more w' ∧
        Arrived e w') ∧
      Link.started .responder controlChannel (onLink trace) = [Link.dash] ∧
      Link.started .responder controlChannel (onLink more) = [Link.dot] ∧
      Link.cancelled .responder controlChannel (onLink trace) = [] ∧
      Link.cancelled .responder controlChannel (onLink more) = [] ∧
      Link.received Role.responder.other controlChannel (onLink trace) = [] ∧
      Link.received Role.responder.other controlChannel (onLink more) = [] := by
  obtain ⟨w₀, hspawn, hrun⟩ := @runs_of_exec Transition.unguarded _ Link.lone greeting _ _ rfl
  refine ⟨w₀, _, _, _, hspawn, hrun, ⟨rfl, rfl, rfl, rfl, ?_, rfl, rfl⟩,
    ⟨rfl, rfl, 0, _, rfl, rfl, rfl, rfl⟩, rfl, fun e => ⟨_, Transition.run_of_exec another rfl, rfl,
      rfl, _, rfl, rfl⟩, rfl, rfl, rfl, rfl, rfl, rfl⟩
  intro c hc
  change (∅ : Std.ExtTreeSet ChannelId).contains c = true at hc
  rw [Std.ExtTreeSet.contains_empty] at hc
  cases hc

/-- An end may go on by itself. -/
theorem runs_performs {noise : Noise κ} (hrun : Runs noise Transition.unguarded w₀ trace w)
    {shown : List (Endpoint.LocalOp × Endpoint.Obs)} {e : Endpoint}
    (h : Endpoint.Performs (w.ends.get s) shown e) :
    Runs noise Transition.unguarded w₀
      (trace ++ shown.map fun entry => (.op s entry.1, entry.2))
      { w with ends := w.ends.set s e } := by
  have hembed : Runs noise Transition.unguarded { w with ends := w.ends.set s (w.ends.get s) }
      (shown.map fun entry => (.op s entry.1, entry.2)) { w with ends := w.ends.set s e } := by
    refine h.embed (fun e => { w with ends := w.ends.set s e }) (Event.op s) ?_
    intro e o e' obs hr
    unfold step
    dsimp only
    rw [Sides.get_set_self, hr]
    dsimp only [Option.bind_eq_bind, Option.bind_some, pure]
    rw [Sides.set_set]
  rw [Sides.set_get] at hembed
  exact hrun.trans hembed

/-- The initiator's reader hands the other frame to whatever channel has the id
now, and its application receives it. -/
theorem arrived_received {e e₁ e₂ e₃ : Endpoint} {w : Wire Nat} {i : Nat} (h : Arrived e w)
    (hreceive : Link.receive e (.data controlChannel Link.dot.encode) = (e₁, .ok ()))
    (hpop : e₁.perform (.recvPop i) = some (e₂, .silent))
    (hcredit : e₂.perform (.recvCredit i) = some (e₃, .received controlChannel Link.dot)) :
    ∃ w', Runs bare Transition.unguarded w
      [(.handle .initiator, .delivered (.ok ())), (.op .initiator (.recvPop i), .silent),
        (.op .initiator (.recvCredit i), .received controlChannel Link.dot)] w' := by
  obtain ⟨sealed, hfront, hread⟩ := h.front
  have hdrain : drainRecord bare e (w.reader.get .initiator) =
      some (e₁, ⟨[], 2, true⟩, .ok ()) := by
    unfold drainRecord
    rw [hfront]
    dsimp only
    rw [hread]
    dsimp only
    rw [show dispatch e (Segment.data controlChannel Link.dot.encode).encode =
      Link.receive e (.data controlChannel Link.dot.encode) from rfl, hreceive]
  have hhandle : step bare w (.handle .initiator) =
      some ({ w with
        ends := w.ends.set .initiator e₁
        reader := w.reader.set .initiator ⟨[], 2, true⟩ }, .delivered (.ok ())) := by
    unfold step
    dsimp only
    rw [if_pos h.running, h.ends, hdrain]
    rfl
  have hops : Endpoint.Performs e₁ [(.recvPop i, .silent),
      (.recvCredit i, .received controlChannel Link.dot)] e₃ :=
    (Transition.Run.nil.snoc trivial hpop).snoc trivial hcredit
  exact ⟨_, runs_performs (s := .initiator) (Transition.Run.nil.snoc trivial hhandle) hops⟩

/-- What an end did by itself, on the link. -/
theorem onLink_alone (shown : List (Endpoint.LocalOp × Endpoint.Obs)) :
    onLink (shown.map fun entry => (.op s entry.1, entry.2)) = Link.alone s shown := by
  unfold onLink Link.alone
  rw [List.filterMap_map]
  induction shown with
  | nil => rfl
  | cons entry shown ih =>
      rw [List.map_cons, ← ih]
      rfl

/-- Of opens and finishes in between no history that selects neither says
anything. -/
theorem history_around {β : Type} {sel : Endpoint.Obs → Option β} {side : Role}
    {shown : List (Endpoint.LocalOp × Endpoint.Obs)} (hidle : Endpoint.Idle shown)
    (hsel : ∀ id, sel (.opened id) = none) (hsel' : ∀ err, sel (.openFailed err) = none)
    (hsel'' : ∀ id closed, sel (.sendDropped id closed) = none) {more last : Trace} :
    Link.history sel side (onLink
        (trace ++ (shown.map fun entry => (Event.op s entry.1, entry.2)) ++ more ++ last)) =
      Link.history sel side (onLink trace) ++ Link.history sel side (onLink more) ++
        Link.history sel side (onLink last) := by
  have halone := Link.history_alone s side hidle hsel hsel' hsel''
  rw [← onLink_alone] at halone
  unfold onLink at halone ⊢
  rw [List.filterMap_append, List.filterMap_append, List.filterMap_append, Link.history_append,
    Link.history_append, Link.history_append, halone, List.append_nil]

/-- **A frame of another channel.**  The initiator's id space has wrapped while
the responder still has the old channel 0; what the responder sends there is
received on the new one, where it was never sent. -/
theorem foreign_frame :
    ¬ ∀ (κ : Type) (noise : Noise κ) (Paired : κ → κ → Prop), noise.Lawful Paired →
      ∀ (cfg : MuxConfig) (sending receiving : Sides κ),
        (∀ s : Role, Paired (sending.get s) (receiving.get s.other)) →
        ∀ w₀, spawn cfg sending receiving = .ok w₀ →
          ∀ trace w, Runs noise Transition.unguarded w₀ trace w →
            ∀ s c, Link.cancelled s c (onLink trace) = [] → Reliable w trace s c := by
  intro h
  obtain ⟨w₀, trace, w, more, hspawn, hrun, hcycled, hholding, hnext, hmore, hstarted, hstarted',
    hclean, hclean', hreceived, hreceived'⟩ := greeted
  obtain ⟨e₁, i, closed, hfinish, hcycled₁, hbetween⟩ := hcycled.next hholding hnext (by decide)
  obtain ⟨shown, e₂, e₃, hidle, hperforms, hopen, hwrapped⟩ := hcycled₁.wrap hbetween rfl
  have hperformed := (Transition.Run.nil.snoc trivial hfinish).trans (hperforms.snoc trivial hopen)
  have halone : Endpoint.Idle ([] ++ [(.finish i, .sendDropped (UInt32.ofNat (2 * 0)) closed)] ++
      (shown ++ [(.openBi, .opened controlChannel)])) :=
    (Endpoint.Idle.nil.append (.single trivial)).append (hidle.append (.single trivial))
  obtain ⟨w₁, hmore, harrived⟩ := hmore e₃
  obtain ⟨e₄, e₅, e₆, j, hreceive, hpop, hcredit⟩ := Link.wrapped_takes hwrapped
  obtain ⟨w₂, hlast⟩ := arrived_received harrived hreceive hpop hcredit
  have hall := ((runs_performs hrun hperformed).trans hmore).trans hlast
  have hreliable := h Nat bare (· = ·) bare_lawful Link.lone freshKeys freshKeys
    (fun s => by cases s <;> rfl) w₀ hspawn _ _ hall .responder controlChannel ?_
  · have hprefix := hreliable.1
    unfold Link.started at hprefix hstarted hstarted'
    unfold Link.received at hprefix hreceived hreceived'
    rw [history_around halone (fun _ => rfl) (fun _ => rfl) fun _ _ => rfl,
      history_around halone (fun _ => rfl) (fun _ => rfl) fun _ _ => rfl, hstarted, hstarted',
      hreceived, hreceived'] at hprefix
    change [Link.dot] <+: [Link.dash, Link.dot] at hprefix
    exact absurd hprefix (by decide)
  · unfold Link.cancelled at hclean hclean' ⊢
    rw [history_around halone (fun _ => rfl) (fun _ => rfl) fun _ _ => rfl, hclean, hclean']
    rfl

end Wire

end Mux
