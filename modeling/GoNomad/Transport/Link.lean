import GoNomad.Lib.Run
import GoNomad.Transport.Mux

/-!
# Two endpoints and the link between them

Both ends run the same code with the same configuration.  A lossless ordered
pipe in each direction carries the segments the writers picked.  One step is an
operation of an application, a writer picking the next segment, a reader
handling the oldest segment that arrived, or the link going away under one end.
A segment the handler refuses ends that end's reader and shuts it down.

What happened so far is read off the trace: `began`, `completed`, `received`
and the others below are the histories the results are stated about.
-/

namespace Mux

open Proto Transport

/-- One value for each side. -/
structure Sides (α : Type*) where
  initiator : α
  responder : α
  deriving DecidableEq

namespace Sides

variable {α : Type*}

def get (p : Sides α) : Role → α
  | .initiator => p.initiator
  | .responder => p.responder

def set (p : Sides α) (r : Role) (a : α) : Sides α :=
  match r with
  | .initiator => { p with initiator := a }
  | .responder => { p with responder := a }

@[simp] theorem get_set_self (p : Sides α) (r : Role) (a : α) : (p.set r a).get r = a := by
  cases r <;> rfl

@[simp] theorem get_set_other (p : Sides α) (r : Role) (a : α) :
    (p.set r a).get r.other = p.get r.other := by
  cases r <;> rfl

@[simp] theorem get_other_set (p : Sides α) (r : Role) (a : α) :
    (p.set r.other a).get r = p.get r := by
  cases r <;> rfl

@[simp] theorem set_get (p : Sides α) (r : Role) : p.set r (p.get r) = p := by
  cases r <;> rfl

@[simp] theorem set_set (p : Sides α) (r : Role) (a b : α) : (p.set r a).set r b = p.set r b := by
  cases r <;> rfl

/-- A side is the one that was set or the other one. -/
theorem eq_or_other (r s : Role) : s = r ∨ s = r.other := by
  cases r <;> cases s <;> simp [Role.other]

end Sides

/-- The two ends, the segments on their way from each, and whether each end's
reader is still running. -/
structure Link where
  ends : Sides Endpoint
  wire : Sides (List Segment)
  reader : Sides Bool

namespace Link

/-- Two fresh endpoints over an idle link. -/
def spawn (cfg : MuxConfig) : Except TransportError Link := do
  let initiator ← Endpoint.spawn cfg .initiator
  let responder ← Endpoint.spawn cfg .responder
  return { ends := ⟨initiator, responder⟩, wire := ⟨[], []⟩, reader := ⟨true, true⟩ }

/-- What can happen next, and at which side. -/
inductive Event
  | op (side : Role) (o : Endpoint.LocalOp)
  /-- The writer of this side picks its next segment. -/
  | take (side : Role)
  /-- The reader of this side handles the oldest segment from its peer. -/
  | deliver (side : Role)
  /-- The socket fails under this side. -/
  | lose (side : Role) (err : Option TransportError)
  deriving DecidableEq

def Event.side : Event → Role
  | .op side _ => side
  | .take side => side
  | .deliver side => side
  | .lose side _ => side

/-- What the reader does with one segment: a violation ends the reader and the
connection. -/
def receive (e : Endpoint) (seg : Segment) : Endpoint × Except TransportError Unit :=
  match e.handleSegment seg.encode with
  | (e, .ok ()) => (e, .ok ())
  | (e, .error err) => (e.shutdown (some err), .error err)

/-- One step of the link. -/
def step (l : Link) : Event → Option (Link × Endpoint.Obs)
  | .op s o => do
      let (e, obs) ← (l.ends.get s).perform o
      return ({ l with ends := l.ends.set s e }, obs)
  | .take s => do
      let (seg, e) ← (l.ends.get s).takeNext
      return ({ l with ends := l.ends.set s e, wire := l.wire.set s (l.wire.get s ++ [seg]) },
        .taken seg)
  | .deliver s =>
      match l.wire.get s.other with
      | [] => none
      | seg :: rest =>
          if l.reader.get s then
            let (e, result) := receive (l.ends.get s) seg
            some ({ ends := l.ends.set s e
                    wire := l.wire.set s.other rest
                    reader := l.reader.set s (result matches .ok ()) }, .delivered result)
          else
            none
  | .lose s err =>
      some ({ l with ends := l.ends.set s ((l.ends.get s).shutdown err) }, .silent)

/-- A finished run: what happened, in order. -/
abbrev Trace := List (Event × Endpoint.Obs)

/-- Runs of the link under a guard on its steps. -/
abbrev Runs (ok : Trace → Link → Event → Prop) (init : Link) (trace : Trace) (l : Link) : Prop :=
  Transition.Run step ok init trace l

/-- Executing events on a fresh link makes a run. -/
theorem runs_of_exec {ok : Trace → Link → Event → Prop} [∀ trace l ev, Decidable (ok trace l ev)]
    (cfg : MuxConfig) (events : List Event) {trace : Trace} {l : Link}
    (h : (spawn cfg).toOption.bind (Transition.exec step ok events []) = some (trace, l)) :
    ∃ l₀, spawn cfg = .ok l₀ ∧ Runs ok l₀ trace l := by
  cases hspawn : spawn cfg with
  | error err =>
      rw [hspawn] at h
      cases h
  | ok l₀ =>
      rw [hspawn] at h
      exact ⟨l₀, rfl, Transition.run_of_exec events h⟩

/-! ### Histories -/

/-- What a side showed, as far as `sel` selects it. -/
def history {β : Type*} (sel : Endpoint.Obs → Option β) (s : Role) (trace : Trace) : List β :=
  trace.filterMap fun entry => if entry.1.side = s then sel entry.2 else none

section history

variable {β : Type*} (sel : Endpoint.Obs → Option β) (s : Role)

@[simp] theorem history_nil : history sel s [] = [] := rfl

theorem history_snoc (trace : Trace) (ev : Event) (obs : Endpoint.Obs) :
    history sel s (trace ++ [(ev, obs)]) =
      history sel s trace ++ if ev.side = s then (sel obs).toList else [] := by
  unfold history
  rw [List.filterMap_append]
  congr 1
  by_cases hs : ev.side = s
  · cases hsel : sel obs <;> simp [hs, hsel]
  · simp [hs]

end history

/-- The ids a side has opened. -/
def opened (s : Role) (trace : Trace) : List ChannelId :=
  history (fun | .opened id => some id | _ => none) s trace

/-- The frames whose send a side has started on a channel. -/
def started (s : Role) (c : ChannelId) (trace : Trace) : List Frame :=
  history (fun | .sendStarted id f => if id = c then some f else none | _ => none) s trace

/-- The frames of which a side has queued at least one chunk. -/
def began (s : Role) (c : ChannelId) (trace : Trace) : List Frame :=
  history (fun | .pushed id f true _ => if id = c then some f else none | _ => none) s trace

/-- The frames whose send has completed. -/
def completed (s : Role) (c : ChannelId) (trace : Trace) : List Frame :=
  history (fun | .pushed id f _ true => if id = c then some f else none | _ => none) s trace

/-- The frames `recv` has returned. -/
def received (s : Role) (c : ChannelId) (trace : Trace) : List Frame :=
  history (fun | .received id f => if id = c then some f else none | _ => none) s trace

/-- The sends dropped before they completed, and whether a part of the frame
had been queued. -/
def cancelled (s : Role) (c : ChannelId) (trace : Trace) : List Bool :=
  history (fun | .sendCancelled id _ torn => if id = c then some torn else none | _ => none)
    s trace

/-- Whether a side gave up a frame after queueing a part of it. -/
def torn (s : Role) (c : ChannelId) (trace : Trace) : Bool := (cancelled s c trace).any id

/-- The frames a reader left unread when it was dropped. -/
def abandoned (s : Role) (c : ChannelId) (trace : Trace) : List Frame :=
  (history (fun | .recvDropped id unread _ => if id = c then some unread else none | _ => none)
    s trace).flatten

/-- Whether a side has closed the channel. -/
def left (s : Role) (c : ChannelId) (trace : Trace) : Bool :=
  (history (fun
    | .sendDropped id closed => if id = c then some closed else none
    | .recvDropped id _ closed => if id = c then some closed else none
    | _ => none) s trace).any id

/-- What the reader of a side made of the segments it handled. -/
def deliveries (s : Role) (trace : Trace) : List (Except TransportError Unit) :=
  history (fun | .delivered result => some result | _ => none) s trace

end Link

end Mux
