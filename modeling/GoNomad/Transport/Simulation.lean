import GoNomad.Lib.CreditInvariant
import GoNomad.Transport.Wellformed

/-!
# The multiplexer simulates the credit-controlled channel

`absEnd` reads one end of one channel off the state of an endpoint, what it has
on the wire, and the trace.  `step_sim` is the simulation: whatever step the
link takes, every channel takes some number of actions of the abstract channel
at the side where the step happened.

The local operations come first, one lemma each, then the writer, then the
delivery of a segment.
-/

namespace Mux

open Proto Transport CreditChannel

/-! ### The past of a channel -/

/-- What the trace says about one channel at one side. -/
structure Past where
  sent : List Frame
  got : List Frame
  lost : Nat
  torn : Bool
  spoiled : Bool
  left : Bool

namespace Past

def blank : Past := ⟨[], [], 0, false, false, false⟩

/-- The past after the side showed `obs`. -/
def after (p : Past) (c : ChannelId) (obs : Endpoint.Obs) : Past :=
  match obs with
  | .pushed id f true _ =>
      if id = c then { p with sent := p.sent ++ [f], spoiled := p.spoiled || p.torn } else p
  | .received id f => if id = c then { p with got := p.got ++ [f] } else p
  | .sendCancelled id _ torn => if id = c then { p with torn := p.torn || torn } else p
  | .sendDropped id closed => if id = c then { p with left := p.left || closed } else p
  | .recvDropped id unread closed =>
      if id = c then
        { p with
          lost := p.lost + (Frame.code.encAll unread).length
          left := p.left || closed }
      else p
  | _ => p

/-- A later chunk of a frame leaves no trace. -/
theorem after_later (p : Past) (c id : ChannelId) (f : Frame) (last : Bool) :
    p.after c (.pushed id f false last) = p := rfl

theorem after_begun (p : Past) (c : ChannelId) (f : Frame) (last : Bool) :
    p.after c (.pushed c f true last) =
      { p with sent := p.sent ++ [f], spoiled := p.spoiled || p.torn } := if_pos rfl

theorem after_other {p : Past} {c id : ChannelId} {f : Frame} {last : Bool} (hc : id ≠ c) :
    p.after c (.pushed id f true last) = p := if_neg hc

end Past

/-- The past of channel `c` at side `s`. -/
def pastOf (s : Role) (c : ChannelId) (trace : Link.Trace) : Past :=
  trace.foldl (fun p entry => if entry.1.side = s then p.after c entry.2 else p) .blank

theorem pastOf_snoc (s : Role) (c : ChannelId) (trace : Link.Trace) (ev : Link.Event)
    (obs : Endpoint.Obs) :
    pastOf s c (trace ++ [(ev, obs)]) =
      if ev.side = s then (pastOf s c trace).after c obs else pastOf s c trace := by
  unfold pastOf
  rw [List.foldl_append]
  rfl

/-! ### The abstract end -/

/-- Credit acquired for a chunk that has not been pushed. -/
def inHand : Option SendHalf → Nat
  | some (.sending .acquired _ (chunk :: _)) => chunk.length
  | _ => 0

/-- What is still to be pushed of a frame that was begun. -/
def pending : Option SendHalf → Bytes
  | some (.sending _ frame chunks) =>
      if chunks.flatten = frame.encode then [] else chunks.flatten
  | _ => []

@[simp] theorem inHand_idle : inHand (some .idle) = 0 := rfl

@[simp] theorem pending_idle : pending (some .idle) = [] := rfl

/-- Frames in the hands of the reader or queued for it. -/
def readyOf (stream : Stream) : List Frame :=
  match stream.recv with
  | some (.popped frame) => frame :: stream.rx
  | _ => stream.rx

namespace View

def phase (v : View) : Phase :=
  match v.entry, v.stream with
  | some _, _ => .live
  | none, some _ => .gone
  | none, none => .fresh

def avail (v : View) : Nat :=
  match v.entry, v.stream with
  | some _, some stream => stream.credit.held + inHand stream.send
  | _, _ => 0

/-- One end of the abstract channel: what the endpoint knows, what is on the
wire, and the past. -/
def toEnd (v : View) (owner : Bool) (items : List (Item UInt8)) (credits : List Nat)
    (past : Past) : End Frame UInt8 where
  owner := owner
  halted := v.closed
  phase := v.phase
  avail := v.avail
  pend := v.stream.elim [] fun stream => pending stream.send
  flight := items ++ v.flight
  grants := credits ++ v.grants
  asm := v.entry.elim [] ChannelState.assembler
  unacked := v.entry.elim 0 ChannelState.unacked
  ready := v.stream.elim [] readyOf
  reading := v.stream.elim true fun stream => stream.recv.isSome
  lost := past.lost
  sent := past.sent
  got := past.got
  torn := past.torn
  spoiled := past.spoiled
  left := past.left

end View

/-- Whether channel `c` is in the number space of side `s`. -/
def owns (s : Role) (c : ChannelId) : Bool := c % 2 == s.firstChannel

theorem owns_other (s : Role) (c : ChannelId) : owns s.other c = !owns s c := by
  have hc : c % 2 = 0 ∨ c % 2 = 1 := by
    have hlt : (c % 2).toNat < 2 := by
      rw [UInt32.toNat_mod]
      exact Nat.mod_lt _ (by decide)
    have hcases : (c % 2).toNat = 0 ∨ (c % 2).toNat = 1 := by omega
    rcases hcases with h | h
    · exact Or.inl (UInt32.toNat_inj.mp h)
    · exact Or.inr (UInt32.toNat_inj.mp h)
  unfold owns
  rcases hc with h | h <;> rw [h] <;> cases s <;> rfl

/-- The end of channel `c` at side `s`. -/
def absEnd (s : Role) (c : ChannelId) (l : Link) (trace : Link.Trace) : End Frame UInt8 :=
  ((l.ends.get s).view c).toEnd (owns s c) (Segment.itemsOf c (l.wire.get s))
    (Segment.creditsOf c (l.wire.get s)) (pastOf s c trace)

/-! ### Local operations -/

namespace Endpoint

/-- An operation of one endpoint, seen from channel `c`: some number of actions
of the abstract end, whatever the peer and whatever is on the wire. -/
def Sim (cfg : MuxConfig) (s : Role) (c : ChannelId) (e : Endpoint) (r : Endpoint × Obs) : Prop :=
  ∀ (items : List (Item UInt8)) (credits : List Nat) (past : Past) (y : End Frame UInt8),
    Steps Frame.code cfg.window
      ((e.view c).toEnd (owns s c) items credits past) y
      ((r.1.view c).toEnd (owns s c) items credits (past.after c r.2)) y

variable {cfg : MuxConfig} {s : Role} {e e' : Endpoint} {c : ChannelId} {i : Nat} {obs : Obs}
variable {stream stream' : Stream}

/-- A step that changes nothing a channel can see. -/
theorem Sim.of_view (hview : e'.view c = e.view c)
    (hobs : ∀ past : Past, past.after c obs = past) : Sim cfg s c e (e', obs) := by
  intro items credits past y
  refine Steps.of_eq _ _ ?_ rfl
  dsimp only
  rw [hview, hobs]

theorem view_stream (h : e.Wf cfg s) (hi : e.streams[i]? = some stream) :
    (e.view stream.id).stream = some stream :=
  h.unique.streamOf hi

/-- Replacing a stream is invisible to the other channels. -/
theorem view_setStream_other (h : e.Wf cfg s) (hi : e.streams[i]? = some stream)
    (hid : stream'.id = stream.id) (hc : stream.id ≠ c) :
    (e.setStream i stream').view c = e.view c := by
  rw [view_setStream h.unique hi hid, if_neg hc]

theorem view_setStream_self (h : e.Wf cfg s) (hi : e.streams[i]? = some stream)
    (hid : stream'.id = stream.id) :
    (e.setStream i stream').view stream.id =
      { e.view stream.id with stream := some stream' } := by
  rw [view_setStream h.unique hi hid, if_pos rfl]

/-- Replacing the stream behind a view. -/
theorem toEnd_stream {v : View} (hs : v.stream = some stream) (owner : Bool)
    (items : List (Item UInt8)) (credits : List Nat) (past : Past) :
    View.toEnd { v with stream := some stream' } owner items credits past =
      { v.toEnd owner items credits past with
        avail := if v.entry.isSome then stream'.credit.held + inHand stream'.send else 0
        pend := pending stream'.send
        ready := readyOf stream'
        reading := stream'.recv.isSome } := by
  unfold View.toEnd View.phase View.avail
  rw [hs]
  cases v.entry <;> rfl

/-- A stream replaced by one with the same credit, pending bytes and frames is
the same to the channel. -/
theorem Sim.setStream (h : e.Wf cfg s) (hi : e.streams[i]? = some stream)
    (hid : stream'.id = stream.id)
    (hcredit : stream'.credit.held + inHand stream'.send =
      stream.credit.held + inHand stream.send)
    (hpend : pending stream'.send = pending stream.send)
    (hready : readyOf stream' = readyOf stream)
    (hrecv : stream'.recv.isSome = stream.recv.isSome)
    (hobs : ∀ past : Past, past.after c obs = past) :
    Sim cfg s c e (e.setStream i stream', obs) := by
  by_cases hc : stream.id = c
  · subst hc
    intro items credits past y
    refine Steps.of_eq _ _ ?_ rfl
    dsimp only
    have hs := view_stream h hi
    rw [hobs, view_setStream_self h hi hid, toEnd_stream hs, hcredit, hpend, hready, hrecv]
    unfold View.toEnd View.phase View.avail
    rw [hs]
    cases (e.view stream.id).entry <;> rfl
  · exact .of_view (view_setStream_other h hi hid hc) hobs

/-! #### Opening and accepting -/

theorem owns_nextLocal (h : e.Wf cfg s) : owns s e.nextLocal = true := by
  unfold owns
  rw [h.parity]
  simp

/-- What a successful open leaves of the opened channel, and of the others. -/
theorem view_openLocal (h : e.Wf cfg s) (hnone : e.streamOf e.nextLocal = none)
    (hclosed : e.closed = false) :
    ((({ e with nextLocal := e.nextLocal + 2 } : Endpoint).insertChannel e.nextLocal).1.enqueue
      (.open e.nextLocal)).view c =
      if e.nextLocal = c then
        ⟨false, some ⟨c, .new cfg.window, [], some .idle, some .idle⟩, some e.newEntry,
          (e.view c).flight ++ [.opening], (e.view c).grants⟩
      else e.view c := by
  have hview : (({ e with nextLocal := e.nextLocal + 2 } : Endpoint).insertChannel
      e.nextLocal).1.view c = _ := view_insertChannel hnone
  rw [view_enqueue, hview]
  by_cases hc : e.nextLocal = c
  · subst hc
    have hself := Segment.itemsOf_self (.open e.nextLocal)
    rw [Segment.channel_open] at hself
    rw [if_pos rfl, if_pos rfl, hself, ← hclosed, ← h.cfg_eq]
    rfl
  · rw [if_neg hc, if_neg hc, Segment.itemsOf_other (by simpa using hc), List.append_nil]
    rfl

/-- Opening a channel whose id never had a stream. -/
theorem sim_openBi (h : e.Wf cfg s)
    (hfresh : e.opens = true → e.streamOf e.nextLocal = none) : Sim cfg s c e e.openBi := by
  unfold openBi
  rcases openLocal_cases (e := e) with ⟨hopens, inst, hres⟩ | ⟨-, err, hres⟩
  · rw [hres]
    have hnone := hfresh hopens
    obtain ⟨hclosed, -, hentry⟩ := opens_open hopens
    have hview := view_openLocal (c := c) h hnone hclosed
    by_cases hc : e.nextLocal = c
    · subst hc
      rw [if_pos rfl] at hview
      intro items credits past y
      dsimp only
      rw [hview]
      have hview0 : e.view e.nextLocal =
          ⟨false, none, none, (e.view e.nextLocal).flight, (e.view e.nextLocal).grants⟩ := by
        unfold view
        rw [hclosed, hnone, hentry]
      rw [hview0]
      have hact := Act.openHere (K := Frame.code) (W := cfg.window)
        (x := View.toEnd ⟨false, none, none, (e.view e.nextLocal).flight,
          (e.view e.nextLocal).grants⟩ (owns s e.nextLocal) items credits past) (y := y)
        (owns_nextLocal h) rfl rfl
      simpa [View.toEnd, View.avail, View.phase, newEntry, readyOf, Past.after]
        using hact.steps
    · rw [if_neg hc] at hview
      exact .of_view hview fun _ => rfl
  · rw [hres]
    exact .of_view rfl fun _ => rfl

theorem sim_acceptBi {r : Endpoint × Obs} (h : e.acceptBi = some r) : Sim cfg s c e r := by
  unfold acceptBi at h
  split at h
  · split at h
    · cases h
    · cases h
      exact .of_view rfl fun _ => rfl
  · split at h
    · cases h
    · cases h
      exact .of_view rfl fun _ => rfl

/-! #### Sending -/

theorem live_iff {v : View} : v.phase = .live ↔ v.entry.isSome = true := by
  unfold View.phase
  cases v.entry <;> cases v.stream <;> simp

/-- A channel whose semaphore is closed is not live. -/
theorem not_live_of_closed (h : e.Wf cfg s) (hi : e.streams[i]? = some stream)
    (hclosed : stream.credit.closed = true) : (e.view stream.id).entry = none := by
  cases hstate : e.channels[stream.id]? with
  | none => exact hstate
  | some state =>
      obtain ⟨t, -, -, hof, hopen, -⟩ := h.entry_stream hstate
      rw [h.unique.streamOf hi] at hof
      cases hof
      simp [hclosed] at hopen

/-- A send that ends because its channel has gone. -/
theorem Sim.sendFailed (h : e.Wf cfg s) (hi : e.streams[i]? = some stream)
    {half : Option SendHalf} {credit : Semaphore} (hpend : pending half = [])
    (hgone : (e.view stream.id).entry = none) (hobs : ∀ past : Past, past.after c obs = past) :
    Sim cfg s c e (e.setStream i { stream with credit := credit, send := half }, obs) := by
  by_cases hc : stream.id = c
  · subst hc
    intro items credits past y
    dsimp only
    have hs := view_stream h hi
    have hview : (e.setStream i { stream with credit := credit, send := half }).view stream.id =
        _ := view_setStream_self h hi rfl
    rw [hobs, hview, toEnd_stream hs, hgone]
    have hphase : (e.view stream.id).phase ≠ .live := by
      rw [Ne, live_iff, hgone]
      simp
    have hact := Act.fail (K := Frame.code) (W := cfg.window)
      (x := (e.view stream.id).toEnd (owns s stream.id) items credits past) (y := y) hphase
    convert hact.steps using 1
    unfold View.toEnd View.avail
    rw [hs, hgone, hpend]
    rfl
  · exact .of_view (view_setStream_other h hi rfl hc) hobs

theorem pending_fresh {frame : Frame} {stage : Stage} :
    pending (some (.sending stage frame (BigEndian.chunks maxSegmentBody frame.encode))) = [] := by
  unfold pending
  dsimp only
  rw [BigEndian.flatten_chunks (by decide), if_pos rfl]

theorem sim_sendStart (h : e.Wf cfg s) (hi : e.streams[i]? = some stream)
    (hidle : stream.send = some .idle) (frame : Frame) :
    Sim cfg s c e (e.sendStart i stream frame) := by
  unfold sendStart
  split
  · exact .of_view rfl fun _ => rfl
  · refine .setStream h hi rfl ?_ ?_ rfl rfl fun _ => rfl
    · rw [hidle]
      rfl
    · rw [hidle]
      exact pending_fresh

/-- Polling the acquisition moves credit from the semaphore into the hands of
the send, or ends the send of a channel that has gone. -/
theorem sim_sendPolled (h : e.Wf cfg s) (hi : e.streams[i]? = some stream) {stage : Stage}
    {frame : Frame} {chunk : Bytes} {rest : List Bytes}
    (hsend : stream.send = some (.sending stage frame (chunk :: rest)))
    (hstage : stage ≠ .acquired) {polled : Semaphore × Semaphore.Poll}
    (hacquired : polled.2 = .acquired → polled.1.held + chunk.length = stream.credit.held)
    (hpending : polled.2 = .pending → polled.1.held = stream.credit.held)
    (hclosed : polled.2 = .closed → stream.credit.closed = true) :
    Sim cfg s c e (e.sendPolled i stream frame (chunk :: rest) polled) := by
  have hnone : inHand stream.send = 0 := by
    rw [hsend]
    cases stage with
    | acquired => exact absurd rfl hstage
    | acquiring => rfl
    | parked => rfl
  obtain ⟨credit, poll⟩ := polled
  cases poll with
  | acquired =>
      refine .setStream h hi rfl ?_ ?_ rfl rfl fun _ => rfl
      · rw [hnone]
        exact hacquired rfl
      · rw [hsend]
        rfl
  | pending =>
      refine .setStream h hi rfl ?_ ?_ rfl rfl fun _ => rfl
      · rw [hnone]
        exact hpending rfl
      · rw [hsend]
        rfl
  | closed =>
      exact .sendFailed h hi rfl (not_live_of_closed h hi (hclosed rfl)) fun _ => rfl

/-- Pushing the chunk whose credit was acquired. -/
theorem sim_sendPush (h : e.Wf cfg s) (hi : e.streams[i]? = some stream) {frame : Frame}
    {chunk : Bytes} {rest : List Bytes}
    (hsend : stream.send = some (.sending .acquired frame (chunk :: rest))) :
    Sim cfg s c e (e.sendPush i stream frame chunk rest) := by
  have hwf := (h.stream_wf hi).task _ hsend
  obtain ⟨-, hsuf, hall, -⟩ := hwf
  unfold sendPush pushData
  by_cases hclosed : e.closed = true
  · rw [if_pos hclosed]
    exact .sendFailed h hi rfl ((h.quiet hclosed).1 _) fun _ => rfl
  rw [if_neg hclosed]
  cases hstate : e.channels[stream.id]? with
  | none =>
      have hcontains : e.channels.contains stream.id = false := contains_eq_false.mpr hstate
      rw [hcontains]
      exact .sendFailed h hi rfl hstate fun _ => rfl
  | some state =>
      have hcontains : e.channels.contains stream.id = true := contains_iff.mpr ⟨state, hstate⟩
      rw [hcontains]
      simp only [Bool.not_true, Bool.false_eq_true, if_false]
      -- The queue and the stream object are separate parts of the state.
      set half : SendHalf := if rest.isEmpty then .idle else .sending .acquiring frame rest
        with hhalf
      have hcomm : (e.enqueue (.data stream.id chunk)).setStream i
          { stream with send := some half } =
          (e.setStream i { stream with send := some half }).enqueue (.data stream.id chunk) := rfl
      by_cases hc : stream.id = c
      · subst hc
        intro items credits past y
        dsimp only
        have hs := view_stream h hi
        have hview : (e.setStream i { stream with send := some half }).view stream.id = _ :=
          view_setStream_self h hi rfl
        have hself := Segment.itemsOf_self (.data stream.id chunk)
        rw [Segment.channel_data] at hself
        rw [hcomm, view_enqueue, hself, hview]
        have hentry : (e.view stream.id).entry = some state := hstate
        have hlive : (e.view stream.id).phase = .live := by
          rw [live_iff, hentry]
          rfl
        have havail : (e.view stream.id).avail = stream.credit.held + chunk.length := by
          unfold View.avail
          rw [hentry, hs]
          dsimp only
          rw [hsend]
          rfl
        have hhand : inHand (some half) = 0 := by
          rw [hhalf]
          split <;> rfl
        have hrest : pending (some half) = rest.flatten := by
          rw [hhalf]
          cases rest with
          | nil => rfl
          | cons next rest =>
              have hne : (next :: rest).flatten ≠ frame.encode := by
                intro heq
                have hlen := hsuf.length_le
                have hchunk := List.length_pos_of_ne_nil (hall chunk (by simp)).1
                rw [List.flatten_cons, List.length_append, heq] at hlen
                omega
              simp only [List.isEmpty_cons, Bool.false_eq_true, if_false, pending, if_neg hne]
        by_cases hfirst : (chunk :: rest).flatten = frame.encode
        · have hpend : pending stream.send = [] := by
            rw [hsend]
            simp only [pending, if_pos hfirst]
          have hact := @Act.begin _ _ Frame.code cfg.window
            ((e.view stream.id).toEnd (owns s stream.id) items credits past) y frame chunk
            rest.flatten hlive
            (by unfold View.toEnd; rw [hs]; exact hpend)
            (by rw [Frame.code_enc, ← hfirst]; rfl)
            (by unfold View.toEnd; dsimp only; rw [havail]; omega)
          convert hact.steps using 1
          unfold View.toEnd View.avail View.phase
          rw [hs, hentry]
          dsimp only
          rw [hsend, hhand]
          simp [Past.after, hfirst, hrest, readyOf, inHand]
        · have hpend : pending stream.send = (chunk :: rest).flatten := by
            rw [hsend]
            simp only [pending, if_neg hfirst]
          have hact := @Act.push _ _ Frame.code cfg.window
            ((e.view stream.id).toEnd (owns s stream.id) items credits past) y chunk
            rest.flatten hlive
            (by unfold View.toEnd; rw [hs]; exact hpend)
            (by unfold View.toEnd; dsimp only; rw [havail]; omega)
          convert hact.steps using 1
          unfold View.toEnd View.avail View.phase
          have hbeq : ((chunk :: rest).flatten == frame.encode) = false := by
            simpa using hfirst
          rw [hs, hentry, hbeq, Past.after_later]
          dsimp only
          rw [hsend, hhand]
          simp [hrest, readyOf, inHand]
      · have hother : (e.setStream i { stream with send := some half }).view c = e.view c :=
          view_setStream_other h hi rfl hc
        refine .of_view ?_ ?_
        · rw [hcomm, view_enqueue, hother, Segment.itemsOf_other (by simpa using hc),
            List.append_nil]
        · intro past
          unfold Past.after
          split <;> simp_all

theorem sim_sendStep (h : e.Wf cfg s) (hi : e.streams[i]? = some stream) {r : Endpoint × Obs}
    (hr : e.sendStep i stream = some r) : Sim cfg s c e r := by
  have hfair := (h.stream_wf hi).fair
  unfold sendStep at hr
  split at hr
  · next frame chunk rest hsend =>
      cases hr
      obtain ⟨-, -, -, _, _, -, hwait⟩ := (h.stream_wf hi).task _ hsend
      have hnone := Stream.waiter_none (by simpa using hwait)
      refine sim_sendPolled h hi hsend (by simp) ?_ ?_ ?_
      · intro hp
        have heq : stream.credit.acquireMany chunk.length =
            ((stream.credit.acquireMany chunk.length).1, .acquired) := Prod.ext rfl hp
        obtain ⟨-, hle, hcredit⟩ := Semaphore.acquireMany_acquired heq
        rw [hcredit]
        unfold Semaphore.held
        rw [hnone]
        dsimp only
        omega
      · intro hp
        have heq : stream.credit.acquireMany chunk.length =
            ((stream.credit.acquireMany chunk.length).1, .pending) := Prod.ext rfl hp
        obtain ⟨-, -, hcredit⟩ := Semaphore.acquireMany_pending heq
        rw [hcredit]
        unfold Semaphore.held
        rw [hnone]
        dsimp only
        omega
      · intro hp
        exact (Semaphore.acquireMany_closed (Prod.ext rfl hp)).1
  · next frame chunk rest hsend =>
      split at hr
      · cases hr
      · cases hr
        refine sim_sendPolled h hi hsend (by simp) ?_ ?_ ?_
        · intro hp
          have heq : stream.credit.poll = (stream.credit.poll.1, .acquired) := Prod.ext rfl hp
          obtain ⟨-, hcredit, w, hw, hfull⟩ := Semaphore.poll_acquired heq
          obtain ⟨-, -, -, chunk', rest', hcons, hwait⟩ := (h.stream_wf hi).task _ hsend
          cases hcons
          rw [hw, if_pos rfl, Option.map_some, Option.some.injEq] at hwait
          have hle := hfair w hw
          rw [hcredit]
          unfold Semaphore.held
          rw [hw]
          dsimp only
          omega
        · intro hp
          contradiction
        · intro hp
          exact (Semaphore.poll_closed (Prod.ext rfl hp)).1
  · next frame chunk rest hsend =>
      cases hr
      exact sim_sendPush h hi hsend
  · cases hr

/-- Dropping a send gives its credit back and tears its frame if a part of it
had been pushed. -/
theorem sim_sendCancel (h : e.Wf cfg s) (hi : e.streams[i]? = some stream) {r : Endpoint × Obs}
    (hr : e.sendCancel i stream = some r) : Sim cfg s c e r := by
  unfold sendCancel at hr
  split at hr
  · cases hr
  · next stage frame chunks hstage hsend =>
      cases hr
      by_cases hc : stream.id = c
      · subst hc
        intro items credits past y
        dsimp only
        have hs := view_stream h hi
        have hview : (e.setStream i { stream with
            credit := stream.credit.cancel, send := some .idle }).view stream.id = _ :=
          view_setStream_self h hi rfl
        have hhand : inHand stream.send = 0 := by
          rw [hsend]
          cases stage with
          | acquired => exact (hstage rfl).elim
          | acquiring => rfl
          | parked => rfl
        rw [hview, toEnd_stream hs]
        dsimp only
        rw [Semaphore.held_cancel]
        by_cases hwhole : chunks.flatten = frame.encode
        · have hpend : pending stream.send = [] := by
            rw [hsend]
            simp only [pending, if_pos hwhole]
          refine Steps.of_eq _ _ ?_ rfl
          unfold View.toEnd View.avail View.phase
          rw [hs]
          cases (e.view stream.id).entry <;>
            simp [Past.after, hwhole, hpend, hhand, readyOf]
        · have hact := Act.tear (K := Frame.code) (W := cfg.window)
            (x := (e.view stream.id).toEnd (owns s stream.id) items credits past) (y := y)
          convert hact.steps using 1
          unfold View.toEnd View.avail View.phase
          rw [hs]
          cases (e.view stream.id).entry <;>
            simp [Past.after, hwhole, hhand, readyOf]
      · refine .of_view (view_setStream_other h hi rfl hc) fun past => ?_
        unfold Past.after
        exact if_neg hc
  · cases hr

/-! #### Dropping the halves -/

/-- What a channel sees of `closeChannel`: the closing, when there is something
to close. -/
theorem sim_closeChannel (h : e.Wf cfg s) (hi : e.streams[i]? = some stream)
    (hsend : pending stream.send = []) (items : List (Item UInt8)) (credits : List Nat)
    (past : Past) (y : End Frame UInt8) :
    Steps Frame.code cfg.window
      ((e.view stream.id).toEnd (owns s stream.id) items credits past) y
      (((e.closeChannel stream.id).view stream.id).toEnd (owns s stream.id) items credits
        { past with left := past.left || e.holds stream.id }) y := by
  rw [view_closeChannel]
  by_cases hholds : e.holds stream.id = true
  · rw [if_pos ⟨hholds, rfl⟩, hholds]
    obtain ⟨-, state, hstate⟩ := holds_iff.mp hholds
    have hs := view_stream h hi
    have hentry : (e.view stream.id).entry = some state := hstate
    have hlive : (e.view stream.id).phase = .live := by
      rw [live_iff, hentry]
      rfl
    have hact := Act.close (K := Frame.code) (W := cfg.window)
      (x := (e.view stream.id).toEnd (owns s stream.id) items credits past) (y := y) hlive
      (by unfold View.toEnd; rw [hs]; exact hsend)
    convert hact.steps using 1
    unfold View.toEnd View.avail View.phase End.release
    rw [hs]
    simp
  · rw [if_neg (fun hc => hholds hc.1)]
    have hfalse : e.holds stream.id = false := by simpa using hholds
    rw [hfalse, Bool.or_false]
    exact .refl _ _

theorem holds_closeChannel : (e.closeChannel c).holds c = false := by
  unfold closeChannel
  split_ifs with hholds
  · have hgone : ((({ e with channels := e.channels.erase c } : Endpoint).retire c).enqueue
        (.reset c)).channels[c]? = none := by
      have hsame : ((({ e with channels := e.channels.erase c } : Endpoint).retire c).enqueue
          (.reset c)).channels = e.channels.erase c := by
        unfold enqueue retire
        split_ifs <;> rfl
      rw [hsame, lookup_erase, if_pos rfl]
    unfold holds
    rw [contains_eq_false.mpr hgone, Bool.and_false]
  · simpa using hholds

theorem closeChannel_of_not_holds (hholds : e.holds c = false) : e.closeChannel c = e := by
  unfold closeChannel
  rw [hholds]
  rfl

/-- Closing twice is closing once. -/
theorem closeChannel_twice : (e.closeChannel c).closeChannel c = e.closeChannel c :=
  closeChannel_of_not_holds holds_closeChannel

theorem closeChannel_other {id : ChannelId} (hc : id ≠ c) :
    (e.closeChannel id).view c = e.view c := by
  rw [view_closeChannel, if_neg (fun h => hc h.2)]

theorem holds_setStream {id : ChannelId} : (e.setStream i stream').holds id = e.holds id := rfl

/-- A write half that goes away between two sends, closing the channel or not. -/
theorem sim_dropSend_half (h : e.Wf cfg s) (hi : e.streams[i]? = some stream)
    (hidle : stream.send = some .idle) (closes : Bool) :
    Sim cfg s c e
      (if closes then (e.setStream i { stream with send := none }).closeChannel stream.id
        else e.setStream i { stream with send := none },
        .sendDropped stream.id (closes && e.holds stream.id)) := by
  have hi' : (e.setStream i { stream with send := none }).streams[i]? =
      some { stream with send := none } := by
    unfold setStream
    exact List.getElem?_set_self (List.getElem?_eq_some_iff.mp hi).1
  have hwf : (e.setStream i { stream with send := none }).Wf cfg s :=
    h.setStream hi rfl ((h.stream_wf hi).dropSend hidle) (fun ho _ => ho) (fun hr => hr)
  have hsame : Sim cfg s c e (e.setStream i { stream with send := none }, .silent) := by
    refine .setStream h hi rfl ?_ ?_ rfl rfl fun _ => rfl
    · rw [hidle]
      rfl
    · rw [hidle]
      rfl
  by_cases hc : stream.id = c
  · subst hc
    intro items credits past y
    have hfirst := hsame items credits past y
    cases closes with
    | false => simpa [Past.after] using hfirst
    | true =>
        have hclose := sim_closeChannel hwf hi' rfl items credits past y
        rw [holds_setStream] at hclose
        simpa [Past.after] using hfirst.trans hclose
  · refine .of_view ?_ fun past => if_neg hc
    cases closes with
    | false => exact view_setStream_other h hi rfl hc
    | true => exact (closeChannel_other hc).trans (view_setStream_other h hi rfl hc)

theorem sim_dropSend (h : e.Wf cfg s) (hi : e.streams[i]? = some stream) {r : Endpoint × Obs}
    (hr : e.dropSend i stream = some r) : Sim cfg s c e r := by
  unfold dropSend at hr
  split at hr
  · next hidle =>
      cases hr
      exact sim_dropSend_half h hi hidle _
  · cases hr

theorem sim_finish (h : e.Wf cfg s) (hi : e.streams[i]? = some stream) {r : Endpoint × Obs}
    (hr : e.finish i stream = some r) : Sim cfg s c e r := by
  unfold finish at hr
  split at hr
  · next hidle =>
      cases hr
      have hhalf := sim_dropSend_half (c := c) h hi hidle true
      rw [if_pos rfl, Bool.true_and] at hhalf
      rw [closeChannel_twice, ite_self]
      exact hhalf
  · cases hr

theorem sim_dropRecv (h : e.Wf cfg s) (hi : e.streams[i]? = some stream) {r : Endpoint × Obs}
    (hr : e.dropRecv i stream = some r) : Sim cfg s c e r := by
  unfold dropRecv at hr
  split at hr
  · next hidle =>
      cases hr
      have hi' : (e.setStream i { stream with recv := none, rx := [] }).streams[i]? =
          some { stream with recv := none, rx := [] } := by
        unfold setStream
        exact List.getElem?_set_self (List.getElem?_eq_some_iff.mp hi).1
      have hwf : (e.setStream i { stream with recv := none, rx := [] }).Wf cfg s :=
        h.setStream hi rfl (h.stream_wf hi).dropRecv (fun ho _ => ho) (fun hr => by cases hr)
      by_cases hc : stream.id = c
      · subst hc
        intro items credits past y
        have hs := view_stream h hi
        have hready : readyOf stream = stream.rx := by
          unfold readyOf
          rw [hidle]
        have hview : (e.setStream i { stream with recv := none, rx := [] }).view stream.id = _ :=
          view_setStream_self h hi rfl
        have hact := Act.dropReader (K := Frame.code) (W := cfg.window)
          (x := (e.view stream.id).toEnd (owns s stream.id) items credits past) (y := y)
        have hfirst : Steps Frame.code cfg.window
            ((e.view stream.id).toEnd (owns s stream.id) items credits past) y
            (((e.setStream i { stream with recv := none, rx := [] }).view stream.id).toEnd
              (owns s stream.id) items credits
              { past with lost := past.lost + (Frame.code.encAll stream.rx).length }) y := by
          convert hact.steps using 1
          rw [hview]
          unfold View.toEnd View.avail View.phase
          rw [hs]
          dsimp only [Option.elim]
          rw [hready]
          cases (e.view stream.id).entry <;> rfl
        cases hsend : stream.send with
        | some half => simpa [Past.after, hsend] using hfirst
        | none =>
            have hclose := sim_closeChannel hwf hi' (by rw [hsend]; rfl) items credits
              { past with lost := past.lost + (Frame.code.encAll stream.rx).length } y
            rw [holds_setStream] at hclose
            simpa [Past.after, hsend] using hfirst.trans hclose
      · refine .of_view ?_ fun past => if_neg hc
        split_ifs
        · exact (closeChannel_other hc).trans (view_setStream_other h hi rfl hc)
        · exact view_setStream_other h hi rfl hc
  · cases hr

/-! #### Receiving -/

theorem sim_recvPop (h : e.Wf cfg s) (hi : e.streams[i]? = some stream) {r : Endpoint × Obs}
    (hr : e.recvPop i stream = some r) : Sim cfg s c e r := by
  unfold recvPop at hr
  split at hr
  · next frame rest hidle hrx =>
      cases hr
      refine .setStream h hi rfl rfl rfl ?_ ?_ fun _ => rfl
      · unfold readyOf
        rw [hidle, hrx]
      · rw [hidle]
        rfl
  · cases hr

theorem sim_recvCredit (h : e.Wf cfg s) (hi : e.streams[i]? = some stream) {r : Endpoint × Obs}
    (hr : e.recvCredit i stream = some r) : Sim cfg s c e r := by
  unfold recvCredit at hr
  split at hr
  · next frame hpopped =>
      cases hr
      have hbytes : frame.wireLen < 2 ^ 32 := by
        have hle := frame.payload_le
        unfold Frame.wireLen headerLen
        unfold maxPayloadLen at hle
        omega
      by_cases hc : stream.id = c
      · subst hc
        intro items credits past y
        dsimp only
        have hs := view_stream h hi
        have hready : readyOf stream = frame :: stream.rx := by
          unfold readyOf
          rw [hpopped]
        have hact := @Act.take _ _ Frame.code cfg.window
          ((e.view stream.id).toEnd (owns s stream.id) items credits past) y frame stream.rx
          (by unfold View.toEnd; rw [hs]; exact hready)
        have hview : (e.setStream i { stream with recv := some .idle }).view stream.id = _ :=
          view_setStream_self h hi rfl
        convert hact.steps using 1
        rw [view_returnCredit hbytes, hview]
        have hchannels : (e.setStream i { stream with recv := some .idle }).channels =
          e.channels := rfl
        rw [hchannels]
        cases hstate : e.channels[stream.id]? with
        | none =>
            have hentry : (e.view stream.id).entry = none := hstate
            rw [ite_self]
            unfold View.toEnd View.avail View.phase End.consume
            rw [hs, hentry]
            simp [Past.after, readyOf, hpopped]
        | some state =>
            have hentry : (e.view stream.id).entry = some state := hstate
            have hopen : e.closed = false := by
              by_contra hc
              have hnone := (h.quiet (by simpa using hc)).1 stream.id
              rw [hstate] at hnone
              cases hnone
            rw [if_pos ⟨rfl, hopen⟩]
            unfold View.toEnd View.avail View.phase End.consume
            rw [hs, hentry]
            simp [Past.after, readyOf, hpopped, Frame.length_encode]
      · refine .of_view ?_ fun past => if_neg hc
        rw [view_returnCredit hbytes, if_neg (fun hh => hc hh.1)]
        exact view_setStream_other h hi rfl hc
  · cases hr

theorem sim_recvEnd {r : Endpoint × Obs} (hr : e.recvEnd i stream = some r) :
    Sim cfg s c e r := by
  unfold recvEnd at hr
  split at hr
  · split_ifs at hr
    · split at hr
      · cases hr
        exact .of_view rfl fun _ => rfl
      · cases hr
        exact .of_view rfl fun _ => rfl
    · cases hr
      exact .of_view rfl fun _ => rfl
  · cases hr

/-! #### The link going away -/

/-- A shutdown halts every channel; what is on the wire stays there. -/
theorem toEnd_shutdown (h : e.Wf cfg s) (hopen : e.closed = false) (err : Option TransportError)
    (owner : Bool) (items : List (Item UInt8)) (credits : List Nat) (past : Past) :
    ((e.shutdown err).view c).toEnd owner items credits past =
      ((e.view c).toEnd owner items credits past).halt items credits := by
  obtain ⟨stream', hview, hor⟩ := @view_shutdown e c h.unique hopen err
  rw [hview]
  rcases hor with ⟨hnone, rfl⟩ | ⟨t, t', hsome, rfl, hsev⟩
  · have hs : (e.view c).stream = none := hnone
    unfold View.toEnd View.avail View.phase End.halt
    rw [hs]
    cases hentry : (e.view c).entry with
    | none => simp
    | some state =>
        obtain ⟨t, -, -, hof, -⟩ := h.entry_stream hentry
        rw [hnone] at hof
        cases hof
  · have hs : (e.view c).stream = some t := hsome
    unfold View.toEnd View.avail View.phase End.halt
    rw [hs]
    cases hentry : (e.view c).entry <;> rcases hsev with rfl | rfl <;> simp [readyOf]

theorem sim_shutdown (h : e.Wf cfg s) {err : Option TransportError} :
    Sim cfg s c e (e.shutdown err, .silent) := by
  by_cases hclosed : e.closed = true
  · rw [shutdown_closed hclosed]
    exact .of_view rfl fun _ => rfl
  · intro items credits past y
    have hact := @Act.halt _ _ Frame.code cfg.window
      ((e.view c).toEnd (owns s c) items credits past) y items credits
      (List.prefix_append _ _) (List.prefix_append _ _)
    dsimp only
    rw [toEnd_shutdown h (by simpa using hclosed) err]
    exact hact.steps

/-- **Every operation of the application is simulated**, for every channel. -/
theorem sim_perform (h : e.Wf cfg s) {o : LocalOp} {r : Endpoint × Obs}
    (hfresh : o = .openBi → e.opens = true → e.streamOf e.nextLocal = none)
    (hr : e.perform o = some r) : Sim cfg s c e r := by
  unfold perform at hr
  cases o with
  | openBi =>
      cases hr
      exact sim_openBi h (hfresh rfl)
  | acceptBi => exact sim_acceptBi hr
  | sendStart i frame =>
      obtain ⟨stream, hi, hr⟩ := Option.bind_eq_some_iff.mp hr
      split at hr
      · next hidle =>
          cases hr
          exact sim_sendStart h (stream?_some hi) hidle frame
      · cases hr
  | sendStep i =>
      obtain ⟨stream, hi, hr⟩ := Option.bind_eq_some_iff.mp hr
      exact sim_sendStep h (stream?_some hi) hr
  | sendCancel i =>
      obtain ⟨stream, hi, hr⟩ := Option.bind_eq_some_iff.mp hr
      exact sim_sendCancel h (stream?_some hi) hr
  | finish i =>
      obtain ⟨stream, hi, hr⟩ := Option.bind_eq_some_iff.mp hr
      exact sim_finish h (stream?_some hi) hr
  | dropSend i =>
      obtain ⟨stream, hi, hr⟩ := Option.bind_eq_some_iff.mp hr
      exact sim_dropSend h (stream?_some hi) hr
  | dropRecv i =>
      obtain ⟨stream, hi, hr⟩ := Option.bind_eq_some_iff.mp hr
      exact sim_dropRecv h (stream?_some hi) hr
  | recvPop i =>
      obtain ⟨stream, hi, hr⟩ := Option.bind_eq_some_iff.mp hr
      exact sim_recvPop h (stream?_some hi) hr
  | recvCredit i =>
      obtain ⟨stream, hi, hr⟩ := Option.bind_eq_some_iff.mp hr
      exact sim_recvCredit h (stream?_some hi) hr
  | recvEnd i =>
      obtain ⟨stream, hi, hr⟩ := Option.bind_eq_some_iff.mp hr
      exact sim_recvEnd hr
  | close =>
      cases hr
      exact sim_shutdown h

end Endpoint

end Mux
