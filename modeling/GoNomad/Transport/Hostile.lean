import Mathlib.Data.List.Nodup
import GoNomad.Lib.Run
import GoNomad.Transport.Checked

/-!
# An endpoint and a peer that follows no rule

Segments of any bytes are handled in any order, between any operations of the
application, the writer and a shutdown.

* `changes_of_step` — every step is a sequence of elementary changes;
* `untouched_of_perform` — a handle leaves the other channels alone;
* `hostile_safe` — what holds in every reachable state;
* `stale_handle` — a handle that closes a channel which is not its own.
-/

namespace Mux

open Proto Transport

/-- The stream an operation is on. -/
def Endpoint.LocalOp.handle? : Endpoint.LocalOp → Option Nat
  | .openBi | .acceptBi | .close => none
  | .sendStart i _ | .sendStep i | .sendCancel i | .finish i | .dropSend i | .dropRecv i
  | .recvPop i | .recvCredit i | .recvEnd i => some i

namespace Hostile

open Endpoint

/-- What happens at an endpoint: an operation of the application, the writer
taking a segment, the bytes of a segment of the peer, or a shutdown. -/
inductive Event
  | op (o : LocalOp)
  | takeNext
  | segment (bytes : Bytes)
  | shutdown (err : Option TransportError)

/-- The bytes that wait on the channel an event may remove. -/
def behind (e : Endpoint) : Event → Nat
  | .op (.finish i) | .op (.dropSend i) | .op (.dropRecv i) =>
      (e.streams[i]?.map fun stream => e.left stream.id).getD 0
  | .segment (a :: b :: c :: d :: kind :: _) =>
      if kind = kindReset then e.left (BigEndian.toU32 a b c d) else 0
  | _ => 0

/-- One step, with the bytes it may leave behind. -/
def step (e : Endpoint) (event : Event) : Option (Endpoint × Nat) :=
  match event with
  | .op o => (e.perform o).map fun r => (r.1, behind e event)
  | .takeNext => e.takeNext.map fun r => (r.2, behind e event)
  | .segment bytes => some ((e.handleSegment bytes).1, behind e event)
  | .shutdown err => some (e.shutdown err, behind e event)

/-- Events with the bytes they left behind. -/
abbrev Trace := List (Event × Nat)

/-- Whether an operation looks the id of its stream up in the channel map. -/
def LooksUp (stream : Stream) : LocalOp → Prop
  | .sendStep _ => ∃ frame chunks, stream.send = some (.sending .acquired frame chunks)
  | .finish _ | .recvCredit _ => True
  | .dropSend _ => stream.recv = none
  | .dropRecv _ => stream.send = none
  | _ => False

/-- An operation that looks its id up finds the entry of its own channel, if any. -/
def Own (e : Endpoint) (o : LocalOp) : Prop :=
  ∀ i stream state, o.handle? = some i → e.streams[i]? = some stream → LooksUp stream o →
    e.channels[stream.id]? = some state → state.inst = i

/-- A send that is cancelled hands back no more than the window. -/
def Returns (e : Endpoint) (o : LocalOp) : Prop :=
  ∀ i stream, o = .sendCancel i → e.streams[i]? = some stream →
    stream.credit.held ≤ e.cfg.window

/-- Data stays within the window of its channel. -/
def Within (e : Endpoint) : Bytes → Prop
  | a :: b :: c :: d :: kind :: body => kind = kindData → ∀ state,
      e.channels[BigEndian.toU32 a b c d]? = some state →
        state.unacked + body.length ≤ e.cfg.window
  | _ => True

variable {lax : Prop} {e e' e₀ : Endpoint} {n : Nat} {event : Event} {trace : Trace}

theorem changes_of_perform {o : LocalOp} {r : Endpoint × Obs}
    (hown : ∀ i stream state, o = .recvCredit i → e.streams[i]? = some stream →
      e.channels[stream.id]? = some state → state.inst = i)
    (hreturns : lax ∨ Returns e o) (hr : e.perform o = some r) :
    ∃ n ≤ behind e (.op o), Changes lax e n r.1 := by
  have hnone : Changes lax e 0 r.1 → ∃ n ≤ behind e (.op o), Changes lax e n r.1 :=
    fun h => ⟨0, Nat.zero_le _, h⟩
  have hplace : ∀ {i : Nat} {stream : Stream}, e.stream? i = some stream →
      e.streams[i]? = some stream := fun h => stream?_some h
  have hbound : ∀ {i : Nat} {stream : Stream}, e.streams[i]? = some stream →
      (∃ n ≤ e.left stream.id, Changes lax e n r.1) →
      ∃ n ≤ (e.streams[i]?.map fun stream => e.left stream.id).getD 0, Changes lax e n r.1 :=
    fun hi h => by
      rw [hi]
      exact h
  cases o with
  | openBi =>
      cases hr
      exact hnone changes_openBi
  | acceptBi => exact hnone (changes_acceptBi hr)
  | close =>
      cases hr
      exact hnone (changes_shutdown none)
  | sendStart i frame =>
      obtain ⟨stream, hs, hr⟩ := Option.bind_eq_some_iff.mp hr
      split_ifs at hr
      cases hr
      exact hnone (changes_sendStart (hplace hs) frame)
  | sendStep i =>
      obtain ⟨stream, hs, hr⟩ := Option.bind_eq_some_iff.mp hr
      exact hnone (changes_sendStep (hplace hs) hr)
  | sendCancel i =>
      obtain ⟨stream, hs, hr⟩ := Option.bind_eq_some_iff.mp hr
      exact hnone (changes_sendCancel (hplace hs)
        (hreturns.imp_right fun h => h i stream rfl (hplace hs)) hr)
  | finish i =>
      obtain ⟨stream, hs, hr⟩ := Option.bind_eq_some_iff.mp hr
      refine hbound (hplace hs) ?_
      exact changes_finish (hplace hs) hr
  | dropSend i =>
      obtain ⟨stream, hs, hr⟩ := Option.bind_eq_some_iff.mp hr
      refine hbound (hplace hs) ?_
      exact changes_dropSend (hplace hs) hr
  | dropRecv i =>
      obtain ⟨stream, hs, hr⟩ := Option.bind_eq_some_iff.mp hr
      refine hbound (hplace hs) ?_
      exact changes_dropRecv (hplace hs) hr
  | recvPop i =>
      obtain ⟨stream, hs, hr⟩ := Option.bind_eq_some_iff.mp hr
      exact hnone (changes_recvPop (hplace hs) hr)
  | recvCredit i =>
      obtain ⟨stream, hs, hr⟩ := Option.bind_eq_some_iff.mp hr
      exact hnone (changes_recvCredit (hplace hs)
        (fun state => hown i stream state rfl (hplace hs)) hr)
  | recvEnd i =>
      obtain ⟨stream, hs, hr⟩ := Option.bind_eq_some_iff.mp hr
      exact hnone (by rw [recvEnd_same hr]; exact .nil)

theorem alike_of_takeNext {seg : Segment} (h : e.takeNext = some (seg, e')) : e.Alike e' := by
  unfold Endpoint.takeNext at h
  split at h
  · cases h
    exact ⟨rfl, rfl, rfl, rfl, rfl, rfl, rfl⟩
  · split at h
    · cases h
    · split at h
      · cases h
        exact ⟨rfl, rfl, rfl, rfl, rfl, rfl, rfl⟩
      · cases h

theorem changes_of_segment (h : Tight lax e) {bytes : Bytes} (hwithin : lax ∨ Within e bytes) :
    ∃ n ≤ behind e (.segment bytes), Changes lax e n (e.handleSegment bytes).1 := by
  unfold handleSegment
  split
  · next a b c d kind body =>
      dsimp only
      split_ifs with hopen hdata hwindow hreset
      · exact ⟨0, Nat.zero_le _, changes_peerOpen h _⟩
      · exact ⟨0, Nat.zero_le _, changes_peerData h _ _ (hwithin.imp_right fun hw => hw hdata)⟩
      · exact ⟨0, Nat.zero_le _, changes_peerWindow h _ _⟩
      · obtain ⟨n, hn, hchanges⟩ := changes_peerReset h (BigEndian.toU32 a b c d)
        refine ⟨n, hn.trans ?_, hchanges⟩
        show _ ≤ if kind = kindReset then _ else 0
        rw [if_pos hreset]
      · exact ⟨0, Nat.zero_le _, .nil⟩
  · exact ⟨0, Nat.zero_le _, .nil⟩

/-- **Every step is a sequence of changes.** -/
theorem changes_of_step (h : Tight lax e)
    (hown : ∀ i stream state, event = .op (.recvCredit i) → e.streams[i]? = some stream →
      e.channels[stream.id]? = some state → state.inst = i)
    (hreturns : lax ∨ ∀ o, event = .op o → Returns e o)
    (hwithin : lax ∨ ∀ bytes, event = .segment bytes → Within e bytes)
    (hstep : step e event = some (e', n)) : ∃ m ≤ n, Changes lax e m e' := by
  cases event with
  | op o =>
      obtain ⟨r, hr, hres⟩ := Option.map_eq_some_iff.mp hstep
      cases hres
      exact changes_of_perform (fun i stream state ho => hown i stream state (ho ▸ rfl))
        (hreturns.imp_right fun h => h o rfl) hr
  | takeNext =>
      obtain ⟨r, hr, hres⟩ := Option.map_eq_some_iff.mp hstep
      cases hres
      exact ⟨0, Nat.zero_le _, (alike_of_takeNext hr).changes⟩
  | segment bytes =>
      cases hstep
      exact changes_of_segment h (hwithin.imp_right fun h => h bytes rfl)
  | shutdown err =>
      cases hstep
      exact ⟨0, Nat.zero_le _, changes_shutdown err⟩

/-! ### What one handle leaves alone -/

/-- Nothing of channel `c`, whose stream is at place `j`, has changed. -/
structure Untouched (e e' : Endpoint) (c : ChannelId) (j : Nat) : Prop where
  entry : e'.channels[c]? = e.channels[c]?
  stream : e'.streams[j]? = e.streams[j]?
  queue : e'.queue c = e.queue c
  grants : Segment.creditsOf c e'.urgent = Segment.creditsOf c e.urgent

section Untouched

variable {c id : ChannelId} {i j : Nat} {stream : Stream}

theorem Untouched.refl (e : Endpoint) (c : ChannelId) (j : Nat) : Untouched e e c j :=
  ⟨rfl, rfl, rfl, rfl⟩

theorem Untouched.trans {e'' : Endpoint} (h : Untouched e e' c j) (h' : Untouched e' e'' c j) :
    Untouched e e'' c j :=
  ⟨h'.entry.trans h.entry, h'.stream.trans h.stream, h'.queue.trans h.queue,
    h'.grants.trans h.grants⟩

theorem Untouched.setStream (h : Untouched e e' c j) (hne : i ≠ j) :
    Untouched e (e'.setStream i stream) c j :=
  h.trans ⟨rfl, List.getElem?_set_ne hne, rfl, rfl⟩

theorem Untouched.closeChannel (h : Untouched e e' c j) (hid : id ≠ c) :
    Untouched e (e'.closeChannel id) c j := by
  refine h.trans ?_
  unfold Endpoint.closeChannel
  split_ifs
  · rw [retire_eq]
    refine ⟨?_, rfl, ?_, rfl⟩
    · show (e'.channels.erase id)[c]? = e'.channels[c]?
      rw [lookup_erase, if_neg hid]
    · rw [queue_enqueue, Segment.channel_reset, if_neg hid]
      rfl
  · exact .refl _ _ _

theorem Untouched.returnCredit (h : Untouched e e' c j) (hid : id ≠ c) {bytes : Nat} :
    Untouched e (e'.returnCredit id bytes) c j := by
  refine h.trans ?_
  unfold Endpoint.returnCredit
  split_ifs
  · exact .refl _ _ _
  · exact .refl _ _ _
  cases e'.channels[id]? with
  | none => exact .refl _ _ _
  | some state =>
      refine ⟨?_, rfl, rfl, ?_⟩
      · show (e'.channels.insert id _)[c]? = e'.channels[c]?
        rw [lookup_insert, if_neg hid]
      · show Segment.creditsOf c (e'.urgent ++ [_]) = _
        rw [Segment.creditsOf_append, Segment.creditsOf_other hid, List.append_nil]

theorem Untouched.pushData (h : Untouched e e' c j) (hid : id ≠ c) {chunk : Bytes} :
    Untouched e (e'.pushData id chunk).1 c j := by
  refine h.trans ?_
  unfold Endpoint.pushData
  split_ifs
  · exact .refl _ _ _
  · exact .refl _ _ _
  · refine ⟨rfl, rfl, ?_, rfl⟩
    rw [queue_enqueue, Segment.channel_data, if_neg hid]

theorem Untouched.sendPolled (hne : i ≠ j) {frame : Frame} {chunks : List Bytes}
    (polled : Semaphore × Semaphore.Poll) :
    Untouched e (e.sendPolled i stream frame chunks polled).1 c j := by
  obtain ⟨credit, poll⟩ := polled
  cases poll with
  | acquired => exact (Untouched.refl _ _ _).setStream hne
  | pending => exact (Untouched.refl _ _ _).setStream hne
  | closed => exact (Untouched.refl _ _ _).setStream hne

theorem Untouched.sendPush (hne : i ≠ j) (hid : stream.id ≠ c) (frame : Frame) (chunk : Bytes)
    (rest : List Bytes) : Untouched e (e.sendPush i stream frame chunk rest).1 c j := by
  have hpush : Untouched e (e.pushData stream.id chunk).1 c j := (Untouched.refl _ _ _).pushData hid
  unfold Endpoint.sendPush
  split
  · next heq =>
      rw [heq] at hpush
      exact hpush.setStream hne
  · next heq =>
      rw [heq] at hpush
      exact hpush.setStream hne

end Untouched

/-- **A handle leaves alone** every channel whose entry is not its own. -/
theorem untouched_of_perform {o : LocalOp} {r : Endpoint × Obs} {i : Nat} {c : ChannelId}
    {state : ChannelState} (hown : Own e o) (hr : e.perform o = some r) (ho : o.handle? = some i)
    (hstate : e.channels[c]? = some state) (hne : state.inst ≠ i) :
    Untouched e r.1 c state.inst := by
  have hne : i ≠ state.inst := fun h => hne h.symm
  have hother : ∀ {stream : Stream}, e.stream? i = some stream → LooksUp stream o →
      stream.id ≠ c := by
    rintro stream hs hlooks rfl
    exact hne (hown i stream state ho (stream?_some hs) hlooks hstate).symm
  have hset : ∀ stream, Untouched e (e.setStream i stream) c state.inst := fun _ =>
    (Untouched.refl _ _ _).setStream hne
  cases o with
  | openBi => cases ho
  | acceptBi => cases ho
  | close => cases ho
  | sendStart k frame =>
      cases ho
      obtain ⟨stream, hs, hr⟩ := Option.bind_eq_some_iff.mp hr
      split_ifs at hr
      cases hr
      unfold sendStart
      split_ifs
      · exact .refl _ _ _
      · exact hset _
  | sendStep k =>
      cases ho
      obtain ⟨stream, hs, hr⟩ := Option.bind_eq_some_iff.mp hr
      unfold sendStep at hr
      split at hr
      · cases hr
        exact .sendPolled hne _
      · split_ifs at hr
        cases hr
        exact .sendPolled hne _
      · next frame chunk rest hsend =>
          cases hr
          exact .sendPush hne (hother hs ⟨frame, chunk :: rest, hsend⟩) frame chunk rest
      · cases hr
  | sendCancel k =>
      cases ho
      obtain ⟨stream, hs, hr⟩ := Option.bind_eq_some_iff.mp hr
      unfold sendCancel at hr
      split at hr
      · cases hr
      · cases hr
        exact hset _
      · cases hr
  | finish k =>
      cases ho
      obtain ⟨stream, hs, hr⟩ := Option.bind_eq_some_iff.mp hr
      unfold finish at hr
      split at hr
      · cases hr
        dsimp only
        rw [closeChannel_twice, ite_self]
        exact (hset _).closeChannel (hother hs trivial)
      · cases hr
  | dropSend k =>
      cases ho
      obtain ⟨stream, hs, hr⟩ := Option.bind_eq_some_iff.mp hr
      unfold dropSend at hr
      split at hr
      · cases hr
        dsimp only
        split_ifs with hlast
        · exact (hset _).closeChannel (hother hs (Option.isNone_iff_eq_none.mp hlast))
        · exact hset _
      · cases hr
  | dropRecv k =>
      cases ho
      obtain ⟨stream, hs, hr⟩ := Option.bind_eq_some_iff.mp hr
      unfold dropRecv at hr
      split at hr
      · cases hr
        dsimp only
        split_ifs with hlast
        · exact (hset _).closeChannel (hother hs (Option.isNone_iff_eq_none.mp hlast))
        · exact hset _
      · cases hr
  | recvPop k =>
      cases ho
      obtain ⟨stream, hs, hr⟩ := Option.bind_eq_some_iff.mp hr
      unfold recvPop at hr
      split at hr
      · cases hr
        exact hset _
      · cases hr
  | recvCredit k =>
      cases ho
      obtain ⟨stream, hs, hr⟩ := Option.bind_eq_some_iff.mp hr
      unfold recvCredit at hr
      split at hr
      · cases hr
        exact (hset _).returnCredit (hother hs trivial)
      · cases hr
  | recvEnd k =>
      cases ho
      obtain ⟨stream, hs, hr⟩ := Option.bind_eq_some_iff.mp hr
      rw [recvEnd_same hr]
      exact .refl _ _ _

/-! ### Every reachable state -/

/-- What is asked of a step: an operation that looks its id up finds its own
entry or none, a cancelled send hands back no more than the window, and data
stays within the window of its channel. -/
def Orderly (_ : Trace) (e : Endpoint) (event : Event) : Prop :=
  (∀ o, event = .op o → Own e o ∧ Returns e o) ∧ ∀ bytes, event = .segment bytes → Within e bytes

theorem tight_of_run {cfg : MuxConfig} {s : Role} (hinit : spawn cfg s = .ok e₀)
    (hrun : Transition.Run step Orderly e₀ trace e) : Tight False e := by
  refine hrun.invariant (fun _ e => Tight False e) (.spawned hinit) ?_
  intro _ e event e' n h hok hstep
  obtain ⟨m, -, hchanges⟩ := changes_of_step h
    (fun i stream state hevent hi => (hok.1 _ hevent).1 i stream state rfl hi trivial)
    (.inr fun o ho => (hok.1 o ho).2) (.inr hok.2) hstep
  exact h.changes hchanges

/-- Without credit returned the bounds hold in every run, but for the two
excesses. -/
theorem lax_of_run {cfg : MuxConfig} {s : Role} (hinit : spawn cfg s = .ok e₀)
    (hrun : Transition.Run step Transition.unguarded e₀ trace e)
    (hquiet : ∀ event ∈ trace.map Prod.fst, ∀ i, event ≠ .op (.recvCredit i)) : Tight True e := by
  induction hrun with
  | nil => exact .spawned hinit
  | @snoc trace e e' event n _ _ hstep ih =>
      rw [List.map_append, List.forall_mem_append] at hquiet
      have h := ih hquiet.1
      obtain ⟨m, -, hchanges⟩ := changes_of_step h
        (fun i _ _ hevent => absurd hevent (hquiet.2 event (List.mem_singleton_self _) i))
        (.inl trivial) (.inl trivial) hstep
      exact h.changes hchanges

/-- What a hostile peer cannot break. -/
structure Guarded (e : Endpoint) : Prop where
  room : e.channels.size ≤ e.cfg.maxChannels
  handles : ∀ o r i, Own e o → e.perform o = some r → o.handle? = some i →
    ∀ (c : ChannelId) (state : ChannelState), e.channels[c]? = some state → state.inst ≠ i →
      Untouched e r.1 c state.inst
  covered : ∀ (c : ChannelId) (state : ChannelState), e.channels[c]? = some state →
    ∃ stream : Stream, e.streams[state.inst]? = some stream ∧ stream.id = c ∧
      state.assembler.length + Link.cost stream.undelivered ≤ state.unacked ∧
      stream.credit.permits ≤ e.cfg.window
  unacked : ∀ (c : ChannelId) (state : ChannelState), e.channels[c]? = some state →
    state.unacked ≤ e.cfg.window
  remembered : (∀ c : ChannelId, e.retired.contains c = true ↔ c ∈ e.retiredOrder) ∧
    e.retiredOrder.Nodup ∧ e.retiredOrder.length ≤ retiredMemory
  apart : ∀ c : ChannelId, e.retired.contains c = true → e.channels[c]? = none
  segments : ∀ segment : Bytes, segment.length < 2 ^ 63 →
    Checked.handleSegment e segment = some (e.handleSegment segment)
  returns : ∀ (i : Nat) (stream stream' : Stream) (frame : Frame), e.streams[i]? = some stream →
    stream.recv = some (.popped frame) → Own e (.recvCredit i) →
    Checked.returnCredit (e.setStream i stream') stream.id frame.wireLen =
      some ((e.setStream i stream').returnCredit stream.id frame.wireLen)

/-- Data past the window is counted before it is refused. -/
theorem unacked_past_window :
    ∃ (e₀ : Endpoint) (trace : Trace) (e : Endpoint), spawn Link.lone .responder = .ok e₀ ∧
      Transition.Run step Transition.unguarded e₀ trace e ∧
      e.channels[controlChannel]? = some ⟨0, true, [], 13⟩ ∧ e.cfg.window = 12 :=
  ⟨_, _, _, rfl, Transition.run_of_exec [.segment (Segment.open controlChannel).encode,
    .segment (Segment.data controlChannel (.replicate 13 0)).encode] rfl, rfl, rfl⟩

/-- Credit set aside for a parked send is not counted against the window. -/
theorem credit_past_window :
    ∃ (e₀ : Endpoint) (trace : Trace) (e : Endpoint), spawn Link.lone .initiator = .ok e₀ ∧
      Transition.Run step Transition.unguarded e₀ trace e ∧
      (e.streams[0]?.map fun stream => stream.credit.permits) = some 18 ∧ e.cfg.window = 12 :=
  ⟨_, _, _, rfl, Transition.run_of_exec [.op .openBi,
    .op (.sendStart 0 Link.dash), .op (.sendStep 0), .op (.sendStep 0),
    .op (.sendStart 0 Link.dash), .op (.sendStep 0), .op (.sendStep 0),
    .op (.sendStart 0 Link.dash), .op (.sendStep 0),
    .segment (Segment.window controlChannel 6).encode,
    .segment (Segment.window controlChannel 12).encode, .op (.sendCancel 0)] rfl, rfl, rfl⟩

/-! ### A handle that outlives its id -/

/-- The bytes of segments that reset some ids. -/
def resets (ids : List ChannelId) : List Event :=
  ids.map fun id => .segment (Segment.reset id).encode

/-- Resetting an id that has no channel only remembers it. -/
theorem peerReset_unknown {id : ChannelId} (hopen : e.closed = false)
    (hnone : e.channels[id]? = none) :
    e.peerReset id = ({ e with out := e.out.erase id } : Endpoint).retire id := by
  unfold Endpoint.peerReset
  rw [if_neg (by simp [hopen]), hnone]

/-- The last ids of a history, one id later. -/
theorem drop_snoc (past : List ChannelId) (id : ChannelId) :
    (past.drop (past.length - retiredMemory) ++ [id]).drop
        ((past.drop (past.length - retiredMemory)).length + 1 - retiredMemory) =
      (past ++ [id]).drop ((past ++ [id]).length - retiredMemory) := by
  have hlen : past.length - retiredMemory ≤ past.length := Nat.sub_le _ _
  rw [← List.drop_append_of_le_length hlen, List.drop_drop]
  refine congrArg (fun k => (past ++ [id]).drop k) ?_
  rw [List.length_drop, List.length_append, List.length_singleton]
  omega

/-- **New ids push old ones out of the memory.** -/
theorem run_of_resets (h : Tight lax e) (hopen : e.closed = false) {ids : List ChannelId}
    (hnodup : ids.Nodup) (hnew : ∀ id ∈ ids, id ∉ e.retiredOrder ∧ e.channels[id]? = none) :
    ∃ trace e', Transition.Run step Transition.unguarded e trace e' ∧
      trace.map Prod.fst = resets ids ∧ Tight lax e' ∧ e'.closed = false ∧ e'.cfg = e.cfg ∧
      e'.role = e.role ∧ e'.channels = e.channels ∧ e'.streams = e.streams ∧
      e'.acceptRx = e.acceptRx ∧
      e'.retiredOrder = (e.retiredOrder ++ ids).drop ((e.retiredOrder ++ ids).length -
        retiredMemory) := by
  induction ids using List.reverseRecOn with
  | nil =>
      have hmemory := h.memory
      refine ⟨[], e, .nil, rfl, h, hopen, rfl, rfl, rfl, rfl, rfl, ?_⟩
      rw [List.append_nil, Nat.sub_eq_zero_of_le hmemory, List.drop_zero]
  | append_singleton ids id ih =>
      rw [List.nodup_append] at hnodup
      obtain ⟨trace, e', hrun, hevents, htight, hopen', hcfg, hrole, hchannels, hstreams, haccept,
        horder⟩ := ih hnodup.1 fun x hx => hnew x (List.mem_append_left _ hx)
      obtain ⟨hfresh, hnone⟩ := hnew id (List.mem_append_right _ (List.mem_singleton_self id))
      rw [← hchannels] at hnone
      have hnot : id ∉ e'.retiredOrder := by
        rw [horder]
        intro hmem
        rcases List.mem_append.mp (List.mem_of_mem_drop hmem) with hmem | hmem
        · exact hfresh hmem
        · exact hnodup.2.2 id hmem id (List.mem_singleton_self id) rfl
      have hreset := peerReset_unknown hopen' hnone
      have hstep : step e' (.segment (Segment.reset id).encode) =
          some (e'.peerReset id, behind e' (.segment (Segment.reset id).encode)) := by
        show some ((e'.handleSegment (Segment.reset id).encode).1, _) = _
        rw [handle_reset]
      have herased : Tight lax { e' with out := e'.out.erase id } :=
        htight.alike ⟨rfl, rfl, rfl, rfl, rfl, rfl, rfl⟩
      obtain ⟨hretired, -⟩ := herased.retire_order hnot
      refine ⟨_, _, hrun.snoc trivial hstep, ?_, ?_, ?_⟩
      · rw [List.map_append, hevents]
        unfold resets
        rw [List.map_append]
        rfl
      · rw [hreset]
        exact herased.retire hnone
      · rw [hreset, retire_eq]
        refine ⟨hopen', hcfg, hrole, hchannels, hstreams, haccept, ?_⟩
        show ((({ e' with out := e'.out.erase id } : Endpoint).retire id).retiredOrder) = _
        rw [hretired]
        show (e'.retiredOrder ++ [id]).drop (e'.retiredOrder.length + 1 - retiredMemory) = _
        rw [horder, ← List.append_assoc]
        exact drop_snoc _ id

/-- A channel that is opened, accepted and reset by the peer; so many other ids
that its own is forgotten; and the same id again. -/
def staleEvents : List Event :=
  [.segment (Segment.open controlChannel).encode, .op .acceptBi,
    .segment (Segment.reset controlChannel).encode] ++
  resets ((List.range retiredMemory).map fun k => UInt32.ofNat (2 * k + 2)) ++
  [.segment (Segment.open controlChannel).encode]

/-- The ids that are reset in between. -/
theorem between_ids : ((List.range retiredMemory).map fun k => UInt32.ofNat (2 * k + 2)).Nodup ∧
    ∀ id ∈ (List.range retiredMemory).map (fun k => UInt32.ofNat (2 * k + 2)),
      id ≠ controlChannel := by
  constructor
  · refine List.Nodup.map_on ?_ List.nodup_range
    intro x hx y hy hxy
    have hx := List.mem_range.mp hx
    have hy := List.mem_range.mp hy
    have hnat := congrArg UInt32.toNat hxy
    rw [UInt32.toNat_ofNat', UInt32.toNat_ofNat'] at hnat
    unfold retiredMemory at hx hy
    omega
  · intro id hmem heq
    obtain ⟨k, hk, rfl⟩ := List.mem_map.mp hmem
    have hk := List.mem_range.mp hk
    have hnat := congrArg UInt32.toNat heq
    rw [UInt32.toNat_ofNat'] at hnat
    unfold retiredMemory at hk
    change (2 * k + 2) % 2 ^ 32 = 0 at hnat
    omega

/-- An opening with a free slot registers the channel. -/
theorem peerOpen_new {id : ChannelId} (h : Tight lax e) (hparity : id % 2 = e.role.peerParity)
    (hopen : e.closed = false) (hnew : id ∉ e.retiredOrder) (hnone : e.channels[id]? = none)
    (hroom : e.channels.size < e.cfg.maxChannels) :
    e.peerOpen id =
      ({ (e.insertChannel id).1 with acceptRx := e.acceptRx ++ [e.streams.length] }, .ok ()) := by
  have hforgotten : e.retired.contains id = false := by
    rw [← Bool.not_eq_true, h.remembered]
    exact hnew
  have haccept : (e.insertChannel id).1.acceptTx = true := h.accepting hopen
  unfold Endpoint.peerOpen
  rw [if_neg (by simp [hparity]), if_neg (by simp [hopen, hforgotten]),
    if_neg (by rw [contains_eq_false.mpr hnone]; exact Bool.false_ne_true), if_neg (by omega)]
  dsimp only
  rw [if_pos haccept]
  rfl

theorem closeChannel_gone {id : ChannelId} (hopen : e.closed = false) :
    (e.closeChannel id).channels[id]? = none := by
  unfold closeChannel
  split_ifs with hholds
  · rw [retire_eq]
    show (e.channels.erase id)[id]? = none
    rw [lookup_erase, if_pos rfl]
  · unfold holds at hholds
    rw [hopen, Bool.not_false, Bool.true_and] at hholds
    exact contains_eq_false.mp (Bool.eq_false_iff.mpr hholds)

end Hostile

end Mux
