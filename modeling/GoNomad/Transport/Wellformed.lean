import GoNomad.Transport.View

/-!
# Well-formed endpoints

`Endpoint.Wf` collects what is true of an endpoint's state by itself: every
entry of the channel map shares the stream created for its id, a remembered
closed id has no entry, nothing is queued once the link is gone, queued
segments are of the kinds this build sends, and every send in progress has
chunks left that end its frame.  Each operation of the multiplexer keeps it.
-/

namespace Mux

open Proto Transport CreditChannel

/-! ### Streams -/

/-- A send in progress has a chunk left, its chunks are the end of its frame,
and it has a parked acquisition exactly while it is parked. -/
def SendHalf.Wf (cfg : MuxConfig) (credit : Semaphore) : SendHalf → Prop
  | .idle => credit.waiter = none
  | .sending stage frame chunks =>
      frame.payload.length ≤ cfg.maxFrameLen ∧ chunks.flatten <:+ frame.encode ∧
        (∀ chunk ∈ chunks, chunk ≠ [] ∧ chunk.length ≤ maxSegmentBody) ∧
        ∃ chunk rest, chunks = chunk :: rest ∧
          credit.waiter.map Waiter.needed = if stage = .parked then some chunk.length else none

structure Stream.Wf (cfg : MuxConfig) (stream : Stream) : Prop where
  unread : stream.recv = none → stream.rx = []
  fair : stream.credit.Fair
  consumed : stream.send = none → stream.credit.waiter = none
  task : ∀ half, stream.send = some half → half.Wf cfg stream.credit

namespace Stream

variable {cfg : MuxConfig} {stream : Stream} {credit : Semaphore}

theorem waiter_none {w : Option Waiter} (h : w.map Waiter.needed = none) : w = none := by
  cases w with
  | none => rfl
  | some w => cases h

/-- A send only cares whether its acquisition is parked and for how much. -/
theorem half_withCredit {half : SendHalf} {old new : Semaphore} (h : half.Wf cfg old)
    (hw : new.waiter.map Waiter.needed = old.waiter.map Waiter.needed) : half.Wf cfg new := by
  cases half with
  | idle =>
      have hold : old.waiter = none := h
      rw [hold] at hw
      exact waiter_none hw
  | sending stage frame chunks =>
      obtain ⟨hle, hsuf, hall, chunk, rest, hcons, hwait⟩ := h
      exact ⟨hle, hsuf, hall, chunk, rest, hcons, hw.trans hwait⟩

/-- Replacing the semaphore's permits keeps a stream well formed. -/
theorem Wf.withCredit (h : stream.Wf cfg) (hfair : credit.Fair)
    (hw : credit.waiter.map Waiter.needed = stream.credit.waiter.map Waiter.needed) :
    Stream.Wf cfg { stream with credit := credit } where
  unread := h.unread
  fair := hfair
  consumed := by
    intro hsend
    have hnone := h.consumed hsend
    rw [hnone] at hw
    exact waiter_none hw
  task := fun half hhalf => half_withCredit (h.task half hhalf) hw

theorem Wf.addPermits (h : stream.Wf cfg) (n : Nat) :
    Stream.Wf cfg { stream with credit := stream.credit.addPermits n } := by
  refine h.withCredit (h.fair.addPermits n) ?_
  unfold Semaphore.addPermits
  cases hw : stream.credit.waiter with
  | none => rfl
  | some w => rfl

theorem Wf.closeCredit (h : stream.Wf cfg) :
    Stream.Wf cfg { stream with credit := stream.credit.close } :=
  h.withCredit h.fair rfl

theorem Wf.severed {stream' : Stream} (h : stream.Wf cfg) (hsev : Endpoint.Severed stream stream') :
    stream'.Wf cfg := by
  rcases hsev with rfl | rfl
  · exact h
  · exact h.closeCredit

/-- A new frame in the queue of a reader. -/
theorem Wf.deliver (h : stream.Wf cfg) (hrecv : stream.recv.isSome = true) (rx : List Frame) :
    Stream.Wf cfg { stream with rx := rx } where
  unread := by
    intro hnone
    have : stream.recv = none := hnone
    simp [this] at hrecv
  fair := h.fair
  consumed := h.consumed
  task := h.task

/-- A read half between two receives, with any queue. -/
theorem Wf.withRecv (h : stream.Wf cfg) (half : RecvHalf) (rx : List Frame) :
    Stream.Wf cfg { stream with recv := some half, rx := rx } where
  unread := by intro hnone; cases hnone
  fair := h.fair
  consumed := h.consumed
  task := h.task

theorem Wf.dropRecv (h : stream.Wf cfg) : Stream.Wf cfg { stream with recv := none, rx := [] } where
  unread := fun _ => rfl
  fair := h.fair
  consumed := h.consumed
  task := h.task

/-- A write half that was consumed or dropped between two sends. -/
theorem Wf.dropSend (h : stream.Wf cfg) (hidle : stream.send = some .idle) :
    Stream.Wf cfg { stream with send := none } where
  unread := h.unread
  fair := h.fair
  consumed := fun _ => h.task _ hidle
  task := by intro half hhalf; cases hhalf

/-- A send whose semaphore and stage changed together. -/
theorem Wf.withSend (h : stream.Wf cfg) (hfair : credit.Fair) {half : SendHalf}
    (hhalf : half.Wf cfg credit) :
    Stream.Wf cfg { stream with credit := credit, send := some half } where
  unread := h.unread
  fair := hfair
  consumed := by intro hnone; cases hnone
  task := by
    intro half' heq
    cases heq
    exact hhalf

theorem new_wf (e : Endpoint) (id : ChannelId) : (e.newStream id).Wf cfg where
  unread := fun _ => rfl
  fair := Semaphore.fair_new _
  consumed := fun _ => rfl
  task := by
    intro half heq
    cases heq
    rfl

end Stream

/-! ### Endpoints -/

structure Endpoint.Wf (cfg : MuxConfig) (s : Role) (e : Endpoint) : Prop where
  cfg_eq : e.cfg = cfg
  role_eq : e.role = s
  unique : e.UniqueIds
  entry : ∀ (c : ChannelId) (state : ChannelState), e.channels[c]? = some state →
    ∃ stream : Stream, e.streams[state.inst]? = some stream ∧ stream.id = c ∧
      stream.credit.closed = false ∧ (stream.recv.isSome = true → state.inbound = true)
  retired : ∀ c : ChannelId, e.retired.contains c = true → e.channels[c]? = none ∧ e.streamOf c ≠ none
  quiet : e.closed = true → (∀ c : ChannelId, e.channels[c]? = none) ∧ (∀ c, e.queue c = []) ∧ e.urgent = []
  streams : ∀ stream ∈ e.streams, stream.Wf cfg
  queued : ∀ c, ∀ seg ∈ e.queue c, seg.channel = c ∧ seg.Formed ∧ seg.credit? = none
  urgent : ∀ seg ∈ e.urgent, ∃ c n, seg = .window c n
  accepting : e.acceptTx = !e.closed
  waiting : ∀ i ∈ e.acceptRx, i < e.streams.length
  parity : e.nextLocal % 2 = s.firstChannel

namespace Endpoint

variable {cfg : MuxConfig} {s : Role} {e : Endpoint} {c id : ChannelId} {i : Nat}

theorem spawn_wf (h : spawn cfg s = .ok e) : e.Wf cfg s := by
  unfold spawn at h
  split at h
  · cases h
  · cases h
    exact {
      cfg_eq := rfl
      role_eq := rfl
      unique := List.nodup_nil
      entry := by intro c state hc; rw [lookup_empty] at hc; cases hc
      retired := by intro c hc; simp at hc
      quiet := by intro hc; cases hc
      streams := by intro stream hmem; cases hmem
      queued := by intro c seg hmem; simp [queue] at hmem
      urgent := by intro seg hmem; cases hmem
      accepting := rfl
      waiting := by intro i hi; cases hi
      parity := by cases s <;> rfl }

/-- The entry of a channel shares the channel's own stream. -/
theorem Wf.entry_stream (h : e.Wf cfg s) {state : ChannelState}
    (hc : e.channels[c]? = some state) :
    ∃ stream : Stream, e.streams[state.inst]? = some stream ∧ stream.id = c ∧
      e.streamOf c = some stream ∧ stream.credit.closed = false ∧
      (stream.recv.isSome = true → state.inbound = true) := by
  obtain ⟨stream, hi, rfl, hopen, hin⟩ := h.entry c state hc
  exact ⟨stream, hi, rfl, h.unique.streamOf hi, hopen, hin⟩

theorem Wf.entry_inst (h : e.Wf cfg s) {state : ChannelState} {stream : Stream}
    (hc : e.channels[stream.id]? = some state) (hi : e.streams[i]? = some stream) :
    state.inst = i := by
  obtain ⟨stream', hi', hid, -⟩ := h.entry _ state hc
  exact h.unique.place_unique hi' hi hid

theorem Wf.stream_wf (h : e.Wf cfg s) {stream : Stream} (hi : e.streams[i]? = some stream) :
    stream.Wf cfg :=
  h.streams stream (List.mem_of_getElem? hi)

/-! #### Replacing a stream -/

theorem mem_setStream {stream t : Stream} (h : t ∈ (e.setStream i stream).streams) :
    t = stream ∨ t ∈ e.streams := by
  rcases List.mem_or_eq_of_mem_set h with hmem | rfl
  · exact Or.inr hmem
  · exact Or.inl rfl

theorem streamOf_setStream_ne_none {stream stream' : Stream} (hu : e.UniqueIds)
    (hi : e.streams[i]? = some stream) (hid : stream'.id = stream.id)
    (h : e.streamOf c ≠ none) : (e.setStream i stream').streamOf c ≠ none := by
  rw [streamOf_setStream hu hi hid]
  split_ifs
  · simp
  · exact h

/-- Replacing a stream by one of the same channel keeps the endpoint well
formed, as long as the replacement does not close a live semaphore or revive a
reader. -/
theorem Wf.setStream (h : e.Wf cfg s) {stream stream' : Stream}
    (hi : e.streams[i]? = some stream) (hid : stream'.id = stream.id) (hwf : stream'.Wf cfg)
    (hclosed : stream.credit.closed = false → e.channels[stream.id]? ≠ none →
      stream'.credit.closed = false)
    (hrecv : stream'.recv.isSome = true → stream.recv.isSome = true) :
    (e.setStream i stream').Wf cfg s where
  cfg_eq := h.cfg_eq
  role_eq := h.role_eq
  unique := by
    unfold UniqueIds
    rw [ids_setStream hi hid]
    exact h.unique
  entry := by
    intro c state hc
    have hc' : e.channels[c]? = some state := hc
    obtain ⟨t, ht, htid, hopen, hin⟩ := h.entry c state hc'
    by_cases hinst : state.inst = i
    · rw [hinst, hi] at ht
      cases ht
      have hlt : i < e.streams.length := (List.getElem?_eq_some_iff.mp hi).1
      refine ⟨stream', ?_, hid.trans htid, hclosed hopen ?_, fun hr => hin (hrecv hr)⟩
      · unfold Endpoint.setStream
        rw [hinst, List.getElem?_set_self hlt]
      · rw [htid, hc']
        simp
    · refine ⟨t, ?_, htid, hopen, hin⟩
      unfold Endpoint.setStream
      rw [List.getElem?_set_ne (Ne.symm hinst)]
      exact ht
  retired := by
    intro c hc
    obtain ⟨hnone, hsome⟩ := h.retired c hc
    exact ⟨hnone, streamOf_setStream_ne_none h.unique hi hid hsome⟩
  quiet := h.quiet
  streams := by
    intro t ht
    rcases mem_setStream ht with rfl | ht
    · exact hwf
    · exact h.streams t ht
  queued := h.queued
  urgent := h.urgent
  accepting := h.accepting
  waiting := by
    intro j hj
    have := h.waiting j hj
    unfold Endpoint.setStream
    rwa [List.length_set]
  parity := h.parity

/-! #### Queues -/

theorem Wf.enqueue (h : e.Wf cfg s) (hopen : e.closed = false) {seg : Segment} (hseg : seg.Formed)
    (hcredit : seg.credit? = none) : (e.enqueue seg).Wf cfg s :=
  { h with
    quiet := fun hc => by
      have hc' : e.closed = true := hc
      simp [hopen] at hc'
    queued := by
      intro c seg' hmem
      rw [queue_enqueue] at hmem
      split_ifs at hmem with hc
      · rcases List.mem_append.mp hmem with hmem | hmem
        · exact h.queued c seg' hmem
        · rw [List.mem_singleton.mp hmem]
          exact ⟨hc, hseg, hcredit⟩
      · exact h.queued c seg' hmem }

theorem Wf.pushUrgent (h : e.Wf cfg s) (hopen : e.closed = false) (c : ChannelId) (n : UInt32) :
    Wf cfg s { e with urgent := e.urgent ++ [.window c n] } :=
  { h with
    quiet := fun hc => by
      have hc' : e.closed = true := hc
      simp [hopen] at hc'
    urgent := by
      intro seg hmem
      rcases List.mem_append.mp hmem with hmem | hmem
      · exact h.urgent seg hmem
      · exact ⟨c, n, List.mem_singleton.mp hmem⟩ }

/-! #### The channel map -/

theorem Wf.eraseChannel (h : e.Wf cfg s) :
    Wf cfg s { e with channels := e.channels.erase id } :=
  { h with
    entry := by
      intro c state hc
      dsimp only at hc
      rw [lookup_erase] at hc
      split_ifs at hc
      exact h.entry c state hc
    retired := by
      intro c hc
      obtain ⟨hnone, hsome⟩ := h.retired c hc
      refine ⟨?_, hsome⟩
      dsimp only
      rw [lookup_erase]
      split_ifs
      · rfl
      · exact hnone
    quiet := by
      intro hc
      obtain ⟨hnone, hqueue, hurgent⟩ := h.quiet hc
      refine ⟨?_, hqueue, hurgent⟩
      intro c
      dsimp only
      rw [lookup_erase, hnone, ite_self] }

/-- Changing the accounting of an entry. -/
theorem Wf.updateEntry (h : e.Wf cfg s) {state state' : ChannelState}
    (hc : e.channels[id]? = some state) (hinst : state'.inst = state.inst)
    (hin : ∀ stream : Stream, e.streams[state.inst]? = some stream → stream.recv.isSome = true →
      state'.inbound = true) :
    Wf cfg s { e with channels := e.channels.insert id state' } :=
  { h with
    entry := by
      intro c st hst
      dsimp only at hst
      rw [lookup_insert] at hst
      split_ifs at hst with hid
      · subst hid
        cases hst
        obtain ⟨stream, hi, hsid, hopen, -⟩ := h.entry id state hc
        exact ⟨stream, by rw [hinst]; exact hi, hsid, hopen, hin stream hi⟩
      · exact h.entry c st hst
    retired := by
      intro c hr
      obtain ⟨hnone, hsome⟩ := h.retired c hr
      refine ⟨?_, hsome⟩
      dsimp only
      rw [lookup_insert]
      split_ifs with hid
      · subst hid
        rw [hc] at hnone
        cases hnone
      · exact hnone
    quiet := by
      intro hclosed
      have hnone := (h.quiet hclosed).1 id
      rw [hc] at hnone
      cases hnone }

theorem mem_trimRetired {order : List ChannelId} {retired : Std.ExtTreeSet ChannelId}
    (h : (trimRetired order retired).2.contains c = true) : retired.contains c = true := by
  induction order generalizing retired with
  | nil => exact h
  | cons old order ih =>
      unfold trimRetired at h
      split_ifs at h
      · have hmem := ih h
        rw [Std.ExtTreeSet.contains_erase] at hmem
        exact (Bool.and_eq_true_iff.mp hmem).2
      · exact h

theorem mem_retire (h : (e.retire id).retired.contains c = true) :
    c = id ∨ e.retired.contains c = true := by
  unfold retire at h
  split at h
  · exact Or.inr h
  · have hmem := mem_trimRetired h
    rw [Std.ExtTreeSet.contains_insert, Bool.or_eq_true] at hmem
    rcases hmem with heq | hmem
    · rw [beq_iff_eq, Std.compare_eq_iff_eq] at heq
      exact Or.inl heq.symm
    · exact Or.inr hmem

theorem Wf.retire (h : e.Wf cfg s) (hgone : e.channels[id]? = none)
    (hstream : e.streamOf id ≠ none) : (e.retire id).Wf cfg s := by
  have hretired : ∀ c, (e.retire id).retired.contains c = true →
      e.channels[c]? = none ∧ e.streamOf c ≠ none := by
    intro c hc
    rcases mem_retire hc with rfl | hc
    · exact ⟨hgone, hstream⟩
    · exact h.retired c hc
  unfold Endpoint.retire at hretired ⊢
  split_ifs at hretired ⊢
  · exact h
  · exact { h with retired := hretired }

theorem holds_iff : e.holds id = true ↔ e.closed = false ∧ ∃ state, e.channels[id]? = some state := by
  unfold holds
  rw [Bool.and_eq_true, contains_iff]
  simp

theorem Wf.closeChannel (h : e.Wf cfg s) : (e.closeChannel id).Wf cfg s := by
  unfold Endpoint.closeChannel
  split_ifs with hholds
  · obtain ⟨hopen, state, hstate⟩ := holds_iff.mp hholds
    obtain ⟨stream, -, -, hof, -⟩ := h.entry_stream hstate
    have herased : Wf cfg s { e with channels := e.channels.erase id } := h.eraseChannel
    have hgone : ({ e with channels := e.channels.erase id } : Endpoint).channels[id]? = none := by
      dsimp only
      rw [lookup_erase, if_pos rfl]
    have hstream : ({ e with channels := e.channels.erase id } : Endpoint).streamOf id ≠ none := by
      have hsame : ({ e with channels := e.channels.erase id } : Endpoint).streamOf id =
          e.streamOf id := rfl
      rw [hsame, hof]
      simp
    have hretired := herased.retire hgone hstream
    refine hretired.enqueue ?_ (.reset id) rfl
    unfold Endpoint.retire
    split_ifs
    · exact hopen
    · exact hopen
  · exact h

theorem Wf.returnCredit (h : e.Wf cfg s) {bytes : Nat} : (e.returnCredit id bytes).Wf cfg s := by
  unfold Endpoint.returnCredit
  split_ifs with hbytes hclosed
  · exact h
  · exact h
  · cases hstate : e.channels[id]? with
    | none => exact h
    | some state =>
        obtain ⟨stream, hi, -, -, -, hin⟩ := h.entry_stream hstate
        have hreader : ∀ t : Stream, e.streams[state.inst]? = some t → t.recv.isSome = true →
            state.inbound = true := by
          intro t ht hr
          rw [hi] at ht
          cases ht
          exact hin hr
        have hupdated : Wf cfg s { e with
            channels := e.channels.insert id { state with unacked := state.unacked - bytes } } :=
          h.updateEntry hstate rfl hreader
        exact hupdated.pushUrgent (by simpa using hclosed) id (UInt32.ofNat bytes)

/-- A new channel for an id that never had a stream. -/
theorem Wf.insertChannel (h : e.Wf cfg s) (hopen : e.closed = false)
    (hnew : e.streamOf id = none) : (e.insertChannel id).1.Wf cfg s where
  cfg_eq := h.cfg_eq
  role_eq := h.role_eq
  unique := by
    have hu := h.unique
    unfold UniqueIds ids at hu ⊢
    unfold Endpoint.insertChannel
    dsimp only
    rw [List.map_append, List.nodup_append]
    refine ⟨hu, by simp, ?_⟩
    intro a ha b hb heq
    obtain ⟨t, ht, htid⟩ := List.mem_map.mp ha
    rw [List.map_singleton, List.mem_singleton] at hb
    exact streamOf_eq_none.mp hnew t ht (htid.trans (heq.trans hb))
  entry := by
    intro c state hc
    unfold Endpoint.insertChannel at hc ⊢
    dsimp only at hc ⊢
    rw [lookup_insert] at hc
    split_ifs at hc with hid
    · subst hid
      cases hc
      exact ⟨e.newStream id, by simp [newStream], rfl, rfl, fun _ => rfl⟩
    · obtain ⟨t, ht, htid, hcl, hin⟩ := h.entry c state hc
      have hlt : state.inst < e.streams.length := (List.getElem?_eq_some_iff.mp ht).1
      exact ⟨t, by rw [List.getElem?_append_left hlt]; exact ht, htid, hcl, hin⟩
  retired := by
    intro c hc
    obtain ⟨hnone, hsome⟩ := h.retired c hc
    have hne : id ≠ c := by
      rintro rfl
      exact hsome hnew
    have hview := view_insertChannel (c := c) hnew
    rw [if_neg hne] at hview
    exact ⟨(congrArg View.entry hview).trans hnone, by
      rw [show (e.insertChannel id).1.streamOf c = e.streamOf c from congrArg View.stream hview]
      exact hsome⟩
  quiet := by
    intro hc
    have hc' : e.closed = true := hc
    simp [hopen] at hc'
  streams := by
    intro t ht
    unfold Endpoint.insertChannel at ht
    rcases List.mem_append.mp ht with ht | ht
    · exact h.streams t ht
    · rw [List.mem_singleton.mp ht]
      exact Stream.new_wf e id
  queued := by
    intro c seg hmem
    refine h.queued c seg ?_
    unfold Endpoint.insertChannel queue at hmem
    dsimp only at hmem
    rw [queue_insertIfNew] at hmem
    exact hmem
  urgent := h.urgent
  accepting := h.accepting
  waiting := by
    intro j hj
    have := h.waiting j hj
    unfold Endpoint.insertChannel
    dsimp only
    rw [List.length_append]
    omega
  parity := h.parity

theorem Wf.shutdown (h : e.Wf cfg s) {err : Option TransportError} : (e.shutdown err).Wf cfg s := by
  by_cases hclosed : e.closed = true
  · rw [shutdown_closed hclosed]
    exact h
  · have hopen : e.closed = false := by simpa using hclosed
    have hu : (e.shutdown err).UniqueIds := by
      unfold UniqueIds
      rw [ids_shutdown]
      exact h.unique
    have hview : ∀ c, (e.shutdown err).channels[c]? = none ∧ (e.shutdown err).queue c = [] ∧
        (e.shutdown err).urgent = [] := by
      intro c
      unfold Endpoint.shutdown queue
      rw [if_neg hclosed]
      dsimp only
      rw [lookup_empty, lookup_empty]
      exact ⟨rfl, rfl, rfl⟩
    have hrest : (e.shutdown err).cfg = e.cfg ∧ (e.shutdown err).role = e.role ∧
        (e.shutdown err).retired = e.retired ∧ (e.shutdown err).acceptTx = false ∧
        (e.shutdown err).closed = true ∧ (e.shutdown err).acceptRx = e.acceptRx ∧
        (e.shutdown err).nextLocal = e.nextLocal := by
      unfold Endpoint.shutdown
      rw [if_neg hclosed]
      exact ⟨rfl, rfl, rfl, rfl, rfl, rfl, rfl⟩
    obtain ⟨hcfg, hrole, hretired, htx, hcl, hrx, hnext⟩ := hrest
    exact {
      cfg_eq := hcfg.trans h.cfg_eq
      role_eq := hrole.trans h.role_eq
      unique := hu
      entry := by
        intro c state hc
        rw [(hview c).1] at hc
        cases hc
      retired := by
        intro c hc
        rw [hretired] at hc
        obtain ⟨-, hsome⟩ := h.retired c hc
        refine ⟨(hview c).1, ?_⟩
        obtain ⟨stream', hv, hor⟩ := view_shutdown h.unique hopen
        rcases hor with ⟨hnone, -⟩ | ⟨-, s', -, hs', -⟩
        · exact absurd hnone hsome
        · rw [show (e.shutdown err).streamOf c = stream' from congrArg View.stream hv, hs']
          simp
      quiet := fun _ => ⟨fun c => (hview c).1, fun c => (hview c).2.1, (hview 0).2.2⟩
      streams := by
        intro t ht
        obtain ⟨i, hi⟩ := List.getElem?_of_mem ht
        have hlt : i < e.streams.length := by
          have hlt' := (List.getElem?_eq_some_iff.mp hi).1
          rw [length_shutdown] at hlt'
          exact hlt'
        obtain ⟨t', hi', hsev⟩ := shutdown_place hopen (List.getElem?_eq_getElem hlt)
        rw [hi'] at hi
        cases hi
        exact (h.stream_wf (List.getElem?_eq_getElem hlt)).severed hsev
      queued := by
        intro c seg hmem
        rw [(hview c).2.1] at hmem
        cases hmem
      urgent := by
        intro seg hmem
        rw [(hview 0).2.2] at hmem
        cases hmem
      accepting := by rw [htx, hcl]; rfl
      waiting := by
        intro i hi
        rw [hrx] at hi
        rw [length_shutdown]
        exact h.waiting i hi
      parity := by rw [hnext]; exact h.parity }

/-! #### Operations of the application -/

/-- Whether an open would succeed now. -/
def opens (e : Endpoint) : Bool :=
  !e.closed && e.channels.size < e.cfg.maxChannels && !e.channels.contains e.nextLocal &&
    !e.retired.contains e.nextLocal

theorem openLocal_cases :
    (e.opens = true ∧ ∃ inst, e.openLocal =
      ((({ e with nextLocal := e.nextLocal + 2 } : Endpoint).insertChannel e.nextLocal).1.enqueue
        (.open e.nextLocal), .ok inst)) ∨
    (e.opens = false ∧ ∃ err,
      e.openLocal = ({ e with nextLocal := e.nextLocal + 2 }, .error err)) := by
  unfold openLocal opens
  dsimp only
  by_cases hclosed : e.closed = true
  · exact Or.inr ⟨by simp [hclosed], _, by rw [if_pos hclosed]⟩
  rw [if_neg hclosed]
  by_cases hfull : e.cfg.maxChannels ≤ e.channels.size
  · exact Or.inr ⟨by simp [Nat.not_lt.mpr hfull], _, by rw [if_pos hfull]⟩
  rw [if_neg hfull]
  by_cases hused : (e.channels.contains e.nextLocal || e.retired.contains e.nextLocal) = true
  · refine Or.inr ⟨?_, _, by rw [if_pos hused]⟩
    rcases Bool.or_eq_true_iff.mp hused with hu | hu <;> rw [hu] <;> simp
  · rw [if_neg hused]
    rw [Bool.or_eq_true_iff, not_or] at hused
    exact Or.inl ⟨by simp [hclosed, hused, Nat.lt_of_not_le hfull], _, rfl⟩

theorem opens_open (h : e.opens = true) :
    e.closed = false ∧ e.channels.size < e.cfg.maxChannels ∧ e.channels[e.nextLocal]? = none := by
  unfold opens at h
  simp only [Bool.and_eq_true, Bool.not_eq_true', decide_eq_true_eq] at h
  obtain ⟨⟨⟨hclosed, hsize⟩, hentry⟩, -⟩ := h
  exact ⟨hclosed, hsize, contains_eq_false.mp hentry⟩

theorem parity_next (n : ChannelId) : (n + 2) % 2 = n % 2 := by
  apply UInt32.toNat_inj.mp
  rw [UInt32.toNat_mod, UInt32.toNat_mod, UInt32.toNat_add]
  simp only [UInt32.reduceToNat]
  omega

theorem Wf.nextLocal (h : e.Wf cfg s) : Wf cfg s { e with nextLocal := e.nextLocal + 2 } :=
  { h with parity := (parity_next e.nextLocal).trans h.parity }

theorem Wf.openBi (h : e.Wf cfg s) (hfresh : e.opens = true → e.streamOf e.nextLocal = none) :
    e.openBi.1.Wf cfg s := by
  unfold Endpoint.openBi
  rcases openLocal_cases (e := e) with ⟨hopens, inst, hres⟩ | ⟨-, err, hres⟩
  · rw [hres]
    have hopen := (opens_open hopens).1
    have hinserted := h.nextLocal.insertChannel hopen (hfresh hopens)
    exact hinserted.enqueue hopen (.opening _) rfl
  · rw [hres]
    exact h.nextLocal

theorem Wf.acceptBi (h : e.Wf cfg s) {r : Endpoint × Obs} (hr : e.acceptBi = some r) :
    r.1.Wf cfg s := by
  unfold Endpoint.acceptBi at hr
  split at hr
  · next i rest hrx =>
      split at hr
      · cases hr
      · cases hr
        exact { h with
          waiting := fun j hj => h.waiting j (by rw [hrx]; exact List.mem_cons_of_mem _ hj) }
  · split at hr
    · cases hr
    · cases hr
      exact h

section stream

variable {stream : Stream}

theorem chunks_wf {frame : Frame} (hle : frame.payload.length ≤ cfg.maxFrameLen)
    {credit : Semaphore} (hidle : credit.waiter = none) :
    (SendHalf.sending .acquiring frame (BigEndian.chunks maxSegmentBody frame.encode)).Wf cfg
      credit := by
  have hflat : (BigEndian.chunks maxSegmentBody frame.encode).flatten = frame.encode :=
    BigEndian.flatten_chunks (by decide) _
  refine ⟨hle, by rw [hflat], fun chunk hmem => BigEndian.mem_chunks (by decide) hmem, ?_⟩
  cases hchunks : BigEndian.chunks maxSegmentBody frame.encode with
  | nil =>
      rw [hchunks] at hflat
      exact absurd hflat.symm frame.encode_ne_nil
  | cons chunk rest => exact ⟨chunk, rest, rfl, by rw [hidle]; rfl⟩

theorem Wf.sendStart (h : e.Wf cfg s) (hi : e.streams[i]? = some stream)
    (hidle : stream.send = some .idle) (frame : Frame) :
    (e.sendStart i stream frame).1.Wf cfg s := by
  unfold Endpoint.sendStart
  split
  · exact h
  · next hle =>
      have hwf := h.stream_wf hi
      have hle' : frame.payload.length ≤ cfg.maxFrameLen := by
        rw [← h.cfg_eq]
        omega
      exact h.setStream hi rfl (hwf.withSend hwf.fair (chunks_wf hle' (hwf.task _ hidle)))
        (fun ho _ => ho) (fun hr => hr)

/-- Polling an acquisition leaves the stream well formed. -/
theorem Wf.sendPolled (h : e.Wf cfg s) (hi : e.streams[i]? = some stream) {stage : Stage}
    {frame : Frame} {chunk : Bytes} {rest : List Bytes}
    (hsend : stream.send = some (.sending stage frame (chunk :: rest)))
    {polled : Semaphore × Semaphore.Poll} (hfair : polled.1.Fair)
    (hclosed : polled.1.closed = stream.credit.closed)
    (hwait : polled.1.waiter.map Waiter.needed =
      if polled.2 = .pending then some chunk.length else none) :
    (e.sendPolled i stream frame (chunk :: rest) polled).1.Wf cfg s := by
  obtain ⟨credit, poll⟩ := polled
  have hwf := h.stream_wf hi
  obtain ⟨hle, hsuf, hall, -⟩ := hwf.task _ hsend
  have hkeep : ∀ half : SendHalf, half.Wf cfg credit →
      (e.setStream i { stream with credit := credit, send := some half }).Wf cfg s := fun half hhalf =>
    h.setStream hi rfl (hwf.withSend hfair hhalf) (fun ho _ => hclosed.trans ho) (fun hr => hr)
  cases poll with
  | acquired => exact hkeep _ ⟨hle, hsuf, hall, chunk, rest, rfl, by simpa using hwait⟩
  | pending => exact hkeep _ ⟨hle, hsuf, hall, chunk, rest, rfl, by simpa using hwait⟩
  | closed => exact hkeep .idle (Stream.waiter_none (by simpa using hwait))

theorem Wf.sendPush (h : e.Wf cfg s) (hi : e.streams[i]? = some stream) {frame : Frame}
    {chunk : Bytes} {rest : List Bytes}
    (hsend : stream.send = some (.sending .acquired frame (chunk :: rest))) :
    (e.sendPush i stream frame chunk rest).1.Wf cfg s := by
  have hwf := h.stream_wf hi
  obtain ⟨hle, hsuf, hall, chunk', rest', hcons, hwait⟩ := hwf.task _ hsend
  cases hcons
  have hnone : stream.credit.waiter = none := Stream.waiter_none (by simpa using hwait)
  have hkeep : ∀ half : SendHalf, half.Wf cfg stream.credit →
      (e.setStream i { stream with send := some half }).Wf cfg s := fun half hhalf =>
    h.setStream hi rfl (hwf.withSend hwf.fair hhalf) (fun ho _ => ho) (fun hr => hr)
  unfold Endpoint.sendPush pushData
  by_cases hclosed : e.closed = true
  · rw [if_pos hclosed]
    exact hkeep .idle hnone
  rw [if_neg hclosed]
  by_cases hcontains : (!e.channels.contains stream.id) = true
  · rw [if_pos hcontains]
    exact hkeep .idle hnone
  · rw [if_neg hcontains]
    have hopen : e.closed = false := by simpa using hclosed
    have hformed : (Segment.data stream.id chunk).Formed :=
      .data _ (hall chunk (by simp)).1 (hall chunk (by simp)).2
    refine (hkeep _ ?_).enqueue hopen hformed rfl
    cases rest with
    | nil => exact hnone
    | cons next rest =>
        refine ⟨hle, ?_, fun ch hmem => hall ch (List.mem_cons_of_mem _ hmem), next, rest, rfl, ?_⟩
        · exact List.IsSuffix.trans ⟨chunk, rfl⟩ hsuf
        · rw [hnone]
          rfl

theorem acquireMany_wf (credit : Semaphore) (n : Nat) (hnone : credit.waiter = none) :
    (credit.acquireMany n).1.Fair ∧ (credit.acquireMany n).1.closed = credit.closed ∧
      (credit.acquireMany n).1.waiter.map Waiter.needed =
        if (credit.acquireMany n).2 = .pending then some n else none := by
  unfold Semaphore.acquireMany
  by_cases hclosed : credit.closed = true
  · rw [if_pos hclosed]
    simp [hnone, Semaphore.Fair]
  rw [if_neg hclosed]
  by_cases hle : n ≤ credit.permits
  · rw [if_pos hle]
    simp [hnone, Semaphore.Fair]
  · rw [if_neg hle]
    refine ⟨?_, rfl, rfl⟩
    intro w hw
    cases hw
    dsimp only
    omega

theorem poll_wf (credit : Semaphore) (hpoll : credit.poll.2 ≠ .pending) :
    credit.poll.1.Fair ∧ credit.poll.1.closed = credit.closed ∧
      credit.poll.1.waiter.map Waiter.needed = none := by
  unfold Semaphore.poll at hpoll ⊢
  by_cases hclosed : credit.closed = true
  · rw [if_pos hclosed]
    refine ⟨?_, Semaphore.cancel_closed credit, ?_⟩
    · intro w hw
      rw [Semaphore.cancel_waiter] at hw
      cases hw
    · rw [Semaphore.cancel_waiter]
      rfl
  rw [if_neg hclosed] at hpoll ⊢
  cases hw : credit.waiter with
  | none => simp [hw] at hpoll
  | some w =>
      simp only [hw] at hpoll ⊢
      by_cases hfull : w.needed ≤ w.assigned
      · rw [if_pos hfull]
        refine ⟨?_, rfl, rfl⟩
        intro w' hw'
        cases hw'
      · rw [if_neg hfull] at hpoll
        exact absurd rfl hpoll

theorem Wf.sendStep (h : e.Wf cfg s) (hi : e.streams[i]? = some stream) {r : Endpoint × Obs}
    (hr : e.sendStep i stream = some r) : r.1.Wf cfg s := by
  have hwf := h.stream_wf hi
  unfold Endpoint.sendStep at hr
  split at hr
  · next frame chunk rest hsend =>
      cases hr
      obtain ⟨-, -, -, _, _, -, hwait⟩ := hwf.task _ hsend
      have hnone : stream.credit.waiter = none := Stream.waiter_none (by simpa using hwait)
      obtain ⟨hfair, hclosed, hneeded⟩ := acquireMany_wf stream.credit chunk.length hnone
      exact h.sendPolled hi hsend hfair hclosed hneeded
  · next frame chunk rest hsend =>
      split at hr
      · cases hr
      · next hpoll =>
          cases hr
          obtain ⟨hfair, hclosed, hneeded⟩ := poll_wf stream.credit hpoll
          exact h.sendPolled hi hsend hfair hclosed (hneeded.trans (if_neg hpoll).symm)
  · next frame chunk rest hsend =>
      cases hr
      exact h.sendPush hi hsend
  · cases hr

theorem Wf.sendCancel (h : e.Wf cfg s) (hi : e.streams[i]? = some stream) {r : Endpoint × Obs}
    (hr : e.sendCancel i stream = some r) : r.1.Wf cfg s := by
  have hwf := h.stream_wf hi
  unfold Endpoint.sendCancel at hr
  split at hr
  · cases hr
  · cases hr
    have hfair : stream.credit.cancel.Fair := by
      intro w hw
      rw [Semaphore.cancel_waiter] at hw
      cases hw
    have hidle : SendHalf.idle.Wf cfg stream.credit.cancel := Semaphore.cancel_waiter _
    exact h.setStream hi rfl (hwf.withSend hfair hidle)
      (fun ho _ => (Semaphore.cancel_closed _).trans ho) (fun hr => hr)
  · cases hr

theorem Wf.dropSendHalf (h : e.Wf cfg s) (hi : e.streams[i]? = some stream)
    (hidle : stream.send = some .idle) : (e.setStream i { stream with send := none }).Wf cfg s :=
  h.setStream hi rfl ((h.stream_wf hi).dropSend hidle) (fun ho _ => ho) (fun hr => hr)

theorem Wf.dropRecvHalf (h : e.Wf cfg s) (hi : e.streams[i]? = some stream) :
    (e.setStream i { stream with recv := none, rx := [] }).Wf cfg s :=
  h.setStream hi rfl (h.stream_wf hi).dropRecv (fun ho _ => ho) (fun hr => by cases hr)

theorem Wf.finish (h : e.Wf cfg s) (hi : e.streams[i]? = some stream) {r : Endpoint × Obs}
    (hr : e.finish i stream = some r) : r.1.Wf cfg s := by
  unfold Endpoint.finish at hr
  split at hr
  · next hidle =>
      cases hr
      have hclosed := @Wf.closeChannel _ _ _ stream.id (h.dropSendHalf hi hidle)
      dsimp only
      split_ifs
      · exact hclosed.closeChannel
      · exact hclosed
  · cases hr

theorem Wf.dropSend (h : e.Wf cfg s) (hi : e.streams[i]? = some stream) {r : Endpoint × Obs}
    (hr : e.dropSend i stream = some r) : r.1.Wf cfg s := by
  unfold Endpoint.dropSend at hr
  split at hr
  · next hidle =>
      cases hr
      dsimp only
      split_ifs
      · exact (h.dropSendHalf hi hidle).closeChannel
      · exact h.dropSendHalf hi hidle
  · cases hr

theorem Wf.dropRecv (h : e.Wf cfg s) (hi : e.streams[i]? = some stream) {r : Endpoint × Obs}
    (hr : e.dropRecv i stream = some r) : r.1.Wf cfg s := by
  unfold Endpoint.dropRecv at hr
  split at hr
  · cases hr
    dsimp only
    split_ifs
    · exact (h.dropRecvHalf hi).closeChannel
    · exact h.dropRecvHalf hi
  · cases hr

theorem Wf.recvPop (h : e.Wf cfg s) (hi : e.streams[i]? = some stream) {r : Endpoint × Obs}
    (hr : e.recvPop i stream = some r) : r.1.Wf cfg s := by
  unfold Endpoint.recvPop at hr
  split at hr
  · next frame rest hidle _ =>
      cases hr
      exact h.setStream hi rfl ((h.stream_wf hi).withRecv _ _) (fun ho _ => ho)
        (fun _ => by rw [hidle]; rfl)
  · cases hr

theorem Wf.recvCredit (h : e.Wf cfg s) (hi : e.streams[i]? = some stream) {r : Endpoint × Obs}
    (hr : e.recvCredit i stream = some r) : r.1.Wf cfg s := by
  unfold Endpoint.recvCredit at hr
  split at hr
  · next frame hpopped =>
      cases hr
      have hkept : (e.setStream i { stream with recv := some .idle }).Wf cfg s :=
        h.setStream hi rfl ((h.stream_wf hi).withRecv .idle stream.rx) (fun ho _ => ho)
          (fun _ => by rw [hpopped]; rfl)
      exact hkept.returnCredit
  · cases hr

theorem recvEnd_same {r : Endpoint × Obs} (hr : e.recvEnd i stream = some r) : r.1 = e := by
  unfold recvEnd at hr
  split at hr
  · split_ifs at hr
    · split at hr <;> cases hr <;> rfl
    · cases hr
      rfl
  · cases hr

end stream

theorem stream?_some {stream : Stream} (h : e.stream? i = some stream) :
    e.streams[i]? = some stream := by
  unfold stream? at h
  split_ifs at h
  exact h

/-- **Every operation of the application keeps its endpoint well formed**, as
long as an open that succeeds takes an id no stream had. -/
theorem Wf.perform (h : e.Wf cfg s) {o : LocalOp} {r : Endpoint × Obs}
    (hfresh : o = .openBi → e.opens = true → e.streamOf e.nextLocal = none)
    (hr : e.perform o = some r) : r.1.Wf cfg s := by
  unfold Endpoint.perform at hr
  cases o with
  | openBi =>
      cases hr
      exact h.openBi (hfresh rfl)
  | acceptBi => exact h.acceptBi hr
  | sendStart i frame =>
      obtain ⟨stream, hi, hr⟩ := Option.bind_eq_some_iff.mp hr
      split at hr
      · next hidle =>
          cases hr
          exact h.sendStart (stream?_some hi) hidle frame
      · cases hr
  | sendStep i =>
      obtain ⟨stream, hi, hr⟩ := Option.bind_eq_some_iff.mp hr
      exact h.sendStep (stream?_some hi) hr
  | sendCancel i =>
      obtain ⟨stream, hi, hr⟩ := Option.bind_eq_some_iff.mp hr
      exact h.sendCancel (stream?_some hi) hr
  | finish i =>
      obtain ⟨stream, hi, hr⟩ := Option.bind_eq_some_iff.mp hr
      exact h.finish (stream?_some hi) hr
  | dropSend i =>
      obtain ⟨stream, hi, hr⟩ := Option.bind_eq_some_iff.mp hr
      exact h.dropSend (stream?_some hi) hr
  | dropRecv i =>
      obtain ⟨stream, hi, hr⟩ := Option.bind_eq_some_iff.mp hr
      exact h.dropRecv (stream?_some hi) hr
  | recvPop i =>
      obtain ⟨stream, hi, hr⟩ := Option.bind_eq_some_iff.mp hr
      exact h.recvPop (stream?_some hi) hr
  | recvCredit i =>
      obtain ⟨stream, hi, hr⟩ := Option.bind_eq_some_iff.mp hr
      exact h.recvCredit (stream?_some hi) hr
  | recvEnd i =>
      obtain ⟨stream, hi, hr⟩ := Option.bind_eq_some_iff.mp hr
      rw [recvEnd_same hr]
      exact h
  | close =>
      cases hr
      exact h.shutdown

/-! #### The writer -/

/-- The queue of a channel after the writer took its first segment. -/
theorem queue_taken {rest : List Segment} (cursor : ChannelId) :
    ({ e with
        cursor := cursor
        out := if rest.isEmpty && !e.channels.contains id then e.out.erase id
          else e.out.insert id rest } : Endpoint).queue c = if id = c then rest else e.queue c := by
  unfold queue
  dsimp only
  by_cases hdrained : (rest.isEmpty && !e.channels.contains id) = true
  · rw [if_pos hdrained, lookup_erase]
    by_cases hc : id = c
    · have hnil : rest = [] := by simpa using (Bool.and_eq_true_iff.mp hdrained).1
      rw [if_pos hc, if_pos hc, hnil]
      rfl
    · rw [if_neg hc, if_neg hc]
  · rw [if_neg hdrained, lookup_insert]
    by_cases hc : id = c
    · rw [if_pos hc, if_pos hc]
      rfl
    · rw [if_neg hc, if_neg hc]

/-- **What the writer takes.**  A segment leaves the front of one queue: nothing
else about any channel changes, and the endpoint stays well formed. -/
theorem Wf.takeNext (h : e.Wf cfg s) {seg : Segment} {e' : Endpoint}
    (ht : e.takeNext = some (seg, e')) :
    seg.Formed ∧ e'.Wf cfg s ∧ ∀ c, e.view c =
      { e'.view c with
        flight := Segment.itemsOf c [seg] ++ (e'.view c).flight
        grants := Segment.creditsOf c [seg] ++ (e'.view c).grants } := by
  unfold Endpoint.takeNext at ht
  split at ht
  · next seg' rest hurgent =>
      cases ht
      obtain ⟨id, n, rfl⟩ := h.urgent seg (by rw [hurgent]; simp)
      refine ⟨.window id n, { h with
        quiet := fun hc => ?_
        urgent := fun t ht => h.urgent t (by rw [hurgent]; exact List.mem_cons_of_mem _ ht) }, ?_⟩
      · have hnil := (h.quiet hc).2.2
        rw [hurgent] at hnil
        cases hnil
      · intro c
        have hitems : Segment.itemsOf c [.window id n] = [] := by
          unfold Segment.itemsOf
          simp
        rw [hitems, List.nil_append]
        unfold view
        rw [hurgent, Segment.creditsOf_cons]
        rfl
  · next hurgent =>
      split at ht
      · cases ht
      · next id _ =>
          split at ht
          · next seg' rest hid =>
              cases ht
              have hqueue : e.queue id = seg :: rest := by
                unfold queue
                rw [hid]
                rfl
              have hopen : ¬ e.closed = true := by
                intro hc
                rw [(h.quiet hc).2.1 id] at hqueue
                cases hqueue
              obtain ⟨hchannel, hformed, hcredit⟩ := h.queued id seg (by rw [hqueue]; simp)
              refine ⟨hformed, { h with
                quiet := fun hc => absurd hc hopen
                queued := ?_ }, ?_⟩
              · intro c t ht
                rw [queue_taken] at ht
                split_ifs at ht with hc
                · refine h.queued c t ?_
                  rw [← hc, hqueue]
                  exact List.mem_cons_of_mem _ ht
                · exact h.queued c t ht
              · intro c
                unfold view
                rw [queue_taken]
                by_cases hc : id = c
                · rw [if_pos hc, ← hc, hqueue, Segment.itemsOf_cons]
                  have hnone : Segment.creditsOf id [seg] = [] := by
                    rw [← hchannel, Segment.creditsOf_self, hcredit]
                    rfl
                  rw [hnone, List.nil_append]
                  rfl
                · have hother : seg.channel ≠ c := by rwa [hchannel]
                  rw [if_neg hc, Segment.itemsOf_other hother, Segment.creditsOf_other hother]
                  rfl
          · cases ht

/-! #### Segments from the peer -/

theorem Wf.setAccept (h : e.Wf cfg s) {inst : Nat} (hlt : inst < e.streams.length) :
    Wf cfg s { e with acceptRx := e.acceptRx ++ [inst] } :=
  { h with
    waiting := by
      intro j hj
      rcases List.mem_append.mp hj with hj | hj
      · exact h.waiting j hj
      · rw [List.mem_singleton.mp hj]
        exact hlt }

/-- What the handler of an opening does: nothing, refuse, or register the
channel and hand it to `accept_bi`. -/
theorem peerOpen_cases (h : e.Wf cfg s) (id : ChannelId) :
    (e.peerOpen id = (e, .ok ()) ∧ (e.closed = true ∨ e.retired.contains id = true)) ∨
    (∃ violation, e.peerOpen id = (e, .error (.protocol violation)) ∧
      (violation = .wrongChannelParity id ∧ id % 2 ≠ s.peerParity ∨
        violation = .duplicateChannel id ∧ e.closed = false ∧ e.channels[id]? ≠ none ∨
        violation = .tooManyChannels cfg.maxChannels ∧ e.closed = false ∧
          e.retired.contains id = false ∧ e.channels[id]? = none ∧
          cfg.maxChannels ≤ e.channels.size)) ∨
    (e.peerOpen id = ({ (e.insertChannel id).1 with
        acceptRx := e.acceptRx ++ [e.streams.length] }, .ok ()) ∧
      id % 2 = s.peerParity ∧ e.closed = false ∧ e.channels[id]? = none) := by
  unfold peerOpen
  rw [h.role_eq]
  by_cases hparity : id % 2 = s.peerParity
  · rw [if_neg (by simpa using hparity)]
    by_cases hignore : (e.closed || e.retired.contains id) = true
    · rw [if_pos hignore]
      exact Or.inl ⟨rfl, Bool.or_eq_true_iff.mp hignore⟩
    rw [if_neg hignore]
    have hopen : e.closed = false ∧ e.retired.contains id = false := by
      simpa only [Bool.or_eq_true, not_or, Bool.not_eq_true] using hignore
    by_cases hdup : e.channels.contains id = true
    · rw [if_pos hdup]
      obtain ⟨state, hstate⟩ := contains_iff.mp hdup
      exact Or.inr (Or.inl ⟨_, rfl, Or.inr (Or.inl ⟨rfl, hopen.1, by simp [hstate]⟩)⟩)
    rw [if_neg hdup]
    have hnone : e.channels[id]? = none := contains_eq_false.mp (Bool.eq_false_iff.mpr hdup)
    by_cases hfull : e.cfg.maxChannels ≤ e.channels.size
    · rw [if_pos hfull]
      rw [h.cfg_eq] at hfull ⊢
      exact Or.inr (Or.inl ⟨_, rfl, Or.inr (Or.inr ⟨rfl, hopen.1, hopen.2, hnone, hfull⟩)⟩)
    · rw [if_neg hfull]
      have htx : (e.insertChannel id).1.acceptTx = true := by
        have hacc := h.accepting
        rw [hopen.1] at hacc
        exact hacc
      dsimp only
      rw [if_pos htx]
      exact Or.inr (Or.inr ⟨rfl, hparity, hopen.1, hnone⟩)
  · rw [if_pos hparity]
    exact Or.inr (Or.inl ⟨_, rfl, Or.inl ⟨rfl, hparity⟩⟩)

theorem Wf.peerOpen_ok (h : e.Wf cfg s) (hopen : e.closed = false) (hnew : e.streamOf id = none) :
    Wf cfg s { (e.insertChannel id).1 with acceptRx := e.acceptRx ++ [e.streams.length] } := by
  refine (h.insertChannel hopen hnew).setAccept ?_
  unfold Endpoint.insertChannel
  simp

/-- What the handler of a credit grant does. -/
theorem peerWindow_cases (h : e.Wf cfg s) (id : ChannelId) (n : UInt32) :
    (e.peerWindow id (BigEndian.ofU32 n) = (e, .ok ()) ∧
      (e.closed = true ∨ e.channels[id]? = none)) ∨
    ∃ state stream, e.channels[id]? = some state ∧ e.streams[state.inst]? = some stream ∧
      stream.id = id ∧
      ((cfg.window < stream.credit.permits + n.toNat ∧
          e.peerWindow id (BigEndian.ofU32 n) =
            (e, .error (.protocol (.flowControlInflated id)))) ∨
        (stream.credit.permits + n.toNat ≤ cfg.window ∧
          e.peerWindow id (BigEndian.ofU32 n) =
            (e.setStream state.inst
              { stream with credit := stream.credit.addPermits n.toNat }, .ok ()))) := by
  unfold peerWindow BigEndian.ofU32
  dsimp only
  rw [BigEndian.toU32_ofU32]
  by_cases hignore : (e.closed || e.retired.contains id) = true
  · rw [if_pos hignore]
    refine Or.inl ⟨rfl, ?_⟩
    rcases Bool.or_eq_true_iff.mp hignore with hc | hr
    · exact Or.inl hc
    · exact Or.inr (h.retired id hr).1
  rw [if_neg hignore]
  cases hstate : e.channels[id]? with
  | none => exact Or.inl ⟨rfl, Or.inr rfl⟩
  | some state =>
      obtain ⟨stream, hi, hid, -, -, -⟩ := h.entry_stream hstate
      refine Or.inr ⟨state, stream, rfl, hi, hid, ?_⟩
      dsimp only
      rw [hi]
      dsimp only
      rw [h.cfg_eq]
      by_cases hbig : cfg.window < stream.credit.permits + n.toNat
      · rw [if_pos hbig]
        exact Or.inl ⟨hbig, rfl⟩
      · rw [if_neg hbig]
        exact Or.inr ⟨by omega, rfl⟩

theorem Wf.addPermits (h : e.Wf cfg s) {stream : Stream} (hi : e.streams[i]? = some stream)
    (n : Nat) :
    (e.setStream i { stream with credit := stream.credit.addPermits n }).Wf cfg s :=
  h.setStream hi rfl ((h.stream_wf hi).addPermits n)
    (fun ho _ => (Semaphore.addPermits_closed _ _).trans ho) (fun hr => hr)

theorem Wf.eraseQueue (h : e.Wf cfg s) : Wf cfg s { e with out := e.out.erase id } := by
  have hqueue : ∀ c, ({ e with out := e.out.erase id } : Endpoint).queue c =
      if id = c then [] else e.queue c := by
    intro c
    unfold queue
    dsimp only
    rw [lookup_erase]
    split_ifs <;> rfl
  exact { h with
    quiet := by
      intro hc
      obtain ⟨hnone, hempty, hurgent⟩ := h.quiet hc
      refine ⟨hnone, fun c => ?_, hurgent⟩
      rw [hqueue, hempty, ite_self]
    queued := by
      intro c seg hmem
      rw [hqueue] at hmem
      split_ifs at hmem
      · cases hmem
      · exact h.queued c seg hmem }

/-- A RESET of a channel that has a stream. -/
theorem Wf.peerReset (h : e.Wf cfg s) (hstream : e.streamOf id ≠ none) :
    (e.peerReset id).Wf cfg s := by
  unfold Endpoint.peerReset
  split_ifs with hclosed
  · exact h
  · cases hstate : e.channels[id]? with
    | none => exact (h.eraseQueue).retire hstate hstream
    | some state =>
        obtain ⟨stream, hi, hid, hof, -, -⟩ := h.entry_stream hstate
        dsimp only
        rw [hi]
        have herased : Wf cfg s { e with channels := e.channels.erase id } := h.eraseChannel
        have hgone : ({ e with channels := e.channels.erase id } : Endpoint).channels[id]? =
            none := by
          dsimp only
          rw [lookup_erase, if_pos rfl]
        have hset : Wf cfg s (Endpoint.setStream { e with channels := e.channels.erase id }
            state.inst { stream with credit := stream.credit.close }) :=
          herased.setStream hi rfl (h.stream_wf hi).closeCredit
            (fun _ hn => absurd (by rw [hid]; exact hgone) hn) (fun hr => hr)
        refine (hset.eraseQueue).retire hgone ?_
        exact streamOf_setStream_ne_none h.unique hi rfl hstream

end Endpoint

end Mux
