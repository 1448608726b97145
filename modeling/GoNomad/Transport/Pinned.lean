import Mathlib.Algebra.BigOperators.Group.Finset.Piecewise
import Mathlib.Algebra.Order.BigOperators.Group.Finset
import GoNomad.Transport.Hostile

/-!
# The memory a peer can pin

While the application takes nothing, what is held for the peer are the frames
that wait in streams and the pieces of frames in assemblers.  The ones a channel
holds are covered by its window; what a channel leaves behind when it goes away
is covered by nothing.

* `held_le` — what is held is what the channels cover and what was left behind;
* `memory_bounded` — the bound, where no channel goes away with frames waiting;
* `memory_unbounded` — a peer that resets its channels is not bounded.
-/

namespace Mux

open Proto Transport

namespace Endpoint

/-! ### What is live and what is left behind -/

/-- The bytes that wait in the stream at a place. -/
def waitingAt (e : Endpoint) (i : Nat) : Nat := (e.streams[i]?.map Stream.waiting).getD 0

/-- The streams that have a channel. -/
def insts (e : Endpoint) : List Nat := e.channels.toList.map fun entry => entry.2.inst

/-- The bytes that wait in streams without a channel. -/
def stranded (e : Endpoint) : Nat :=
  ∑ i ∈ Finset.range e.streams.length, if i ∈ e.insts then 0 else e.waitingAt i

variable {lax : Prop} {e e' : Endpoint} {n : Nat} {c id : ChannelId} {i : Nat}

theorem mem_insts : i ∈ e.insts ↔
    ∃ (c : ChannelId) (state : ChannelState), e.channels[c]? = some state ∧ state.inst = i := by
  unfold insts
  rw [List.mem_map]
  constructor
  · rintro ⟨⟨c, state⟩, hmem, rfl⟩
    exact ⟨c, state, Std.ExtTreeMap.mem_toList_iff_getElem?_eq_some.mp hmem, rfl⟩
  · rintro ⟨c, state, hc, rfl⟩
    exact ⟨(c, state), Std.ExtTreeMap.mem_toList_iff_getElem?_eq_some.mpr hc, rfl⟩

theorem left_eq {state : ChannelState} (hstate : e.channels[id]? = some state) :
    e.left id = e.waitingAt state.inst := by
  unfold left waitingAt
  rw [hstate]

/-- A sum over a list as a sum over its places. -/
theorem sum_map_eq_range {α : Type} (f : α → Nat) (xs : List α) :
    (xs.map f).sum = ∑ i ∈ Finset.range xs.length, (xs[i]?.map f).getD 0 := by
  induction xs using List.reverseRecOn with
  | nil => rfl
  | append_singleton xs x ih =>
      rw [List.map_append, List.sum_append, ih, List.length_append, List.length_singleton,
        Finset.sum_range_succ, List.getElem?_concat_length]
      congr 1
      apply Finset.sum_congr rfl
      intro i hi
      rw [List.getElem?_append_left (Finset.mem_range.mp hi)]

/-- What waits anywhere waits with a channel or is stranded. -/
theorem sum_waiting_eq (e : Endpoint) : (e.streams.map Stream.waiting).sum =
    (∑ i ∈ Finset.range e.streams.length, if i ∈ e.insts then e.waitingAt i else 0) +
      e.stranded := by
  unfold stranded
  rw [sum_map_eq_range, ← Finset.sum_add_distrib]
  apply Finset.sum_congr rfl
  intro i _
  split_ifs <;> simp [waitingAt]

/-- A sum over the places of a list counts no entry of the list twice. -/
theorem sum_mem_le (w : Nat → Nat) (n : Nat) (places : List Nat) :
    (∑ i ∈ Finset.range n, if i ∈ places then w i else 0) ≤ (places.map w).sum := by
  induction places with
  | nil => simp
  | cons place places ih =>
      have hsplit : (∑ i ∈ Finset.range n, if i ∈ place :: places then w i else 0) ≤
          (∑ i ∈ Finset.range n, if i = place then w i else 0) +
            ∑ i ∈ Finset.range n, if i ∈ places then w i else 0 := by
        rw [← Finset.sum_add_distrib]
        apply Finset.sum_le_sum
        intro i _
        by_cases hi : i = place
        · simp [hi]
        · simp [hi]
      have hone : (∑ i ∈ Finset.range n, if i = place then w i else 0) ≤ w place := by
        rw [Finset.sum_ite_eq']
        split_ifs
        · exact Nat.le_refl _
        · exact Nat.zero_le _
      rw [List.map_cons, List.sum_cons]
      omega

/-- **What the channels hold is covered by their windows.** -/
theorem Tight.live_le (h : Tight lax e) :
    (∑ i ∈ Finset.range e.streams.length, if i ∈ e.insts then e.waitingAt i else 0) +
      (e.channels.toList.map fun entry => entry.2.assembler.length).sum ≤
        e.cfg.maxChannels * e.cfg.window := by
  have hlive := sum_mem_le e.waitingAt e.streams.length e.insts
  have hentry : ∀ entry ∈ e.channels.toList,
      e.waitingAt entry.2.inst + entry.2.assembler.length ≤ e.cfg.window := by
    rintro ⟨c, state⟩ hmem
    obtain ⟨stream, hi, -, -, -, hcovered⟩ :=
      h.entry c state (Std.ExtTreeMap.mem_toList_iff_getElem?_eq_some.mp hmem)
    have hcapped := hcovered.capped
    have hwaiting := stream.waiting_le_cost
    have hat : e.waitingAt state.inst = stream.waiting := by
      unfold waitingAt
      rw [hi]
      rfl
    dsimp only
    omega
  have hall : ∀ entries : List (ChannelId × ChannelState), (∀ entry ∈ entries,
      e.waitingAt entry.2.inst + entry.2.assembler.length ≤ e.cfg.window) →
      ((entries.map fun entry => entry.2.inst).map e.waitingAt).sum +
        (entries.map fun entry => entry.2.assembler.length).sum ≤
          entries.length * e.cfg.window := by
    intro entries hle
    induction entries with
    | nil => simp
    | cons entry entries ih =>
        rw [List.forall_mem_cons] at hle
        have hrest := ih hle.2
        have hfirst := hle.1
        simp only [List.map_cons, List.sum_cons, List.length_cons, Nat.succ_mul]
        omega
  have hsum := hall e.channels.toList hentry
  rw [Std.ExtTreeMap.length_toList] at hsum
  have hroom := Nat.mul_le_mul_right e.cfg.window h.room
  unfold insts at hlive ⊢
  omega

/-! ### How the changes move it -/

/-- What waits and has no channel was left behind, up to `l` bytes; once the link
is gone, everything that waits is within what the channels covered. -/
structure Pinned (l : Nat) (e : Endpoint) : Prop where
  stranded : e.closed = false → e.stranded ≤ l
  closed : e.closed = true →
    (e.streams.map Stream.waiting).sum ≤ e.cfg.maxChannels * e.cfg.window + l

variable {l : Nat}

theorem Pinned.mono {l' : Nat} (h : Pinned l e) (hle : l ≤ l') : Pinned l' e :=
  ⟨fun ho => (h.stranded ho).trans hle, fun hc => by have := h.closed hc; omega⟩

theorem waitingAt_setStream {stream stream' : Stream} (hi : e.streams[i]? = some stream)
    (hle : stream'.waiting ≤ stream.waiting) (j : Nat) :
    (e.setStream i stream').waitingAt j ≤ e.waitingAt j := by
  unfold waitingAt
  rw [getElem?_setStream (lt_of_place hi)]
  split_ifs with hij
  · rw [← hij, hi]
    exact hle
  · exact Nat.le_refl _

theorem sum_waiting_le (hlength : e'.streams.length = e.streams.length)
    (hle : ∀ j, e'.waitingAt j ≤ e.waitingAt j) :
    (e'.streams.map Stream.waiting).sum ≤ (e.streams.map Stream.waiting).sum := by
  rw [sum_map_eq_range, sum_map_eq_range, hlength]
  exact Finset.sum_le_sum fun j _ => hle j

/-- Streams that hold no more, with the same channels. -/
theorem Pinned.setStream (h : Pinned l e) {stream stream' : Stream}
    (hi : e.streams[i]? = some stream) (hle : stream'.waiting ≤ stream.waiting) :
    Pinned l (e.setStream i stream') := by
  have hlength : (e.setStream i stream').streams.length = e.streams.length := List.length_set
  have hat := waitingAt_setStream hi hle
  constructor
  · intro hopen
    refine Nat.le_trans ?_ (h.stranded hopen)
    unfold Endpoint.stranded
    rw [hlength]
    apply Finset.sum_le_sum
    intro j _
    show (if j ∈ e.insts then 0 else (e.setStream i stream').waitingAt j) ≤ _
    split_ifs
    · exact Nat.le_refl _
    · exact hat j
  · intro hclosed
    exact (sum_waiting_le hlength hat).trans (h.closed hclosed)

theorem Pinned.inserted (h : Pinned l e) (hopen : e.closed = false)
    (hnone : e.channels[id]? = none) : Pinned l (e.insertChannel id).1 := by
  refine ⟨fun _ => ?_, fun hc => ?_⟩
  · refine Nat.le_trans ?_ (h.stranded hopen)
    have hchannels : (e.insertChannel id).1.channels = e.channels.insert id e.newEntry := rfl
    have hnew : e.streams.length ∈ (e.insertChannel id).1.insts :=
      mem_insts.mpr ⟨id, e.newEntry, by rw [hchannels, lookup_insert, if_pos rfl], rfl⟩
    unfold Endpoint.stranded
    rw [show (e.insertChannel id).1.streams.length = e.streams.length + 1 from
      List.length_append, Finset.sum_range_succ, if_pos hnew, Nat.add_zero]
    apply Finset.sum_le_sum
    intro j hj
    have hat : (e.insertChannel id).1.waitingAt j = e.waitingAt j := by
      unfold waitingAt
      rw [show (e.insertChannel id).1.streams[j]? = e.streams[j]? from
        List.getElem?_append_left (Finset.mem_range.mp hj)]
    by_cases hmem : j ∈ e.insts
    · obtain ⟨c, state, hc, rfl⟩ := mem_insts.mp hmem
      have hstays : state.inst ∈ (e.insertChannel id).1.insts := by
        refine mem_insts.mpr ⟨c, state, ?_, rfl⟩
        rw [hchannels, lookup_insert, if_neg]
        · exact hc
        · rintro rfl
          rw [hnone] at hc
          cases hc
      rw [if_pos hstays]
      exact Nat.zero_le _
    · rw [if_neg hmem, hat]
      split_ifs
      · exact Nat.zero_le _
      · exact Nat.le_refl _
  · have hc : e.closed = true := hc
    rw [hopen] at hc
    cases hc

theorem Pinned.updated (h : Pinned l e) (hquiet : e.closed = true → e.channels = ∅)
    {state state' : ChannelState} {stream : Stream}
    (hstate : e.channels[id]? = some state) (hi : e.streams[state.inst]? = some stream)
    (hinst : state'.inst = state.inst) (stream' : Stream) :
    Pinned l (e.setEntry id state.inst state' stream') := by
  have hopen : e.closed = false := by
    rw [← Bool.not_eq_true]
    intro hc
    rw [hquiet hc, lookup_empty] at hstate
    cases hstate
  refine ⟨fun _ => ?_, fun hc => ?_⟩
  · refine Nat.le_trans ?_ (h.stranded hopen)
    have hchannels : (e.setEntry id state.inst state' stream').channels =
        e.channels.insert id state' := rfl
    have hinsts : ∀ j ∈ e.insts, j ∈ (e.setEntry id state.inst state' stream').insts := by
      intro j hmem
      obtain ⟨c, st, hc, rfl⟩ := mem_insts.mp hmem
      by_cases hid : id = c
      · rw [← hid, hstate] at hc
        cases hc
        exact mem_insts.mpr ⟨id, state', by rw [hchannels, lookup_insert, if_pos rfl], hinst⟩
      · exact mem_insts.mpr ⟨c, st, by rw [hchannels, lookup_insert, if_neg hid]; exact hc, rfl⟩
    unfold Endpoint.stranded
    rw [show (e.setEntry id state.inst state' stream').streams.length = e.streams.length from
      List.length_set]
    apply Finset.sum_le_sum
    intro j _
    by_cases hmem : j ∈ e.insts
    · rw [if_pos (hinsts j hmem)]
      exact Nat.zero_le _
    · have hne : state.inst ≠ j := by
        rintro rfl
        exact hmem (mem_insts.mpr ⟨id, state, hstate, rfl⟩)
      have hat : (e.setEntry id state.inst state' stream').waitingAt j = e.waitingAt j := by
        unfold waitingAt
        rw [getElem?_setEntry (lt_of_place hi), if_neg hne]
      rw [if_neg hmem, hat]
      split_ifs
      · exact Nat.zero_le _
      · exact Nat.le_refl _
  · have hc : e.closed = true := hc
    rw [hopen] at hc
    cases hc

/-- A channel that goes away strands what waits in its stream. -/
theorem Pinned.removed (h : Pinned l e) (hopen : e.closed = false) :
    Pinned (l + e.left id) (({ e with channels := e.channels.erase id } : Endpoint).retire id) := by
  rw [retire_eq]
  refine ⟨fun _ => ?_, fun hc => ?_⟩
  · have hstranded := h.stranded hopen
    refine Nat.le_trans ?_ (Nat.add_le_add_right hstranded _)
    show (∑ j ∈ Finset.range e.streams.length,
      if j ∈ ({ e with channels := e.channels.erase id } : Endpoint).insts then 0
        else e.waitingAt j) ≤ _
    have hinsts : ∀ j ∈ e.insts,
        j ∈ ({ e with channels := e.channels.erase id } : Endpoint).insts ∨
          ∃ state, e.channels[id]? = some state ∧ state.inst = j := by
      intro j hmem
      obtain ⟨c, state, hc, hinst⟩ := mem_insts.mp hmem
      by_cases hid : id = c
      · exact .inr ⟨state, by rw [hid]; exact hc, hinst⟩
      · refine .inl (mem_insts.mpr ⟨c, state, ?_, hinst⟩)
        show (e.channels.erase id)[c]? = some state
        rw [lookup_erase, if_neg hid]
        exact hc
    cases hstate : e.channels[id]? with
    | none =>
        refine Nat.le_trans ?_ (Nat.le_add_right _ _)
        apply Finset.sum_le_sum
        intro j _
        by_cases hmem : j ∈ e.insts
        · rcases hinsts j hmem with hstays | ⟨state, hc, -⟩
          · rw [if_pos hstays]
            exact Nat.zero_le _
          · rw [hstate] at hc
            cases hc
        · rw [if_neg hmem]
          split_ifs
          · exact Nat.zero_le _
          · exact Nat.le_refl _
    | some state =>
        have hone : (∑ j ∈ Finset.range e.streams.length,
            if j = state.inst then e.waitingAt j else 0) ≤ e.left id := by
          rw [left_eq hstate, Finset.sum_ite_eq']
          split_ifs
          · exact Nat.le_refl _
          · exact Nat.zero_le _
        refine Nat.le_trans ?_ (Nat.add_le_add_left hone _)
        unfold Endpoint.stranded
        rw [← Finset.sum_add_distrib]
        apply Finset.sum_le_sum
        intro j _
        by_cases hmem : j ∈ e.insts
        · rcases hinsts j hmem with hstays | ⟨state', hc, rfl⟩
          · rw [if_pos hstays]
            exact Nat.zero_le _
          · rw [hstate] at hc
            cases hc
            rw [if_pos hmem, if_pos rfl, Nat.zero_add]
            split_ifs
            · exact Nat.zero_le _
            · exact Nat.le_refl _
        · rw [if_neg hmem]
          split_ifs <;> omega
  · have hc : e.closed = true := hc
    rw [hopen] at hc
    cases hc

theorem Pinned.shutdown (h : Pinned l e) (htight : Tight lax e) (hopen : e.closed = false)
    (err : Option TransportError) : Pinned l (e.shutdown err) := by
  have hclosed : (e.shutdown err).closed = true := by
    unfold Endpoint.shutdown
    rw [if_neg (by simp [hopen])]
  have hcfg : (e.shutdown err).cfg = e.cfg := by
    unfold Endpoint.shutdown
    rw [if_neg (by simp [hopen])]
  refine ⟨fun ho => (by rw [hclosed] at ho; cases ho), fun _ => ?_⟩
  have hat : ∀ j, (e.shutdown err).waitingAt j ≤ e.waitingAt j := by
    intro j
    unfold waitingAt
    cases hj : e.streams[j]? with
    | none =>
        have hnone : (e.shutdown err).streams[j]? = none := by
          rw [List.getElem?_eq_none_iff] at hj ⊢
          rwa [length_shutdown]
        rewrite [hnone]
        exact Nat.le_refl _
    | some stream =>
        obtain ⟨stream', hj', hsevered⟩ : ∃ stream', (e.shutdown err).streams[j]? = some stream' ∧
          Severed stream stream' := shutdown_place hopen hj
        rw [hj']
        rcases hsevered with rfl | rfl
        · exact Nat.le_refl _
        · exact Nat.le_refl _
  have htotal := sum_waiting_le length_shutdown hat
  have hsum := sum_waiting_eq e
  have hlive := htight.live_le
  have hstranded := h.stranded hopen
  rw [hcfg]
  omega

/-- **Every change** strands what it leaves behind, and no more. -/
theorem Pinned.change (h : Pinned l e) (htight : Tight lax e) (hc : Change lax e n e') :
    Pinned (l + n) e' := by
  cases hc with
  | alike ha =>
      obtain ⟨hcfg, hclosed, -, hchannels, hstreams, -, -⟩ := ha
      have hinsts : e'.insts = e.insts := by unfold insts; rw [hchannels]
      refine ⟨fun ho => ?_, fun hc => ?_⟩
      · have hsame : e'.stranded = e.stranded := by
          unfold Endpoint.stranded waitingAt
          rw [hinsts, hstreams]
        rw [hsame]
        exact h.stranded (hclosed ▸ ho)
      · rw [hstreams, hcfg]
        exact h.closed (hclosed ▸ hc)
  | stream hi hl => exact h.setStream hi hl.waiting
  | severed hi _ => exact h.setStream hi (Nat.le_refl _)
  | inserted hopen hnone _ _ => exact h.inserted hopen hnone
  | entry hstate hi hs => exact h.updated htight.quiet hstate hi hs.inst _
  | removed id hopen => exact h.removed hopen
  | shutdown err hopen => exact h.shutdown htight hopen err

theorem Pinned.changes (h : Pinned l e) (htight : Tight lax e) (hc : Changes lax e n e') :
    Pinned (l + n) e' := by
  induction hc with
  | nil => exact h
  | snoc first last ih =>
      rw [← Nat.add_assoc]
      exact ih.change (htight.changes first) last

theorem Change.cfg_eq (h : Change lax e n e') : e'.cfg = e.cfg := by
  cases h with
  | alike ha => exact ha.cfg
  | stream _ _ => rfl
  | severed _ _ => rfl
  | inserted _ _ _ _ => rfl
  | entry _ _ _ => rfl
  | removed id _ =>
      rw [retire_eq]
  | shutdown err hopen =>
      unfold Endpoint.shutdown
      rw [if_neg (by simp [hopen])]

theorem Changes.cfg_eq (h : Changes lax e n e') : e'.cfg = e.cfg := by
  induction h with
  | nil => rfl
  | snoc _ last ih => exact last.cfg_eq.trans ih

/-! ### The urgent queue -/

/-- No reader is gone, and no grant is queued. -/
structure Ungranted (e : Endpoint) : Prop where
  urgent : e.urgent = []
  readers : ∀ stream ∈ e.streams, stream.recv.isSome = true

theorem Ungranted.setStream (h : Ungranted e) {stream stream' : Stream}
    (hi : e.streams[i]? = some stream) (hrecv : stream'.recv = stream.recv) :
    Ungranted (e.setStream i stream') := by
  refine ⟨h.urgent, fun t ht => ?_⟩
  rcases mem_setStream ht with rfl | ht
  · rw [hrecv]
    exact h.readers stream (List.mem_of_getElem? hi)
  · exact h.readers t ht

theorem Ungranted.insertChannel (h : Ungranted e) : Ungranted (e.insertChannel id).1 := by
  refine ⟨h.urgent, fun t ht => ?_⟩
  rcases List.mem_append.mp ht with ht | ht
  · exact h.readers t ht
  · rw [List.mem_singleton.mp ht]
    rfl

theorem Ungranted.retire (h : Ungranted e) : Ungranted (e.retire id) := by
  rw [retire_eq]
  exact ⟨h.urgent, h.readers⟩

theorem Ungranted.closeChannel (h : Ungranted e) : Ungranted (e.closeChannel id) := by
  unfold Endpoint.closeChannel
  split_ifs
  · have hretired : Ungranted (({ e with channels := e.channels.erase id } : Endpoint).retire id) :=
      Ungranted.retire ⟨h.urgent, h.readers⟩
    exact ⟨hretired.urgent, hretired.readers⟩
  · exact h

theorem Ungranted.shutdown (h : Ungranted e) (err : Option TransportError) :
    Ungranted (e.shutdown err) := by
  unfold Endpoint.shutdown
  split_ifs
  · exact h
  · refine ⟨rfl, fun t ht => ?_⟩
    obtain ⟨j, hj, rfl⟩ := List.mem_mapIdx.mp ht
    have hreader := h.readers _ (List.getElem_mem hj)
    split_ifs
    · exact hreader
    · exact hreader

theorem Ungranted.sendPolled (h : Ungranted e) {stream : Stream} (hi : e.streams[i]? = some stream)
    {frame : Frame} {chunks : List Bytes} (polled : Semaphore × Semaphore.Poll) :
    Ungranted (e.sendPolled i stream frame chunks polled).1 := by
  obtain ⟨credit, poll⟩ := polled
  cases poll with
  | acquired => exact h.setStream hi rfl
  | pending => exact h.setStream hi rfl
  | closed => exact h.setStream hi rfl

theorem Ungranted.sendPush (h : Ungranted e) {stream : Stream} (hi : e.streams[i]? = some stream)
    (frame : Frame) (chunk : Bytes) (rest : List Bytes) :
    Ungranted (e.sendPush i stream frame chunk rest).1 := by
  unfold Endpoint.sendPush pushData
  by_cases hclosed : e.closed = true
  · rw [if_pos hclosed]
    exact h.setStream hi rfl
  rw [if_neg hclosed]
  by_cases hgone : (!e.channels.contains stream.id) = true
  · rw [if_pos hgone]
    exact h.setStream hi rfl
  · rw [if_neg hgone]
    exact Ungranted.setStream (e := e.enqueue _) ⟨h.urgent, h.readers⟩ hi rfl

theorem Ungranted.peerOpen (h : Ungranted e) (htight : Tight lax e) :
    Ungranted (e.peerOpen id).1 := by
  unfold Endpoint.peerOpen
  split_ifs with hparity hignore
  · exact h
  · exact h
  · exact h
  · exact h
  · have hopen : e.closed = false := by
      simp only [Bool.or_eq_true, not_or, Bool.not_eq_true] at hignore
      exact hignore.1
    have haccept : (e.insertChannel id).1.acceptTx = true := htight.accepting hopen
    have hinserted := @Ungranted.insertChannel e id h
    dsimp only
    rw [if_pos haccept]
    exact ⟨hinserted.urgent, hinserted.readers⟩

/-- With its reader there, no frame is refunded. -/
theorem Ungranted.peerData (h : Ungranted e) (htight : Tight lax e) (body : Bytes) :
    Ungranted (e.peerData id body).1 := by
  unfold Endpoint.peerData
  split_ifs
  · exact h
  · exact h
  cases hstate : e.channels[id]? with
  | none => exact h
  | some state =>
      obtain ⟨stream, hi, -, -, hin, -⟩ := htight.entry id state hstate
      have hreader := h.readers stream (List.mem_of_getElem? hi)
      dsimp only
      rw [hi]
      dsimp only
      by_cases hbig : e.cfg.window < state.unacked + body.length
      · rw [if_pos hbig]
        exact ⟨h.urgent, h.readers⟩
      rw [if_neg hbig]
      obtain ⟨fs, state', stream', refund, result, heq, hcut, -, -⟩ :=
        @reassemble_spec e.cfg.maxFrameLen ((state.assembler ++ body).length + 1)
          { state with assembler := state.assembler ++ body,
                       unacked := state.unacked + body.length } stream 0
          (Nat.lt_succ_self _) hin
      have hinst : state'.inst = state.inst := hcut.inst
      have hqueue := hcut.queue
      have hrefund := hcut.cost
      rw [if_pos hreader] at hqueue hrefund
      have hset : ∀ state'', Ungranted (e.setEntry id state.inst state'' stream') := by
        intro state''
        have hentry : Ungranted { e with channels := e.channels.insert id state'' } :=
          ⟨h.urgent, h.readers⟩
        exact hentry.setStream hi (by rw [hqueue])
      rw [heq]
      cases result with
      | error err =>
          dsimp only
          rw [hinst]
          exact hset _
      | ok u =>
          have hzero : refund = 0 := by omega
          subst hzero
          have hset := hset { state' with unacked := state'.unacked - 0 }
          rw [← hinst] at hset
          exact hset

theorem Ungranted.peerWindow (h : Ungranted e) (htight : Tight lax e) (body : Bytes) :
    Ungranted (e.peerWindow id body).1 := by
  unfold Endpoint.peerWindow
  split
  · split_ifs
    · exact h
    cases hstate : e.channels[id]? with
    | none => exact h
    | some state =>
        obtain ⟨stream, hi, -⟩ := htight.entry id state hstate
        dsimp only
        rw [hi]
        dsimp only
        split_ifs
        · exact h
        · exact h.setStream hi rfl
  · exact h

theorem Ungranted.peerReset (h : Ungranted e) (htight : Tight lax e) :
    Ungranted (e.peerReset id) := by
  unfold Endpoint.peerReset
  split_ifs
  · exact h
  apply Ungranted.retire
  cases hstate : e.channels[id]? with
  | none => exact ⟨h.urgent, h.readers⟩
  | some state =>
      obtain ⟨stream, hi, -⟩ := htight.entry id state hstate
      dsimp only
      rw [hi]
      have herased : Ungranted { e with channels := e.channels.erase id } :=
        ⟨h.urgent, h.readers⟩
      have hset := @Ungranted.setStream _ state.inst herased stream
        { stream with credit := stream.credit.close } hi rfl
      exact ⟨hset.urgent, hset.readers⟩

end Endpoint

namespace Hostile

open Endpoint

variable {e e' e₀ : Endpoint} {n : Nat} {event : Event} {trace : Trace}

/-! ### While the application takes nothing -/

/-- Nothing is received, accepted or dropped. -/
def Passive : Event → Prop
  | .op .acceptBi | .op (.dropSend _) | .op (.dropRecv _) | .op (.recvPop _)
  | .op (.recvCredit _) | .op (.recvEnd _) => False
  | _ => True

/-- The observation of a step is what its event may leave behind. -/
theorem behind_eq (hstep : step e event = some (e', n)) : behind e event = n := by
  cases event with
  | op o =>
      obtain ⟨r, -, hres⟩ := Option.map_eq_some_iff.mp hstep
      cases hres
      rfl
  | takeNext =>
      obtain ⟨r, -, hres⟩ := Option.map_eq_some_iff.mp hstep
      cases hres
      rfl
  | segment bytes =>
      cases hstep
      rfl
  | shutdown err =>
      cases hstep
      rfl

theorem ungranted_of_perform {o : LocalOp} {r : Endpoint × Obs} (h : Ungranted e)
    (hpassive : Passive (.op o)) (hr : e.perform o = some r) : Ungranted r.1 := by
  cases o with
  | openBi =>
      cases hr
      unfold openBi
      rcases openLocal_cases (e := e) with ⟨-, inst, hres⟩ | ⟨-, err, hres⟩
      · rw [hres]
        have hnext : Ungranted { e with nextLocal := e.nextLocal + 2 } := ⟨h.urgent, h.readers⟩
        have hinserted := @Ungranted.insertChannel _ e.nextLocal hnext
        exact ⟨hinserted.urgent, hinserted.readers⟩
      · rw [hres]
        exact ⟨h.urgent, h.readers⟩
  | close =>
      cases hr
      exact h.shutdown none
  | sendStart i frame =>
      obtain ⟨stream, hs, hr⟩ := Option.bind_eq_some_iff.mp hr
      split_ifs at hr
      cases hr
      unfold sendStart
      split_ifs
      · exact h
      · exact h.setStream (stream?_some hs) rfl
  | sendStep i =>
      obtain ⟨stream, hs, hr⟩ := Option.bind_eq_some_iff.mp hr
      unfold sendStep at hr
      split at hr
      · cases hr
        exact h.sendPolled (stream?_some hs) _
      · split_ifs at hr
        cases hr
        exact h.sendPolled (stream?_some hs) _
      · cases hr
        exact h.sendPush (stream?_some hs) _ _ _
      · cases hr
  | sendCancel i =>
      obtain ⟨stream, hs, hr⟩ := Option.bind_eq_some_iff.mp hr
      unfold sendCancel at hr
      split at hr
      · cases hr
      · cases hr
        exact h.setStream (stream?_some hs) rfl
      · cases hr
  | finish i =>
      obtain ⟨stream, hs, hr⟩ := Option.bind_eq_some_iff.mp hr
      unfold finish at hr
      split at hr
      · cases hr
        dsimp only
        rw [closeChannel_twice, ite_self]
        have hset := @Ungranted.setStream _ i h stream { stream with send := none }
          (stream?_some hs) rfl
        exact hset.closeChannel
      · cases hr
  | acceptBi => exact hpassive.elim
  | dropSend i => exact hpassive.elim
  | dropRecv i => exact hpassive.elim
  | recvPop i => exact hpassive.elim
  | recvCredit i => exact hpassive.elim
  | recvEnd i => exact hpassive.elim

theorem ungranted_of_step (h : Ungranted e) (htight : Tight True e) (hpassive : Passive event)
    (hstep : step e event = some (e', n)) : Ungranted e' := by
  cases event with
  | op o =>
      obtain ⟨r, hr, hres⟩ := Option.map_eq_some_iff.mp hstep
      cases hres
      exact ungranted_of_perform h hpassive hr
  | takeNext =>
      obtain ⟨r, hr, hres⟩ := Option.map_eq_some_iff.mp hstep
      cases hres
      unfold Endpoint.takeNext at hr
      rw [h.urgent] at hr
      dsimp only at hr
      split at hr
      · cases hr
      · split at hr
        · cases hr
          exact ⟨rfl, h.readers⟩
        · cases hr
  | segment bytes =>
      cases hstep
      unfold handleSegment
      split
      · dsimp only
        split_ifs
        · exact h.peerOpen htight
        · exact h.peerData htight _
        · exact h.peerWindow htight _
        · exact h.peerReset htight
        · exact h
      · exact h
  | shutdown err =>
      cases hstep
      exact h.shutdown err

/-- The bytes held on the peer's behalf: the payloads that wait in streams, the
pieces in assemblers, and the segments that wait to be written first. -/
def held (e : Endpoint) : Nat :=
  (e.streams.map Stream.waiting).sum +
    (e.channels.toList.map fun entry => entry.2.assembler.length).sum +
    (e.urgent.map fun seg => seg.encode.length).sum

/-- The bytes that a run left behind. -/
def abandoned (trace : Trace) : Nat := (trace.map Prod.snd).sum

/-- What a run in which nothing is taken keeps. -/
structure Passing (cfg : MuxConfig) (trace : Trace) (e : Endpoint) : Prop where
  cfg_eq : e.cfg = cfg
  tight : Tight True e
  pinned : Pinned (abandoned trace) e
  ungranted : Ungranted e

theorem abandoned_snoc (trace : Trace) (event : Event) (n : Nat) :
    abandoned (trace ++ [(event, n)]) = abandoned trace + n := by
  unfold abandoned
  rw [List.map_append, List.sum_append]
  simp

/-- While nothing is taken, a step is a sequence of changes. -/
theorem changes_of_passive (h : Tight True e) (hpassive : Passive event)
    (hstep : step e event = some (e', n)) : ∃ m ≤ n, Changes True e m e' := by
  refine changes_of_step h (fun i _ _ hevent => ?_) (.inl trivial) (.inl trivial) hstep
  subst hevent
  exact hpassive.elim

theorem passing_of_run {cfg : MuxConfig} {s : Role} (hinit : spawn cfg s = .ok e₀)
    (hrun : Transition.Run step (fun _ _ event => Passive event) e₀ trace e) :
    Passing cfg trace e := by
  refine hrun.invariant (fun trace e => Passing cfg trace e) ?_ ?_
  · have htight : Tight True e₀ := .spawned hinit
    unfold spawn at hinit
    split at hinit
    · cases hinit
    · cases hinit
      exact ⟨rfl, htight, ⟨fun _ => Nat.zero_le _, fun hc => by cases hc⟩,
        ⟨rfl, fun stream hmem => by cases hmem⟩⟩
  · intro trace e event e' n h hpassive hstep
    obtain ⟨m, hm, hchanges⟩ := changes_of_passive h.tight hpassive hstep
    refine ⟨hchanges.cfg_eq.trans h.cfg_eq, h.tight.changes hchanges, ?_,
      ungranted_of_step h.ungranted h.tight hpassive hstep⟩
    rw [abandoned_snoc]
    exact (h.pinned.changes h.tight hchanges).mono (by omega)

/-- **What is held** is what the channels cover and what was left behind. -/
theorem held_le {cfg : MuxConfig} {s : Role} (hinit : spawn cfg s = .ok e₀)
    (hrun : Transition.Run step (fun _ _ event => Passive event) e₀ trace e) :
    held e ≤ cfg.maxChannels * cfg.window + abandoned trace := by
  obtain ⟨hcfg, htight, hpinned, hungranted⟩ := passing_of_run hinit hrun
  have hsum := sum_waiting_eq e
  have hlive := htight.live_le
  unfold held
  rw [hungranted.urgent, List.map_nil, List.sum_nil, ← hcfg]
  by_cases hclosed : e.closed = true
  · have hwaiting := hpinned.closed hclosed
    have hnone : e.channels.toList = [] := by
      rw [htight.quiet hclosed]
      rfl
    rw [hnone, List.map_nil, List.sum_nil]
    omega
  · have hstranded := hpinned.stranded (by simpa using hclosed)
    omega

/-- **The memory of a peer is bounded** by the configuration, as long as no
channel goes away with frames waiting in it. -/
theorem memory_bounded {cfg : MuxConfig} {s : Role} (hinit : spawn cfg s = .ok e₀)
    (hrun : Transition.Run step (fun _ e event => Passive event ∧ behind e event = 0) e₀ trace e) :
    held e ≤ cfg.maxChannels * cfg.window := by
  have hnone : abandoned trace = 0 := by
    refine hrun.invariant (fun trace _ => abandoned trace = 0) rfl ?_
    intro trace e event e' n hzero hok hstep
    rw [abandoned_snoc, hzero, Nat.zero_add, ← behind_eq hstep]
    exact hok.2
  have hle := held_le hinit (hrun.mono fun _ _ _ hok => hok.1)
  omega

/-- One frame that waits. -/
theorem memory_bounded_waiting :
    ∃ (e₀ : Endpoint) (trace : Trace) (e : Endpoint), spawn Link.lone .responder = .ok e₀ ∧
      Transition.Run step (fun _ e event => Passive event ∧ behind e event = 0) e₀ trace e ∧
      trace.map Prod.fst = [.segment (Segment.open controlChannel).encode,
        .segment (Segment.data controlChannel Link.dash.encode).encode] ∧
      held e = 1 ∧ held e ≤ Link.lone.maxChannels * Link.lone.window := by
  obtain ⟨e₀, hinit⟩ : ∃ e₀, spawn Link.lone .responder = .ok e₀ := ⟨_, rfl⟩
  obtain ⟨e₁, hstep₁, e₂, hstep₂, hheld⟩ : ∃ e₁,
      step e₀ (.segment (Segment.open controlChannel).encode) = some (e₁, 0) ∧ ∃ e₂,
        step e₁ (.segment (Segment.data controlChannel Link.dash.encode).encode) = some (e₂, 0) ∧
          held e₂ = 1 := by
    cases hinit
    exact ⟨_, rfl, _, rfl, rfl⟩
  have hpassive : ∀ bytes, Passive (.segment bytes) := fun _ => trivial
  have hrun : Transition.Run step (fun _ e event => Passive event ∧ behind e event = 0) e₀ _ e₂ :=
    (Transition.Run.nil.snoc ⟨hpassive _, behind_eq hstep₁⟩ hstep₁).snoc
      ⟨hpassive _, behind_eq hstep₂⟩ hstep₂
  exact ⟨e₀, _, e₂, hinit, hrun, rfl, hheld, memory_bounded hinit hrun⟩

/-! ### A peer that resets its channels -/

/-- After the peer opened some ids, each with one frame, and reset them. -/
structure Flooded (past : List ChannelId) (e : Endpoint) : Prop where
  cfg_eq : e.cfg = Link.lone
  role : e.role = .responder
  running : e.closed = false
  empty : e.channels = ∅
  order : e.retiredOrder = past.drop (past.length - retiredMemory)
  waiting : (e.streams.map Stream.waiting).sum = past.length

/-- A frame of one byte arrives on a new channel. -/
theorem peerData_dash {id : ChannelId} {stream : Stream} (hcfg : e.cfg = Link.lone)
    (hopen : e.closed = false) (hnew : e.retired.contains id = false)
    (hstate : e.channels[id]? = some ⟨i, true, [], 0⟩) (hi : e.streams[i]? = some stream)
    (hrx : stream.rx = []) (hrecv : stream.recv = some .idle) :
    e.peerData id Link.dash.encode =
      (e.setEntry id i ⟨i, true, [], 6⟩ { stream with rx := [Link.dash] }, .ok ()) := by
  obtain ⟨sid, credit, rx, send, recv⟩ := stream
  cases hrx
  cases hrecv
  unfold Endpoint.peerData
  rw [if_neg (by decide), if_neg (by simp [hopen, hnew]), hstate]
  dsimp only
  rw [hi]
  dsimp only
  have hcut : reassemble e.cfg.maxFrameLen (([] ++ Link.dash.encode).length + 1)
      ⟨i, true, [] ++ Link.dash.encode, 0 + Link.dash.encode.length⟩
      ⟨sid, credit, [], send, some .idle⟩ 0 =
        ((⟨i, true, [], 6⟩, ⟨sid, credit, [Link.dash], send, some .idle⟩, 0), .ok ()) := by
    rw [hcfg]
    rfl
  rw [if_neg (by rw [hcfg]; decide), hcut]
  rfl

/-- **One round** leaves its frame behind. -/
theorem Flooded.round {past : List ChannelId} {id : ChannelId}
    (hinit : spawn Link.lone .responder = .ok e₀)
    (hrun : Transition.Run step (fun _ _ event => Passive event) e₀ trace e)
    (h : Flooded past e) (hid : id % 2 = 0)
    (hnew : id ∉ past.drop (past.length - retiredMemory)) :
    ∃ trace' e', Transition.Run step (fun _ _ event => Passive event) e₀ trace' e' ∧
      Flooded (past ++ [id]) e' := by
  have htight := (passing_of_run hinit hrun).tight
  have hpassive : ∀ bytes, Passive (.segment bytes) := fun _ => trivial
  have hfresh : id ∉ e.retiredOrder := by
    rw [h.order]
    exact hnew
  have hforgotten : e.retired.contains id = false := by
    rw [← Bool.not_eq_true, htight.remembered]
    exact hfresh
  -- The id is opened.
  have hopened := @peerOpen_new True e id htight (by rw [h.role]; exact hid) h.running hfresh
    (by rw [h.empty, lookup_empty])
    (by rw [h.empty, h.cfg_eq, Std.ExtTreeMap.size_empty]; decide)
  set e₁ : Endpoint := { (e.insertChannel id).1 with
    acceptRx := e.acceptRx ++ [e.streams.length] } with he₁
  have hstep₁ : step e (.segment (Segment.open id).encode) =
      some (e₁, behind e (.segment (Segment.open id).encode)) := by
    show some ((e.handleSegment (Segment.open id).encode).1, _) = _
    rw [handle_open, hopened]
  have hrun₁ := hrun.snoc (hpassive _) hstep₁
  have hentry₁ : e₁.channels[id]? = some ⟨e.streams.length, true, [], 0⟩ := by
    show (e.channels.insert id ⟨e.streams.length, true, [], 0⟩)[id]? = _
    rw [lookup_insert, if_pos rfl]
  have hi₁ : e₁.streams[e.streams.length]? = some (e.newStream id) :=
    List.getElem?_concat_length
  -- A frame arrives.
  have hdata := @peerData_dash e₁ e.streams.length id (e.newStream id) h.cfg_eq h.running
    hforgotten hentry₁ hi₁ rfl rfl
  set e₂ : Endpoint := e₁.setEntry id e.streams.length ⟨e.streams.length, true, [], 6⟩
    { e.newStream id with rx := [Link.dash] } with he₂
  have hstep₂ : step e₁ (.segment (Segment.data id Link.dash.encode).encode) =
      some (e₂, behind e₁ (.segment (Segment.data id Link.dash.encode).encode)) := by
    show some ((e₁.handleSegment (Segment.data id Link.dash.encode).encode).1, _) = _
    rw [handle_data, hdata]
  have hrun₂ := hrun₁.snoc (hpassive _) hstep₂
  have hentry₂ : e₂.channels[id]? = some ⟨e.streams.length, true, [], 6⟩ := by
    show (e₁.channels.insert id ⟨e.streams.length, true, [], 6⟩)[id]? = _
    rw [lookup_insert, if_pos rfl]
  have hstreams₂ : e₂.streams = e.streams ++ [{ e.newStream id with rx := [Link.dash] }] := by
    show (e.streams ++ [e.newStream id]).set e.streams.length _ = _
    rw [List.set_append_right _ _ (Nat.le_refl _), Nat.sub_self]
    rfl
  -- The channel is reset.
  set e₃ : Endpoint := e₂.peerReset id with he₃
  have hstep₃ : step e₂ (.segment (Segment.reset id).encode) =
      some (e₃, behind e₂ (.segment (Segment.reset id).encode)) := by
    show some ((e₂.handleSegment (Segment.reset id).encode).1, _) = _
    rw [handle_reset]
  have hi₂ : e₂.streams[e.streams.length]? = some { e.newStream id with rx := [Link.dash] } := by
    rw [hstreams₂]
    exact List.getElem?_concat_length
  set severed : Endpoint := { ({ e₂ with channels := e₂.channels.erase id } : Endpoint).setStream
    e.streams.length { e.newStream id with
      rx := [Link.dash], credit := (e.newStream id).credit.close } with
    out := e₂.out.erase id } with hsevered
  have hreset : e₃ = severed.retire id := by
    rw [he₃]
    unfold Endpoint.peerReset
    have hclosed₂ : e₂.closed = false := h.running
    rw [if_neg (by rw [hclosed₂]; exact Bool.false_ne_true), hentry₂]
    dsimp only
    rw [hi₂, hsevered]
    rfl
  refine ⟨_, e₃, hrun₂.snoc (hpassive _) hstep₃, ?_⟩
  rw [hreset, retire_eq]
  refine ⟨h.cfg_eq, h.role, h.running, ?_, ?_, ?_⟩
  · apply Std.ExtTreeMap.ext_getElem?
    intro c
    show (e₂.channels.erase id)[c]? = _
    rw [lookup_erase, lookup_empty]
    split_ifs with hc
    · rfl
    · show ((e.channels.insert id _).insert id _)[c]? = none
      rw [lookup_insert, if_neg hc, lookup_insert, if_neg hc, h.empty, lookup_empty]
  · have hsame : (severed.retire id).retiredOrder = (e.retire id).retiredOrder :=
      (retire_state (e := severed) id hforgotten).1.trans (retire_state id hforgotten).1.symm
    show (severed.retire id).retiredOrder = _
    rw [hsame, (htight.retire_order hfresh).1, h.order]
    exact drop_snoc past id
  · show ((e₂.streams.set e.streams.length _).map Stream.waiting).sum = _
    rw [hstreams₂, List.set_append_right _ _ (Nat.le_refl _), Nat.sub_self, List.map_append,
      List.sum_append, h.waiting, List.length_append]
    rfl

/-- The ids that the memory of closed ids has forgotten are new again. -/
theorem next_forgotten (k : Nat) :
    UInt32.ofNat (2 * k) ∉ (Endpoint.firstIds k).drop ((Endpoint.firstIds k).length - retiredMemory) := by
  intro hmem
  obtain ⟨j, hj, heq⟩ := List.mem_iff_getElem.mp hmem
  rw [List.length_drop, Endpoint.length_firstIds] at hj
  rw [List.getElem_drop] at heq
  unfold Endpoint.firstIds at heq
  rw [List.getElem_map, List.getElem_range, List.length_map, List.length_range] at heq
  have hnat := congrArg UInt32.toNat heq
  rw [UInt32.toNat_ofNat', UInt32.toNat_ofNat'] at hnat
  unfold retiredMemory at hj hnat
  omega

theorem flooded_of_rounds (hinit : spawn Link.lone .responder = .ok e₀) (k : Nat) :
    ∃ trace e, Transition.Run step (fun _ _ event => Passive event) e₀ trace e ∧
      Flooded (Endpoint.firstIds k) e := by
  induction k with
  | zero =>
      cases hinit
      exact ⟨[], _, .nil, rfl, rfl, rfl, rfl, rfl, rfl⟩
  | succ k ih =>
      obtain ⟨trace, e, hrun, h⟩ := ih
      rw [Endpoint.firstIds_succ]
      refine h.round hinit hrun ?_ (next_forgotten k)
      apply UInt32.toNat_inj.mp
      rw [UInt32.toNat_mod, UInt32.toNat_ofNat']
      show 2 * k % 2 ^ 32 % 2 = 0
      omega

/-- **A peer that resets its channels** pins as much as it likes. -/
theorem memory_unbounded :
    ¬ ∃ bound : MuxConfig → Nat, ∀ cfg s e₀ trace e, spawn cfg s = .ok e₀ →
      Transition.Run step (fun _ _ event => Passive event) e₀ trace e → held e ≤ bound cfg := by
  rintro ⟨bound, hbound⟩
  obtain ⟨e₀, hinit⟩ : ∃ e₀, spawn Link.lone .responder = .ok e₀ := ⟨_, rfl⟩
  obtain ⟨trace, e, hrun, h⟩ := flooded_of_rounds hinit (bound Link.lone + 1)
  have hle := hbound _ _ _ _ _ hinit hrun
  have hwaiting := h.waiting
  rw [Endpoint.length_firstIds] at hwaiting
  unfold held at hle
  omega

end Hostile

end Mux
