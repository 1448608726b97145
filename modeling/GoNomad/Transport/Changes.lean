import GoNomad.Transport.Credit

/-!
# Elementary changes of an endpoint

Whatever an endpoint does is a sequence of a few elementary changes.  What every
change preserves is preserved by every operation of the application and every
segment of the peer, also where the peer opens an id again that it closed
before.

* `Endpoint.Tight.change` — the bounds on an endpoint survive every change;
* `Endpoint.changes_finish`, `Endpoint.changes_recvCredit` and the other
  operations of the application;
* `Endpoint.changes_peerData`, `Endpoint.changes_peerReset` and the other
  handlers.
-/

namespace Mux

open Proto Transport

/-! ### What a stream holds -/

/-- The frames that were delivered and whose credit was not returned. -/
def Stream.undelivered (stream : Stream) : List Frame :=
  match stream.recv with
  | some (.popped frame) => frame :: stream.rx
  | _ => stream.rx

/-- The bytes of the payloads that wait for the reader. -/
def Stream.waiting (stream : Stream) : Nat := (stream.rx.map fun f => f.payload.length).sum

theorem Stream.waiting_le_cost (stream : Stream) :
    stream.waiting ≤ Link.cost stream.undelivered := by
  have hrx : ∀ fs : List Frame, (fs.map fun f => f.payload.length).sum ≤ Link.cost fs := by
    intro fs
    induction fs with
    | nil => exact Nat.le_refl _
    | cons f fs ih =>
        unfold Link.cost at ih ⊢
        rw [List.map_cons, List.map_cons, List.sum_cons, List.sum_cons]
        have hle : f.payload.length ≤ f.wireLen := Nat.le_add_left _ _
        omega
  have hle := hrx stream.rx
  unfold waiting undelivered
  cases stream.recv with
  | none => exact hle
  | some half =>
      cases half with
      | idle => exact hle
      | popped f =>
          have hcons : Link.cost (f :: stream.rx) = f.wireLen + Link.cost stream.rx := by
            unfold Link.cost
            rw [List.map_cons, List.sum_cons]
          dsimp only
          omega

namespace Endpoint

/-! ### Elementary changes

`lax` lets two excesses through: a data segment that runs past the window, and
credit above the window. -/

/-- Two endpoints that differ in their queues, cursor and accept queue at most. -/
structure Alike (e e' : Endpoint) : Prop where
  cfg : e'.cfg = e.cfg
  closed : e'.closed = e.closed
  accepting : e'.acceptTx = e.acceptTx
  channels : e'.channels = e.channels
  streams : e'.streams = e.streams
  retired : e'.retired = e.retired
  order : e'.retiredOrder = e.retiredOrder

/-- A stream that holds no more than before. -/
structure Lighter (lax : Prop) (window : Nat) (stream stream' : Stream) : Prop where
  id : stream'.id = stream.id
  undelivered : Link.cost stream'.undelivered ≤ Link.cost stream.undelivered
  waiting : stream'.waiting ≤ stream.waiting
  recv : stream'.recv.isSome = true → stream.recv.isSome = true
  closed : stream'.credit.closed = stream.credit.closed
  permits : lax ∨ (stream.credit.closed = false → stream.credit.permits ≤ window →
    stream'.credit.permits ≤ window)

/-- What an entry holds is covered by what it has not acknowledged. -/
structure Covered (lax : Prop) (window : Nat) (state : ChannelState) (stream : Stream) : Prop where
  unacked : state.assembler.length + Link.cost stream.undelivered ≤ state.unacked
  capped : state.assembler.length + Link.cost stream.undelivered ≤ window
  within : lax ∨ state.unacked ≤ window

/-- An entry and its stream after a change that keeps both covered. -/
structure Settled (lax : Prop) (window : Nat) (state : ChannelState) (stream : Stream)
    (state' : ChannelState) (stream' : Stream) : Prop where
  inst : state'.inst = state.inst
  id : stream'.id = stream.id
  credit : stream'.credit = stream.credit
  recv : stream'.recv.isSome = true → stream.recv.isSome = true
  inbound : (stream.recv.isSome = true → state.inbound = true) → stream'.recv.isSome = true →
    state'.inbound = true
  covered : Covered lax window state stream → Covered lax window state' stream'

/-- The bytes that wait in the stream of a channel. -/
def left (e : Endpoint) (id : ChannelId) : Nat :=
  match e.channels[id]? with
  | none => 0
  | some state => (e.streams[state.inst]?.map Stream.waiting).getD 0

/-- One elementary change, with the bytes it leaves behind. -/
inductive Change (lax : Prop) (e : Endpoint) : Nat → Endpoint → Prop
  | alike {e' : Endpoint} (h : e.Alike e') : Change lax e 0 e'
  | stream {i : Nat} {stream stream' : Stream} (hi : e.streams[i]? = some stream)
      (h : Lighter lax e.cfg.window stream stream') : Change lax e 0 (e.setStream i stream')
  | severed {i : Nat} {stream : Stream} (hi : e.streams[i]? = some stream)
      (hgone : ∀ (c : ChannelId) (state : ChannelState), e.channels[c]? = some state →
        state.inst ≠ i) :
      Change lax e 0 (e.setStream i { stream with credit := stream.credit.close })
  | inserted {id : ChannelId} (hopen : e.closed = false) (hnone : e.channels[id]? = none)
      (hnew : e.retired.contains id = false) (hroom : e.channels.size < e.cfg.maxChannels) :
      Change lax e 0 (e.insertChannel id).1
  | entry {id : ChannelId} {state state' : ChannelState} {stream stream' : Stream}
      (hstate : e.channels[id]? = some state) (hi : e.streams[state.inst]? = some stream)
      (h : Settled lax e.cfg.window state stream state' stream') :
      Change lax e 0 (e.setEntry id state.inst state' stream')
  | removed (id : ChannelId) (hopen : e.closed = false) :
      Change lax e (e.left id)
        (({ e with channels := e.channels.erase id } : Endpoint).retire id)
  | shutdown (err : Option TransportError) (hopen : e.closed = false) :
      Change lax e 0 (e.shutdown err)

/-- Changes one after the other. -/
inductive Changes (lax : Prop) (e : Endpoint) : Nat → Endpoint → Prop
  | nil : Changes lax e 0 e
  | snoc {n m : Nat} {e' e'' : Endpoint} (first : Changes lax e n e') (last : Change lax e' m e'') :
      Changes lax e (n + m) e''

variable {lax : Prop} {e e' e'' : Endpoint} {n m : Nat} {c id : ChannelId} {i : Nat}

theorem Change.single (h : Change lax e n e') : Changes lax e n e' := by
  have hsnoc := Changes.nil.snoc h
  rwa [Nat.zero_add] at hsnoc

theorem Alike.refl (e : Endpoint) : e.Alike e := ⟨rfl, rfl, rfl, rfl, rfl, rfl, rfl⟩

theorem Alike.changes (h : e.Alike e') : Changes lax e 0 e' := (Change.alike h).single

/-! ### The bounds on an endpoint -/

/-- The bounds that hold whatever the peer sends. -/
structure Tight (lax : Prop) (e : Endpoint) : Prop where
  room : e.channels.size ≤ e.cfg.maxChannels
  entry : ∀ (c : ChannelId) (state : ChannelState), e.channels[c]? = some state →
    ∃ stream : Stream, e.streams[state.inst]? = some stream ∧ stream.id = c ∧
      stream.credit.closed = false ∧ (stream.recv.isSome = true → state.inbound = true) ∧
      Covered lax e.cfg.window state stream
  credit : lax ∨ ∀ stream ∈ e.streams, stream.credit.closed = false →
    stream.credit.permits ≤ e.cfg.window
  quiet : e.closed = true → e.channels = ∅
  accepting : e.closed = false → e.acceptTx = true
  remembered : ∀ c : ChannelId, e.retired.contains c = true ↔ c ∈ e.retiredOrder
  order : e.retiredOrder.Nodup
  memory : e.retiredOrder.length ≤ retiredMemory
  apart : ∀ c ∈ e.retiredOrder, e.channels[c]? = none

theorem Tight.spawned {cfg : MuxConfig} {s : Role} (h : spawn cfg s = .ok e) : Tight lax e := by
  unfold spawn at h
  split at h
  · cases h
  · cases h
    exact {
      room := by simp
      entry := by intro c state hc; rw [lookup_empty] at hc; cases hc
      credit := .inr fun stream hmem => by cases hmem
      quiet := fun hc => by cases hc
      accepting := fun _ => rfl
      remembered := by simp
      order := List.nodup_nil
      memory := Nat.zero_le _
      apart := by intro c hc; cases hc }

theorem Tight.alike (h : Tight lax e) (ha : e.Alike e') : Tight lax e' := by
  obtain ⟨hcfg, hclosed, haccept, hchannels, hstreams, hretired, horder⟩ := ha
  exact {
    room := by rw [hchannels, hcfg]; exact h.room
    entry := by rw [hchannels, hstreams, hcfg]; exact h.entry
    credit := by rw [hstreams, hcfg]; exact h.credit
    quiet := by rw [hclosed, hchannels]; exact h.quiet
    accepting := by rw [hclosed, haccept]; exact h.accepting
    remembered := by rw [hretired, horder]; exact h.remembered
    order := by rw [horder]; exact h.order
    memory := by rw [horder]; exact h.memory
    apart := by rw [horder, hchannels]; exact h.apart }

theorem getElem?_setStream {stream : Stream} (hlt : i < e.streams.length) (j : Nat) :
    (e.setStream i stream).streams[j]? = if i = j then some stream else e.streams[j]? := by
  unfold setStream
  rw [List.getElem?_set]
  split_ifs <;> rfl

theorem getElem?_setEntry {state : ChannelState} {stream : Stream} (hlt : i < e.streams.length)
    (j : Nat) : (e.setEntry id i state stream).streams[j]? =
      if i = j then some stream else e.streams[j]? :=
  @getElem?_setStream { e with channels := e.channels.insert id state } i stream hlt j

theorem lt_of_place {stream : Stream} (hi : e.streams[i]? = some stream) :
    i < e.streams.length := (List.getElem?_eq_some_iff.mp hi).1

/-- Replacing a stream that is as open as before. -/
theorem Tight.setStream (h : Tight lax e) {stream stream' : Stream}
    (hi : e.streams[i]? = some stream)
    (hentry : ∀ (c : ChannelId) (state : ChannelState), e.channels[c]? = some state →
      state.inst = i → stream'.id = stream.id ∧ stream'.credit.closed = stream.credit.closed ∧
        (stream'.recv.isSome = true → stream.recv.isSome = true) ∧
        Link.cost stream'.undelivered ≤ Link.cost stream.undelivered)
    (hcredit : lax ∨ (stream'.credit.closed = false → stream'.credit.permits ≤ e.cfg.window)) :
    Tight lax (e.setStream i stream') :=
  { h with
    entry := by
      intro c state hc
      obtain ⟨t, ht, hid, hopen, hin, hcovered⟩ := h.entry c state hc
      rw [getElem?_setStream (lt_of_place hi)]
      by_cases hinst : i = state.inst
      · rw [if_pos hinst]
        rw [← hinst, hi] at ht
        cases ht
        obtain ⟨hsame, hclosed, hrecv, hcost⟩ := hentry c state hc hinst.symm
        refine ⟨stream', rfl, hsame.trans hid, hclosed.trans hopen, fun hr => hin (hrecv hr), ?_⟩
        have hunacked := hcovered.unacked
        have hcapped := hcovered.capped
        exact ⟨by omega, by show _ ≤ e.cfg.window; omega, hcovered.within⟩
      · rw [if_neg hinst]
        exact ⟨t, ht, hid, hopen, hin, hcovered⟩
    credit := by
      rcases hcredit with hlax | hcredit
      · exact .inl hlax
      rcases h.credit with hlax | hall
      · exact .inl hlax
      refine .inr fun t ht => ?_
      rcases mem_setStream ht with rfl | ht
      · exact hcredit
      · exact hall t ht }

theorem Tight.inserted (h : Tight lax e) (hopen : e.closed = false)
    (hnew : e.retired.contains id = false) (hroom : e.channels.size < e.cfg.maxChannels) : Tight lax (e.insertChannel id).1 := by
  have hplace : ∀ {j : Nat} {stream : Stream}, e.streams[j]? = some stream →
      (e.insertChannel id).1.streams[j]? = some stream := fun hj => by
    unfold insertChannel
    dsimp only
    rw [List.getElem?_append_left (lt_of_place hj)]
    exact hj
  exact { h with
    room := by
      have hsize : (e.channels.insert id e.newEntry).size ≤ e.channels.size + 1 :=
        Std.ExtTreeMap.size_insert_le
      show (e.channels.insert id e.newEntry).size ≤ e.cfg.maxChannels
      omega
    entry := by
      intro c state hc
      have hc : (e.channels.insert id e.newEntry)[c]? = some state := hc
      rw [lookup_insert] at hc
      split_ifs at hc with hid
      · cases hc
        subst hid
        refine ⟨e.newStream id, ?_, rfl, rfl, fun _ => rfl, ?_⟩
        · unfold insertChannel newEntry newStream
          dsimp only
          rw [List.getElem?_concat_length]
        · exact ⟨Nat.zero_le _, Nat.zero_le _, .inr (Nat.zero_le _)⟩
      · obtain ⟨stream, hi, hrest⟩ := h.entry c state hc
        exact ⟨stream, hplace hi, hrest⟩
    credit := by
      refine h.credit.imp_right fun hall stream hmem => ?_
      rcases List.mem_append.mp hmem with hmem | hmem
      · exact hall stream hmem
      · rw [List.mem_singleton.mp hmem]
        exact fun _ => Nat.le_refl _
    quiet := fun hc => by
      have hc : e.closed = true := hc
      rw [hopen] at hc
      cases hc
    apart := by
      intro c hc
      have hne : id ≠ c := by
        rintro rfl
        rw [(h.remembered id).mpr hc] at hnew
        cases hnew
      show (e.channels.insert id e.newEntry)[c]? = none
      rw [lookup_insert, if_neg hne]
      exact h.apart c hc }

/-- Replacing the entry of a channel by one with the same stream. -/
theorem Tight.updated (h : Tight lax e) {state state' : ChannelState} {stream stream' : Stream}
    (hstate : e.channels[id]? = some state) (hi : e.streams[state.inst]? = some stream)
    (hs : Settled lax e.cfg.window state stream state' stream') :
    Tight lax (e.setEntry id state.inst state' stream') := by
  obtain ⟨stream₀, hi₀, hid, hopen, hin, hcovered⟩ := h.entry id state hstate
  rw [hi] at hi₀
  cases hi₀
  have hlt := lt_of_place hi
  exact { h with
    room := by
      have hsize : (e.channels.insert id state').size = e.channels.size := by
        rw [Std.ExtTreeMap.size_insert, if_pos]
        exact Std.ExtTreeMap.mem_iff_contains.mpr (contains_iff.mpr ⟨state, hstate⟩)
      show (e.channels.insert id state').size ≤ e.cfg.maxChannels
      rw [hsize]
      exact h.room
    entry := by
      intro c st hc
      have hc : (e.channels.insert id state')[c]? = some st := hc
      rw [lookup_insert] at hc
      split_ifs at hc with hidc
      · cases hc
        subst hidc
        refine ⟨stream', ?_, hs.id.trans hid, by rw [hs.credit]; exact hopen, hs.inbound hin,
          hs.covered hcovered⟩
        rw [hs.inst]
        rw [getElem?_setEntry hlt, if_pos rfl]
      · obtain ⟨t, ht, htid, hrest⟩ := h.entry c st hc
        refine ⟨t, ?_, htid, hrest⟩
        rw [getElem?_setEntry hlt, if_neg]
        · exact ht
        · intro hinst
          rw [← hinst, hi] at ht
          cases ht
          exact hidc (hid.symm.trans htid)
    credit := by
      refine h.credit.imp_right fun hall t ht => ?_
      rcases mem_setStream ht with rfl | ht
      · rw [hs.credit]
        exact hall stream (List.mem_of_getElem? hi)
      · exact hall t ht
    quiet := fun hc => by
      rw [h.quiet hc, lookup_empty] at hstate
      cases hstate
    apart := by
      intro c hc
      have hnone := h.apart c hc
      show (e.channels.insert id state')[c]? = none
      rw [lookup_insert, if_neg]
      · exact hnone
      · rintro rfl
        rw [hstate] at hnone
        cases hnone }

/-- What is remembered after an id was closed. -/
theorem Tight.retire_order (h : Tight lax e) (hnew : id ∉ e.retiredOrder) :
    (e.retire id).retiredOrder =
      (e.retiredOrder ++ [id]).drop (e.retiredOrder.length + 1 - retiredMemory) ∧
    ∀ c : ChannelId, (e.retire id).retired.contains c = true ↔ c ∈ (e.retire id).retiredOrder := by
  have hnot : e.retired.contains id = false := by
    rw [← Bool.not_eq_true, h.remembered]
    exact hnew
  obtain ⟨horder, hretired⟩ := retire_state id hnot
  rw [horder, hretired]
  have hinsert : ∀ c : ChannelId, (e.retired.insert id).contains c = true ↔
      c = id ∨ c ∈ e.retiredOrder := fun c => by
    rw [Std.ExtTreeSet.contains_insert, Bool.or_eq_true, h.remembered, beq_iff_eq,
      Std.compare_eq_iff_eq, eq_comm]
  have hmemory := h.memory
  by_cases hshort : e.retiredOrder.length + 1 ≤ retiredMemory
  · have hle : (e.retiredOrder ++ [id]).length ≤ retiredMemory := by simpa using hshort
    rw [trimRetired_short hle, Nat.sub_eq_zero_of_le hshort, List.drop_zero]
    refine ⟨rfl, fun c => ?_⟩
    rw [hinsert, List.mem_append, List.mem_singleton, or_comm]
  · cases hcons : e.retiredOrder with
    | nil =>
        rw [hcons] at hshort
        simp [retiredMemory] at hshort
    | cons old order =>
        rw [hcons, List.length_cons] at hshort hmemory
        have hlen : (order ++ [id]).length = retiredMemory := by
          rw [List.length_append, List.length_singleton]
          omega
        have hnodup := h.order
        rw [hcons, List.nodup_cons] at hnodup
        rw [List.cons_append, trimRetired_one hlen,
          show (old :: order).length + 1 - retiredMemory = 1 by rw [List.length_cons]; omega]
        refine ⟨rfl, fun c => ?_⟩
        rw [Std.ExtTreeSet.contains_erase, Bool.and_eq_true, hinsert, hcons, List.mem_cons,
          List.mem_append, List.mem_singleton, bne_iff_ne, Ne, Std.compare_eq_iff_eq]
        rw [hcons] at hnew
        constructor
        · rintro ⟨hne, rfl | rfl | hmem⟩
          · exact .inr rfl
          · exact absurd rfl hne
          · exact .inl hmem
        · rintro (hmem | rfl)
          · exact ⟨fun heq => hnodup.1 (heq ▸ hmem), .inr (.inr hmem)⟩
          · exact ⟨fun heq => hnew (by rw [heq]; exact List.mem_cons_self), .inl rfl⟩

theorem retire_eq : e.retire id =
    { e with retired := (e.retire id).retired, retiredOrder := (e.retire id).retiredOrder } := by
  unfold retire
  split_ifs <;> rfl

theorem Tight.retire (h : Tight lax e) (hgone : e.channels[id]? = none) :
    Tight lax (e.retire id) := by
  by_cases hold : id ∈ e.retiredOrder
  · unfold Endpoint.retire
    rw [if_pos ((h.remembered id).mpr hold)]
    exact h
  obtain ⟨horder, hremembered⟩ := h.retire_order hold
  have hmem : ∀ c ∈ (e.retire id).retiredOrder, c = id ∨ c ∈ e.retiredOrder := fun c hc => by
    rw [horder] at hc
    exact (List.mem_append.mp (List.mem_of_mem_drop hc)).symm.imp_left List.mem_singleton.mp
  rw [retire_eq]
  exact { h with
    remembered := hremembered
    order := by
      show (e.retire id).retiredOrder.Nodup
      rw [horder]
      refine (List.drop_sublist _ _).nodup ?_
      rw [List.nodup_append]
      refine ⟨h.order, by simp, fun a ha b hb hab => hold ?_⟩
      rw [← List.mem_singleton.mp hb, ← hab]
      exact ha
    memory := by
      have hmemory := h.memory
      show (e.retire id).retiredOrder.length ≤ retiredMemory
      rw [horder, List.length_drop, List.length_append, List.length_singleton]
      omega
    apart := by
      intro c hc
      rcases hmem c hc with rfl | hc
      · exact hgone
      · exact h.apart c hc }

theorem Tight.removed (h : Tight lax e) (hopen : e.closed = false) :
    Tight lax (({ e with channels := e.channels.erase id } : Endpoint).retire id) := by
  have herased : Tight lax { e with channels := e.channels.erase id } :=
    { h with
      room := by
        have hsize : (e.channels.erase id).size ≤ e.channels.size := Std.ExtTreeMap.size_erase_le
        show (e.channels.erase id).size ≤ e.cfg.maxChannels
        have hroom := h.room
        omega
      entry := by
        intro c state hc
        have hc : (e.channels.erase id)[c]? = some state := hc
        rw [lookup_erase] at hc
        split_ifs at hc
        exact h.entry c state hc
      quiet := fun hc => by
        have hc : e.closed = true := hc
        rw [hopen] at hc
        cases hc
      apart := by
        intro c hc
        show (e.channels.erase id)[c]? = none
        rw [lookup_erase, h.apart c hc, ite_self] }
  apply herased.retire
  show (e.channels.erase id)[id]? = none
  rw [lookup_erase, if_pos rfl]

theorem Tight.shutdown (h : Tight lax e) (hopen : e.closed = false)
    (err : Option TransportError) : Tight lax (e.shutdown err) := by
  have hcredit : lax ∨ ∀ stream ∈ (e.shutdown err).streams, stream.credit.closed = false →
      stream.credit.permits ≤ e.cfg.window := by
    refine h.credit.imp_right fun hall stream hmem hclosed => ?_
    obtain ⟨j, hj⟩ := List.getElem?_of_mem hmem
    have hlt : j < e.streams.length := by
      have hlt := lt_of_place hj
      rwa [length_shutdown] at hlt
    obtain ⟨stream', hj', hsevered⟩ : ∃ stream', (e.shutdown err).streams[j]? = some stream' ∧
        Severed e.streams[j] stream' := shutdown_place hopen (List.getElem?_eq_getElem hlt)
    rw [hj] at hj'
    cases hj'
    rcases hsevered with rfl | rfl
    · exact hall _ (List.getElem_mem hlt) hclosed
    · cases hclosed
  unfold Endpoint.shutdown at hcredit ⊢
  rw [if_neg (by simp [hopen])] at hcredit ⊢
  exact {
    room := by
      show (∅ : Std.ExtTreeMap ChannelId ChannelState).size ≤ e.cfg.maxChannels
      rw [Std.ExtTreeMap.size_empty]
      exact Nat.zero_le _
    entry := by intro c state hc; rw [lookup_empty] at hc; cases hc
    credit := hcredit
    quiet := fun _ => rfl
    accepting := fun hc => by cases hc
    remembered := h.remembered
    order := h.order
    memory := h.memory
    apart := fun c _ => lookup_empty }

/-- **Every change keeps the bounds.** -/
theorem Tight.change (h : Tight lax e) (hc : Change lax e n e') : Tight lax e' := by
  cases hc with
  | alike ha => exact h.alike ha
  | @stream i stream stream' hi hl =>
      refine h.setStream hi (fun _ _ _ _ => ⟨hl.id, hl.closed, hl.recv, hl.undelivered⟩) ?_
      rcases h.credit with hlax | hall
      · exact .inl hlax
      · refine hl.permits.imp_right fun hpermits hclosed => ?_
        rw [hl.closed] at hclosed
        exact hpermits hclosed (hall stream (List.mem_of_getElem? hi) hclosed)
  | severed hi hgone =>
      exact h.setStream hi (fun c state hc hinst => absurd hinst (hgone c state hc))
        (.inr fun hclosed => by cases hclosed)
  | inserted hopen _ hnew hroom => exact h.inserted hopen hnew hroom
  | entry hstate hi hs => exact h.updated hstate hi hs
  | removed id hopen => exact h.removed hopen
  | shutdown err hopen => exact h.shutdown hopen err

theorem Tight.changes (h : Tight lax e) (hc : Changes lax e n e') : Tight lax e' := by
  induction hc with
  | nil => exact h
  | snoc _ last ih => exact ih.change last

/-! ### Operations of the application -/

theorem Changes.alike (h : Changes lax e n e') (ha : e'.Alike e'') : Changes lax e n e'' :=
  h.snoc (.alike ha)

theorem Changes.trans (h : Changes lax e n e') (h' : Changes lax e' m e'') :
    Changes lax e (n + m) e'' := by
  induction h' with
  | nil => exact h
  | snoc _ last ih =>
      rw [← Nat.add_assoc]
      exact ih.snoc last

theorem alike_enqueue (seg : Segment) : e.Alike (e.enqueue seg) :=
  ⟨rfl, rfl, rfl, rfl, rfl, rfl, rfl⟩

theorem Lighter.refl_send {stream : Stream} {window : Nat} {credit : Semaphore}
    {send : Option SendHalf} (hclosed : credit.closed = stream.credit.closed)
    (hpermits : lax ∨ (stream.credit.closed = false → stream.credit.permits ≤ window →
      credit.permits ≤ window)) :
    Lighter lax window stream { stream with credit := credit, send := send } :=
  ⟨rfl, Nat.le_refl _, Nat.le_refl _, fun h => h, hclosed, hpermits⟩

section stream

variable {stream stream' : Stream}

/-- Closing a channel leaves behind what waits in its stream. -/
theorem changes_closeChannel (e : Endpoint) (id : ChannelId) :
    ∃ n ≤ e.left id, Changes lax e n (e.closeChannel id) := by
  unfold closeChannel
  split_ifs with hholds
  · exact ⟨_, Nat.le_refl _, (Change.removed id (holds_iff.mp hholds).1).single.alike
      (alike_enqueue _)⟩
  · exact ⟨0, Nat.zero_le _, .nil⟩

theorem left_setStream (hi : e.streams[i]? = some stream) (h : stream'.waiting ≤ stream.waiting) :
    (e.setStream i stream').left c ≤ e.left c := by
  unfold left
  cases hc : e.channels[c]? with
  | none => rw [show (e.setStream i stream').channels[c]? = none from hc]
  | some state =>
      rw [show (e.setStream i stream').channels[c]? = some state from hc]
      dsimp only
      rw [getElem?_setStream (lt_of_place hi)]
      split_ifs with hinst
      · rw [← hinst, hi]
        exact h
      · exact Nat.le_refl _

/-- A stream that changes and its channel that is closed after. -/
theorem changes_close (hi : e.streams[i]? = some stream)
    (h : Lighter lax e.cfg.window stream stream') :
    ∃ n ≤ e.left id, Changes lax e n ((e.setStream i stream').closeChannel id) := by
  obtain ⟨n, hn, hclose⟩ := @changes_closeChannel lax (e.setStream i stream') id
  refine ⟨0 + n, ?_, (Change.stream hi h).single.trans hclose⟩
  have hleft := left_setStream (c := id) hi h.waiting
  omega

theorem changes_openBi : Changes lax e 0 e.openBi.1 := by
  have hnext : e.Alike { e with nextLocal := e.nextLocal + 2 } := ⟨rfl, rfl, rfl, rfl, rfl, rfl, rfl⟩
  unfold openBi
  rcases openLocal_cases (e := e) with ⟨hopens, inst, hres⟩ | ⟨-, err, hres⟩
  · rw [hres]
    obtain ⟨hopen, hroom, hnone⟩ := opens_open hopens
    have hnew : e.retired.contains e.nextLocal = false := by
      unfold opens at hopens
      simp only [Bool.and_eq_true, Bool.not_eq_true'] at hopens
      exact hopens.2
    exact (hnext.changes.snoc (.inserted hopen hnone hnew hroom)).alike (alike_enqueue _)
  · rw [hres]
    exact hnext.changes

theorem changes_acceptBi {r : Endpoint × Obs} (hr : e.acceptBi = some r) : Changes lax e 0 r.1 := by
  unfold acceptBi at hr
  split at hr
  · split at hr
    · cases hr
    · cases hr
      exact Alike.changes ⟨rfl, rfl, rfl, rfl, rfl, rfl, rfl⟩
  · split at hr
    · cases hr
    · cases hr
      exact .nil

theorem changes_sendStart (hi : e.streams[i]? = some stream) (frame : Frame) :
    Changes lax e 0 (e.sendStart i stream frame).1 := by
  unfold sendStart
  split_ifs
  · exact .nil
  · exact (Change.stream hi (.refl_send rfl (.inr fun _ h => h))).single

theorem changes_sendPolled (hi : e.streams[i]? = some stream) {frame : Frame}
    {chunks : List Bytes} {polled : Semaphore × Semaphore.Poll}
    (hclosed : polled.1.closed = stream.credit.closed)
    (hpermits : stream.credit.closed = false → polled.1.permits ≤ stream.credit.permits) :
    Changes lax e 0 (e.sendPolled i stream frame chunks polled).1 := by
  obtain ⟨credit, poll⟩ := polled
  have hl : ∀ send, Lighter lax e.cfg.window stream { stream with credit := credit, send := send } :=
    fun _ => .refl_send hclosed (.inr fun hopen hle => (hpermits hopen).trans hle)
  cases poll with
  | acquired => exact (Change.stream hi (hl _)).single
  | pending => exact (Change.stream hi (hl _)).single
  | closed => exact (Change.stream hi (hl _)).single

theorem changes_sendPush (hi : e.streams[i]? = some stream) (frame : Frame) (chunk : Bytes)
    (rest : List Bytes) : Changes lax e 0 (e.sendPush i stream frame chunk rest).1 := by
  have hl : ∀ send, Lighter lax e.cfg.window stream { stream with send := send } :=
    fun _ => .refl_send rfl (.inr fun _ h => h)
  unfold sendPush pushData
  by_cases hclosed : e.closed = true
  · rw [if_pos hclosed]
    exact (Change.stream hi (hl _)).single
  rw [if_neg hclosed]
  by_cases hgone : (!e.channels.contains stream.id) = true
  · rw [if_pos hgone]
    exact (Change.stream hi (hl _)).single
  · rw [if_neg hgone]
    exact (alike_enqueue _).changes.snoc (.stream hi (hl _))

theorem changes_sendStep (hi : e.streams[i]? = some stream) {r : Endpoint × Obs}
    (hr : e.sendStep i stream = some r) : Changes lax e 0 r.1 := by
  unfold sendStep at hr
  split at hr
  · cases hr
    exact changes_sendPolled hi (stream.credit.closed_acquireMany _)
      fun _ => stream.credit.permits_acquireMany_le _
  · split_ifs at hr
    cases hr
    exact changes_sendPolled hi stream.credit.closed_poll
      fun hopen => (stream.credit.permits_poll hopen).le
  · cases hr
    exact changes_sendPush hi _ _ _
  · cases hr

theorem changes_sendCancel (hi : e.streams[i]? = some stream)
    (hheld : lax ∨ stream.credit.held ≤ e.cfg.window) {r : Endpoint × Obs}
    (hr : e.sendCancel i stream = some r) : Changes lax e 0 r.1 := by
  unfold sendCancel at hr
  split at hr
  · cases hr
  · cases hr
    refine (Change.stream hi (.refl_send stream.credit.cancel_closed ?_)).single
    refine hheld.imp_right fun hheld _ _ => ?_
    rw [stream.credit.permits_cancel]
    exact hheld
  · cases hr

theorem changes_finish (hi : e.streams[i]? = some stream) {r : Endpoint × Obs}
    (hr : e.finish i stream = some r) : ∃ n ≤ e.left stream.id, Changes lax e n r.1 := by
  unfold finish at hr
  split at hr
  · cases hr
    dsimp only
    rw [closeChannel_twice, ite_self]
    exact changes_close hi (.refl_send rfl (.inr fun _ h => h))
  · cases hr

theorem changes_dropSend (hi : e.streams[i]? = some stream) {r : Endpoint × Obs}
    (hr : e.dropSend i stream = some r) : ∃ n ≤ e.left stream.id, Changes lax e n r.1 := by
  have hl : Lighter lax e.cfg.window stream { stream with send := none } :=
    .refl_send rfl (.inr fun _ h => h)
  unfold dropSend at hr
  split at hr
  · cases hr
    dsimp only
    split_ifs
    · exact changes_close hi hl
    · exact ⟨0, Nat.zero_le _, (Change.stream hi hl).single⟩
  · cases hr

theorem changes_dropRecv (hi : e.streams[i]? = some stream) {r : Endpoint × Obs}
    (hr : e.dropRecv i stream = some r) : ∃ n ≤ e.left stream.id, Changes lax e n r.1 := by
  have hl : Lighter lax e.cfg.window stream { stream with recv := none, rx := [] } :=
    ⟨rfl, Nat.zero_le _, Nat.zero_le _, nofun, rfl, .inr fun _ h => h⟩
  unfold dropRecv at hr
  split at hr
  · cases hr
    dsimp only
    split_ifs
    · exact changes_close hi hl
    · exact ⟨0, Nat.zero_le _, (Change.stream hi hl).single⟩
  · cases hr

theorem changes_recvPop (hi : e.streams[i]? = some stream) {r : Endpoint × Obs}
    (hr : e.recvPop i stream = some r) : Changes lax e 0 r.1 := by
  unfold recvPop at hr
  split at hr
  · next frame rest hrecv hrx =>
      cases hr
      have hl : Lighter lax e.cfg.window stream
          { stream with recv := some (.popped frame), rx := rest } := by
        refine ⟨rfl, ?_, ?_, fun _ => by rw [hrecv]; rfl, rfl, .inr fun _ h => h⟩
        · unfold Stream.undelivered
          rw [hrecv, hrx]
        · unfold Stream.waiting
          rw [hrx, List.map_cons, List.sum_cons]
          exact Nat.le_add_left _ _
      exact (Change.stream hi hl).single
  · cases hr

/-- The credit of a frame is taken off its own entry. -/
theorem changes_recvCredit (hi : e.streams[i]? = some stream)
    (hown : ∀ state, e.channels[stream.id]? = some state → state.inst = i) {r : Endpoint × Obs}
    (hr : e.recvCredit i stream = some r) : Changes lax e 0 r.1 := by
  unfold recvCredit at hr
  split at hr
  · next frame hrecv =>
      cases hr
      have hcost : Link.cost stream.undelivered =
          frame.wireLen + Link.cost { stream with recv := some .idle }.undelivered := by
        unfold Stream.undelivered Link.cost
        rw [hrecv]
        rfl
      have hl : Lighter lax e.cfg.window stream { stream with recv := some .idle } :=
        ⟨rfl, by omega, Nat.le_refl _, fun _ => by rw [hrecv]; rfl, rfl, .inr fun _ h => h⟩
      dsimp only
      unfold returnCredit
      split_ifs with hbytes hclosed
      · exact (Change.stream hi hl).single
      · exact (Change.stream hi hl).single
      · cases hstate : e.channels[stream.id]? with
        | none =>
            rw [show (e.setStream i _).channels[stream.id]? = none from hstate]
            exact (Change.stream hi hl).single
        | some state =>
            rw [show (e.setStream i _).channels[stream.id]? = some state from hstate]
            obtain rfl := hown state hstate
            have hs : Settled lax e.cfg.window state stream
                { state with unacked := state.unacked - frame.wireLen }
                { stream with recv := some .idle } :=
              ⟨rfl, rfl, rfl, hl.recv, fun hin _ => hin (by rw [hrecv]; rfl), fun hcovered => by
                have hunacked := hcovered.unacked
                have hcapped := hcovered.capped
                exact ⟨by dsimp only; omega, by dsimp only; omega,
                  hcovered.within.imp_right fun hle => (Nat.sub_le _ _).trans hle⟩⟩
            exact (Change.entry hstate hi hs).single.alike ⟨rfl, rfl, rfl, rfl, rfl, rfl, rfl⟩
  · cases hr

end stream

theorem changes_shutdown (err : Option TransportError) : Changes lax e 0 (e.shutdown err) := by
  by_cases hclosed : e.closed = true
  · rw [shutdown_closed hclosed]
    exact .nil
  · exact (Change.shutdown err (by simpa using hclosed)).single

/-! ### Segments of the peer -/

theorem cost_append (fs gs : List Frame) : Link.cost (fs ++ gs) = Link.cost fs + Link.cost gs := by
  unfold Link.cost
  rw [List.map_append, List.sum_append]

theorem cost_undelivered_append (stream : Stream) (fs : List Frame) :
    Link.cost { stream with rx := stream.rx ++ fs }.undelivered =
      Link.cost stream.undelivered + Link.cost fs := by
  unfold Stream.undelivered
  dsimp only
  cases stream.recv with
  | none => exact cost_append _ _
  | some half =>
      cases half with
      | idle => exact cost_append _ _
      | popped frame => exact cost_append (frame :: stream.rx) fs

/-- Cutting frames off moves their bytes to the reader or into the refund. -/
theorem Cut.conserved {state state' : ChannelState} {stream stream' : Stream}
    {refund refund' : Nat} {fs : List Frame} (h : Cut state stream refund fs state' stream' refund') :
    state'.assembler.length + Link.cost stream'.undelivered + refund' =
      state.assembler.length + Link.cost stream.undelivered + refund := by
  have hbytes := congrArg List.length h.bytes
  rw [List.length_append, Link.length_encAll] at hbytes
  have hqueue := h.queue
  have hcost := h.cost
  rw [Link.length_encAll] at hcost
  by_cases hr : stream.recv.isSome = true
  · rw [if_pos hr] at hqueue hcost
    rw [hqueue, cost_undelivered_append]
    omega
  · rw [if_neg hr] at hqueue hcost
    rw [hqueue]
    omega

theorem changes_peerOpen (h : Tight lax e) (id : ChannelId) :
    Changes lax e 0 (e.peerOpen id).1 := by
  unfold peerOpen
  split_ifs with hparity hignore hdup hfull
  · exact .nil
  · exact .nil
  · exact .nil
  · exact .nil
  · have hopen : e.closed = false ∧ e.retired.contains id = false := by
      simpa only [Bool.or_eq_true, not_or, Bool.not_eq_true] using hignore
    have hinserted : Changes lax e 0 (e.insertChannel id).1 :=
      (Change.inserted hopen.1 (contains_eq_false.mp (Bool.eq_false_iff.mpr hdup)) hopen.2
        (by omega)).single
    have haccept : (e.insertChannel id).1.acceptTx = true := h.accepting hopen.1
    dsimp only
    rw [if_pos haccept]
    exact hinserted.alike ⟨rfl, rfl, rfl, rfl, rfl, rfl, rfl⟩

theorem changes_peerData (h : Tight lax e) (id : ChannelId) (body : Bytes)
    (hwithin : lax ∨ ∀ state, e.channels[id]? = some state →
      state.unacked + body.length ≤ e.cfg.window) :
    Changes lax e 0 (e.peerData id body).1 := by
  unfold peerData
  split_ifs with hempty hignore
  · exact .nil
  · exact .nil
  cases hstate : e.channels[id]? with
  | none => exact .nil
  | some state =>
      obtain ⟨stream, hi, -, -, hin, -⟩ := h.entry id state hstate
      dsimp only
      rw [hi]
      dsimp only
      by_cases hbig : e.cfg.window < state.unacked + body.length
      · -- The excess stays in the account of the entry.
        rw [if_pos hbig]
        have hlax : lax := hwithin.resolve_right fun hall => by
          have hle := hall state hstate
          omega
        have hs : Settled lax e.cfg.window state stream
            { state with unacked := state.unacked + body.length } stream :=
          ⟨rfl, rfl, rfl, fun hr => hr, fun hin => hin, fun hcovered =>
            ⟨Nat.le_add_right_of_le hcovered.unacked, hcovered.capped, .inl hlax⟩⟩
        refine (Change.entry hstate hi hs).single.alike ⟨rfl, rfl, rfl, rfl, ?_, rfl, rfl⟩
        obtain ⟨hlt, hget⟩ := List.getElem?_eq_some_iff.mp hi
        show e.streams = e.streams.set state.inst stream
        rw [← hget, List.set_getElem_self]
      · rw [if_neg hbig]
        obtain ⟨fs, state', stream', refund, result, heq, hcut, -, -⟩ :=
          @reassemble_spec e.cfg.maxFrameLen ((state.assembler ++ body).length + 1)
            { state with assembler := state.assembler ++ body,
                         unacked := state.unacked + body.length } stream 0
            (Nat.lt_succ_self _) hin
        rw [heq]
        have hconserved := hcut.conserved
        have hunacked := hcut.unacked
        have hinst : state'.inst = state.inst := hcut.inst
        rw [List.length_append] at hconserved
        have hsettled : ∀ credited ≤ refund, Settled lax e.cfg.window state stream
            { state' with unacked := state'.unacked - credited } stream' := fun credited hle =>
          ⟨hinst, by rw [hcut.queue]; split_ifs <;> rfl, by rw [hcut.queue]; split_ifs <;> rfl,
            by rw [hcut.queue]; split_ifs <;> exact fun hr => hr,
            fun _ hr => hcut.inbound (by
              rw [hcut.queue] at hr
              split_ifs at hr <;> exact hr),
            fun hcovered => by
              have hbefore := hcovered.unacked
              have hcapped := hcovered.capped
              dsimp only at hunacked
              exact ⟨by dsimp only; omega, by dsimp only; omega, .inr (by dsimp only; omega)⟩⟩
        cases result with
        | error err =>
            dsimp only
            rw [hinst]
            exact (Change.entry hstate hi (hsettled 0 (Nat.zero_le _))).single
        | ok u =>
            have hchange := (Change.entry hstate hi (hsettled refund le_rfl)).single
            rw [← hinst] at hchange
            dsimp only
            split_ifs
            · exact hchange.alike ⟨rfl, rfl, rfl, rfl, rfl, rfl, rfl⟩
            · exact hchange

theorem changes_peerWindow (h : Tight lax e) (id : ChannelId) (body : Bytes) :
    Changes lax e 0 (e.peerWindow id body).1 := by
  unfold peerWindow
  split
  · next a b c d =>
      dsimp only
      split_ifs with hignore
      · exact .nil
      cases hstate : e.channels[id]? with
      | none => exact .nil
      | some state =>
          obtain ⟨stream, hi, -⟩ := h.entry id state hstate
          dsimp only
          rw [hi]
          dsimp only
          split_ifs with hbig
          · exact .nil
          · refine (Change.stream hi (.refl_send (stream.credit.addPermits_closed _) ?_)).single
            have hle := stream.credit.permits_addPermits_le (BigEndian.toU32 a b c d).toNat
            exact .inr fun _ _ => by omega
  · exact .nil

theorem Alike.retire (h : e.Alike e') : (e.retire id).Alike (e'.retire id) := by
  unfold Endpoint.retire
  rw [h.retired, h.order]
  split_ifs
  · exact h
  · exact ⟨h.cfg, h.closed, h.accepting, h.channels, h.streams, rfl, rfl⟩

theorem retire_setStream (stream : Stream) :
    (e.setStream i stream).retire id = (e.retire id).setStream i stream := by
  unfold retire setStream
  split_ifs <;> rfl

theorem changes_peerReset (h : Tight lax e) (id : ChannelId) :
    ∃ n ≤ e.left id, Changes lax e n (e.peerReset id) := by
  unfold peerReset
  split_ifs with hclosed
  · exact ⟨0, Nat.zero_le _, .nil⟩
  have hopen : e.closed = false := by simpa using hclosed
  have hremoved : Changes lax e (e.left id)
      (({ e with channels := e.channels.erase id } : Endpoint).retire id) :=
    (Change.removed id hopen).single
  refine ⟨_, Nat.le_refl _, ?_⟩
  cases hstate : e.channels[id]? with
  | none =>
      have herase : e.channels.erase id = e.channels := by
        apply Std.ExtTreeMap.ext_getElem?
        intro c
        rw [lookup_erase]
        split_ifs with hc
        · rw [← hc, hstate]
        · rfl
      exact hremoved.alike (Alike.retire ⟨rfl, rfl, rfl, herase.symm, rfl, rfl, rfl⟩)
  | some state =>
      obtain ⟨stream, hi, hid, -⟩ := h.entry id state hstate
      dsimp only
      rw [hi]
      dsimp only
      have hgone : ∀ (c : ChannelId) (st : ChannelState),
          (({ e with channels := e.channels.erase id } : Endpoint).retire id).channels[c]? =
            some st → st.inst ≠ state.inst := by
        intro c st hc hinst
        rw [retire_eq] at hc
        have hc : (e.channels.erase id)[c]? = some st := hc
        rw [lookup_erase] at hc
        split_ifs at hc with hne
        obtain ⟨t, ht, htid, -⟩ := h.entry c st hc
        rw [hinst, hi] at ht
        cases ht
        exact hne (hid.symm.trans htid)
      have hplace : (({ e with channels := e.channels.erase id } : Endpoint).retire
          id).streams[state.inst]? = some stream := by
        rw [retire_eq]
        exact hi
      have hsevered := hremoved.snoc (.severed hplace hgone)
      rw [← retire_setStream] at hsevered
      exact hsevered.alike (Alike.retire ⟨rfl, rfl, rfl, rfl, rfl, rfl, rfl⟩)

end Endpoint

end Mux
