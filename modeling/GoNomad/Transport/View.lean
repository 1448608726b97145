import GoNomad.Lib.CreditChannel
import GoNomad.Transport.Link

/-!
# What an endpoint knows of one channel

`Endpoint.view c` is all that an endpoint's state says about channel `c`: its
stream, its entry in the channel map, and what it has queued for the peer.
Every operation of the multiplexer changes the view of at most the channel it
is about; the lemmas here say how, so that nothing later looks into the maps.
-/

namespace Mux

open Proto Transport CreditChannel

/-! ### Segments as items of a channel -/

namespace Segment

/-- The segments this build queues. -/
inductive Formed : Segment → Prop
  | opening (c : ChannelId) : Formed (.open c)
  | data (c : ChannelId) {body : Bytes} (hne : body ≠ []) (hle : body.length ≤ maxSegmentBody) :
      Formed (.data c body)
  | window (c : ChannelId) (credit : UInt32) : Formed (.window c credit)
  | reset (c : ChannelId) : Formed (.reset c)

/-- What a segment puts on its channel's stream. -/
def item? (seg : Segment) : Option (Item UInt8) :=
  if seg.kind = kindOpen then some .opening
  else if seg.kind = kindData then some (.data seg.body)
  else if seg.kind = kindReset then some .closing
  else none

/-- The credit a segment grants. -/
def credit? (seg : Segment) : Option Nat :=
  if seg.kind = kindWindow then
    match seg.body with
    | [a, b, c, d] => some (BigEndian.toU32 a b c d).toNat
    | _ => none
  else
    none

@[simp] theorem item?_open (c : ChannelId) : (Segment.open c).item? = some .opening := rfl
@[simp] theorem item?_data (c : ChannelId) (body : Bytes) :
    (Segment.data c body).item? = some (.data body) := rfl
@[simp] theorem item?_window (c : ChannelId) (n : UInt32) : (Segment.window c n).item? = none := rfl
@[simp] theorem item?_reset (c : ChannelId) : (Segment.reset c).item? = some .closing := rfl

@[simp] theorem credit?_open (c : ChannelId) : (Segment.open c).credit? = none := rfl
@[simp] theorem credit?_data (c : ChannelId) (body : Bytes) :
    (Segment.data c body).credit? = none := rfl
@[simp] theorem credit?_reset (c : ChannelId) : (Segment.reset c).credit? = none := rfl

@[simp] theorem credit?_window (c : ChannelId) (n : UInt32) :
    (Segment.window c n).credit? = some n.toNat := by
  unfold credit? window BigEndian.ofU32
  rw [if_pos rfl]
  simp only [BigEndian.toU32_ofU32]

@[simp] theorem channel_open (c : ChannelId) : (Segment.open c).channel = c := rfl
@[simp] theorem channel_data (c : ChannelId) (body : Bytes) :
    (Segment.data c body).channel = c := rfl
@[simp] theorem channel_window (c : ChannelId) (n : UInt32) :
    (Segment.window c n).channel = c := rfl
@[simp] theorem channel_reset (c : ChannelId) : (Segment.reset c).channel = c := rfl

/-- The items of channel `c` among some segments. -/
def itemsOf (c : ChannelId) (segs : List Segment) : List (Item UInt8) :=
  segs.filterMap fun seg => if seg.channel = c then seg.item? else none

/-- The credit granted on channel `c` by some segments. -/
def creditsOf (c : ChannelId) (segs : List Segment) : List Nat :=
  segs.filterMap fun seg => if seg.channel = c then seg.credit? else none

variable {c : ChannelId}

@[simp] theorem itemsOf_nil : itemsOf c [] = [] := rfl
@[simp] theorem creditsOf_nil : creditsOf c [] = [] := rfl

@[simp] theorem itemsOf_append (segs segs' : List Segment) :
    itemsOf c (segs ++ segs') = itemsOf c segs ++ itemsOf c segs' :=
  List.filterMap_append

@[simp] theorem creditsOf_append (segs segs' : List Segment) :
    creditsOf c (segs ++ segs') = creditsOf c segs ++ creditsOf c segs' :=
  List.filterMap_append

theorem itemsOf_cons (seg : Segment) (segs : List Segment) :
    itemsOf c (seg :: segs) = itemsOf c [seg] ++ itemsOf c segs :=
  itemsOf_append [seg] segs

theorem creditsOf_cons (seg : Segment) (segs : List Segment) :
    creditsOf c (seg :: segs) = creditsOf c [seg] ++ creditsOf c segs :=
  creditsOf_append [seg] segs

/-- A segment of another channel says nothing about this one. -/
theorem itemsOf_other {seg : Segment} (h : seg.channel ≠ c) : itemsOf c [seg] = [] := by
  simp [itemsOf, h]

theorem creditsOf_other {seg : Segment} (h : seg.channel ≠ c) : creditsOf c [seg] = [] := by
  simp [creditsOf, h]

theorem itemsOf_self (seg : Segment) : itemsOf seg.channel [seg] = seg.item?.toList := by
  cases h : seg.item? <;> simp [itemsOf, h]

theorem creditsOf_self (seg : Segment) : creditsOf seg.channel [seg] = seg.credit?.toList := by
  cases h : seg.credit? <;> simp [creditsOf, h]

end Segment

/-! ### Maps keyed by channel -/

section maps

variable {β : Type} {m : Std.ExtTreeMap ChannelId β} {k a : ChannelId} {v : β}

theorem lookup_insert : (m.insert k v)[a]? = if k = a then some v else m[a]? := by
  rw [Std.ExtTreeMap.getElem?_insert]
  simp only [Std.compare_eq_iff_eq]

theorem lookup_erase : (m.erase k)[a]? = if k = a then none else m[a]? := by
  rw [Std.ExtTreeMap.getElem?_erase]
  simp only [Std.compare_eq_iff_eq]

@[simp] theorem lookup_empty : (∅ : Std.ExtTreeMap ChannelId β)[a]? = none := by
  simp

theorem contains_iff : m.contains a = true ↔ ∃ v, m[a]? = some v := by
  rw [← Std.ExtTreeMap.isSome_getElem?_eq_contains, Option.isSome_iff_exists]

theorem contains_eq_false : m.contains a = false ↔ m[a]? = none := by
  rw [← Std.ExtTreeMap.isSome_getElem?_eq_contains, Option.isSome_eq_false_iff,
    Option.isNone_iff_eq_none]

theorem queue_insertIfNew {m : Std.ExtTreeMap ChannelId (List Segment)} :
    (m.insertIfNew k [])[a]?.getD [] = m[a]?.getD [] := by
  rw [Std.ExtTreeMap.getElem?_insertIfNew]
  split_ifs with h
  · obtain ⟨hka, hk⟩ := h
    rw [Std.compare_eq_iff_eq] at hka
    subst hka
    have hnone : m[k]? = none := by simpa using hk
    rw [hnone]
    rfl
  · rfl

end maps

/-! ### The view -/

/-- What an endpoint knows of one channel. -/
structure View where
  closed : Bool
  stream : Option Stream
  entry : Option ChannelState
  flight : List (Item UInt8)
  grants : List Nat

namespace Endpoint

/-- The stream that was created for a channel. -/
def streamOf (e : Endpoint) (c : ChannelId) : Option Stream :=
  e.streams.find? fun stream => stream.id == c

/-- The outbound queue of a channel. -/
def queue (e : Endpoint) (c : ChannelId) : List Segment := e.out[c]?.getD []

def view (e : Endpoint) (c : ChannelId) : View where
  closed := e.closed
  stream := e.streamOf c
  entry := e.channels[c]?
  flight := Segment.itemsOf c (e.queue c)
  grants := Segment.creditsOf c e.urgent

/-- The ids that have ever had a stream here. -/
def ids (e : Endpoint) : List ChannelId := e.streams.map Stream.id

/-- No id has more than one stream. -/
def UniqueIds (e : Endpoint) : Prop := e.ids.Nodup

variable {e : Endpoint} {c id : ChannelId} {i : Nat}

/-- The stream at a place is the stream of its channel. -/
theorem UniqueIds.streamOf (h : e.UniqueIds) {stream : Stream}
    (hi : e.streams[i]? = some stream) : e.streamOf stream.id = some stream := by
  unfold UniqueIds ids at h
  unfold Endpoint.streamOf
  generalize e.streams = streams at h hi
  induction streams generalizing i with
  | nil => simp at hi
  | cons s streams ih =>
      rw [List.map_cons, List.nodup_cons] at h
      cases i with
      | zero =>
          simp only [List.getElem?_cons_zero, Option.some.injEq] at hi
          rw [hi]
          simp
      | succ i =>
          rw [List.getElem?_cons_succ] at hi
          have hne : s.id ≠ stream.id := by
            intro heq
            apply h.1
            rw [heq]
            exact List.mem_map_of_mem (List.mem_of_getElem? hi)
          rw [List.find?_cons_of_neg (by simpa using hne)]
          exact ih h.2 hi

theorem streamOf_id {stream : Stream} (h : e.streamOf c = some stream) : stream.id = c := by
  simpa using List.find?_some h

theorem streamOf_mem {stream : Stream} (h : e.streamOf c = some stream) : stream ∈ e.streams :=
  List.mem_of_find?_eq_some h

theorem streamOf_eq_none : e.streamOf c = none ↔ ∀ stream ∈ e.streams, stream.id ≠ c := by
  simp [Endpoint.streamOf]

theorem mem_ids : c ∈ e.ids ↔ e.streamOf c ≠ none := by
  unfold ids
  rw [Ne, streamOf_eq_none, List.mem_map]
  push Not
  rfl

/-- The place of a channel's stream. -/
theorem exists_place {c : ChannelId} {stream : Stream} (h : e.streamOf c = some stream) :
    ∃ i : Nat, e.streams[i]? = some stream :=
  List.getElem?_of_mem (streamOf_mem h)

theorem UniqueIds.place_unique (h : e.UniqueIds) {j : Nat} {s t : Stream}
    (hi : e.streams[i]? = some s) (hj : e.streams[j]? = some t) (hid : s.id = t.id) : i = j := by
  have hi' : (e.streams.map Stream.id)[i]? = some s.id := by simp [hi]
  have hj' : (e.streams.map Stream.id)[j]? = some s.id := by simp [hj, hid]
  have hlt : i < (e.streams.map Stream.id).length := by
    obtain ⟨hlt, -⟩ := List.getElem?_eq_some_iff.mp hi'
    exact hlt
  exact (List.getElem?_inj hlt h).mp (hi'.trans hj'.symm)

/-! ### How the operations change the view -/

section setStream

variable {stream stream' : Stream}

theorem ids_setStream (hi : e.streams[i]? = some stream) (hid : stream'.id = stream.id) :
    (e.setStream i stream').ids = e.ids := by
  unfold setStream ids
  dsimp only
  rw [List.map_set, hid]
  have hi' : (e.streams.map Stream.id)[i]? = some stream.id := by simp [hi]
  obtain ⟨hlt, heq⟩ := List.getElem?_eq_some_iff.mp hi'
  rw [← heq, List.set_getElem_self]

theorem streamOf_setStream (hu : e.UniqueIds) (hi : e.streams[i]? = some stream)
    (hid : stream'.id = stream.id) :
    (e.setStream i stream').streamOf c =
      if stream.id = c then some stream' else e.streamOf c := by
  have hu' : (e.setStream i stream').UniqueIds := by
    unfold UniqueIds
    rw [ids_setStream hi hid]
    exact hu
  have hlt : i < e.streams.length := by
    obtain ⟨hlt, -⟩ := List.getElem?_eq_some_iff.mp hi
    exact hlt
  have hi' : (e.setStream i stream').streams[i]? = some stream' := by
    unfold setStream
    simp [hlt]
  by_cases hc : stream.id = c
  · rw [if_pos hc, ← hc, ← hid]
    exact hu'.streamOf hi'
  · rw [if_neg hc]
    -- Away from place `i` nothing changed, and place `i` is about another channel.
    cases hold : e.streamOf c with
    | none =>
        rw [streamOf_eq_none] at hold ⊢
        intro s hs
        obtain ⟨j, hj⟩ := List.getElem?_of_mem hs
        by_cases hij : i = j
        · subst hij
          rw [hi'] at hj
          cases hj
          rwa [hid]
        · unfold setStream at hj
          rw [List.getElem?_set_ne hij] at hj
          exact hold s (List.mem_of_getElem? hj)
    | some s =>
        obtain ⟨j, hj⟩ := exists_place hold
        have hsid := streamOf_id hold
        have hij : i ≠ j := by
          rintro rfl
          rw [hi] at hj
          cases hj
          exact hc hsid
        have hj' : (e.setStream i stream').streams[j]? = some s := by
          unfold setStream
          rw [List.getElem?_set_ne hij]
          exact hj
        rw [← hsid]
        exact hu'.streamOf hj'

theorem view_setStream (hu : e.UniqueIds) (hi : e.streams[i]? = some stream)
    (hid : stream'.id = stream.id) :
    (e.setStream i stream').view c =
      if stream.id = c then { e.view c with stream := some stream' } else e.view c := by
  have hs := streamOf_setStream (c := c) hu hi hid
  unfold view
  rw [hs]
  by_cases hc : stream.id = c
  · rw [if_pos hc, if_pos hc]
    rfl
  · rw [if_neg hc, if_neg hc]
    rfl

end setStream

theorem queue_enqueue (seg : Segment) :
    (e.enqueue seg).queue c = if seg.channel = c then e.queue c ++ [seg] else e.queue c := by
  unfold enqueue queue
  dsimp only
  rw [lookup_insert]
  by_cases hc : seg.channel = c
  · rw [if_pos hc, if_pos hc, hc]
    rfl
  · rw [if_neg hc, if_neg hc]

theorem view_enqueue (seg : Segment) :
    (e.enqueue seg).view c =
      { e.view c with flight := (e.view c).flight ++ Segment.itemsOf c [seg] } := by
  unfold view
  rw [queue_enqueue]
  by_cases hc : seg.channel = c
  · rw [if_pos hc, Segment.itemsOf_append]
    rfl
  · rw [if_neg hc, Segment.itemsOf_other hc, List.append_nil]
    rfl

/-- The stream a new channel starts with. -/
def newStream (e : Endpoint) (id : ChannelId) : Stream :=
  ⟨id, .new e.cfg.window, [], some .idle, some .idle⟩

/-- The entry a new channel starts with. -/
def newEntry (e : Endpoint) : ChannelState := ⟨e.streams.length, true, [], 0⟩

theorem streamOf_append {streams : List Stream} {s : Stream} :
    (streams ++ [s]).find? (fun stream => stream.id == c) =
      (streams.find? fun stream => stream.id == c).or (if s.id = c then some s else none) := by
  rw [List.find?_append]
  congr 1
  by_cases hc : s.id = c <;> simp [hc]

theorem view_insertChannel (hnew : e.streamOf id = none) :
    (e.insertChannel id).1.view c =
      if id = c then
        { e.view c with stream := some (e.newStream id), entry := some e.newEntry }
      else e.view c := by
  unfold view insertChannel
  dsimp only
  unfold streamOf queue
  dsimp only
  rw [queue_insertIfNew, lookup_insert, streamOf_append]
  by_cases hc : id = c
  · subst hc
    unfold streamOf at hnew
    rw [hnew]
    simp [newStream, newEntry]
  · simp [hc]

theorem view_retire : (e.retire id).view c = e.view c := by
  unfold retire
  split
  · rfl
  · rfl

theorem view_closeChannel :
    (e.closeChannel id).view c =
      if e.holds id ∧ id = c then
        { e.view c with entry := none, flight := (e.view c).flight ++ [.closing] }
      else e.view c := by
  unfold closeChannel
  by_cases hholds : e.holds id = true
  · rw [if_pos hholds, view_enqueue, view_retire]
    by_cases hc : id = c
    · subst hc
      rw [if_pos ⟨hholds, rfl⟩]
      have hself := Segment.itemsOf_self (.reset id)
      rw [Segment.channel_reset] at hself
      rw [hself]
      unfold view
      dsimp only
      rw [lookup_erase, if_pos rfl]
      rfl
    · rw [if_neg (fun h => hc h.2), Segment.itemsOf_other (by simpa using hc), List.append_nil]
      unfold view
      dsimp only
      rw [lookup_erase, if_neg hc]
      rfl
  · rw [if_neg hholds, if_neg (fun h => hholds h.1)]

theorem view_returnCredit {bytes : Nat} (hbytes : bytes < 2 ^ 32) :
    (e.returnCredit id bytes).view c =
      if id = c ∧ e.closed = false then
        match e.channels[id]? with
        | none => e.view c
        | some state =>
            { e.view c with
              entry := some { state with unacked := state.unacked - bytes }
              grants := (e.view c).grants ++ [bytes] }
      else e.view c := by
  unfold returnCredit
  rw [if_neg (by omega)]
  by_cases hclosed : e.closed = true
  · rw [if_pos hclosed, if_neg (by simp [hclosed])]
  · rw [if_neg hclosed]
    have hword : (UInt32.ofNat bytes).toNat = bytes := by
      rw [UInt32.toNat_ofNat']
      omega
    cases hstate : e.channels[id]? with
    | none => simp
    | some state =>
        by_cases hc : id = c
        · subst hc
          rw [if_pos ⟨rfl, by simpa using hclosed⟩]
          unfold view
          dsimp only
          rw [lookup_insert, if_pos rfl, Segment.creditsOf_append]
          have hself := Segment.creditsOf_self (.window id (UInt32.ofNat bytes))
          rw [Segment.channel_window, Segment.credit?_window, hword] at hself
          rw [hself]
          rfl
        · rw [if_neg (fun h => hc h.1)]
          unfold view
          dsimp only
          rw [lookup_insert, if_neg hc, Segment.creditsOf_append,
            Segment.creditsOf_other (by simpa using hc), List.append_nil]
          rfl

/-- Closing the link closes semaphores and changes nothing else about a stream. -/
def Severed (stream stream' : Stream) : Prop :=
  stream' = stream ∨ stream' = { stream with credit := stream.credit.close }

theorem Severed.same_id {stream stream' : Stream} (h : Severed stream stream') :
    stream'.id = stream.id := by
  rcases h with rfl | rfl <;> rfl

/-- A link that has ended does not end again. -/
theorem shutdown_closed (h : e.closed = true) {err : Option TransportError} :
    e.shutdown err = e := by
  unfold shutdown
  rw [if_pos h]

theorem shutdown_place (hopen : e.closed = false) {err : Option TransportError} {stream : Stream}
    (hi : e.streams[i]? = some stream) :
    ∃ stream', (e.shutdown err).streams[i]? = some stream' ∧ Severed stream stream' := by
  unfold shutdown
  rw [if_neg (by simp [hopen])]
  dsimp only
  rw [List.getElem?_mapIdx, hi, Option.map_some]
  refine ⟨_, rfl, ?_⟩
  unfold Severed
  split_ifs
  · exact Or.inr rfl
  · exact Or.inl rfl

theorem ids_shutdown {err : Option TransportError} : (e.shutdown err).ids = e.ids := by
  unfold ids
  by_cases hclosed : e.closed = true
  · rw [shutdown_closed hclosed]
  · have hopen : e.closed = false := by simpa using hclosed
    apply List.ext_getElem?
    intro i
    rw [List.getElem?_map, List.getElem?_map]
    cases hi : e.streams[i]? with
    | some stream =>
        obtain ⟨stream', hi', hsev⟩ := shutdown_place hopen hi
        rw [hi', Option.map_some, Option.map_some, hsev.same_id]
    | none =>
        unfold shutdown
        rw [if_neg hclosed]
        dsimp only
        rw [List.getElem?_mapIdx, hi]
        rfl

theorem length_shutdown {err : Option TransportError} :
    (e.shutdown err).streams.length = e.streams.length := by
  have hlen := congrArg List.length (ids_shutdown : (e.shutdown err).ids = _)
  unfold ids at hlen
  rwa [List.length_map, List.length_map] at hlen

/-- What is left of a channel when the link is gone. -/
theorem view_shutdown (hu : e.UniqueIds) (hopen : e.closed = false)
    {err : Option TransportError} :
    ∃ stream', (e.shutdown err).view c = ⟨true, stream', none, [], []⟩ ∧
      ((e.streamOf c = none ∧ stream' = none) ∨
        ∃ s s', e.streamOf c = some s ∧ stream' = some s' ∧ Severed s s') := by
  have hu' : (e.shutdown err).UniqueIds := by
    unfold UniqueIds
    rw [ids_shutdown]
    exact hu
  refine ⟨(e.shutdown err).streamOf c, ?_, ?_⟩
  · unfold view queue shutdown
    rw [if_neg (by simp [hopen])]
    dsimp only
    rw [lookup_empty, lookup_empty]
    rfl
  · cases hs : e.streamOf c with
    | none =>
        refine Or.inl ⟨rfl, ?_⟩
        rw [streamOf_eq_none] at hs ⊢
        intro s hmem heq
        have hid : c ∈ (e.shutdown err).ids := by
          rw [← heq]
          exact List.mem_map_of_mem hmem
        rw [ids_shutdown] at hid
        obtain ⟨t, ht, htid⟩ := List.mem_map.mp hid
        exact hs t ht htid
    | some s =>
        obtain ⟨i, hi⟩ := exists_place hs
        obtain ⟨s', hi', hsev⟩ := shutdown_place hopen hi
        have hs' := hu'.streamOf hi'
        rw [hsev.same_id, streamOf_id hs] at hs'
        exact Or.inr ⟨s, s', rfl, hs', hsev⟩

/-! ### Write halves -/

/-- The write half of channel `c` is as before and the channel has not come
back, or the channel is new and its write half idle. -/
def SendKept (c : ChannelId) (e e' : Endpoint) : Prop :=
  ((e'.view c).stream.map Stream.send = (e.view c).stream.map Stream.send ∧
      ((e'.view c).entry.isSome = true → (e.view c).entry.isSome = true)) ∨
    ((e.view c).stream = none ∧ (e'.view c).stream.map Stream.send = some (some .idle))

theorem SendKept.of_view {e' : Endpoint} (h : e'.view c = e.view c) : SendKept c e e' := by
  refine Or.inl ⟨?_, ?_⟩
  · rw [h]
  · rw [h]
    exact fun hs => hs

theorem SendKept.shutdown {e' : Endpoint} (h : SendKept c e e') (hu : e'.UniqueIds)
    {err : Option TransportError} : SendKept c e (e'.shutdown err) := by
  by_cases hclosed : e'.closed = true
  · rw [shutdown_closed hclosed]
    exact h
  · obtain ⟨stream', hview, hor⟩ := @view_shutdown e' c hu (by simpa using hclosed) err
    have hsend : ((e'.shutdown err).view c).stream.map Stream.send =
        (e'.view c).stream.map Stream.send := by
      rw [hview]
      rcases hor with ⟨hnone, rfl⟩ | ⟨t, t', hsome, rfl, hsev⟩
      · have hs : (e'.view c).stream = none := hnone
        rw [hs]
      · have hs : (e'.view c).stream = some t := hsome
        rw [hs]
        rcases hsev with rfl | rfl <;> rfl
    rcases h with ⟨hsame, -⟩ | ⟨hnew, hidle⟩
    · refine Or.inl ⟨hsend.trans hsame, ?_⟩
      rw [hview]
      exact fun hs => nomatch hs
    · exact Or.inr ⟨hnew, hsend.trans hidle⟩

end Endpoint

end Mux
