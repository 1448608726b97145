import GoNomad.Transport.Hostile

/-!
# What arrived on a channel and what its reader returned

One end of the link, its peer sending anything at all.  The account of a stream
whose reader is in use: the bytes that arrived on its channel are those of the
frames returned, then those of the frames that wait, then the part of a frame
that waits for its rest.  The account is lost where a channel ends while a part
of a frame waits, and where data is dropped because its channel has ended.

* `turn_of_step` — what one step adds to each side of the account;
* `intake_of_run` — the account holds in every run that loses none of it;
* `recvEnd_of_run` — what `recv` says at the end of a channel.
-/

namespace Mux

open Proto Transport

namespace Intake

open Endpoint Hostile

/-! ### Steps -/

/-- What a step shows of the reading side of a stream. -/
inductive Shown
  | arrived (i : Nat) (body : Bytes)
  | returned (i : Nat) (frame : Frame)
  | ended (i : Nat)
  | failed (i : Nat) (err : TransportError)
  | other

namespace Shown

/-- The bytes that arrived on the channel of stream `i`. -/
def data (i : Nat) : Shown → Bytes
  | arrived j body => if j = i then body else []
  | _ => []

/-- The frames the reader of stream `i` returned. -/
def frames (i : Nat) : Shown → List Frame
  | returned j frame => if j = i then [frame] else []
  | _ => []

end Shown

/-- The stream that data of a channel is for: the one whose channel is open, or
else the last one that had the id. -/
def addressee (e : Endpoint) (c : ChannelId) : Option Nat :=
  match e.channels[c]? with
  | some state => some state.inst
  | none => (List.range e.streams.length).reverse.find? fun i =>
      e.streams[i]?.any fun stream => stream.id == c

/-- What an event shows, given what it showed the application. -/
def shown (e : Endpoint) : Event → Obs → Shown
  | .op (.recvCredit i), .received _ frame => .returned i frame
  | .op (.recvEnd i), .ended _ => .ended i
  | .op (.recvEnd i), .recvFailed _ err => .failed i err
  | .segment (a :: b :: c :: d :: kind :: body), _ =>
      if kind = kindData then
        match addressee e (BigEndian.toU32 a b c d) with
        | some i => .arrived i body
        | none => .other
      else
        .other
  | _, _ => .other

/-- What the reader does once a segment has been handled: a violation ends it
and the connection. -/
def conclude (r : Endpoint × Except TransportError Unit) : Endpoint :=
  match r.2 with
  | .ok () => r.1
  | .error err => r.1.shutdown (some err)

/-- One step of an endpoint. -/
def step (e : Endpoint) (event : Event) : Option (Endpoint × Shown) :=
  match event with
  | .op o => (e.perform o).map fun r => (r.1, shown e event r.2)
  | .takeNext => e.takeNext.map fun r => (r.2, shown e event (.taken r.1))
  | .segment bytes =>
      let r := e.handleSegment bytes
      some (conclude r, shown e event (.delivered r.2))
  | .shutdown err => some (e.shutdown err, shown e event .silent)

abbrev Trace := List (Event × Shown)

/-- The bytes that arrived on the channel of stream `i`. -/
def arrivedOn (i : Nat) (trace : Trace) : Bytes := trace.flatMap fun entry => entry.2.data i

/-- The frames the reader of stream `i` returned. -/
def returnedOn (i : Nat) (trace : Trace) : List Frame := trace.flatMap fun entry => entry.2.frames i

/-! ### Where the account is lost -/

/-- A part of a frame waits for its rest on channel `c`, whose reader is in use. -/
def halfway (e : Endpoint) (c : ChannelId) : Bool :=
  match e.channels[c]? with
  | none => false
  | some state =>
      !state.assembler.isEmpty && e.streams[state.inst]?.any fun stream => stream.recv.isSome

/-- The channel an operation closes, if it is open. -/
def closing (e : Endpoint) : LocalOp → Option ChannelId
  | .finish i => e.streams[i]?.map Stream.id
  | .dropSend i => (e.streams[i]?.filter fun stream => stream.recv.isNone).map Stream.id
  | .dropRecv i => (e.streams[i]?.filter fun stream => stream.send.isNone).map Stream.id
  | _ => none

/-- A step ends no channel in the middle of a frame somebody could still read,
except by an error that `recv` reports, and drops no data because its channel
has ended. -/
def Whole (_ : Trace) (e : Endpoint) : Event → Prop
  | .op .close => ∀ c, halfway e c = false
  -- The reader that goes away is not in use afterwards.
  | .op (.dropRecv i) => ∀ c, closing e (.dropRecv i) = some c → halfway e c = true →
      addressee e c = some i
  | .op o => ∀ c, closing e o = some c → halfway e c = false
  | .takeNext => True
  | .segment (a :: b :: c :: d :: kind :: body) =>
      (kind = kindReset → halfway e (BigEndian.toU32 a b c d) = false) ∧
        (kind = kindData → body ≠ [] → (e.closed = true → e.closeError ≠ .closed) ∧
          (e.closed = false → e.retired.contains (BigEndian.toU32 a b c d) = false))
  | .segment _ => True
  | .shutdown err => err.getD .closed = .closed → ∀ c, halfway e c = false

/-! ### The account -/

/-- What the map says of its streams. -/
structure Linked (e : Endpoint) : Prop where
  entry : ∀ (c : ChannelId) (state : ChannelState), e.channels[c]? = some state →
    ∃ stream : Stream, e.streams[state.inst]? = some stream ∧ stream.id = c ∧
      (stream.recv.isSome = true → state.inbound = true)
  quiet : e.closed = true → e.channels = ∅

/-- `recv` reports an error at the end of a channel. -/
def Broken (e : Endpoint) : Prop := e.closed = true ∧ e.closeError ≠ .closed

/-- The part of a frame that waits for its rest on the channel of stream `i`. -/
def held (e : Endpoint) (i : Nat) : Bytes :=
  match e.streams[i]? with
  | none => []
  | some stream =>
      match e.channels[stream.id]? with
      | none => []
      | some state => if state.inst = i then state.assembler else []

/-- The account of stream `i`. -/
structure Accounted (e : Endpoint) (i : Nat) (arrived : Bytes) (returned : List Frame) :
    Prop where
  fresh : e.streams[i]? = none → arrived = [] ∧ returned = []
  reader : ∀ stream, e.streams[i]? = some stream → stream.recv.isSome = true →
    arrived = Frame.code.encAll (returned ++ stream.undelivered) ++ held e i

/-- What one step does to the accounts. -/
structure Turn (e e' : Endpoint) (sh : Shown) : Prop where
  closed : e.closed = true → e'.closed = true ∧ e'.closeErr = e.closeErr
  linked : Linked e'
  account : Broken e' ∨ ∀ i arrived returned, Accounted e i arrived returned →
    Accounted e' i (arrived ++ sh.data i) (returned ++ sh.frames i)

/-! ### Changes that leave every account alone -/

/-- A change that no account notices. -/
structure Keeps (e e' : Endpoint) : Prop where
  closed : e.closed = true → e'.closed = true ∧ e'.closeErr = e.closeErr
  linked : Linked e → Linked e'
  fresh : ∀ i : Nat, e'.streams[i]? = none → e.streams[i]? = none
  reader : ∀ (i : Nat) (stream' : Stream), e'.streams[i]? = some stream' →
    stream'.recv.isSome = true →
      (∃ stream, e.streams[i]? = some stream ∧ stream.recv.isSome = true ∧
        stream'.undelivered = stream.undelivered ∧ held e' i = held e i) ∨
      (e.streams[i]? = none ∧ stream'.undelivered = [] ∧ held e' i = [])

variable {e e' e'' : Endpoint} {i : Nat} {c id : ChannelId} {stream stream' : Stream}
variable {state : ChannelState} {sh : Shown} {trace : Trace}

theorem Keeps.refl (e : Endpoint) : Keeps e e where
  closed h := ⟨h, rfl⟩
  linked h := h
  fresh _ h := h
  reader _ stream hi hrecv := .inl ⟨stream, hi, hrecv, rfl, rfl⟩

theorem Keeps.trans (h : Keeps e e') (h' : Keeps e' e'') : Keeps e e'' where
  closed hc := by
    obtain ⟨hclosed, herr⟩ := h.closed hc
    obtain ⟨hclosed', herr'⟩ := h'.closed hclosed
    exact ⟨hclosed', herr'.trans herr⟩
  linked hl := h'.linked (h.linked hl)
  fresh i hi := h.fresh i (h'.fresh i hi)
  reader i stream'' hi hrecv := by
    obtain ⟨stream', hi', hrecv', hsame, hheld⟩ | ⟨hnone, hempty, hheld⟩ :=
      h'.reader i stream'' hi hrecv
    · obtain ⟨stream, hi₀, hrecv₀, hsame₀, hheld₀⟩ | ⟨hnone, hempty, hheld₀⟩ :=
        h.reader i stream' hi' hrecv'
      · exact .inl ⟨stream, hi₀, hrecv₀, hsame.trans hsame₀, hheld.trans hheld₀⟩
      · exact .inr ⟨hnone, hsame.trans hempty, hheld.trans hheld₀⟩
    · exact .inr ⟨h.fresh i hnone, hempty, hheld⟩

theorem Keeps.accounted (h : Keeps e e') {arrived : Bytes} {returned : List Frame}
    (ha : Accounted e i arrived returned) : Accounted e' i arrived returned where
  fresh hi := ha.fresh (h.fresh i hi)
  reader stream' hi hrecv := by
    obtain ⟨stream, hi₀, hrecv₀, hsame, hheld⟩ | ⟨hnone, hempty, hheld⟩ :=
      h.reader i stream' hi hrecv
    · rw [hsame, hheld]
      exact ha.reader stream hi₀ hrecv₀
    · obtain ⟨rfl, rfl⟩ := ha.fresh hnone
      rw [hempty, hheld]
      rfl

theorem Broken.keeps (h : Broken e) (hk : Keeps e e') : Broken e' := by
  obtain ⟨hclosed, herr⟩ := hk.closed h.1
  refine ⟨hclosed, ?_⟩
  unfold Endpoint.closeError
  rw [herr]
  exact h.2

/-- A step that shows nothing of the reading side and that no account notices. -/
theorem Keeps.turn (h : Keeps e e') (hl : Linked e) (hdata : ∀ i, sh.data i = [])
    (hframes : ∀ i, sh.frames i = []) : Turn e e' sh where
  closed := h.closed
  linked := h.linked hl
  account := by
    refine .inr fun i arrived returned ha => ?_
    rw [hdata, hframes, List.append_nil, List.append_nil]
    exact h.accounted ha

/-- A change that no account notices may follow. -/
theorem Turn.keeps (h : Turn e e' sh) (hk : Keeps e' e'') : Turn e e'' sh where
  closed hc := by
    obtain ⟨hclosed, herr⟩ := h.closed hc
    obtain ⟨hclosed', herr'⟩ := hk.closed hclosed
    exact ⟨hclosed', herr'.trans herr⟩
  linked := hk.linked h.linked
  account := h.account.imp (fun hb => hb.keeps hk) fun hacc i arrived returned ha =>
    hk.accounted (hacc i arrived returned ha)

/-- Queues, cursor and memory are in no account. -/
theorem Keeps.of_same (hchannels : e'.channels = e.channels) (hstreams : e'.streams = e.streams)
    (hclosed : e'.closed = e.closed) (herr : e'.closeErr = e.closeErr) : Keeps e e' where
  closed h := ⟨hclosed.trans h, herr⟩
  linked h := by
    refine ⟨?_, ?_⟩
    · rw [hchannels, hstreams]
      exact h.entry
    · rw [hclosed, hchannels]
      exact h.quiet
  fresh i hi := by rwa [hstreams] at hi
  reader i stream' hi hrecv := by
    refine .inl ⟨stream', by rwa [hstreams] at hi, hrecv, rfl, ?_⟩
    unfold held
    rw [hchannels, hstreams]

theorem held_eq (hi : e.streams[i]? = some stream) :
    held e i = match e.channels[stream.id]? with
      | none => []
      | some state => if state.inst = i then state.assembler else [] := by
  unfold held
  rw [hi]

theorem halfway_iff : halfway e c = true ↔ ∃ state, e.channels[c]? = some state ∧
    state.assembler ≠ [] ∧ ∃ stream, e.streams[state.inst]? = some stream ∧
      stream.recv.isSome = true := by
  unfold halfway
  cases e.channels[c]? with
  | none => simp
  | some state => simp [Option.any_eq_true]

/-- Nothing waits where no frame is halfway. -/
theorem held_eq_nil (hi : e.streams[i]? = some stream) (hrecv : stream.recv.isSome = true)
    (hwhole : halfway e stream.id = false) : held e i = [] := by
  rw [held_eq hi]
  cases hstate : e.channels[stream.id]? with
  | none => rfl
  | some state =>
      dsimp only
      split_ifs with hinst
      · by_contra hpart
        rw [halfway_iff.mpr ⟨state, hstate, hpart, stream, hinst ▸ hi, hrecv⟩] at hwhole
        cases hwhole
      · rfl

theorem Linked.setStream (h : Linked e) (hi : e.streams[i]? = some stream)
    (hid : stream'.id = stream.id)
    (hrecv : stream'.recv.isSome = true → stream.recv.isSome = true) :
    Linked (e.setStream i stream') := by
  refine ⟨?_, h.quiet⟩
  intro c state hstate
  obtain ⟨s, hs, hsid, hin⟩ := h.entry c state hstate
  rw [getElem?_setStream (lt_of_place hi)]
  split_ifs with hij
  · rw [← hij, hi] at hs
    cases hs
    exact ⟨stream', rfl, hid.trans hsid, fun hr => hin (hrecv hr)⟩
  · exact ⟨s, hs, hsid, hin⟩

/-- Replacing a stream moves nothing in the channel map. -/
theorem held_setStream (hi : e.streams[i]? = some stream) (hid : stream'.id = stream.id)
    (j : Nat) : held (e.setStream i stream') j = held e j := by
  unfold held
  rw [getElem?_setStream (lt_of_place hi)]
  split_ifs with hij
  · rw [← hij, hi]
    dsimp only
    rw [hid]
    rfl
  · rfl

/-- A stream whose reader is as before, or has gone. -/
theorem Keeps.setStream (hi : e.streams[i]? = some stream) (hid : stream'.id = stream.id)
    (hrecv : stream'.recv.isSome = true →
      stream.recv.isSome = true ∧ stream'.undelivered = stream.undelivered) :
    Keeps e (e.setStream i stream') := by
  have hplace := @getElem?_setStream e i stream' (lt_of_place hi)
  refine ⟨fun h => ⟨h, rfl⟩, fun h => h.setStream hi hid fun hr => (hrecv hr).1, ?_, ?_⟩
  · intro j hj
    rw [hplace] at hj
    split_ifs at hj
    exact hj
  · intro j s hs hr
    rw [hplace] at hs
    rw [held_setStream hi hid]
    split_ifs at hs with hij
    · cases hs
      subst hij
      exact .inl ⟨stream, hi, (hrecv hr).1, (hrecv hr).2, rfl⟩
    · exact .inl ⟨s, hs, hr, rfl, rfl⟩

/-- A channel that ends, but not in the middle of a frame. -/
theorem Keeps.erase (hwhole : halfway e id = false) :
    Keeps e { e with channels := e.channels.erase id } := by
  refine ⟨fun h => ⟨h, rfl⟩, fun h => ⟨?_, ?_⟩, fun _ h => h, ?_⟩
  · intro c state hstate
    have hstate : (e.channels.erase id)[c]? = some state := hstate
    rw [lookup_erase] at hstate
    split_ifs at hstate
    exact h.entry c state hstate
  · intro hclosed
    show e.channels.erase id = ∅
    rw [h.quiet hclosed]
    apply Std.ExtTreeMap.ext_getElem?
    intro c
    rw [lookup_erase, lookup_empty, ite_self]
  · intro i stream hi hrecv
    have hi : e.streams[i]? = some stream := hi
    refine .inl ⟨stream, hi, hrecv, rfl, ?_⟩
    rw [@held_eq { e with channels := e.channels.erase id } i stream hi, held_eq hi]
    dsimp only
    rw [lookup_erase]
    split_ifs with hid
    · rw [← held_eq hi, held_eq_nil hi hrecv (hid ▸ hwhole)]
    · rfl

/-- An entry of which only the count of unacknowledged bytes changes. -/
theorem Keeps.unacked (hstate : e.channels[id]? = some state) (n : Nat) :
    Keeps e { e with channels := e.channels.insert id { state with unacked := n } } := by
  refine ⟨fun h => ⟨h, rfl⟩, fun h => ⟨?_, ?_⟩, fun _ h => h, ?_⟩
  · intro c st hst
    have hst : (e.channels.insert id _)[c]? = some st := hst
    rw [lookup_insert] at hst
    split_ifs at hst with hid
    · cases hst
      subst hid
      exact h.entry id state hstate
    · exact h.entry c st hst
  · intro hclosed
    rw [h.quiet hclosed, lookup_empty] at hstate
    cases hstate
  · intro i stream hi hrecv
    have hi : e.streams[i]? = some stream := hi
    refine .inl ⟨stream, hi, hrecv, rfl, ?_⟩
    rw [@held_eq { e with channels := e.channels.insert id _ } i stream hi, held_eq hi]
    dsimp only
    rw [lookup_insert]
    split_ifs with hid
    · subst hid
      rw [hstate]
    · rfl

/-- A new channel starts with an empty account. -/
theorem Keeps.insertChannel (hopen : e.closed = false) (hnone : e.channels[id]? = none) :
    Keeps e (e.insertChannel id).1 := by
  have hplace : ∀ j : Nat, (e.insertChannel id).1.streams[j]? =
      if j < e.streams.length then e.streams[j]? else if j = e.streams.length then
        some (e.newStream id) else none := by
    intro j
    show (e.streams ++ [e.newStream id])[j]? = _
    rw [List.getElem?_append]
    split_ifs with hlt heq
    · rfl
    · rw [heq, Nat.sub_self]
      rfl
    · rw [List.getElem?_eq_none]
      rw [List.length_singleton]
      omega
  have hentry : ∀ c, (e.insertChannel id).1.channels[c]? =
      if id = c then some ⟨e.streams.length, true, [], 0⟩ else e.channels[c]? := fun c =>
    lookup_insert
  refine ⟨fun h => (by rw [hopen] at h; cases h), fun h => ⟨?_, ?_⟩, ?_, ?_⟩
  · intro c state hstate
    rw [hentry] at hstate
    split_ifs at hstate with hid
    · cases hstate
      refine ⟨e.newStream id, ?_, hid, fun _ => rfl⟩
      rw [hplace, if_neg (Nat.lt_irrefl _), if_pos rfl]
    · obtain ⟨stream, hi, hrest⟩ := h.entry c state hstate
      refine ⟨stream, ?_, hrest⟩
      rw [hplace, if_pos (lt_of_place hi)]
      exact hi
  · intro hclosed
    have hclosed : e.closed = true := hclosed
    rw [hopen] at hclosed
    cases hclosed
  · intro i hi
    rw [hplace] at hi
    split_ifs at hi with hlt
    · exact hi
    · exact List.getElem?_eq_none (by omega)
  · intro i stream hi hrecv
    have hheld := held_eq hi
    rw [hentry] at hheld
    rw [hplace] at hi
    split_ifs at hi with hlt heq
    · refine .inl ⟨stream, hi, hrecv, rfl, ?_⟩
      rw [hheld, held_eq hi]
      split_ifs with hid
      · rw [← hid, hnone]
        dsimp only
        rw [if_neg (by omega)]
      · rfl
    · cases hi
      refine .inr ⟨List.getElem?_eq_none (by omega), rfl, ?_⟩
      rw [hheld, if_pos (show id = (e.newStream id).id from rfl)]
      dsimp only
      split_ifs <;> rfl

theorem Keeps.retire (e : Endpoint) (id : ChannelId) : Keeps e (e.retire id) := by
  rw [retire_eq]
  exact .of_same rfl rfl rfl rfl

theorem Keeps.closeChannel (hwhole : halfway e id = false) : Keeps e (e.closeChannel id) := by
  unfold Endpoint.closeChannel
  split_ifs
  · exact ((Keeps.erase hwhole).trans (.retire _ _)).trans (.of_same rfl rfl rfl rfl)
  · exact .refl e

theorem Keeps.returnCredit (e : Endpoint) (id : ChannelId) (n : Nat) :
    Keeps e (e.returnCredit id n) := by
  unfold Endpoint.returnCredit
  split_ifs
  · exact .refl e
  · exact .refl e
  · cases hstate : e.channels[id]? with
    | none => exact .refl e
    | some state => exact (Keeps.unacked hstate _).trans (.of_same rfl rfl rfl rfl)

theorem channels_shutdown (hopen : e.closed = false) (err : Option TransportError) :
    (e.shutdown err).channels = ∅ := by
  unfold Endpoint.shutdown
  rw [if_neg (by simp [hopen])]

theorem Linked.shutdown (hopen : e.closed = false) (err : Option TransportError) :
    Linked (e.shutdown err) := by
  refine ⟨?_, fun _ => channels_shutdown hopen err⟩
  intro c state hstate
  rw [channels_shutdown hopen, lookup_empty] at hstate
  cases hstate

/-- An end without an error leaves no frame halfway. -/
theorem Keeps.shutdown (hwhole : ∀ c, halfway e c = false) (err : Option TransportError) :
    Keeps e (e.shutdown err) := by
  by_cases hclosed : e.closed = true
  · rw [shutdown_closed hclosed]
    exact .refl e
  have hopen : e.closed = false := by simpa using hclosed
  refine ⟨fun h => absurd h hclosed, fun _ => .shutdown hopen err, ?_, ?_⟩
  · intro i hi
    cases hold : e.streams[i]? with
    | none => rfl
    | some stream =>
        obtain ⟨stream', hi', -⟩ := @shutdown_place e i hopen err stream hold
        rw [hi] at hi'
        cases hi'
  · intro i stream' hi hrecv
    cases hold : e.streams[i]? with
    | none =>
        have hlt := lt_of_place hi
        rw [length_shutdown] at hlt
        rw [List.getElem?_eq_getElem hlt] at hold
        cases hold
    | some stream =>
        obtain ⟨t, ht, hsev⟩ := @shutdown_place e i hopen err stream hold
        rw [hi] at ht
        cases ht
        have hsame : stream'.recv = stream.recv ∧ stream'.undelivered = stream.undelivered := by
          rcases hsev with rfl | rfl <;> exact ⟨rfl, rfl⟩
        have hrecv₀ : stream.recv.isSome = true := hsame.1 ▸ hrecv
        refine .inl ⟨stream, rfl, hrecv₀, hsame.2, ?_⟩
        rw [held_eq hi, channels_shutdown hopen, lookup_empty,
          held_eq_nil hold hrecv₀ (hwhole _)]

/-! ### The operations of the application -/

/-- A stream whose read half is left alone. -/
theorem Keeps.send (hi : e.streams[i]? = some stream) (hid : stream'.id = stream.id)
    (hrecv : stream'.recv = stream.recv) (hrx : stream'.rx = stream.rx) :
    Keeps e (e.setStream i stream') := by
  refine .setStream hi hid fun hr => ⟨hrecv ▸ hr, ?_⟩
  unfold Stream.undelivered
  rw [hrecv, hrx]

/-- Replacing one stream leaves no other channel halfway. -/
theorem halfway_setStream (hi : e.streams[i]? = some stream)
    (hrecv : stream'.recv = stream.recv) :
    halfway (e.setStream i stream') c = halfway e c := by
  unfold halfway
  have hchannels : (e.setStream i stream').channels = e.channels := rfl
  rw [hchannels]
  cases e.channels[c]? with
  | none => rfl
  | some state =>
      dsimp only
      rw [getElem?_setStream (lt_of_place hi)]
      split_ifs with hinst
      · rw [← hinst, hi, Option.any_some, Option.any_some, hrecv]
      · rfl

theorem keeps_openBi (e : Endpoint) : Keeps e e.openBi.1 := by
  unfold openBi
  rcases openLocal_cases (e := e) with ⟨hopens, inst, hres⟩ | ⟨-, err, hres⟩
  · rw [hres]
    obtain ⟨hopen, -, hnone⟩ := opens_open hopens
    have hnext : Keeps e { e with nextLocal := e.nextLocal + 2 } := .of_same rfl rfl rfl rfl
    exact (hnext.trans (.insertChannel hopen hnone)).trans (.of_same rfl rfl rfl rfl)
  · rw [hres]
    exact .of_same rfl rfl rfl rfl

theorem keeps_acceptBi {r : Endpoint × Obs} (hr : e.acceptBi = some r) : Keeps e r.1 := by
  unfold acceptBi at hr
  split at hr
  · split at hr
    · cases hr
    · cases hr
      exact .of_same rfl rfl rfl rfl
  · split at hr
    · cases hr
    · cases hr
      exact .refl e

theorem keeps_sendPolled (hi : e.streams[i]? = some stream) (frame : Frame) (chunks : List Bytes)
    (polled : Semaphore × Semaphore.Poll) :
    Keeps e (e.sendPolled i stream frame chunks polled).1 := by
  obtain ⟨credit, poll⟩ := polled
  cases poll with
  | acquired => exact .send hi rfl rfl rfl
  | pending => exact .send hi rfl rfl rfl
  | closed => exact .send hi rfl rfl rfl

theorem keeps_sendPush (hi : e.streams[i]? = some stream) (frame : Frame) (chunk : Bytes)
    (rest : List Bytes) : Keeps e (e.sendPush i stream frame chunk rest).1 := by
  unfold sendPush pushData
  by_cases hclosed : e.closed = true
  · rw [if_pos hclosed]
    exact .send hi rfl rfl rfl
  rw [if_neg hclosed]
  by_cases hgone : (!e.channels.contains stream.id) = true
  · rw [if_pos hgone]
    exact .send hi rfl rfl rfl
  · rw [if_neg hgone]
    have hqueued : Keeps e (e.enqueue (.data stream.id chunk)) := .of_same rfl rfl rfl rfl
    have hi : (e.enqueue (.data stream.id chunk)).streams[i]? = some stream := hi
    exact hqueued.trans (.send hi rfl rfl rfl)

theorem keeps_sendStep {r : Endpoint × Obs} (hi : e.streams[i]? = some stream)
    (hr : e.sendStep i stream = some r) : Keeps e r.1 := by
  unfold sendStep at hr
  split at hr
  · cases hr
    exact keeps_sendPolled hi _ _ _
  · split at hr
    · cases hr
    · cases hr
      exact keeps_sendPolled hi _ _ _
  · cases hr
    exact keeps_sendPush hi _ _ _
  · cases hr

/-- Closing the channel of a stream whose write half has just gone. -/
theorem keeps_finish {r : Endpoint × Obs} (hi : e.streams[i]? = some stream)
    (hwhole : halfway e stream.id = false) (hr : e.finish i stream = some r) : Keeps e r.1 := by
  unfold finish at hr
  split at hr
  · cases hr
    have hset : Keeps e (e.setStream i { stream with send := none }) := .send hi rfl rfl rfl
    have hsame : halfway (e.setStream i { stream with send := none }) stream.id =
        halfway e stream.id := halfway_setStream hi rfl
    dsimp only
    rw [closeChannel_twice, ite_self]
    exact hset.trans (.closeChannel (hsame.trans hwhole))
  · cases hr

theorem keeps_dropSend {r : Endpoint × Obs} (hi : e.streams[i]? = some stream)
    (hwhole : stream.recv.isNone = true → halfway e stream.id = false)
    (hr : e.dropSend i stream = some r) : Keeps e r.1 := by
  unfold dropSend at hr
  split at hr
  · cases hr
    have hset : Keeps e (e.setStream i { stream with send := none }) := .send hi rfl rfl rfl
    have hsame : halfway (e.setStream i { stream with send := none }) stream.id =
        halfway e stream.id := halfway_setStream hi rfl
    dsimp only
    split_ifs with hlast
    · exact hset.trans (.closeChannel (hsame.trans (hwhole hlast)))
    · exact hset
  · cases hr

/-- The reader that goes away leaves nothing halfway on its own channel. -/
theorem keeps_dropRecv {r : Endpoint × Obs} (hi : e.streams[i]? = some stream)
    (hwhole : stream.send.isNone = true → halfway e stream.id = true →
      addressee e stream.id = some i) (hr : e.dropRecv i stream = some r) : Keeps e r.1 := by
  unfold dropRecv at hr
  split at hr
  · cases hr
    have hset : Keeps e (e.setStream i { stream with recv := none, rx := [] }) :=
      .setStream hi rfl fun h => by cases h
    dsimp only
    split_ifs with hlast
    · refine hset.trans (.closeChannel ?_)
      by_contra hhalf
      have hhalf : halfway (e.setStream i { stream with recv := none, rx := [] }) stream.id =
          true := by
        simpa using hhalf
      obtain ⟨state, hstate, hpart, s, hs, hreader⟩ := halfway_iff.mp hhalf
      have hstate : e.channels[stream.id]? = some state := hstate
      rw [getElem?_setStream (lt_of_place hi)] at hs
      split_ifs at hs with hinst
      · cases hs
        cases hreader
      · have howner := hwhole hlast (halfway_iff.mpr ⟨state, hstate, hpart, s, hs, hreader⟩)
        unfold addressee at howner
        rw [hstate] at howner
        exact hinst (Option.some.inj howner).symm
    · exact hset
  · cases hr

theorem keeps_recvPop {r : Endpoint × Obs} (hi : e.streams[i]? = some stream)
    (hr : e.recvPop i stream = some r) : Keeps e r.1 := by
  unfold recvPop at hr
  split at hr
  · next frame rest hrecv hrx =>
      cases hr
      refine .setStream hi rfl fun _ => ⟨by rw [hrecv]; rfl, ?_⟩
      unfold Stream.undelivered
      rw [hrecv, hrx]
  · cases hr

/-- **No operation but returning a frame touches an account**, as long as it
loses none. -/
theorem keeps_perform {o : LocalOp} {r : Endpoint × Obs} (hok : Whole trace e (.op o))
    (ho : ∀ i, o ≠ .recvCredit i) (hr : e.perform o = some r) : Keeps e r.1 := by
  cases o with
  | openBi =>
      cases hr
      exact keeps_openBi e
  | acceptBi => exact keeps_acceptBi hr
  | close =>
      cases hr
      exact .shutdown hok none
  | sendStart i frame =>
      obtain ⟨stream, hs, hr⟩ := Option.bind_eq_some_iff.mp hr
      split_ifs at hr
      cases hr
      unfold sendStart
      split_ifs
      · exact .refl e
      · exact .send (stream?_some hs) rfl rfl rfl
  | sendStep i =>
      obtain ⟨stream, hs, hr⟩ := Option.bind_eq_some_iff.mp hr
      exact keeps_sendStep (stream?_some hs) hr
  | sendCancel i =>
      obtain ⟨stream, hs, hr⟩ := Option.bind_eq_some_iff.mp hr
      unfold sendCancel at hr
      split at hr
      · cases hr
      · cases hr
        exact .send (stream?_some hs) rfl rfl rfl
      · cases hr
  | finish i =>
      obtain ⟨stream, hs, hr⟩ := Option.bind_eq_some_iff.mp hr
      have hi := stream?_some hs
      exact keeps_finish hi (hok _ (by simp [closing, hi])) hr
  | dropSend i =>
      obtain ⟨stream, hs, hr⟩ := Option.bind_eq_some_iff.mp hr
      have hi := stream?_some hs
      exact keeps_dropSend hi (fun hlast => hok _ (by simpa [closing, hi] using hlast)) hr
  | dropRecv i =>
      obtain ⟨stream, hs, hr⟩ := Option.bind_eq_some_iff.mp hr
      have hi := stream?_some hs
      exact keeps_dropRecv hi (fun hlast => hok _ (by simpa [closing, hi] using hlast)) hr
  | recvPop i =>
      obtain ⟨stream, hs, hr⟩ := Option.bind_eq_some_iff.mp hr
      exact keeps_recvPop (stream?_some hs) hr
  | recvCredit i => exact absurd rfl (ho i)
  | recvEnd i =>
      obtain ⟨stream, hs, hr⟩ := Option.bind_eq_some_iff.mp hr
      rw [recvEnd_same hr]
      exact .refl e

/-- The reader returns a frame. -/
theorem turn_recvCredit {r : Endpoint × Obs} (hl : Linked e)
    (hr : e.perform (.recvCredit i) = some r) : Turn e r.1 (shown e (.op (.recvCredit i)) r.2) := by
  obtain ⟨stream, hs, hr⟩ := Option.bind_eq_some_iff.mp hr
  have hi := stream?_some hs
  unfold recvCredit at hr
  split at hr
  · next frame hrecv =>
      cases hr
      refine Turn.keeps ?_ (.returnCredit _ _ _)
      refine ⟨fun h => ⟨h, rfl⟩, hl.setStream hi rfl fun _ => by rw [hrecv]; rfl, .inr ?_⟩
      intro j arrived returned ha
      have hplace := @getElem?_setStream e i { stream with recv := some .idle } (lt_of_place hi) j
      show Accounted _ j (arrived ++ []) (returned ++ if i = j then [frame] else [])
      refine ⟨?_, ?_⟩
      · intro hj
        rw [hplace] at hj
        split_ifs at hj with hij
        obtain ⟨rfl, rfl⟩ := ha.fresh hj
        exact ⟨rfl, by rw [if_neg hij, List.append_nil]⟩
      · intro s hs hr
        rw [hplace] at hs
        rw [List.append_nil, @held_setStream e i stream { stream with recv := some .idle } hi rfl]
        split_ifs at hs ⊢ with hij
        · cases hs
          subst hij
          have hold := ha.reader stream hi (by rw [hrecv]; rfl)
          unfold Stream.undelivered at hold ⊢
          rw [hrecv] at hold
          simpa using hold
        · rw [List.append_nil]
          exact ha.reader s hs hr
  · cases hr

/-! ### The segments of the peer -/

theorem keeps_takeNext {seg : Segment} (h : e.takeNext = some (seg, e')) : Keeps e e' := by
  unfold Endpoint.takeNext at h
  split at h
  · cases h
    exact .of_same rfl rfl rfl rfl
  · split at h
    · cases h
    · split at h
      · cases h
        exact .of_same rfl rfl rfl rfl
      · cases h

theorem conclude_ok {r : Endpoint × Except TransportError Unit} (hr : r.2 = .ok ()) :
    conclude r = r.1 := by
  unfold conclude
  rw [hr]

theorem conclude_error {r : Endpoint × Except TransportError Unit} {err : TransportError}
    (hr : r.2 = .error err) : conclude r = r.1.shutdown (some err) := by
  unfold conclude
  rw [hr]

/-- A segment that is refused ends the link: `recv` reports it. -/
theorem turn_refused {r : Endpoint × Except TransportError Unit} (hopen : e.closed = false)
    (hopen' : r.1.closed = false) {err : TransportError} (hr : r.2 = .error err)
    (herr : err ≠ .closed) : Turn e (conclude r) sh := by
  rw [conclude_error hr]
  refine ⟨fun h => (by rw [hopen] at h; cases h), .shutdown hopen' _, .inl ?_⟩
  unfold Broken Endpoint.shutdown Endpoint.closeError
  rw [if_neg (by simp [hopen'])]
  exact ⟨rfl, herr⟩

/-- What a handler that touches no account makes of a segment. -/
theorem Keeps.concluded {r : Endpoint × Except TransportError Unit} (h : Keeps e r.1)
    (hl : Linked e) (herr : r.2 ≠ .error .closed) (hdata : ∀ i, sh.data i = [])
    (hframes : ∀ i, sh.frames i = []) : Turn e (conclude r) sh := by
  cases hr : r.2 with
  | ok u =>
      rw [conclude_ok hr]
      exact h.turn hl hdata hframes
  | error err =>
      by_cases hclosed : r.1.closed = true
      · rw [conclude_error hr, shutdown_closed hclosed]
        exact h.turn hl hdata hframes
      · have hopen : e.closed = false := by
          by_contra hc
          exact hclosed (h.closed (by simpa using hc)).1
        refine turn_refused hopen (by simpa using hclosed) hr ?_
        rintro rfl
        exact herr hr

/-- A stream nobody accepted has received nothing. -/
theorem keeps_dropNew :
    Keeps (e.insertChannel id).1 ((e.insertChannel id).1.dropPair (e.insertChannel id).2) := by
  have hi : (e.insertChannel id).1.streams[(e.insertChannel id).2]? = some (e.newStream id) := by
    show (e.streams ++ [e.newStream id])[e.streams.length]? = _
    rw [List.getElem?_concat_length]
  unfold dropPair
  rw [hi]
  have hset : Keeps (e.insertChannel id).1 ((e.insertChannel id).1.setStream
      (e.insertChannel id).2 { e.newStream id with send := none, recv := none }) :=
    .setStream hi rfl fun h => by cases h
  refine hset.trans (.closeChannel ?_)
  unfold halfway
  have hentry : (e.insertChannel id).1.channels[id]? = some ⟨e.streams.length, true, [], 0⟩ := by
    show (e.channels.insert id _)[id]? = _
    rw [lookup_insert, if_pos rfl]
  show (match (e.insertChannel id).1.channels[id]? with | none => false | some state => _) = false
  rw [hentry]
  rfl

theorem keeps_peerOpen : Keeps e (e.peerOpen id).1 := by
  unfold peerOpen
  split_ifs with hparity hignore hdup hroom
  · exact .refl e
  · exact .refl e
  · exact .refl e
  · exact .refl e
  · have hopen : e.closed = false ∧ e.retired.contains id = false := by
      simpa only [Bool.or_eq_true, not_or, Bool.not_eq_true] using hignore
    have hinserted : Keeps e (e.insertChannel id).1 :=
      .insertChannel hopen.1 (contains_eq_false.mp (Bool.eq_false_iff.mpr hdup))
    dsimp only
    split_ifs
    · exact hinserted.trans (.of_same rfl rfl rfl rfl)
    · exact hinserted.trans keeps_dropNew

theorem keeps_peerWindow (body : Bytes) : Keeps e (e.peerWindow id body).1 := by
  unfold peerWindow
  split
  · dsimp only
    split_ifs
    · exact .refl e
    cases e.channels[id]? with
    | none => exact .refl e
    | some state =>
        dsimp only
        cases hi : e.streams[state.inst]? with
        | none => exact .refl e
        | some stream =>
            dsimp only
            split_ifs
            · exact .refl e
            · exact .send hi rfl rfl rfl
  · exact .refl e

theorem peerOpen_error : (e.peerOpen id).2 ≠ .error .closed := by
  unfold peerOpen
  split_ifs
  · simp
  · simp
  · simp
  · simp
  · dsimp only
    split_ifs <;> simp

theorem peerWindow_error (body : Bytes) : (e.peerWindow id body).2 ≠ .error .closed := by
  unfold peerWindow
  split
  · dsimp only
    split_ifs
    · simp
    cases e.channels[id]? with
    | none => simp
    | some state =>
        dsimp only
        cases e.streams[state.inst]? with
        | none => simp
        | some stream =>
            dsimp only
            split_ifs <;> simp
  · simp

theorem keeps_peerReset (hwhole : halfway e id = false) : Keeps e (e.peerReset id) := by
  unfold peerReset
  split_ifs
  · exact .refl e
  dsimp only
  cases e.channels[id]? with
  | none =>
      have hout : Keeps e { e with out := e.out.erase id } := .of_same rfl rfl rfl rfl
      exact hout.trans (.retire _ id)
  | some state =>
      have herase := Keeps.erase hwhole
      dsimp only
      cases hi : e.streams[state.inst]? with
      | none =>
          have hout : Keeps { e with channels := e.channels.erase id }
              { e with channels := e.channels.erase id, out := e.out.erase id } :=
            .of_same rfl rfl rfl rfl
          exact (herase.trans hout).trans (.retire _ id)
      | some stream =>
          have hi : ({ e with channels := e.channels.erase id } : Endpoint).streams[state.inst]? =
            some stream := hi
          have hset := herase.trans (@Keeps.send _ _ stream
            { stream with credit := stream.credit.close } hi rfl rfl rfl)
          have hout : Keeps ({ e with channels := e.channels.erase id }.setStream state.inst
              { stream with credit := stream.credit.close })
              ({ e with channels := e.channels.erase id, out := e.out.erase id }.setStream
                state.inst { stream with credit := stream.credit.close }) :=
            .of_same rfl rfl rfl rfl
          exact (hset.trans hout).trans (.retire _ id)

/-! ### Data -/

/-- The reader of a stream is handed the frames that were cut off. -/
theorem undelivered_append (stream : Stream) (fs : List Frame) :
    { stream with rx := stream.rx ++ fs }.undelivered = stream.undelivered ++ fs := by
  unfold Stream.undelivered
  dsimp only
  split <;> rfl

/-- Frames cut off the bytes that arrived. -/
theorem turn_cut (hl : Linked e) {body : Bytes} (hstate : e.channels[id]? = some state)
    (hi : e.streams[state.inst]? = some stream) (hid : stream.id = id)
    {state' : ChannelState} {fs : List Frame} {refund : Nat} {start : ChannelState}
    (hstart : start.assembler = state.assembler ++ body) (hinst : start.inst = state.inst)
    (hcut : Cut start stream 0 fs state' stream' refund) (n : Nat) :
    Turn e (e.setEntry id state.inst { state' with unacked := n } stream')
      (.arrived state.inst body) := by
  have hentry : ∀ c : ChannelId,
      (e.setEntry id state.inst { state' with unacked := n } stream').channels[c]? =
        if id = c then some { state' with unacked := n } else e.channels[c]? :=
    fun c => lookup_insert
  have hplace := @getElem?_setEntry e id state.inst { state' with unacked := n } stream'
    (lt_of_place hi)
  have hinst' : state'.inst = state.inst := hcut.inst.trans hinst
  have hsame : stream'.id = id ∧ stream'.recv = stream.recv := by
    rw [hcut.queue]
    split_ifs <;> exact ⟨hid, rfl⟩
  refine ⟨fun h => ⟨h, rfl⟩, ⟨?_, ?_⟩, .inr fun i arrived returned ha => ⟨?_, ?_⟩⟩
  · intro c st hst
    rw [hentry] at hst
    split_ifs at hst with hc
    · cases hst
      refine ⟨stream', ?_, hsame.1.trans hc, fun hr => hcut.inbound (hsame.2 ▸ hr)⟩
      rw [hplace]
      exact if_pos hinst'.symm
    · obtain ⟨s, hs, hsid, hin⟩ := hl.entry c st hst
      refine ⟨s, ?_, hsid, hin⟩
      rw [hplace, if_neg ?_]
      · exact hs
      · intro heq
        rw [← heq, hi] at hs
        cases hs
        exact hc (hid.symm.trans hsid)
  · intro hclosed
    have hclosed : e.closed = true := hclosed
    rw [hl.quiet hclosed, lookup_empty] at hstate
    cases hstate
  · intro hnone
    rw [hplace] at hnone
    split_ifs at hnone with hij
    obtain ⟨rfl, rfl⟩ := ha.fresh hnone
    exact ⟨if_neg hij, rfl⟩
  · intro s hs hr
    have hheld := held_eq hs
    rw [hentry] at hheld
    rw [hheld]
    rw [hplace] at hs
    split_ifs at hs with hij
    · cases hs
      subst hij
      rw [if_pos hsame.1.symm]
      dsimp only
      rw [if_pos hinst']
      have hr : stream.recv.isSome = true := hsame.2 ▸ hr
      have hold := ha.reader stream hi hr
      rw [held_eq hi, hid, hstate] at hold
      dsimp only at hold
      rw [if_pos rfl] at hold
      have hqueue := hcut.queue
      rw [if_pos hr] at hqueue
      have hbytes := hcut.bytes
      rw [hstart] at hbytes
      calc arrived ++ Shown.data state.inst (.arrived state.inst body)
          = arrived ++ body := by rw [Shown.data, if_pos rfl]
        _ = Frame.code.encAll (returned ++ stream.undelivered) ++
              (Frame.code.encAll fs ++ state'.assembler) := by
            rw [hold, List.append_assoc, hbytes]
        _ = Frame.code.encAll (returned ++ [] ++ stream'.undelivered) ++ state'.assembler := by
            rw [hqueue, undelivered_append]
            simp
    · have hold := ha.reader s hs hr
      have hdata : Shown.data i (.arrived state.inst body) = [] := if_neg hij
      have hframes : Shown.frames i (.arrived state.inst body) = [] := rfl
      rw [held_eq hs] at hold
      rw [hdata, hframes, List.append_nil, List.append_nil, hold]
      congr 1
      split_ifs with hc
      · rw [← hc, hstate]
        dsimp only
        rw [if_neg hij, if_neg (by rwa [hinst'])]
      · rfl

/-- Data arrives. -/
theorem turn_peerData (hl : Linked e) {body : Bytes}
    (hok : body ≠ [] → (e.closed = true → e.closeError ≠ .closed) ∧
      (e.closed = false → e.retired.contains id = false))
    (hsh : sh = match addressee e id with | some i => .arrived i body | none => .other) :
    Turn e (conclude (e.peerData id body)) sh := by
  unfold peerData
  by_cases hbody : body = []
  · subst hbody
    have hdata : ∀ i, sh.data i = [] := by
      intro i
      rw [hsh]
      cases addressee e id with
      | none => rfl
      | some j => exact ite_self _
    have hframes : ∀ i, sh.frames i = [] := by
      intro i
      rw [hsh]
      cases addressee e id <;> rfl
    exact (Keeps.refl e).turn hl hdata hframes
  obtain ⟨hclean, hnew⟩ := hok hbody
  rw [if_neg (by simpa using hbody)]
  by_cases hclosed : e.closed = true
  · rw [if_pos (by simp [hclosed])]
    exact ⟨fun h => ⟨h, rfl⟩, hl, .inl ⟨hclosed, hclean hclosed⟩⟩
  have hopen : e.closed = false := by simpa using hclosed
  rw [if_neg (by simp [hopen, hnew hopen])]
  cases hstate : e.channels[id]? with
  | none => exact turn_refused hopen hopen rfl (by simp)
  | some state =>
      obtain ⟨stream, hi, hid, hin⟩ := hl.entry id state hstate
      have howner : addressee e id = some state.inst := by
        unfold addressee
        rw [hstate]
      rw [howner] at hsh
      subst hsh
      dsimp only
      rw [hi]
      dsimp only
      by_cases hbig : e.cfg.window < state.unacked + body.length
      · rw [if_pos hbig]
        exact turn_refused hopen hopen rfl (by simp)
      rw [if_neg hbig]
      obtain ⟨fs, state', stream', refund, result, heq, hcut, -, hbad⟩ :=
        @reassemble_spec e.cfg.maxFrameLen ((state.assembler ++ body).length + 1)
          { state with assembler := state.assembler ++ body,
                       unacked := state.unacked + body.length } stream 0
          (Nat.lt_succ_self _) hin
      rw [heq]
      cases result with
      | error err =>
          have herr : err ≠ .closed := by
            rcases hbad err rfl with ⟨n, rfl⟩ | ⟨bad, rfl⟩ <;> simp
          exact turn_refused hopen hopen rfl herr
      | ok u =>
          have hstart : (ChannelState.mk state.inst state.inbound (state.assembler ++ body)
            (state.unacked + body.length)).assembler = state.assembler ++ body := rfl
          have hturn := turn_cut hl hstate hi hid hstart rfl hcut (state'.unacked - refund)
          have hinst : state'.inst = state.inst := hcut.inst
          rw [← hinst] at hturn ⊢
          dsimp only
          split_ifs
          · exact hturn.keeps (.of_same rfl rfl rfl rfl)
          · exact hturn

/-! ### Steps and runs -/

/-- Only returning a frame shows one to the application. -/
theorem shown_op {o : LocalOp} {obs : Obs} (ho : ∀ i, o ≠ .recvCredit i) (i : Nat) :
    (shown e (.op o) obs).data i = [] ∧ (shown e (.op o) obs).frames i = [] := by
  cases o with
  | recvCredit j => exact absurd rfl (ho j)
  | recvEnd j => cases obs <;> exact ⟨rfl, rfl⟩
  | _ => exact ⟨rfl, rfl⟩

/-- Of the segments only data is shown. -/
theorem shown_segment (a b c d kind : UInt8) (body : Bytes) (obs : Obs) :
    shown e (.segment (a :: b :: c :: d :: kind :: body)) obs =
      if kind = kindData then
        match addressee e (BigEndian.toU32 a b c d) with
        | some i => .arrived i body
        | none => .other
      else
        .other := rfl

theorem shown_short {obs : Obs} : ∀ {bytes : Bytes},
    (∀ a b c d kind body, bytes = a :: b :: c :: d :: kind :: body → False) →
      shown e (.segment bytes) obs = .other
  | [], _ => rfl
  | [_], _ => rfl
  | [_, _], _ => rfl
  | [_, _, _], _ => rfl
  | [_, _, _, _], _ => rfl
  | a :: b :: c :: d :: kind :: body, h => (h a b c d kind body rfl).elim

/-- **One step of the account.** -/
theorem turn_of_step {event : Event} (hl : Linked e) (hok : Whole trace e event)
    (hstep : step e event = some (e', sh)) : Turn e e' sh := by
  unfold step at hstep
  cases event with
  | op o =>
      obtain ⟨r, hr, hres⟩ := Option.map_eq_some_iff.mp hstep
      cases hres
      by_cases ho : ∃ i, o = .recvCredit i
      · obtain ⟨i, rfl⟩ := ho
        exact turn_recvCredit hl hr
      · have ho : ∀ i, o ≠ .recvCredit i := fun i hi => ho ⟨i, hi⟩
        exact (keeps_perform hok ho hr).turn hl (fun i => (shown_op ho i).1)
          fun i => (shown_op ho i).2
  | takeNext =>
      obtain ⟨r, hr, hres⟩ := Option.map_eq_some_iff.mp hstep
      cases hres
      exact (keeps_takeNext hr).turn hl (fun _ => rfl) fun _ => rfl
  | segment bytes =>
      cases hstep
      unfold handleSegment
      split
      · next a b c d kind body =>
          obtain ⟨hreset, hdata⟩ := hok
          rw [shown_segment]
          dsimp only
          by_cases hkind : kind = kindData
          · have hother : ¬ kind = kindOpen := by
              rw [hkind]
              decide
            rw [if_neg hother, if_pos hkind, if_pos hkind]
            exact turn_peerData hl (hdata hkind) rfl
          simp only [hkind, if_false]
          split_ifs with hopen hwindow hreset'
          · exact keeps_peerOpen.concluded hl peerOpen_error (fun _ => rfl) fun _ => rfl
          · exact (keeps_peerWindow body).concluded hl (peerWindow_error body) (fun _ => rfl)
              fun _ => rfl
          · exact (keeps_peerReset (hreset hreset')).turn hl (fun _ => rfl) fun _ => rfl
          · exact (Keeps.refl e).concluded hl (by simp) (fun _ => rfl) fun _ => rfl
      · next hshort =>
          rw [shown_short hshort]
          exact (Keeps.refl e).concluded hl (by simp) (fun _ => rfl) fun _ => rfl
  | shutdown err =>
      cases hstep
      by_cases herr : err.getD .closed = .closed
      · exact (Keeps.shutdown (hok herr) err).turn hl (fun _ => rfl) fun _ => rfl
      · cases err with
        | none => exact absurd rfl herr
        | some err =>
            have hrefused : Keeps e (e, (.error err : Except TransportError Unit)).1 := .refl e
            exact hrefused.concluded hl (by simpa using herr) (fun _ => rfl) fun _ => rfl

theorem arrivedOn_snoc (trace : Trace) (event : Event) (sh : Shown) (i : Nat) :
    arrivedOn i (trace ++ [(event, sh)]) = arrivedOn i trace ++ sh.data i := by
  simp [arrivedOn]

theorem returnedOn_snoc (trace : Trace) (event : Event) (sh : Shown) (i : Nat) :
    returnedOn i (trace ++ [(event, sh)]) = returnedOn i trace ++ sh.frames i := by
  simp [returnedOn]

/-- **The account holds in every run that loses none of it**, unless the link
has ended with an error. -/
theorem intake_of_run {cfg : MuxConfig} {s : Role} {e₀ : Endpoint} (hinit : spawn cfg s = .ok e₀)
    (hrun : Transition.Run step Whole e₀ trace e) :
    Linked e ∧ (Broken e ∨ ∀ i, Accounted e i (arrivedOn i trace) (returnedOn i trace)) := by
  refine hrun.invariant (fun trace e => Linked e ∧
    (Broken e ∨ ∀ i, Accounted e i (arrivedOn i trace) (returnedOn i trace))) ?_ ?_
  · unfold spawn at hinit
    split at hinit
    · cases hinit
    · cases hinit
      refine ⟨⟨?_, fun h => by cases h⟩, .inr fun i => ⟨fun _ => ⟨rfl, rfl⟩, ?_⟩⟩
      · intro c state hstate
        rw [lookup_empty] at hstate
        cases hstate
      · intro stream hi
        cases hi
  · rintro trace e event e' sh ⟨hl, hacc⟩ hok hstep
    have hturn := turn_of_step hl hok hstep
    refine ⟨hturn.linked, ?_⟩
    rcases hacc with hbroken | hacc
    · left
      obtain ⟨hclosed, herr⟩ := hturn.closed hbroken.1
      refine ⟨hclosed, ?_⟩
      unfold Endpoint.closeError
      rw [herr]
      exact hbroken.2
    · refine hturn.account.imp (fun h => h) fun h i => ?_
      rw [arrivedOn_snoc, returnedOn_snoc]
      exact h i _ _ (hacc i)

/-- **What `recv` says at the end of a channel**: that there is no frame left,
when every byte that arrived belongs to a frame it has returned, or an error. -/
theorem recvEnd_of_run {cfg : MuxConfig} {s : Role} {e₀ : Endpoint} (hinit : spawn cfg s = .ok e₀)
    (hrun : Transition.Run step Whole e₀ trace e) {r : Endpoint × Obs}
    (hr : e.perform (.recvEnd i) = some r) :
    (∃ id, r.2 = .ended id ∧ arrivedOn i trace = Frame.code.encAll (returnedOn i trace)) ∨
      ∃ id err, r.2 = .recvFailed id err := by
  obtain ⟨hl, hacc⟩ := intake_of_run hinit hrun
  obtain ⟨stream, hs, hr⟩ := Option.bind_eq_some_iff.mp hr
  have hi := stream?_some hs
  unfold recvEnd at hr
  split at hr
  · next hrecv hrx =>
      have hreader : stream.recv.isSome = true := by rw [hrecv]; rfl
      have hnone : stream.undelivered = [] := by
        unfold Stream.undelivered
        rw [hrecv, hrx]
      split_ifs at hr with hin hclosed
      -- Nothing waits on a channel that has ended.
      all_goals
        have hheld : held e i = [] := by
          rw [held_eq hi]
          cases hstate : e.channels[stream.id]? with
          | none => rfl
          | some state =>
              dsimp only
              split_ifs with hinst
              · obtain ⟨s, hs, -, hinbound⟩ := hl.entry _ state hstate
                rw [hinst, hi] at hs
                cases hs
                refine absurd ?_ hin
                unfold inboundOpen
                rw [hstate]
                simp [hinst, hinbound hreader]
              · rfl
        have hall : ¬ Broken e → arrivedOn i trace = Frame.code.encAll (returnedOn i trace) := by
          intro hb
          have hold := ((hacc.resolve_left hb) i).reader stream hi hreader
          rwa [hnone, hheld, List.append_nil, List.append_nil] at hold
      · split at hr
        · next herr =>
            cases hr
            exact .inl ⟨_, rfl, hall fun hb => hb.2 herr⟩
        · cases hr
          exact .inr ⟨_, _, rfl⟩
      · cases hr
        exact .inl ⟨_, rfl, hall fun hb => hclosed hb.1⟩
  · cases hr

end Intake

end Mux
