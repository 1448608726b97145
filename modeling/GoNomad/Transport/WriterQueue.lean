import GoNomad.Transport.Hostile

/-!
# What waits for the writer

The writer takes segments from lanes: the urgent ones, and one for each channel.
Everything an endpoint does leaves what waits in a lane as it is and puts more
behind it, except that the writer takes from the front, and that a RESET of the
channel or a shutdown throws all of it away.

* `takeNext_spec` — what the writer takes;
* `grows_of_perform`, `grows_of_segment` — what everything else puts behind;
* `account_of_run` — every segment that waited or was put behind is written, thrown
  away or still waiting, in this order.
-/

namespace Mux

open Proto Transport

namespace Writer

open Endpoint Hostile

/-- Where the writer finds segments. -/
inductive Lane
  | urgent
  | channel (c : ChannelId)
  deriving DecidableEq

/-- The segments that wait in a lane. -/
def waiting (e : Endpoint) : Lane → List Segment
  | .urgent => e.urgent
  | .channel c => e.queue c

@[simp] theorem waiting_urgent (e : Endpoint) : waiting e .urgent = e.urgent := rfl

@[simp] theorem waiting_channel (e : Endpoint) (c : ChannelId) :
    waiting e (.channel c) = e.queue c :=
  rfl

/-- The lane the writer takes from next. -/
def source (e : Endpoint) : Option Lane :=
  if e.urgent ≠ [] then some .urgent else e.pick.map .channel

variable {e e' e'' : Endpoint} {lane : Lane} {seg : Segment} {c id : ChannelId}

/-- **What the writer takes**: the first segment of the lane it takes from. -/
theorem takeNext_spec (h : e.takeNext = some (seg, e')) :
    ∃ lane, source e = some lane ∧ waiting e lane = seg :: waiting e' lane ∧
      ∀ other, other ≠ lane → waiting e' other = waiting e other := by
  unfold Endpoint.takeNext at h
  unfold source
  split at h
  · next seg' rest hurgent =>
      cases h
      refine ⟨.urgent, ?_, hurgent, fun other hne => ?_⟩
      · rw [hurgent, if_pos (List.cons_ne_nil _ _)]
      · cases other with
        | urgent => exact absurd rfl hne
        | channel c => rfl
  · next hurgent =>
      rw [hurgent, if_neg (by simp)]
      split at h
      · cases h
      · next id hpick =>
          split at h
          · next seg' rest hid =>
              cases h
              have hqueue : e.queue id = seg :: rest := by
                unfold queue
                rw [hid]
                rfl
              refine ⟨.channel id, by rw [hpick]; rfl, ?_, fun other hne => ?_⟩
              · rw [waiting_channel, waiting_channel, queue_taken, if_pos rfl]
                exact hqueue
              · cases other with
                | urgent => rfl
                | channel c =>
                    have hc : id ≠ c := fun heq => hne (by rw [heq])
                    rw [waiting_channel, waiting_channel, queue_taken, if_neg hc]
          · cases h

/-! ### What is put behind -/

/-- Nothing that waits has changed, nor whose turn it is; more may wait behind it. -/
structure Grows (e e' : Endpoint) : Prop where
  cursor : e'.cursor = e.cursor
  waiting : ∀ lane, waiting e lane <+: waiting e' lane

theorem Grows.of_eq (hcursor : e'.cursor = e.cursor) (hout : e'.out = e.out)
    (hurgent : e'.urgent = e.urgent) : Grows e e' := by
  refine ⟨hcursor, fun lane => ?_⟩
  cases lane with
  | urgent => rw [waiting_urgent, waiting_urgent, hurgent]
  | channel c =>
      rw [waiting_channel, waiting_channel]
      unfold queue
      rw [hout]

theorem Grows.refl (e : Endpoint) : Grows e e := .of_eq rfl rfl rfl

theorem Grows.trans (h : Grows e e') (h' : Grows e' e'') : Grows e e'' :=
  ⟨h'.cursor.trans h.cursor, fun lane => (h.waiting lane).trans (h'.waiting lane)⟩

theorem grows_setStream (i : Nat) (stream : Stream) : Grows e (e.setStream i stream) :=
  .of_eq rfl rfl rfl

theorem grows_enqueue (seg : Segment) : Grows e (e.enqueue seg) := by
  refine ⟨rfl, fun lane => ?_⟩
  cases lane with
  | urgent => exact List.prefix_rfl
  | channel c =>
      rw [waiting_channel, waiting_channel, queue_enqueue]
      split_ifs
      · exact List.prefix_append _ _
      · exact List.prefix_rfl

/-- A segment behind the urgent ones. -/
theorem grows_urgent (hcursor : e'.cursor = e.cursor) (hout : e'.out = e.out)
    (hurgent : e'.urgent = e.urgent ++ [seg]) : Grows e e' := by
  refine ⟨hcursor, fun lane => ?_⟩
  cases lane with
  | urgent => exact ⟨[seg], hurgent.symm⟩
  | channel c =>
      rw [waiting_channel, waiting_channel]
      unfold queue
      rw [hout]

theorem grows_insertChannel : Grows e (e.insertChannel id).1 := by
  refine ⟨rfl, fun lane => ?_⟩
  cases lane with
  | urgent => exact List.prefix_rfl
  | channel c =>
      rw [waiting_channel, waiting_channel]
      unfold queue insertChannel
      dsimp only
      rw [queue_insertIfNew]

theorem grows_retire : Grows e (e.retire id) := by
  rw [retire_eq]
  exact .of_eq rfl rfl rfl

theorem grows_closeChannel : Grows e (e.closeChannel id) := by
  unfold closeChannel
  split_ifs
  · have herased : Grows e { e with channels := e.channels.erase id } := .of_eq rfl rfl rfl
    exact herased.trans (grows_retire.trans (grows_enqueue _))
  · exact .refl e

theorem grows_returnCredit (bytes : Nat) : Grows e (e.returnCredit id bytes) := by
  unfold returnCredit
  split_ifs
  · exact .refl e
  · exact .refl e
  · cases e.channels[id]? with
    | none => exact .refl e
    | some state => exact grows_urgent rfl rfl rfl

theorem grows_openLocal : Grows e e.openLocal.1 := by
  have hnext : Grows e { e with nextLocal := e.nextLocal + 2 } := .of_eq rfl rfl rfl
  unfold openLocal
  dsimp only
  split_ifs
  · exact hnext
  · exact hnext
  · exact hnext
  · exact hnext.trans (grows_insertChannel.trans (grows_enqueue _))

theorem grows_openBi : Grows e e.openBi.1 := by
  have hopen := @grows_openLocal e
  unfold openBi
  split
  · next e' _ heq => rwa [heq] at hopen
  · next e' _ heq => rwa [heq] at hopen

theorem grows_pushData {chunk : Bytes} : Grows e (e.pushData id chunk).1 := by
  unfold pushData
  split_ifs
  · exact .refl e
  · exact .refl e
  · exact grows_enqueue _

theorem grows_sendPush {i : Nat} {stream : Stream} {frame : Frame} {chunk : Bytes}
    {rest : List Bytes} : Grows e (e.sendPush i stream frame chunk rest).1 := by
  have hpush := @grows_pushData e stream.id chunk
  unfold sendPush
  split
  · next e' _ heq =>
      rw [heq] at hpush
      exact hpush.trans (grows_setStream _ _)
  · next e' heq =>
      rw [heq] at hpush
      exact hpush.trans (grows_setStream _ _)

theorem grows_sendStep {i : Nat} {stream : Stream} {r : Endpoint × Obs}
    (h : e.sendStep i stream = some r) : Grows e r.1 := by
  have hpolled : ∀ frame chunks polled, Grows e (e.sendPolled i stream frame chunks polled).1 := by
    intro frame chunks polled
    unfold sendPolled
    split <;> exact grows_setStream _ _
  unfold sendStep at h
  split at h
  · cases h
    exact hpolled _ _ _
  · split_ifs at h
    cases h
    exact hpolled _ _ _
  · cases h
    exact grows_sendPush
  · cases h

theorem grows_finish {i : Nat} {stream : Stream} {r : Endpoint × Obs}
    (h : e.finish i stream = some r) : Grows e r.1 := by
  unfold finish at h
  split at h
  · cases h
    have hclosed : Grows e ((e.setStream i { stream with send := none }).closeChannel stream.id) :=
      (grows_setStream _ _).trans grows_closeChannel
    dsimp only
    split_ifs
    · exact hclosed.trans grows_closeChannel
    · exact hclosed
  · cases h

/-- Dropping a half closes the channel or leaves it. -/
theorem grows_dropped {i : Nat} {stream : Stream} {b : Bool} :
    Grows e (if b = true then (e.setStream i stream).closeChannel id else e.setStream i stream) := by
  split_ifs
  · exact (grows_setStream _ _).trans grows_closeChannel
  · exact grows_setStream _ _

/-- The operation ends the connection. -/
def isClose : LocalOp → Bool
  | .close => true
  | _ => false

/-- **What an operation of the application puts behind**; closing aside. -/
theorem grows_of_perform {o : LocalOp} {r : Endpoint × Obs} (hclose : isClose o = false)
    (hr : e.perform o = some r) : Grows e r.1 := by
  cases o with
  | openBi =>
      cases hr
      exact grows_openBi
  | acceptBi =>
      change e.acceptBi = some r at hr
      unfold acceptBi at hr
      split at hr
      · split at hr
        · cases hr
        · cases hr
          exact .of_eq rfl rfl rfl
      · split_ifs at hr
        cases hr
        exact .refl e
  | close => cases hclose
  | sendStart i frame =>
      obtain ⟨stream, -, hr⟩ := Option.bind_eq_some_iff.mp hr
      split_ifs at hr
      cases hr
      unfold sendStart
      split_ifs
      · exact .refl e
      · exact grows_setStream _ _
  | sendStep i =>
      obtain ⟨stream, -, hr⟩ := Option.bind_eq_some_iff.mp hr
      exact grows_sendStep hr
  | sendCancel i =>
      obtain ⟨stream, -, hr⟩ := Option.bind_eq_some_iff.mp hr
      unfold sendCancel at hr
      split at hr <;> cases hr
      exact grows_setStream _ _
  | finish i =>
      obtain ⟨stream, -, hr⟩ := Option.bind_eq_some_iff.mp hr
      exact grows_finish hr
  | dropSend i =>
      obtain ⟨stream, -, hr⟩ := Option.bind_eq_some_iff.mp hr
      unfold dropSend at hr
      split at hr <;> cases hr
      exact grows_dropped
  | dropRecv i =>
      obtain ⟨stream, -, hr⟩ := Option.bind_eq_some_iff.mp hr
      unfold dropRecv at hr
      split at hr <;> cases hr
      exact grows_dropped
  | recvPop i =>
      obtain ⟨stream, -, hr⟩ := Option.bind_eq_some_iff.mp hr
      unfold recvPop at hr
      split at hr <;> cases hr
      exact grows_setStream _ _
  | recvCredit i =>
      obtain ⟨stream, -, hr⟩ := Option.bind_eq_some_iff.mp hr
      unfold recvCredit at hr
      split at hr <;> cases hr
      exact (grows_setStream _ _).trans (grows_returnCredit _)
  | recvEnd i =>
      obtain ⟨stream, -, hr⟩ := Option.bind_eq_some_iff.mp hr
      rw [recvEnd_same hr]
      exact .refl e

theorem grows_dropPair {i : Nat} : Grows e (e.dropPair i) := by
  unfold dropPair
  cases e.streams[i]? with
  | none => exact .refl e
  | some stream => exact (grows_setStream _ _).trans grows_closeChannel

theorem grows_peerOpen : Grows e (e.peerOpen c).1 := by
  unfold peerOpen
  split_ifs with hparity hgone hduplicate hroom
  · exact .refl e
  · exact .refl e
  · exact .refl e
  · exact .refl e
  · have hinsert := @grows_insertChannel e c
    dsimp only
    split_ifs
    · exact hinsert.trans (.of_eq rfl rfl rfl)
    · exact hinsert.trans grows_dropPair

theorem grows_peerData (body : Bytes) : Grows e (e.peerData c body).1 := by
  unfold peerData
  split_ifs
  · exact .refl e
  · exact .refl e
  split
  · exact .refl e
  next state _ =>
    split
    · exact .refl e
    by_cases hwindow : e.cfg.window < state.unacked + body.length
    · rw [if_pos hwindow]
      exact .of_eq rfl rfl rfl
    rw [if_neg hwindow]
    dsimp only
    split
    · exact .of_eq rfl rfl rfl
    · split_ifs
      · exact grows_urgent rfl rfl rfl
      · exact .of_eq rfl rfl rfl

theorem grows_peerWindow (body : Bytes) : Grows e (e.peerWindow c body).1 := by
  unfold peerWindow
  split
  · dsimp only
    split_ifs
    · exact .refl e
    split
    · exact .refl e
    split
    · exact .refl e
    split_ifs
    · exact .refl e
    · exact grows_setStream _ _
  · exact .refl e

/-- **What a RESET throws away**: what waits for its channel. -/
theorem waiting_peerReset (hopen : e.closed = false) :
    waiting (e.peerReset c) lane = if lane = .channel c then [] else waiting e lane := by
  obtain ⟨e', hreset, hout, hurgent⟩ : ∃ e' : Endpoint,
      e.peerReset c = ({ e' with out := e'.out.erase c } : Endpoint).retire c ∧
        e'.out = e.out ∧ e'.urgent = e.urgent := by
    unfold peerReset
    rw [if_neg (by simp [hopen])]
    dsimp only
    split
    · exact ⟨_, rfl, rfl, rfl⟩
    · split
      · exact ⟨_, rfl, rfl, rfl⟩
      · exact ⟨_, rfl, rfl, rfl⟩
  rw [hreset, retire_eq]
  cases lane with
  | urgent =>
      rw [if_neg nofun]
      exact hurgent
  | channel d =>
      rw [waiting_channel, waiting_channel]
      unfold queue
      dsimp only
      rw [lookup_erase, hout]
      by_cases hd : c = d
      · rw [if_pos hd, if_pos (by rw [hd])]
        rfl
      · rw [if_neg hd, if_neg fun heq => hd (Lane.channel.inj heq).symm]

theorem cursor_peerReset : (e.peerReset c).cursor = e.cursor := by
  unfold peerReset
  split_ifs
  · rfl
  · dsimp only
    rw [retire_eq]
    split
    · rfl
    · split <;> rfl

/-- **What a shutdown throws away**: everything. -/
theorem waiting_shutdown (err : Option TransportError) (hopen : e.closed = false) :
    waiting (e.shutdown err) lane = [] := by
  unfold shutdown
  rw [hopen, if_neg Bool.false_ne_true]
  cases lane with
  | urgent => rfl
  | channel c =>
      rw [waiting_channel]
      unfold queue
      dsimp only
      rw [lookup_empty]
      rfl

/-! ### One step -/

/-- The event throws away what waits in a lane. -/
def drops (lane : Lane) : Event → Bool
  | .shutdown _ => true
  | .op o => isClose o
  | .segment (a :: b :: c :: d :: kind :: _) =>
      kind = kindReset && lane = .channel (BigEndian.toU32 a b c d)
  | _ => false

/-- One step, with the endpoint before and after it. -/
def step (e : Endpoint) (event : Event) : Option (Endpoint × Endpoint × Endpoint) :=
  (Hostile.step e event).map fun r => (r.1, e, r.1)

/-- An event with the endpoint before and after it. -/
abbrev Entry := Event × Endpoint × Endpoint

abbrev Trace := List Entry

/-- What leaves a lane in a step: the segments, and whether they were written. -/
def gone (lane : Lane) : Entry → List (Segment × Bool)
  | (.takeNext, e, _) =>
      if source e = some lane then (e.takeNext.map fun r => (r.1, true)).toList else []
  | (event, e, _) =>
      if drops lane event && !e.closed then (waiting e lane).map fun seg => (seg, false) else []

/-- What a step puts behind a lane. -/
def added (lane : Lane) : Entry → List Segment
  | (.takeNext, _, _) => []
  | (_, e, e') => (waiting e' lane).drop (waiting e lane).length

/-- **What every other event puts behind** a lane it does not drop. -/
theorem grows_of_step {event : Event} {n : Nat} (hstep : Hostile.step e event = some (e', n))
    (htake : event ≠ .takeNext) (hdrops : (drops lane event && !e.closed) = false) :
    waiting e lane <+: waiting e' lane := by
  cases event with
  | takeNext => exact absurd rfl htake
  | op o =>
      obtain ⟨r, hr, hres⟩ := Option.map_eq_some_iff.mp hstep
      cases hres
      cases hclose : isClose o with
      | false => exact (grows_of_perform hclose hr).waiting lane
      | true =>
          -- Closing what is closed does nothing.
          cases o <;> cases hclose
          cases hr
          have hclosed : e.closed = true := by simpa [drops, isClose] using hdrops
          rw [shutdown_closed hclosed]
  | shutdown err =>
      cases hstep
      have hclosed : e.closed = true := by simpa [drops] using hdrops
      rw [shutdown_closed hclosed]
  | segment bytes =>
      cases hstep
      unfold handleSegment
      split
      · next a b c d kind body =>
          dsimp only
          split_ifs with hopen hdata hwindow hreset
          · exact grows_peerOpen.waiting lane
          · exact (grows_peerData body).waiting lane
          · exact (grows_peerWindow body).waiting lane
          · cases hclosed : e.closed with
            | true =>
                unfold peerReset
                rw [if_pos hclosed]
            | false =>
                rw [waiting_peerReset hclosed, if_neg fun hlane => ?_]
                simp [drops, hreset, hlane, hclosed] at hdrops
          · exact List.prefix_rfl
      · exact List.prefix_rfl

/-- **Only the writer moves the cursor.** -/
theorem cursor_of_step {event : Event} {n : Nat} (hstep : Hostile.step e event = some (e', n))
    (htake : event ≠ .takeNext) : e'.cursor = e.cursor := by
  have hshutdown : ∀ err, (e.shutdown err).cursor = e.cursor := by
    intro err
    unfold shutdown
    split_ifs <;> rfl
  cases event with
  | takeNext => exact absurd rfl htake
  | shutdown err =>
      cases hstep
      exact hshutdown err
  | op o =>
      obtain ⟨r, hr, hres⟩ := Option.map_eq_some_iff.mp hstep
      cases hres
      cases hclose : isClose o with
      | false => exact (grows_of_perform hclose hr).cursor
      | true =>
          cases o <;> cases hclose
          cases hr
          exact hshutdown none
  | segment bytes =>
      cases hstep
      unfold handleSegment
      split
      · dsimp only
        split_ifs
        · exact grows_peerOpen.cursor
        · exact (grows_peerData _).cursor
        · exact (grows_peerWindow _).cursor
        · exact cursor_peerReset
        · rfl
      · rfl

/-- What a dropped lane holds. -/
theorem waiting_of_drops {event : Event} {n : Nat} (hstep : Hostile.step e event = some (e', n))
    (hdrops : (drops lane event && !e.closed) = true) : waiting e' lane = [] := by
  obtain ⟨hlane, hopen⟩ := Bool.and_eq_true_iff.mp hdrops
  have hopen : e.closed = false := by simpa using hopen
  clear hdrops
  cases event with
  | takeNext => cases hlane
  | op o =>
      obtain ⟨r, hr, hres⟩ := Option.map_eq_some_iff.mp hstep
      cases hres
      cases o <;> cases hlane
      cases hr
      exact waiting_shutdown none hopen
  | shutdown err =>
      cases hstep
      exact waiting_shutdown err hopen
  | segment bytes =>
      cases hstep
      unfold drops at hlane
      split at hlane
      · next heq => cases heq
      · next heq => cases heq
      · next a b c d kind body heq =>
          cases heq
          obtain ⟨hkind, hlane⟩ := Bool.and_eq_true_iff.mp hlane
          have hkind : kind = kindReset := of_decide_eq_true hkind
          subst hkind
          show waiting (e.peerReset (BigEndian.toU32 a b c d)) lane = []
          rw [waiting_peerReset hopen, if_pos (of_decide_eq_true hlane)]
      · cases hlane

/-- **The account of one step**: what waited in a lane and what was put behind is
what left it and what waits there now. -/
theorem account_of_step {event : Event} {o : Endpoint × Endpoint}
    (hstep : step e event = some (e', o)) (lane : Lane) :
    waiting e lane ++ added lane (event, o) =
      (gone lane (event, o)).map Prod.fst ++ waiting e' lane := by
  obtain ⟨⟨t, n⟩, hr, hres⟩ := Option.map_eq_some_iff.mp hstep
  cases hres
  by_cases htake : event = .takeNext
  · subst htake
    obtain ⟨⟨seg, t⟩, ht, hres⟩ := Option.map_eq_some_iff.mp hr
    cases hres
    obtain ⟨from', hsource, htaken, hothers⟩ := takeNext_spec ht
    have hgone : gone lane (.takeNext, e, t) =
        if source e = some lane then (e.takeNext.map fun r => (r.1, true)).toList else [] := rfl
    have hadded : added lane (.takeNext, e, t) = [] := rfl
    rw [hgone, hadded, hsource, List.append_nil]
    by_cases hlane : from' = lane
    · subst hlane
      rw [if_pos rfl, ht, htaken]
      rfl
    · rw [if_neg fun heq => hlane (Option.some.inj heq), hothers lane (Ne.symm hlane)]
      rfl
  · have hgone : gone lane (event, e, t) =
        if drops lane event && !e.closed then (waiting e lane).map fun seg => (seg, false)
        else [] := by
      cases event <;> first | rfl | exact absurd rfl htake
    have hadded : added lane (event, e, t) =
        (waiting t lane).drop (waiting e lane).length := by
      cases event <;> first | rfl | exact absurd rfl htake
    rw [hgone, hadded]
    cases hdrops : drops lane event && !e.closed with
    | true =>
        rw [if_pos rfl, waiting_of_drops hr hdrops, List.drop_nil, List.map_map, List.append_nil,
          List.append_nil]
        exact (List.map_id _).symm
    | false =>
        rw [if_neg Bool.false_ne_true]
        obtain ⟨more, hmore⟩ := grows_of_step hr htake hdrops
        rw [← hmore, List.drop_left]
        rfl

/-- **The account of a run**: every segment that waited in a lane or was put behind is
written, or thrown away, or still waits, in this order. -/
theorem account_of_run {trace : Trace}
    (hrun : Transition.Run step Transition.unguarded e trace e') (lane : Lane) :
    waiting e lane ++ trace.flatMap (added lane) =
      (trace.flatMap (gone lane)).map Prod.fst ++ waiting e' lane := by
  induction hrun with
  | nil => simp
  | snoc _ _ taken ih =>
      have hstep := account_of_step taken lane
      rw [List.flatMap_append, List.flatMap_append, List.flatMap_singleton, List.flatMap_singleton,
        ← List.append_assoc, ih, List.append_assoc, hstep, List.map_append, List.append_assoc]

end Writer

end Mux
