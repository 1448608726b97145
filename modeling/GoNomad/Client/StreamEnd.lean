import GoNomad.Client.Tasks

/-!
# The end of a control stream

When the stream of a connection ends, its reader empties the map of slots once
and leaves; requests may register slots later, and whether a connection is dead
is asked of the connection, not of the stream.

* `Gone.step`, `run_gone` — where the connection is closed before the map is
  emptied, only requests whose send fails have slots afterwards;
* `stream_end_noticed` — then nothing waits for a deadline on that connection,
  and no connect returns with it;
* `stream_end_missed` — a stream that ends under an open connection.
-/

namespace Client

open Proto

/-- The reader emptied the map. -/
def Reader.gone : Reader → Prop
  | .abandoning _ | .ended => True
  | _ => False

/-- A request has its outcome because its reply is there, or none will come. -/
theorem Channel.outcome_cases {channel : Channel} {decoded : Bool} {outcome : Outcome}
    (h : channel.outcome decoded = some outcome) :
    outcome.isLost = true ∨ ∃ reply, channel = .sent reply := by
  cases channel with
  | unused => cases h
  | sent reply => exact .inr ⟨reply, rfl⟩
  | closed =>
      cases h
      exact .inl rfl

/-- A channel that was used wakes its request. -/
theorem Channel.exists_outcome {channel : Channel} (h : channel ≠ .unused) (decoded : Bool) :
    ∃ outcome, channel.outcome decoded = some outcome := by
  cases channel with
  | unused => exact absurd rfl h
  | sent reply => cases reply <;> exact ⟨_, rfl⟩
  | closed => exact ⟨_, rfl⟩

namespace Session

variable {trace : Trace} {s t : Session} {event : Event} {out : Option (Nat × Outcome)}
  {r : Nat} {id : UInt64} {outcome : Outcome}

/-- The reader empties the map under a closed connection only, and no request is
dropped in its send afterwards. -/
def Noticing (_ : Trace) (s : Session) : Event → Prop
  | .abandon => s.closed = true
  | .drop r => s.reader.gone → (s.call r).stage ≠ .sending
  | _ => True

/-- **What holds once the map was emptied**: the connection is closed, and the
slots are those of requests whose send fails. -/
def Gone (s : Session) : Prop :=
  s.reader.gone → s.closed = true ∧ ∀ id r, s.slots.lookup id = some r →
    (s.call r).stage = .sending ∨ (s.call r).stage = .refused

@[grind =] theorem setStage_stage (s : Session) (r q : Nat) (stage : Stage) :
    ((s.setStage r stage).call q).stage = if q = r then stage else (s.call q).stage := by
  split_ifs with h
  · rw [h, setStage_self]
  · rw [setStage_ne h]

@[grind =] theorem slots_register (s : Session) (r : Nat) (id : UInt64) :
    (s.register r).slots.lookup id =
      if id = (s.call r).id then some r else s.slots.lookup id := by
  unfold register
  rw [AList.lookup_insert_ite, slots_dropSlot]
  split_ifs
  · rfl
  · rfl

@[grind =] theorem stage_register (s : Session) (r q : Nat) :
    ((s.register r).call q).stage = (s.call q).stage := stage_dropSlot ..

@[grind =] theorem reader_register (s : Session) (r : Nat) : (s.register r).reader = s.reader :=
  reader_dropSlot ..

@[grind =] theorem closed_register (s : Session) (r : Nat) : (s.register r).closed = s.closed :=
  closed_dropSlot ..

@[grind =] theorem slots_setStage (s : Session) (r : Nat) (stage : Stage) :
    (s.setStage r stage).slots = s.slots := rfl

@[grind =] theorem reader_setStage (s : Session) (r : Nat) (stage : Stage) :
    (s.setStage r stage).reader = s.reader := rfl

@[grind =] theorem closed_setStage (s : Session) (r : Nat) (stage : Stage) :
    (s.setStage r stage).closed = s.closed := rfl

/-- A request that is issued has no slot yet. -/
theorem Sound.slot_lt (h : Sound trace s) (hlookup : s.slots.lookup id = some r) : r < s.count := by
  by_contra hge
  have hstage := (h.slot id r hlookup).2.2.1
  rw [h.fresh r (Nat.not_lt.mp hge)] at hstage
  exact hstage

/-- **Every step** that the guard allows keeps what holds once the map was emptied. -/
theorem Gone.step (hsound : Sound trace s) (h : s.Gone) (hok : Noticing trace s event)
    (hstep : s.step event = some (t, out)) : t.Gone := by
  have hslot := hsound.slot
  intro hgone
  cases event with
  | number =>
      cases hstep
      obtain ⟨hclosed, hslots⟩ := h hgone
      refine ⟨hclosed, fun id r hlookup => ?_⟩
      have hne : r ≠ s.count := Nat.ne_of_lt (hsound.slot_lt hlookup)
      dsimp only
      rw [Function.update_of_ne hne]
      exact hslots id r hlookup
  | abandon =>
      dsimp only [Session.step] at hstep
      split at hstep
      · cases hstep
        exact ⟨hok, fun id r hlookup => by cases hlookup⟩
      · cases hstep
  | release i =>
      dsimp only [Session.step] at hstep
      split at hstep
      · next requests hreader =>
          split at hstep
          · cases hstep
          · cases hstep
            obtain ⟨hclosed, hslots⟩ := h (by rw [hreader]; trivial)
            refine ⟨hclosed, fun id q hlookup => ?_⟩
            rw [setChannel_stage]
            exact hslots id q hlookup
      · cases hstep
  | leave =>
      dsimp only [Session.step] at hstep
      split at hstep
      · next hreader =>
          cases hstep
          exact h (by rw [hreader]; trivial)
      · cases hstep
  | close =>
      cases hstep
      exact ⟨rfl, (h hgone).2⟩
  | _ =>
      dsimp only [Session.step] at hstep
      unfold Gone at h
      grind [Noticing, Reader.gone, setChannel_stage, stage_dropSlot, slots_dropSlot,
        reader_dropSlot, deliver, setChannel]

/-- **Every run** that the guard allows keeps it. -/
theorem run_gone (hrun : Transition.Run step Noticing start trace s) : s.Gone := by
  induction hrun with
  | nil => exact fun hgone => hgone.elim
  | snoc run guard taken ih =>
      exact ih.step (run_sound (run.mono fun _ _ _ _ => trivial)) guard taken

/-- Once the reader left, a request that waits has its reply, or learns that there
will be none. -/
theorem Sound.woken (h : Sound trace s) (hgone : s.Gone) (hend : s.reader = .ended)
    (hr : (s.call r).stage = .waiting) : (s.call r).channel ≠ .unused := by
  intro hunused
  have hslots := (hgone (by rw [hend]; trivial)).2
  rcases h.covered r (.inr hr) hunused with hslot | ⟨reply, hheld⟩ | ⟨requests, hheld, -⟩
  · rcases hslots _ r hslot with hstage | hstage
    · cases hr.symm.trans hstage
    · cases hr.symm.trans hstage
  · cases hend.symm.trans hheld
  · cases hend.symm.trans hheld

/-- A request returns a loss, unless its parameters could not be encoded, its
deadline was over, or its reply is there. -/
theorem outcome_cases (hstep : s.step event = some (t, some (r, outcome))) :
    outcome.isLost = true ∨ event = .encodingFails r ∨ (s.call r).stage = .cancelling ∨
      ∃ reply, (s.call r).channel = .sent reply := by
  unfold Session.step at hstep
  split at hstep <;> grind [Outcome.isLost, Channel.outcome_cases]

end Session

namespace Inner

variable {s t : Inner} {e : Event} {out : Option Returned} {i : Nat}
  {trace : List (Event × Option Returned)} {stored : Option PairedDaemon}

instance (reader : Reader) : Decidable reader.gone :=
  match reader with
  | .abandoning _ | .ended => .isTrue trivial
  | .reading | .holding .. | .answering _ | .broken => .isFalse id

/-- A reader empties the map under a closed connection only, and no poller is
aborted in its send afterwards. -/
def Noticing (_ : List (Event × Option Returned)) (s : Inner) : Event → Prop
  | .session live .abandon => (s.sessions live).closed = true
  | .vanish p =>
      match s.task p with
      | .requesting _ live request =>
          (s.sessions live).reader.gone → ((s.sessions live).call request).stage ≠ .sending
      | _ => True
  | _ => True

instance (trace : List (Event × Option Returned)) (s : Inner) (e : Event) :
    Decidable (Noticing trace s e) := by
  unfold Noticing
  split
  · infer_instance
  · split <;> infer_instance
  · infer_instance

/-- **The end of a stream is noticed**: no slot stays, no request waits for its
deadline or returns anything but a loss that was not settled before, and a connect
that finds the connection dials again. -/
structure Noticed (s : Inner) (live : Nat) : Prop where
  slots : ∀ id r, (s.sessions live).slots.lookup id = some r →
    ((s.sessions live).call r).stage = .sending ∨ ((s.sessions live).call r).stage = .refused
  unsent : ∀ r, (s.sessions live).step (.sent r) = none
  deadline : ∀ r, (s.sessions live).step (.expire r) = none
  woken : ∀ r, ((s.sessions live).call r).stage = .waiting →
    ∃ t outcome, (s.sessions live).step (.wake r true) = some (t, some (r, outcome))
  outcome : ∀ event t r outcome, (s.sessions live).step event = some (t, some (r, outcome)) →
    outcome.isLost = true ∨ event = .encodingFails r ∨
      ((s.sessions live).call r).stage = .cancelling ∨
      ∃ reply, ((s.sessions live).call r).channel = .sent reply
  connect : ∀ p daemon, s.task p = .checking (.connect daemon) live →
    s.step (.check p) = some (s.goto p (.tearing (.failed live) (.dial daemon)), none)

/-- What a step of the client does to one connection, the guard of the connection
allows. -/
theorem noticing_takes {event : Session.Event} {trace' : Session.Trace}
    (hok : Noticing trace s e) (htakes : s.Takes e i event) :
    Session.Noticing trace' (s.sessions i) event := by
  rcases htakes with ⟨rfl, hdrop⟩ | rfl | ⟨p, caller, r, rfl, htask, rfl⟩
  · cases event with
    | abandon => exact hok
    | drop r => exact absurd rfl (hdrop r)
    | _ => trivial
  · trivial
  · dsimp only [Noticing] at hok
    rw [htask] at hok
    exact hok

/-- **The end of a stream is noticed** in runs in which the connection is closed
before its reader empties the map, and no poller is aborted in its send afterwards. -/
theorem stream_end_noticed (hrun : Transition.Run step Noticing (create stored) trace s)
    (hend : (s.sessions i).reader = .ended) : s.Noticed i := by
  obtain ⟨trace', hrun'⟩ := sessions_run
    (fun _ _ _ _ _ _ hok htakes => noticing_takes hok htakes) hrun i
  have hsound := Session.run_sound (hrun'.mono fun _ _ _ _ => trivial)
  have hgone := Session.run_gone hrun'
  obtain ⟨hclosed, hslots⟩ := hgone (by rw [hend]; trivial)
  have hwoken := fun r => hsound.woken hgone hend (r := r)
  constructor
  · exact hslots
  · intro r
    unfold Session.step
    rw [hclosed]
    exact if_neg fun hr => Bool.noConfusion hr.2
  · intro r
    unfold Session.step
    grind
  · intro r hr
    obtain ⟨outcome, houtcome⟩ := Channel.exists_outcome (hwoken r hr) true
    refine ⟨(s.sessions i).setStage r (.returned outcome), outcome, ?_⟩
    dsimp only [Session.step]
    rw [if_pos hr, houtcome]
  · intro event t r outcome hstep
    exact Session.outcome_cases hstep
  · intro p daemon htask
    dsimp only [step]
    rw [htask]
    dsimp only
    rw [if_pos hclosed]
    rfl

/-- A connection that is lost with a request in flight, and a connect after it. -/
theorem stream_end_noticed_lost :
    ∃ trace s, Transition.Run step Noticing (create (some paired)) trace s ∧
      (s.sessions 0).reader = .ended ∧ s.Noticed 0 := by
  have hrun : Transition.Run step Noticing (create (some paired)) _ _ :=
    Transition.run_of_exec
      [.startConnect 0, .look 0, .dialed 0 5, .touchSave 0, .touchCache 0,
        .startCall 1 .call, .look 1, .check 1, .session 0 (.register 0), .session 0 (.sent 0),
        .session 0 .close, .session 0 .streamEnds, .session 0 .abandon, .session 0 (.release 0),
        .session 0 .leave, .startConnect 0, .look 0] rfl
  exact ⟨_, _, hrun, rfl, stream_end_noticed hrun rfl⟩

/-- A stream ends under a connection that stays open: a request registers a slot
and sends, its slot stays, it waits for its deadline, and a connect returns with
the connection. -/
theorem stream_end_missed :
    ¬∀ stored trace s i, Transition.Run step Transition.unguarded (create stored) trace s →
      (s.sessions i).reader = .ended → s.Noticed i := by
  intro h
  have hrun : Transition.Run step Transition.unguarded (create (some paired)) _ _ :=
    Transition.run_of_exec
      [.startConnect 0, .look 0, .dialed 0 5, .touchSave 0, .touchCache 0,
        .session 0 .streamEnds, .session 0 .abandon, .session 0 .leave,
        .startCall 1 .call, .look 1, .check 1, .session 0 (.register 0), .session 0 (.sent 0),
        .startConnect 0, .look 0] rfl
  have hnoticed := h _ _ _ 0 hrun rfl
  rcases hnoticed.slots 1 0 rfl with hstage | hstage
  · cases hstage
  · cases hstage

end Inner

end Client
