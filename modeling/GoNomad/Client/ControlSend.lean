import GoNomad.Lib.Run
import GoNomad.Transport.Quic

/-!
# The send half of the control stream

Every task of a connection sends over one stream behind a lock.  The holder
seals its frame and then waits, with the lock, until the stream has taken all
bytes; a task that is aborted there leaves the bytes that were taken and the
nonces that were spent.

* `Whole.step` — what every step keeps that aborts no task between its seal and
  its last byte;
* `abort_harmless` — what is written in runs of such steps decodes to the frames
  whose send is through;
* `abort_desynchronises` — an abort in between, after which nothing is read.
-/

namespace Client

open Proto Transport Quic
open Mux (Noise maxPlaintextLen noiseTagLen)

variable {κ : Type} {n : Nat}

/-- A send that holds the lock: whose it is, and the bytes that the stream did
not take yet. -/
structure Writing where
  task : Nat
  frame : Frame
  rest : Bytes
  deriving DecidableEq

/-- The send half behind its lock. -/
structure ControlSend (κ : Type) (n : Nat) where
  half : QuicSend κ n
  written : Bytes
  lost : Bool
  holder : Option Writing
  waiting : List (Nat × Frame)

namespace ControlSend

def new (cipher : κ) : ControlSend κ n := ⟨⟨cipher⟩, [], false, none, []⟩

/-- What can happen next. -/
inductive Event
  /-- A task asks for the lock, to send a frame. -/
  | send (task : Nat) (frame : Frame)
  /-- The task that waited longest has the lock and seals its frame. -/
  | acquire
  /-- The stream takes some bytes. -/
  | write (count : Nat)
  /-- A task is aborted, wherever it is. -/
  | abort (task : Nat)
  /-- The connection is lost. -/
  | lose
  deriving DecidableEq

/-- One step, and the frame whose send is through. -/
def step (noise : Noise κ) (s : ControlSend κ n) : Event → Option (ControlSend κ n × Option Frame)
  | .send task frame => some ({ s with waiting := s.waiting ++ [(task, frame)] }, none)
  | .acquire =>
      match s.holder, s.waiting with
      | none, (task, frame) :: waiting =>
          match s.half.send noise frame with
          | (half, .error _) => some ({ s with half, waiting }, none)
          | (half, .ok out) =>
              -- A stream that is gone takes nothing.
              if s.lost then some ({ s with half, waiting }, none)
              else some ({ s with half, waiting, holder := some ⟨task, frame, out⟩ }, none)
      | _, _ => none
  | .write count =>
      match s.holder with
      | none => none
      | some writing =>
          if 0 < count ∧ count < writing.rest.length then
            some ({ s with
              written := s.written ++ writing.rest.take count
              holder := some { writing with rest := writing.rest.drop count } }, none)
          else if count = writing.rest.length then
            some ({ s with written := s.written ++ writing.rest, holder := none },
              some writing.frame)
          else none
  | .abort task =>
      some ({ s with
        holder := s.holder.filter fun writing => writing.task ≠ task
        waiting := s.waiting.filter fun waiter => waiter.1 ≠ task }, none)
  | .lose => some ({ s with lost := true, holder := none }, none)

/-- No task is aborted that has sealed its frame and not written all of it. -/
def Undisturbed (_ : List (Event × Option Frame)) (s : ControlSend κ n) : Event → Prop
  | .abort task => ∀ writing ∈ s.holder, writing.task ≠ task
  | _ => True

instance (trace : List (Event × Option Frame)) (s : ControlSend κ n) (event : Event) :
    Decidable (Undisturbed trace s event) :=
  match event with
  | .abort task => inferInstanceAs (Decidable (∀ writing ∈ s.holder, writing.task ≠ task))
  | .send .. | .acquire | .write _ | .lose => inferInstanceAs (Decidable True)

/-- The frames whose send is through, in order. -/
def completed (trace : List (Event × Option Frame)) : List Frame := trace.filterMap Prod.snd

/-- A session that seals nothing any more. -/
def Dead (noise : Noise κ) (k : κ) : Prop :=
  ∀ plaintext : Bytes, plaintext.length ≤ maxPlaintextLen →
    ∃ err, noise.writeMessage k plaintext = .error err

/-- A session that fails to seal a message that is not too long seals nothing
any more. -/
def FailsForGood (noise : Noise κ) : Prop :=
  ∀ k plaintext err, plaintext.length ≤ maxPlaintextLen →
    noise.writeMessage k plaintext = .error err → Dead noise k

variable {noise : Noise κ} {Paired : κ → κ → Prop}

/-! ### Sealing -/

/-- A chunk that cannot be sealed ends the session. -/
theorem dead_of_encodeRecord (hlaw : noise.Lawful Paired) (hdead : FailsForGood noise) {k : κ}
    {chunk : Bytes} {err : TransportError} (hle : chunk.length ≤ maxPlaintextLen)
    (h : noise.encodeRecord k chunk = .error err) : Dead noise k := by
  unfold Noise.encodeRecord Noise.encrypt at h
  rw [if_neg (Nat.not_lt.mpr hle)] at h
  cases hwrite : noise.writeMessage k chunk with
  | error err' => exact hdead k chunk err' hle hwrite
  | ok sealed =>
      have hlen := hlaw.length _ _ _ _ hwrite
      rw [hwrite] at h
      dsimp only at h
      have hmax : maxPlaintextLen + noiseTagLen < 2 ^ 16 := by decide
      rw [if_pos (by omega)] at h
      cases h

/-- A frame that cannot be sealed ends the session. -/
theorem dead_of_sealChunks (hlaw : noise.Lawful Paired) (hdead : FailsForGood noise)
    {err : TransportError} {k' : κ} :
    ∀ {chunks : List Bytes} {k : κ}, (∀ c ∈ chunks, c.length ≤ maxPlaintextLen) →
      sealChunks noise k chunks = (k', .error err) → Dead noise k' := by
  intro chunks
  induction chunks with
  | nil =>
      intro k _ h
      cases h
  | cons chunk chunks ih =>
      intro k hle h
      rw [sealChunks] at h
      cases hseal : noise.encodeRecord k chunk with
      | error err' =>
          rw [hseal] at h
          cases h
          exact dead_of_encodeRecord hlaw hdead (hle chunk List.mem_cons_self) hseal
      | ok record =>
          obtain ⟨record, k₁⟩ := record
          rw [hseal] at h
          dsimp only at h
          rcases hrest : sealChunks noise k₁ chunks with ⟨k₂, err' | out⟩
          · rw [hrest] at h
            cases h
            exact ih (fun c hc => hle c (.tail _ hc)) hrest
          · rw [hrest] at h
            cases h

theorem chunks_encode (f : Frame) :
    ∃ chunk chunks, BigEndian.chunks maxPlaintextLen f.encode = chunk :: chunks := by
  cases hchunks : BigEndian.chunks maxPlaintextLen f.encode with
  | cons chunk chunks => exact ⟨chunk, chunks, rfl⟩
  | nil =>
      have hflat := BigEndian.flatten_chunks (show 0 < maxPlaintextLen by decide) f.encode
      rw [hchunks] at hflat
      cases hflat

/-- **A send that fails** before it writes leaves the session as it was, or dead. -/
theorem send_error (hlaw : noise.Lawful Paired) (hdead : FailsForGood noise) {s s' : QuicSend κ n}
    {f : Frame} {err : TransportError} (h : s.send noise f = (s', .error err)) :
    s' = s ∨ Dead noise s'.cipher := by
  unfold QuicSend.send at h
  split_ifs at h
  · cases h
    exact .inl rfl
  · rcases hseal : sealChunks noise s.cipher (BigEndian.chunks maxPlaintextLen f.encode) with
      ⟨k, result⟩
    rw [hseal] at h
    cases h
    refine .inr (dead_of_sealChunks hlaw hdead (fun c hc => ?_) hseal)
    exact (BigEndian.mem_chunks (by decide) hc).2

/-- A send that seals its frame has something to write, and its session was not
dead. -/
theorem send_ok_spec {s s' : QuicSend κ n} {f : Frame} {out : Bytes}
    (h : s.send noise f = (s', .ok out)) : out ≠ [] ∧ ¬Dead noise s.cipher := by
  obtain ⟨-, hseal⟩ := send_ok h
  obtain ⟨chunk, chunks, hchunks⟩ := chunks_encode f
  rw [hchunks] at hseal
  obtain ⟨record, rest, k₁, hrecord, -, rfl⟩ := sealChunks_cons hseal
  refine ⟨fun hnil => record_ne_nil hrecord (List.append_eq_nil_iff.mp hnil).1, fun hdead => ?_⟩
  have hmem : chunk ∈ BigEndian.chunks maxPlaintextLen f.encode := by
    rw [hchunks]
    exact List.mem_cons_self
  obtain ⟨err, herr⟩ := hdead chunk (BigEndian.mem_chunks (by decide) hmem).2
  obtain ⟨sealed, hwrite, -⟩ := Noise.encodeRecord_ok hrecord
  rw [herr] at hwrite
  cases hwrite

/-- One more frame is sent. -/
theorem Sent.snoc {s s₁ s₂ : QuicSend κ n} {fs : List Frame} {f : Frame} {bytes out : Bytes}
    (hsent : Sent noise s fs bytes s₁) (hsend : s₁.send noise f = (s₂, .ok out)) :
    Sent noise s (fs ++ [f]) (bytes ++ out) s₂ := by
  induction hsent with
  | nil s =>
      have hone := Sent.cons hsend (.nil s₂)
      rw [List.append_nil] at hone
      exact hone
  | cons hfirst _ ih =>
      rw [List.cons_append, List.append_assoc]
      exact .cons hfirst (ih hsend)

/-! ### What is written -/

/-- What follows the whole records: part of one frame, or nothing. -/
def Partial (noise : Noise κ) (s : QuicSend κ n) (part : Bytes) : Prop :=
  part = [] ∨ ∃ f half rest, rest ≠ [] ∧ s.send noise f = (half, .ok (part ++ rest))

/-- **What was written**: the whole records of the frames whose send is through,
and what the stream took of the frame whose send is not. -/
structure Whole (noise : Noise κ) (k : κ) (trace : List (Event × Option Frame))
    (s : ControlSend κ n) (whole part : Bytes) (now : QuicSend κ n) : Prop where
  sent : Sent noise (⟨k⟩ : QuicSend κ n) (completed trace) whole now
  written : s.written = whole ++ part
  part_spec : Partial noise now part
  holder : ∀ writing, s.holder = some writing → s.lost = false ∧ writing.rest ≠ [] ∧
    now.send noise writing.frame = (s.half, .ok (part ++ writing.rest))
  idle : s.holder = none → s.lost = false →
    part = [] ∧ (s.half = now ∨ Dead noise s.half.cipher)

theorem completed_snoc {trace : List (Event × Option Frame)} {event : Event} {out : Option Frame} :
    completed (trace ++ [(event, out)]) = completed trace ++ out.toList := by
  unfold completed
  rw [List.filterMap_append]
  cases out with
  | none => rfl
  | some frame => rfl

variable {k : κ} {trace : List (Event × Option Frame)} {s t : ControlSend κ n} {event : Event}
  {out : Option Frame}

theorem Whole.sent_none {whole part : Bytes} {now : QuicSend κ n}
    (h : Whole noise k trace s whole part now) :
    Sent noise (⟨k⟩ : QuicSend κ n) (completed (trace ++ [(event, none)])) whole now := by
  rw [completed_snoc, Option.toList_none, List.append_nil]
  exact h.sent

/-- A step that writes nothing and takes no lock. -/
theorem Whole.frame {whole part : Bytes} {now : QuicSend κ n} (h : Whole noise k trace s whole part now)
    {waiting : List (Nat × Frame)} :
    Whole noise k (trace ++ [(event, none)]) { s with waiting } whole part now where
  sent := h.sent_none
  written := h.written
  part_spec := h.part_spec
  holder := h.holder
  idle := h.idle

/-- **Every step** that aborts no task between its seal and its last byte leaves
whole records. -/
theorem Whole.step (hlaw : noise.Lawful Paired) (hdead : FailsForGood noise) {whole part : Bytes}
    {now : QuicSend κ n} (h : Whole noise k trace s whole part now)
    (hguard : Undisturbed trace s event) (hstep : s.step noise event = some (t, out)) :
    ∃ whole part now, Whole noise k (trace ++ [(event, out)]) t whole part now := by
  cases event with
  | send task frame =>
      cases hstep
      exact ⟨whole, part, now, h.frame⟩
  | acquire =>
      dsimp only [ControlSend.step] at hstep
      split at hstep
      · next task frame waiting hholder hwaiting =>
          rcases hsend : s.half.send noise frame with ⟨half, err | bytes⟩
          · rw [hsend] at hstep
            cases hstep
            refine ⟨whole, part, now, ⟨h.sent_none, h.written, h.part_spec, ?_, ?_⟩⟩
            · intro writing hwriting
              rw [hholder] at hwriting
              cases hwriting
            · intro _ hlost
              obtain ⟨hpart, hhalf⟩ := h.idle hholder hlost
              refine ⟨hpart, ?_⟩
              rcases send_error hlaw hdead hsend with rfl | hnow
              · exact hhalf
              · exact .inr hnow
          · rw [hsend] at hstep
            dsimp only at hstep
            split_ifs at hstep with hlost
            · cases hstep
              refine ⟨whole, part, now, ⟨h.sent_none, h.written, h.part_spec, ?_, ?_⟩⟩
              · intro writing hwriting
                rw [hholder] at hwriting
                cases hwriting
              · intro _ hnot
                rw [hlost] at hnot
                cases hnot
            · cases hstep
              obtain ⟨hne, hlive⟩ := send_ok_spec hsend
              have hlost := Bool.eq_false_iff.mpr hlost
              obtain ⟨rfl, hhalf⟩ := h.idle hholder hlost
              obtain rfl := hhalf.resolve_right hlive
              refine ⟨whole, [], _, ⟨h.sent_none, h.written, h.part_spec, ?_, ?_⟩⟩
              · intro writing hwriting
                cases hwriting
                exact ⟨hlost, hne, hsend⟩
              · intro hnone
                cases hnone
      · cases hstep
  | write count =>
      dsimp only [ControlSend.step] at hstep
      split at hstep
      · cases hstep
      · next writing hholder =>
          obtain ⟨hlost, -, hsend⟩ := h.holder writing hholder
          split_ifs at hstep with hcount hall
          · cases hstep
            have hdrop : writing.rest.drop count ≠ [] := by
              intro hnil
              rw [List.drop_eq_nil_iff] at hnil
              omega
            have hsend' : now.send noise writing.frame =
                (s.half, .ok ((part ++ writing.rest.take count) ++ writing.rest.drop count)) := by
              rw [List.append_assoc, List.take_append_drop]
              exact hsend
            refine ⟨whole, part ++ writing.rest.take count, now, ⟨h.sent_none, ?_,
              .inr ⟨_, _, _, hdrop, hsend'⟩, ?_, ?_⟩⟩
            · rw [← List.append_assoc, ← h.written]
            · intro next hnext
              cases hnext
              exact ⟨hlost, hdrop, hsend'⟩
            · intro hnone
              cases hnone
          · cases hstep
            refine ⟨whole ++ (part ++ writing.rest), [], s.half, ⟨?_, ?_, .inl rfl, ?_, ?_⟩⟩
            · rw [completed_snoc]
              exact Sent.snoc h.sent hsend
            · rw [List.append_nil, ← List.append_assoc, ← h.written]
            · intro next hnext
              cases hnext
            · exact fun _ _ => ⟨rfl, .inl rfl⟩
  | abort task =>
      cases hstep
      have hholder : s.holder.filter (fun writing => writing.task ≠ task) = s.holder := by
        cases hh : s.holder with
        | none => rfl
        | some writing => simp [Option.filter, hguard writing hh]
      rw [hholder]
      exact ⟨whole, part, now, h.frame⟩
  | lose =>
      cases hstep
      refine ⟨whole, part, now, ⟨h.sent_none, h.written, h.part_spec, ?_, ?_⟩⟩
      · intro writing hwriting
        cases hwriting
      · intro _ hnot
        cases hnot


/-- **A whole run** in which no task is aborted between its seal and its last
byte leaves whole records. -/
theorem run_whole (hlaw : noise.Lawful Paired) (hdead : FailsForGood noise)
    (hrun : Transition.Run (step noise) Undisturbed (new k : ControlSend κ n) trace s) :
    ∃ whole part now, Whole noise k trace s whole part now := by
  apply hrun.invariant fun trace s => ∃ whole part now, Whole noise k trace s whole part now
  · refine ⟨[], [], ⟨k⟩, ⟨.nil _, rfl, .inl rfl, ?_, fun _ _ => ⟨rfl, .inl rfl⟩⟩⟩
    intro writing hwriting
    cases hwriting
  · rintro trace s event t out ⟨whole, part, now, h⟩ hguard hstep
    exact h.step hlaw hdead hguard hstep

/-! ### What is read -/

/-- **The frames that were written whole** are read, and nothing of a frame that
was not. -/
theorem receives_whole (hlaw : noise.Lawful Paired) {start now : QuicSend κ n} {fs : List Frame}
    {whole part : Bytes} (hsent : Sent noise start fs whole now) (hpart : Partial noise now part) :
    ∀ {r : QuicRecv κ n} {incoming : Incoming}, r.assembler = [] → Paired start.cipher r.cipher →
      r.pending ++ incoming.bytes = whole ++ part →
      Receives noise r incoming fs (ending incoming.finishes part) := by
  induction hsent with
  | nil now =>
      intro r incoming hassembler hpaired hbytes
      rw [List.nil_append] at hbytes
      rcases hpart with rfl | ⟨f, half, rest, hrest, hsend⟩
      · obtain ⟨hpending, hincoming⟩ := List.append_eq_nil_iff.mp hbytes
        obtain ⟨r', incoming', hrecv⟩ :=
          @recv_idle _ _ noise incoming _ hassembler hpending hincoming
        exact received_none hrecv
      · have harrived : r.pending ++ incoming.bytes <+: (part ++ rest) ++ [] := by
          rw [hbytes, List.append_nil]
          exact List.prefix_append _ _
        obtain ⟨r', incoming', -, -, -, -, hsplit⟩ | ⟨-, r', incoming', hrecv⟩ :=
          recv_spec hlaw (midway_of_send hsend hassembler hpaired harrived)
        · have hlen := congrArg List.length (hbytes.symm.trans hsplit)
          have hpos := List.length_pos_of_ne_nil hrest
          simp only [List.length_append] at hlen
          omega
        · rw [List.nil_append, hbytes] at hrecv
          exact received_none hrecv
  | @cons start s₁ s₂ f fs out rest hsend hrest ih =>
      intro r incoming hassembler hpaired hbytes
      rw [List.append_assoc] at hbytes
      have harrived : r.pending ++ incoming.bytes <+: out ++ (rest ++ part) := by
        rw [hbytes]
      obtain ⟨r', incoming', hrecv, hempty, hpaired', hfin, hsplit⟩ | ⟨hlt, -⟩ :=
        recv_spec hlaw (midway_of_send hsend hassembler hpaired harrived)
      · rw [hsplit] at hbytes
        rw [← hfin]
        exact .frame hrecv (ih hpart hempty hpaired' (List.append_cancel_left hbytes))
      · rw [hbytes, List.length_append] at hlt
        omega

/-- **Aborted senders do no harm** in a run in which none is aborted between its
seal and its last byte: what was written is the records of the frames whose send
is through, in order, then part of the frame that is being written or was when
the connection was lost; and from it exactly the frames whose send is through are
read. -/
theorem abort_harmless (hlaw : noise.Lawful Paired) (hdead : FailsForGood noise) {k' : κ}
    (hpaired : Paired k k')
    (hrun : Transition.Run (step noise) Undisturbed (new k : ControlSend κ n) trace s) :
    ∃ whole part now, Sent noise (⟨k⟩ : QuicSend κ n) (completed trace) whole now ∧
      s.written = whole ++ part ∧ (s.holder = none → s.lost = false → part = []) ∧
      ∀ incoming : Incoming, incoming.bytes = s.written →
        Receives noise (.new k' : QuicRecv κ n) incoming (completed trace)
          (ending incoming.finishes part) := by
  obtain ⟨whole, part, now, h⟩ := run_whole hlaw hdead hrun
  refine ⟨whole, part, now, h.sent, h.written, fun hidle hlost => (h.idle hidle hlost).1, ?_⟩
  intro incoming hbytes
  exact receives_whole hlaw h.sent h.part_spec rfl hpaired (by rw [← h.written, ← hbytes]; rfl)

/-! ### A session that checks the order -/

/-- The tag of a message: how many were sealed before. -/
def tag (k : Nat) : Bytes := List.replicate 8 0 ++ BigEndian.ofU64 (UInt64.ofNat k)

theorem length_tag (k : Nat) : (tag k).length = noiseTagLen := rfl

/-- A session whose messages are the plaintexts and their place in the order. -/
def inOrder : Noise Nat where
  writeMessage k plaintext := .ok (plaintext ++ tag k, k + 1)
  readMessage k sealed :=
    if sealed.drop (sealed.length - noiseTagLen) = tag k then
      .ok (sealed.take (sealed.length - noiseTagLen), k + 1)
    else .error .crypto

theorem inOrder_lawful : inOrder.Lawful (· = ·) where
  read := by
    rintro w _ plaintext sealed w' rfl hwrite
    cases hwrite
    refine ⟨w + 1, ?_, rfl⟩
    unfold inOrder
    dsimp only
    rw [List.length_append, length_tag, Nat.add_sub_cancel, List.take_left, List.drop_left,
      if_pos rfl]
  length := by
    intro w plaintext sealed w' hwrite
    cases hwrite
    rw [List.length_append, length_tag]

theorem inOrder_failsForGood : FailsForGood inOrder := by
  intro k plaintext err _ h
  cases h

/-- A task that is aborted while it waits for the lock does no harm. -/
theorem abort_harmless_waiting :
    ∃ trace s, Transition.Run (step inOrder) Undisturbed (new 0 : ControlSend Nat 1) trace s ∧
      completed trace = [Mux.Link.dot] ∧
      ∀ incoming : Incoming, incoming.bytes = s.written →
        ∃ part, Receives inOrder (.new 0 : QuicRecv Nat 1) incoming [Mux.Link.dot]
          (ending incoming.finishes part) := by
  have hrun : Transition.Run (step inOrder) Undisturbed (new 0 : ControlSend Nat 1) _ _ :=
    Transition.run_of_exec
      [.send 1 Mux.Link.dot, .send 2 Mux.Link.dot, .acquire, .write 7, .abort 2, .write 17] rfl
  have hpaired : (0 : Nat) = 0 := rfl
  obtain ⟨whole, part, now, -, -, -, hreads⟩ :=
    abort_harmless inOrder_lawful inOrder_failsForGood hpaired hrun
  exact ⟨_, _, hrun, rfl, fun incoming hbytes => ⟨part, hreads incoming hbytes⟩⟩

/-- Seven bytes of a record that was sealed first, and one that was sealed second. -/
def garbled : Bytes :=
  [0, 22, 0, 0, 0, 1, 0] ++ ([0, 22, 0, 0, 0, 1, 0, 7] ++ tag 1)

/-- A reader takes the first record to go on into the second. -/
theorem recv_garbled : ∃ r' incoming', (QuicRecv.new 0 : QuicRecv Nat 1).recv inOrder
    (.read garbled .finished) = (r', incoming', .error .crypto) := by
  have hempty : (QuicRecv.new 0 : QuicRecv Nat 1).takeFrame inOrder = (.new 0, .ok none) := by
    rw [QuicRecv.takeFrame]
    rfl
  rw [QuicRecv.recv, hempty]
  dsimp only
  rw [QuicRecv.recv, QuicRecv.takeFrame]
  exact ⟨_, _, rfl⟩

/-- **A task that is aborted after its seal**: the frame that is sent next, whole
and without an error, is not read, and neither is anything after it. -/
theorem abort_desynchronises :
    ∃ trace s, Transition.Run (step inOrder) Transition.unguarded (new 0 : ControlSend Nat 1) trace s ∧
      s.holder = none ∧ s.lost = false ∧ completed trace = [Mux.Link.dot] ∧
      Receives inOrder (.new 0 : QuicRecv Nat 1) (.read s.written .finished) [] (.error .crypto) := by
  have hrun : Transition.Run (step inOrder) Transition.unguarded (new 0 : ControlSend Nat 1) _
      ⟨⟨2⟩, garbled, false, none, []⟩ :=
    Transition.run_of_exec
      [.send 1 Mux.Link.dot, .send 2 Mux.Link.dot, .acquire, .write 7, .abort 1, .acquire, .write 24]
      rfl
  obtain ⟨r', incoming', hrecv⟩ := recv_garbled
  exact ⟨_, _, hrun, rfl, rfl, rfl, .failed hrecv⟩

end ControlSend

end Client
