import GoNomad.Proto.Streaming
import GoNomad.Transport.Reliable

/-!
# Frames over one QUIC stream

The write half seals a frame into as many records as it needs; the read half
takes ciphertext in whatever pieces the stream delivers it, opens every complete
record and reassembles one frame at a time.  The bound on reassembly is a field
of the read half's state, so no state that breaks it can be built.

* `takeFrame_spec` — one attempt to take a frame out of the buffered records;
* `recv_spec` — one call of `recv`, over any further reads;
* `frames_arrive` — what repeated calls return on a stream that was cut off
  anywhere;
* `quic_round_trip` — the whole pipeline.
-/

namespace Quic

open Proto Transport
open Mux (Noise maxPlaintextLen noiseTagLen)
open Mux.Wire (front)
open Mux.Endpoint (oversized oversized_of_le_encode)

variable {κ : Type} {n : Nat}

/-! ### Sending -/

/-- The write half of one sealed stream, for frames of up to `maxFrameLen`. -/
structure QuicSend (κ : Type) (maxFrameLen : Nat) where
  cipher : κ

/-- Seals one chunk after the other. -/
def sealChunks (noise : Noise κ) : κ → List Bytes → κ × Except TransportError Bytes
  | k, [] => (k, .ok [])
  | k, chunk :: chunks =>
      match noise.encodeRecord k chunk with
      | .error err => (k, .error err)
      | .ok (record, k) =>
          match sealChunks noise k chunks with
          | (k, .error err) => (k, .error err)
          | (k, .ok out) => (k, .ok (record ++ out))

/-- Seals a frame into as many records as it needs; the bytes are what is
written to the stream, in one write. -/
def QuicSend.send (noise : Noise κ) (s : QuicSend κ n) (frame : Frame) :
    QuicSend κ n × Except TransportError Bytes :=
  if n < frame.payload.length then
    (s, .error (.frameTooLarge frame.payload.length n))
  else
    match sealChunks noise s.cipher (BigEndian.chunks maxPlaintextLen frame.encode) with
    | (k, result) => (⟨k⟩, result)

/-- Frames sent one after the other, and the bytes they made. -/
inductive Sent (noise : Noise κ) : QuicSend κ n → List Frame → Bytes → QuicSend κ n → Prop
  | nil (s : QuicSend κ n) : Sent noise s [] [] s
  | cons {s s' s'' : QuicSend κ n} {f : Frame} {fs : List Frame} {out rest : Bytes}
      (hsend : s.send noise f = (s', .ok out)) (hrest : Sent noise s' fs rest s'') :
      Sent noise s (f :: fs) (out ++ rest) s''

/-! ### Receiving -/

/-- The bound on reassembly: one frame, header included; the sum saturates. -/
def ceiling (maxFrameLen : Nat) : Nat := min (maxFrameLen + headerLen) (2 ^ 64 - 1)

/-- The read half of one sealed stream: ciphertext not yet split into records,
and the decrypted bytes of a frame that is not complete. -/
structure QuicRecv (κ : Type) (maxFrameLen : Nat) where
  cipher : κ
  pending : Bytes
  assembler : Bytes
  bounded : assembler.length ≤ ceiling maxFrameLen

/-- What the reads of a stream return, one after the other. -/
inductive Incoming
  | read (chunk : Bytes) (rest : Incoming)
  /-- The peer finished the stream. -/
  | finished
  /-- The stream or its connection is gone. -/
  | failed

namespace Incoming

/-- All bytes that are still to come. -/
def bytes : Incoming → Bytes
  | read chunk rest => chunk ++ rest.bytes
  | finished => []
  | failed => []

/-- Whether the peer finishes the stream in the end. -/
def finishes : Incoming → Bool
  | read _ rest => rest.finishes
  | finished => true
  | failed => false

end Incoming

namespace QuicRecv

def new (cipher : κ) : QuicRecv κ n := ⟨cipher, [], [], Nat.zero_le _⟩

/-- Decrypts one complete record from `pending` into the assembler; `false`
when there is no whole record yet. -/
def openOneRecord (noise : Noise κ) (r : QuicRecv κ n) :
    QuicRecv κ n × Except TransportError Bool :=
  match front r.pending with
  | .incomplete => (r, .ok false)
  | .short len => (r, .error (.protocol (.shortRecord len)))
  | .record sealed rest =>
      match noise.readMessage r.cipher sealed with
      | .error err => (r, .error err)
      | .ok (plaintext, cipher) =>
          let assembler := r.assembler ++ plaintext
          if h : assembler.length ≤ ceiling n then
            (⟨cipher, rest, assembler, h⟩, .ok true)
          else
            ({ r with cipher := cipher },
              .error (.protocol (.oversizedFrame assembler.length (ceiling n))))

/-- A complete record is at least its length prefix shorter without it. -/
theorem pending_lt {noise : Noise κ} {r r' : QuicRecv κ n}
    (h : r.openOneRecord noise = (r', .ok true)) : r'.pending.length < r.pending.length := by
  unfold openOneRecord at h
  cases hfront : front r.pending with
  | incomplete => simp [hfront] at h
  | short len => simp [hfront] at h
  | record sealed rest =>
      have hrest : rest.length < r.pending.length := by
        unfold front at hfront
        split at hfront
        · next a b tail hpending =>
            dsimp only at hfront
            split_ifs at hfront
            injection hfront with _ htail
            rw [hpending, ← htail, List.length_drop, List.length_cons, List.length_cons]
            omega
        · cases hfront
      rw [hfront] at h
      dsimp only at h
      cases hread : noise.readMessage r.cipher sealed with
      | error err => simp [hread] at h
      | ok opened =>
          rw [hread] at h
          dsimp only at h
          split_ifs at h
          · injection h with hr _
            rw [← hr]
            exact hrest
          · simp at h

/-- Decrypts and reassembles as far as the buffered bytes allow; `none` when
more bytes are needed. -/
def takeFrame (noise : Noise κ) (r : QuicRecv κ n) :
    QuicRecv κ n × Except TransportError (Option Frame) :=
  match oversized n r.assembler with
  | some declared => (r, .error (.protocol (.oversizedFrame declared n)))
  | none =>
      match Frame.decode r.assembler with
      | .error err => (r, .error (.framing err))
      | .ok (some (frame, used)) =>
          ({ r with
              assembler := r.assembler.drop used
              bounded := by
                have := r.bounded
                rw [List.length_drop]
                omega },
            .ok (some frame))
      | .ok none =>
          match h : r.openOneRecord noise with
          | (r', .error err) => (r', .error err)
          | (r', .ok false) => (r', .ok none)
          | (r', .ok true) => takeFrame noise r'
termination_by r.pending.length
decreasing_by exact pending_lt h

/-- Reads until one whole frame is available. -/
def recv (noise : Noise κ) (r : QuicRecv κ n) (incoming : Incoming) :
    QuicRecv κ n × Incoming × Except TransportError (Option Frame) :=
  match r.takeFrame noise with
  | (r, .error err) => (r, incoming, .error err)
  | (r, .ok (some frame)) => (r, incoming, .ok (some frame))
  | (r, .ok none) =>
      match incoming with
      | .read chunk rest => recv noise { r with pending := r.pending ++ chunk } rest
      | .finished =>
          -- A clean finish lands exactly on a frame boundary.
          (r, .finished,
            if r.pending = [] ∧ r.assembler = [] then .ok none else .error .connectionLost)
      | .failed => (r, .failed, .error .connectionLost)

end QuicRecv

/-- What an application that calls `recv` until it returns no frame gets. -/
inductive Receives (noise : Noise κ) :
    QuicRecv κ n → Incoming → List Frame → Except TransportError Unit → Prop
  | frame {r r' : QuicRecv κ n} {incoming incoming' : Incoming} {f : Frame} {fs : List Frame}
      {result : Except TransportError Unit}
      (hrecv : r.recv noise incoming = (r', incoming', .ok (some f)))
      (hrest : Receives noise r' incoming' fs result) :
      Receives noise r incoming (f :: fs) result
  | ended {r r' : QuicRecv κ n} {incoming incoming' : Incoming}
      (hrecv : r.recv noise incoming = (r', incoming', .ok none)) :
      Receives noise r incoming [] (.ok ())
  | failed {r r' : QuicRecv κ n} {incoming incoming' : Incoming} {err : TransportError}
      (hrecv : r.recv noise incoming = (r', incoming', .error err)) :
      Receives noise r incoming [] (.error err)

/-- An application receives one thing only. -/
theorem Receives.unique {noise : Noise κ} {r : QuicRecv κ n} {incoming : Incoming}
    {fs gs : List Frame} {result result' : Except TransportError Unit}
    (h : Receives noise r incoming fs result) (h' : Receives noise r incoming gs result') :
    fs = gs ∧ result = result' := by
  induction h generalizing gs with
  | frame hrecv _ ih =>
      cases h' with
      | frame hrecv' hrest' =>
          simp only [hrecv, Prod.mk.injEq, Except.ok.injEq, Option.some.injEq] at hrecv'
          obtain ⟨rfl, rfl, rfl⟩ := hrecv'
          obtain ⟨rfl, rfl⟩ := ih hrest'
          exact ⟨rfl, rfl⟩
      | ended hrecv' => simp [hrecv] at hrecv'
      | failed hrecv' => simp [hrecv] at hrecv'
  | ended hrecv =>
      cases h' with
      | frame hrecv' _ => simp [hrecv] at hrecv'
      | ended hrecv' => exact ⟨rfl, rfl⟩
      | failed hrecv' => simp [hrecv] at hrecv'
  | failed hrecv =>
      cases h' with
      | frame hrecv' _ => simp [hrecv] at hrecv'
      | ended hrecv' => simp [hrecv] at hrecv'
      | failed hrecv' =>
          simp only [hrecv, Prod.mk.injEq, Except.error.injEq] at hrecv'
          exact ⟨rfl, by rw [hrecv'.2.2]⟩

/-! ### Records on their way -/

variable {noise : Noise κ} {Paired : κ → κ → Prop}

/-- A record that has not arrived whole is shorter than it. -/
theorem front_incomplete (hlaw : noise.Lawful Paired) {k k' : κ} {chunk record bytes pending : Bytes}
    (hseal : noise.encodeRecord k chunk = .ok (record, k')) (hpre : pending <+: record ++ bytes)
    (hfront : front pending = .incomplete) : pending.length < record.length := by
  by_contra hge
  -- Then the whole record is at the front, and its front is not incomplete.
  obtain ⟨rest, rfl⟩ : record <+: pending :=
    List.prefix_of_prefix_length_le (List.prefix_append record bytes) hpre (by omega)
  obtain ⟨sealed, hwrite, hlt, rfl⟩ := Noise.encodeRecord_ok hseal
  have htag := hlaw.length _ _ _ _ hwrite
  have hlen : (BigEndian.toU16 (UInt8.ofNat ((UInt16.ofNat sealed.length).toNat / 2 ^ 8))
      (UInt8.ofNat (UInt16.ofNat sealed.length).toNat)).toNat = sealed.length := by
    rw [BigEndian.toU16_ofU16, UInt16.toNat_ofNat']
    omega
  simp only [front, BigEndian.ofU16, List.cons_append, List.nil_append, hlen] at hfront
  rw [if_neg (by omega), if_neg (by simp)] at hfront
  cases hfront

theorem record_ne_nil {k k' : κ} {chunk record : Bytes}
    (hseal : noise.encodeRecord k chunk = .ok (record, k')) : record ≠ [] := by
  obtain ⟨sealed, -, -, rfl⟩ := Noise.encodeRecord_ok hseal
  simp [BigEndian.ofU16]

theorem sealChunks_cons {k k' : κ} {chunk : Bytes} {chunks : List Bytes} {out : Bytes}
    (h : sealChunks noise k (chunk :: chunks) = (k', .ok out)) :
    ∃ record rest k₁, noise.encodeRecord k chunk = .ok (record, k₁) ∧
      sealChunks noise k₁ chunks = (k', .ok rest) ∧ out = record ++ rest := by
  rw [sealChunks] at h
  cases hseal : noise.encodeRecord k chunk with
  | error err => simp [hseal] at h
  | ok sealed =>
      obtain ⟨record, k₁⟩ := sealed
      rw [hseal] at h
      dsimp only at h
      rcases hrest : sealChunks noise k₁ chunks with ⟨k₂, err | rest⟩
      · simp [hrest] at h
      · simp only [hrest, Prod.mk.injEq, Except.ok.injEq] at h
        exact ⟨record, rest, k₁, rfl, by rw [hrest, h.1], h.2.symm⟩

/-- The frames that follow the first of the sent ones were sent after them. -/
theorem Sent.split {s s₁ s' : QuicSend κ n} {gs hs : List Frame} {sent stream : Bytes}
    (hgs : Sent noise s gs sent s₁) (h : Sent noise s (gs ++ hs) stream s') :
    ∃ rest s₂, Sent noise s₁ hs rest s₂ ∧ stream = sent ++ rest := by
  induction hgs generalizing stream with
  | nil s => exact ⟨stream, s', h, rfl⟩
  | cons hsend _ ih =>
      cases h with
      | cons hsend' hrest' =>
          rw [hsend] at hsend'
          simp only [Prod.mk.injEq, Except.ok.injEq] at hsend'
          obtain ⟨rfl, rfl⟩ := hsend'
          obtain ⟨rest, s₂, hrest, rfl⟩ := ih hrest'
          exact ⟨rest, s₂, hrest, by rw [List.append_assoc]⟩

/-- Where the read half is inside the frame `g`: of its records the bytes
`seen` have been opened and `out` are still to be, sealed from the chunks `cs`;
`later` is what no read has returned yet and `rest` what follows the frame. -/
structure Midway (noise : Noise κ) (Paired : κ → κ → Prop) (r : QuicRecv κ n) (later : Bytes)
    (g : Frame) (cs : List Bytes) (seen out rest : Bytes) (k k' : κ) : Prop where
  paired : Paired k r.cipher
  fits : g.payload.length ≤ n
  frame : r.assembler ++ cs.flatten = g.encode
  nonempty : ∀ c ∈ cs, c ≠ []
  sealed : sealChunks noise k cs = (k', .ok out)
  arrived : r.pending ++ later <+: out ++ rest
  begun : r.assembler = [] ↔ seen = []

/-- Opening the next record of the frame. -/
theorem Midway.open_next (hlaw : noise.Lawful Paired) {r : QuicRecv κ n} {later : Bytes} {g : Frame}
    {c : Bytes} {cs : List Bytes} {seen out rest : Bytes} {k k' : κ}
    (h : Midway noise Paired r later g (c :: cs) seen out rest k k') :
    (r.openOneRecord noise = (r, .ok false) ∧ r.pending.length < out.length) ∨
    ∃ r' record out' k₁, r.openOneRecord noise = (r', .ok true) ∧ out = record ++ out' ∧
      r.pending = record ++ r'.pending ∧
      Midway noise Paired r' later g cs (seen ++ record) out' rest k₁ k' := by
  obtain ⟨record, out', k₁, hseal, hsealed, rfl⟩ := sealChunks_cons h.sealed
  have harrived : r.pending <+: record ++ (out' ++ rest) := by
    rw [← List.append_assoc]
    exact (List.prefix_append _ _).trans h.arrived
  by_cases hfront : front r.pending = .incomplete
  · have hlt := front_incomplete hlaw hseal harrived hfront
    refine .inl ⟨?_, by rw [List.length_append]; omega⟩
    unfold QuicRecv.openOneRecord
    rw [hfront]
  · obtain ⟨ciphertext, pending, hwrite, hfront', hsplit, -⟩ :=
      Mux.Wire.front_record hlaw hseal harrived hfront
    obtain ⟨cipher, hread, hpaired⟩ := hlaw.read _ _ _ _ _ h.paired hwrite
    have hframe : r.assembler ++ c ++ cs.flatten = g.encode := by
      rw [List.append_assoc, ← List.flatten_cons]
      exact h.frame
    have hbound : (r.assembler ++ c).length ≤ ceiling n := by
      have hlen := congrArg List.length hframe
      rw [List.length_append, Frame.length_encode, Frame.wireLen] at hlen
      have hfits := h.fits
      have hmax := g.payload_le
      unfold ceiling
      unfold maxPayloadLen at hmax
      unfold headerLen at hlen ⊢
      omega
    refine .inr ⟨⟨cipher, pending, r.assembler ++ c, hbound⟩, record, out', k₁, ?_, rfl, hsplit, ?_⟩
    · unfold QuicRecv.openOneRecord
      rw [hfront']
      dsimp only
      rw [hread]
      dsimp only
      rw [dif_pos hbound]
    · refine ⟨hpaired, h.fits, hframe, fun d hd => h.nonempty d (.tail _ hd), hsealed, ?_, ?_⟩
      · have harrived := h.arrived
        rw [hsplit, List.append_assoc, List.append_assoc, List.prefix_append_right_inj] at harrived
        exact harrived
      · have hc := h.nonempty c (.head _)
        have hrecord := record_ne_nil hseal
        simp [hc, hrecord]

/-- **One attempt to take a frame.**  It returns the frame whose records are
being read, or stops before a record of it that has not arrived whole. -/
theorem takeFrame_spec (hlaw : noise.Lawful Paired) {cs : List Bytes} :
    ∀ {r : QuicRecv κ n} {later : Bytes} {g : Frame} {seen out rest : Bytes} {k k' : κ},
      Midway noise Paired r later g cs seen out rest k k' →
      (∃ r', r.takeFrame noise = (r', .ok (some g)) ∧ r'.assembler = [] ∧ Paired k' r'.cipher ∧
        r.pending = out ++ r'.pending) ∨
      ∃ r' cs' seen' out' k₁ opened, r.takeFrame noise = (r', .ok none) ∧
        Midway noise Paired r' later g cs' seen' out' rest k₁ k' ∧
        seen' = seen ++ opened ∧ out = opened ++ out' ∧ r.pending = opened ++ r'.pending ∧
        r'.pending.length < out'.length := by
  induction cs with
  | nil =>
      intro r later g seen out rest k k' h
      have hframe : r.assembler = g.encode := by simpa using h.frame
      have hdecode := Frame.decode_encode_append g []
      rw [List.append_nil, ← hframe] at hdecode
      have hsmall : oversized n r.assembler = none :=
        oversized_of_le_encode (t := []) (by rw [hframe, List.append_nil]) h.fits
      have hsealed := h.sealed
      simp only [sealChunks, Prod.mk.injEq, Except.ok.injEq] at hsealed
      obtain ⟨rfl, rfl⟩ := hsealed
      rw [QuicRecv.takeFrame, hsmall]
      dsimp only
      rw [hdecode]
      refine .inl ⟨_, rfl, ?_, h.paired, rfl⟩
      show r.assembler.drop g.wireLen = []
      rw [hframe, ← g.length_encode, List.drop_length]
  | cons c cs ih =>
      intro r later g seen out rest k k' h
      have hpre : r.assembler <+: g.encode ++ [] := ⟨(c :: cs).flatten, by simpa using h.frame⟩
      have hsmall : oversized n r.assembler = none := oversized_of_le_encode hpre h.fits
      -- With a chunk missing the assembler holds no frame yet.
      have hdecode : Frame.decode r.assembler = .ok none := by
        refine Frame.decode_of_lt_take (Frame.decode_encode_append g []) ?_ ?_
        · rw [← g.length_encode, List.take_left]
          simpa using hpre
        · rw [← g.length_encode, List.take_left, ← h.frame]
          intro hself
          have hc := h.nonempty c (.head _)
          simp [hc] at hself
      rw [QuicRecv.takeFrame, hsmall]
      dsimp only
      rw [hdecode]
      dsimp only
      obtain ⟨hopen, hlt⟩ | ⟨r₁, record, out', k₁, hopen, rfl, hpending, hmid⟩ := h.open_next hlaw
      · rw [hopen]
        exact .inr ⟨r, c :: cs, seen, out, k, [], rfl, h, by simp, rfl, rfl, hlt⟩
      · rw [hopen]
        dsimp only
        obtain ⟨r', htake, hempty, hpaired, hsplit⟩ |
          ⟨r', cs', seen', out'', k₂, opened, htake, hmid', rfl, rfl, hsplit, hlt⟩ := ih hmid
        · exact .inl ⟨r', htake, hempty, hpaired, by rw [hpending, hsplit, List.append_assoc]⟩
        · exact .inr ⟨r', cs', _, out'', k₂, record ++ opened, htake, hmid',
            by rw [List.append_assoc], by rw [List.append_assoc],
            by rw [hpending, hsplit, List.append_assoc], hlt⟩

/-- The result of `recv` when no whole frame is left to take: nothing at a
finish that lands on a frame boundary, and a loss otherwise. -/
def ending (finishes : Bool) (leftover : Bytes) : Except TransportError Unit :=
  if finishes ∧ leftover = [] then .ok () else .error .connectionLost

/-- **One call of `recv`** inside a frame: it returns the frame, or the frame
never arrives whole. -/
theorem recv_spec (hlaw : noise.Lawful Paired) {incoming : Incoming} :
    ∀ {r : QuicRecv κ n} {g : Frame} {cs : List Bytes} {seen out rest : Bytes} {k k' : κ},
      Midway noise Paired r incoming.bytes g cs seen out rest k k' →
      (∃ r' incoming', r.recv noise incoming = (r', incoming', .ok (some g)) ∧
        r'.assembler = [] ∧ Paired k' r'.cipher ∧ incoming'.finishes = incoming.finishes ∧
        r.pending ++ incoming.bytes = out ++ (r'.pending ++ incoming'.bytes)) ∨
      ((r.pending ++ incoming.bytes).length < out.length ∧ ∃ r' incoming',
        r.recv noise incoming = (r', incoming', (ending incoming.finishes
          (seen ++ (r.pending ++ incoming.bytes))).map fun _ => none)) := by
  induction incoming with
  | read chunk more ih =>
      intro r g cs seen out rest k k' h
      rw [QuicRecv.recv]
      obtain ⟨r', htake, hempty, hpaired, hsplit⟩ |
        ⟨r₁, cs', seen', out', k₁, opened, htake, hmid, rfl, rfl, hsplit, -⟩ := takeFrame_spec hlaw h
      · rw [htake]
        exact .inl ⟨r', _, rfl, hempty, hpaired, rfl, by rw [hsplit, List.append_assoc]⟩
      rw [htake]
      dsimp only
      have hmore : Midway noise Paired { r₁ with pending := r₁.pending ++ chunk } more.bytes g cs'
          (seen ++ opened) out' rest k₁ k' := by
        refine ⟨hmid.paired, hmid.fits, hmid.frame, hmid.nonempty, hmid.sealed, ?_, hmid.begun⟩
        have harrived := hmid.arrived
        rw [Incoming.bytes, ← List.append_assoc] at harrived
        exact harrived
      have hbytes : r.pending ++ (Incoming.read chunk more).bytes =
          opened ++ (r₁.pending ++ chunk ++ more.bytes) := by
        rw [hsplit, Incoming.bytes]
        simp only [List.append_assoc]
      obtain ⟨r', incoming', hrecv, hempty, hpaired, hfin, heq⟩ | ⟨hlt, r', incoming', hrecv⟩ :=
        ih hmore
      · exact .inl ⟨r', incoming', hrecv, hempty, hpaired, hfin,
          by rw [hbytes, heq, List.append_assoc]⟩
      · have hlt' : (r₁.pending ++ chunk ++ more.bytes).length < out'.length := hlt
        refine .inr ⟨?_, r', incoming', ?_⟩
        · rw [hbytes]
          simp only [List.length_append] at hlt' ⊢
          omega
        · rw [hrecv, hbytes, ← List.append_assoc seen]
          rfl
  | finished =>
      intro r g cs seen out rest k k' h
      rw [QuicRecv.recv]
      obtain ⟨r', htake, hempty, hpaired, hsplit⟩ |
        ⟨r₁, cs', seen', out', k₁, opened, htake, hmid, rfl, rfl, hsplit, hlt⟩ := takeFrame_spec hlaw h
      · rw [htake]
        exact .inl ⟨r', _, rfl, hempty, hpaired, rfl, by rw [hsplit, List.append_assoc]⟩
      rw [htake]
      refine .inr ⟨?_, r₁, .finished, ?_⟩
      · rw [hsplit, Incoming.bytes, List.append_nil, List.length_append, List.length_append]
        omega
      · have hleft : (r₁.pending = [] ∧ r₁.assembler = []) ↔
            seen ++ (r.pending ++ Incoming.finished.bytes) = [] := by
          rw [hmid.begun, hsplit, Incoming.bytes]
          simp only [List.append_eq_nil_iff]
          tauto
        dsimp only [ending, Incoming.finishes]
        by_cases hnil : r₁.pending = [] ∧ r₁.assembler = []
        · rw [if_pos hnil, if_pos ⟨rfl, hleft.mp hnil⟩]
          rfl
        · rw [if_neg hnil, if_neg fun hboth => hnil (hleft.mpr hboth.2)]
          rfl
  | failed =>
      intro r g cs seen out rest k k' h
      rw [QuicRecv.recv]
      obtain ⟨r', htake, hempty, hpaired, hsplit⟩ |
        ⟨r₁, cs', seen', out', k₁, opened, htake, hmid, rfl, rfl, hsplit, hlt⟩ := takeFrame_spec hlaw h
      · rw [htake]
        exact .inl ⟨r', _, rfl, hempty, hpaired, rfl, by rw [hsplit, List.append_assoc]⟩
      rw [htake]
      refine .inr ⟨?_, r₁, .failed, rfl⟩
      rw [hsplit, Incoming.bytes, List.append_nil, List.length_append, List.length_append]
      omega

/-- With nothing sent there is nothing to receive. -/
theorem recv_idle {incoming : Incoming} :
    ∀ {r : QuicRecv κ n}, r.assembler = [] → r.pending = [] → incoming.bytes = [] →
      ∃ r' incoming', r.recv noise incoming =
        (r', incoming', (ending incoming.finishes []).map fun _ => none) := by
  have htake : ∀ {r : QuicRecv κ n}, r.assembler = [] → r.pending = [] →
      r.takeFrame noise = (r, .ok none) := by
    intro r hassembler hpending
    have hsmall : oversized n r.assembler = none := by rw [hassembler]; rfl
    have hdecode : Frame.decode r.assembler = .ok none := by rw [hassembler]; rfl
    have hopen : r.openOneRecord noise = (r, .ok false) := by
      unfold QuicRecv.openOneRecord
      rw [hpending]
      rfl
    rw [QuicRecv.takeFrame, hsmall]
    dsimp only
    rw [hdecode]
    dsimp only
    rw [hopen]
  induction incoming with
  | read chunk more ih =>
      intro r hassembler hpending hbytes
      obtain ⟨rfl, hmore⟩ := List.append_eq_nil_iff.mp hbytes
      rw [QuicRecv.recv, htake hassembler hpending]
      exact ih hassembler (by simpa using hpending) hmore
  | finished =>
      intro r hassembler hpending _
      rw [QuicRecv.recv, htake hassembler hpending]
      dsimp only
      rw [if_pos ⟨hpending, hassembler⟩]
      exact ⟨r, .finished, rfl⟩
  | failed =>
      intro r hassembler hpending _
      rw [QuicRecv.recv, htake hassembler hpending]
      exact ⟨r, .failed, rfl⟩

/-- A frame that was sent fits and was cut into records. -/
theorem send_ok {s s' : QuicSend κ n} {f : Frame} {out : Bytes}
    (h : s.send noise f = (s', .ok out)) :
    f.payload.length ≤ n ∧
      sealChunks noise s.cipher (BigEndian.chunks maxPlaintextLen f.encode) = (s'.cipher, .ok out) := by
  unfold QuicSend.send at h
  by_cases hlen : n < f.payload.length
  · rw [if_pos hlen] at h
    cases h
  · rw [if_neg hlen] at h
    refine ⟨Nat.not_lt.mp hlen, ?_⟩
    rcases hseal : sealChunks noise s.cipher (BigEndian.chunks maxPlaintextLen f.encode) with ⟨k, result⟩
    rw [hseal] at h
    injection h with hs hout
    rw [← hs, hout]

/-- At the start of a frame nothing of it has been opened. -/
theorem midway_of_send {s s' : QuicSend κ n} {f : Frame} {out rest : Bytes} {r : QuicRecv κ n}
    {later : Bytes} (hsend : s.send noise f = (s', .ok out)) (hassembler : r.assembler = [])
    (hpaired : Paired s.cipher r.cipher) (harrived : r.pending ++ later <+: out ++ rest) :
    Midway noise Paired r later f (BigEndian.chunks maxPlaintextLen f.encode) [] out rest s.cipher
      s'.cipher := by
  obtain ⟨hfits, hsealed⟩ := send_ok hsend
  refine ⟨hpaired, hfits, ?_, fun c hc => (BigEndian.mem_chunks (by decide) hc).1, hsealed,
    harrived, by simp [hassembler]⟩
  rw [hassembler, List.nil_append, BigEndian.flatten_chunks (by decide)]

/-- What of a list of sent frames arrived whole: the frames `gs`, whose bytes
are `sent`, and no more. -/
structure Arrived (noise : Noise κ) (s : QuicSend κ n) (fs : List Frame) (bytes : Bytes)
    (gs : List Frame) (sent : Bytes) : Prop where
  frames : ∃ hs s', fs = gs ++ hs ∧ Sent noise s gs sent s' ∧
    ∀ f hs' s'' out, hs = f :: hs' → s'.send noise f = (s'', .ok out) → ¬ sent ++ out <+: bytes
  bytes : sent <+: bytes

/-- A call that returns no frame is the application's last. -/
theorem received_none {r r' : QuicRecv κ n} {incoming incoming' : Incoming}
    {result : Except TransportError Unit}
    (h : r.recv noise incoming = (r', incoming', result.map fun _ => none)) :
    Receives noise r incoming [] result := by
  cases result with
  | error err => exact .failed h
  | ok _ => exact .ended h

/-- **What arrives of the sent frames.**  However the stream is cut into reads
and wherever it breaks off, the application receives the frames that arrived
whole, and then a clean end if and only if the stream was finished right behind
them. -/
theorem frames_arrive (hlaw : noise.Lawful Paired) {s s' : QuicSend κ n} {fs : List Frame}
    {stream : Bytes} (hsent : Sent noise s fs stream s') :
    ∀ {r : QuicRecv κ n} {incoming : Incoming}, r.assembler = [] → Paired s.cipher r.cipher →
      r.pending ++ incoming.bytes <+: stream →
      ∃ gs sent left, Arrived noise s fs (r.pending ++ incoming.bytes) gs sent ∧
        r.pending ++ incoming.bytes = sent ++ left ∧
        Receives noise r incoming gs (ending incoming.finishes left) := by
  induction hsent with
  | nil s =>
      intro r incoming hassembler _ hpre
      have hnil := List.prefix_nil.mp hpre
      obtain ⟨hpending, hbytes⟩ := List.append_eq_nil_iff.mp hnil
      obtain ⟨r', incoming', hrecv⟩ :=
        @recv_idle _ _ noise incoming _ hassembler hpending hbytes
      refine ⟨[], [], [], ⟨⟨[], s, rfl, .nil s, fun f hs' s'' out h => nomatch h⟩,
        List.nil_prefix⟩, by rw [hnil]; rfl, ?_⟩
      exact received_none hrecv
  | @cons s s₁ s₂ f fs out rest hsend hrest ih =>
      intro r incoming hassembler hpaired hpre
      obtain ⟨r', incoming', hrecv, hempty, hpaired', hfin, hbytes⟩ | ⟨hlt, r', incoming', hrecv⟩ :=
        recv_spec hlaw (midway_of_send hsend hassembler hpaired hpre)
      · rw [hbytes, List.prefix_append_right_inj] at hpre
        obtain ⟨gs, sent, left, ⟨⟨hs, s', rfl, hgs, hmax⟩, hsent⟩, hleft, hreceives⟩ :=
          ih hempty hpaired' hpre
        refine ⟨f :: gs, out ++ sent, left, ⟨⟨hs, s', rfl, .cons hsend hgs, ?_⟩, ?_⟩, ?_, ?_⟩
        · intro g hs' s'' more heq hg hle
          rw [hbytes, List.append_assoc, List.prefix_append_right_inj] at hle
          exact hmax g hs' s'' more heq hg hle
        · rw [hbytes, List.prefix_append_right_inj]
          exact hsent
        · rw [hbytes, hleft, List.append_assoc]
        · rw [← hfin]
          exact .frame hrecv hreceives
      · refine ⟨[], [], r.pending ++ incoming.bytes, ⟨⟨f :: fs, s, rfl, .nil s, ?_⟩,
          List.nil_prefix⟩, rfl, received_none hrecv⟩
        intro g hs' s'' out' heq hg hle
        injection heq with hf _
        rw [← hf, hsend] at hg
        injection hg with _ hout
        injection hout with hout
        rw [List.nil_append, ← hout] at hle
        have hlen := hle.length_le
        omega

/-- **The pipeline.**  Of a finished stream exactly the sent frames are received
and then a clean end, whatever the reads.  Of one that was finished anywhere
the frames that arrived whole are received and then a clean end at a frame's
end, a loss elsewhere.  Nothing else is ever received, and no state holds more
than one frame. -/
theorem quic_round_trip (hlaw : noise.Lawful Paired) {s s' : QuicSend κ n} {fs : List Frame}
    {stream : Bytes} (hsent : Sent noise s fs stream s') {k : κ} (hpaired : Paired s.cipher k) :
    (∀ incoming : Incoming, incoming.finishes = true → incoming.bytes = stream →
      Receives noise (.new k : QuicRecv κ n) incoming fs (.ok ())) ∧
    (∀ incoming : Incoming, incoming.finishes = true → incoming.bytes <+: stream →
      ∃ gs sent, Arrived noise s fs incoming.bytes gs sent ∧
        Receives noise (.new k : QuicRecv κ n) incoming gs
          (if incoming.bytes = sent then .ok () else .error .connectionLost)) ∧
    (∀ incoming : Incoming, ∀ gs gs' result result',
      Receives noise (.new k : QuicRecv κ n) incoming gs result →
        Receives noise (.new k : QuicRecv κ n) incoming gs' result' → gs = gs' ∧ result = result') ∧
    ∀ r : QuicRecv κ n, r.assembler.length ≤ n + headerLen := by
  refine ⟨fun incoming hfin hbytes => ?_, fun incoming hfin hpre => ?_,
    fun incoming gs gs' result result' h h' => h.unique h', fun r => ?_⟩
  · obtain ⟨gs, sent, left, ⟨⟨hs, s₁, rfl, hgs, hmax⟩, hle⟩, hleft, hreceives⟩ :=
      @frames_arrive _ _ _ _ hlaw _ _ _ _ hsent (.new k) incoming rfl hpaired
        (by rw [hbytes]; exact List.prefix_refl _)
    obtain ⟨rest, s₂, hrest, hstream⟩ := hgs.split hsent
    -- All bytes arrived, so no frame is missing.
    have hall : (QuicRecv.new k : QuicRecv κ n).pending ++ incoming.bytes = stream := hbytes
    rw [hall] at hmax hleft
    cases hrest with
    | nil =>
        obtain rfl : left = [] := by
          rw [hstream, List.append_nil] at hleft
          simpa using hleft
        rw [hfin] at hreceives
        rw [List.append_nil]
        exact hreceives
    | cons hsend _ =>
        refine absurd ?_ (hmax _ _ _ _ rfl hsend)
        rw [hstream, ← List.append_assoc]
        exact List.prefix_append _ _
  · obtain ⟨gs, sent, left, harrived, hleft, hreceives⟩ :=
      @frames_arrive _ _ _ _ hlaw _ _ _ _ hsent (.new k) incoming rfl hpaired hpre
    refine ⟨gs, sent, harrived, ?_⟩
    have hleft' : incoming.bytes = sent ++ left := hleft
    rw [hfin] at hreceives
    unfold ending at hreceives
    by_cases hnil : left = []
    · rw [if_pos ⟨rfl, hnil⟩] at hreceives
      rw [if_pos (by rw [hleft', hnil, List.append_nil])]
      exact hreceives
    · rw [if_neg fun hboth => hnil hboth.2] at hreceives
      rw [if_neg fun heq => hnil (by simpa [heq] using hleft')]
      exact hreceives
  · have hbounded := r.bounded
    unfold ceiling at hbounded
    omega

/-- One frame in two reads, and what arrived of it after the first. -/
theorem quic_round_trip_frame :
    ∃ stream, Sent Mux.Wire.bare (⟨0⟩ : QuicSend Nat 1) [Mux.Link.dot] stream ⟨1⟩ ∧
      Receives Mux.Wire.bare (.new 0 : QuicRecv Nat 1)
        (.read (stream.take 7) (.read (stream.drop 7) .finished)) [Mux.Link.dot] (.ok ()) ∧
      ∃ gs sent, Arrived Mux.Wire.bare (⟨0⟩ : QuicSend Nat 1) [Mux.Link.dot] (stream.take 7) gs sent ∧
        Receives Mux.Wire.bare (.new 0 : QuicRecv Nat 1) (.read (stream.take 7) .finished) gs
          (if stream.take 7 = sent then .ok () else .error .connectionLost) := by
  have hsent : ∃ stream, Sent Mux.Wire.bare (⟨0⟩ : QuicSend Nat 1) [Mux.Link.dot] stream ⟨1⟩ :=
    ⟨_, .cons rfl (.nil _)⟩
  obtain ⟨stream, hsent⟩ := hsent
  obtain ⟨hwhole, hcut, -, -⟩ := quic_round_trip Mux.Wire.bare_lawful hsent (k := 0) rfl
  have hbytes : (Incoming.read (stream.take 7) .finished).bytes = stream.take 7 := by
    rw [Incoming.bytes, Incoming.bytes, List.append_nil]
  have hstopped := hcut (.read (stream.take 7) .finished) rfl
    (by rw [hbytes]; exact List.take_prefix 7 stream)
  rw [hbytes] at hstopped
  refine ⟨stream, hsent, hwhole _ rfl ?_, hstopped⟩
  rw [Incoming.bytes, Incoming.bytes, Incoming.bytes, List.append_nil, List.take_append_drop]

end Quic
