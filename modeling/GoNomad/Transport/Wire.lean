import GoNomad.Transport.Ordered

/-!
# The byte streams between two endpoints

Each end has a writer and a reader.  The writer gathers up to sixteen segments,
seals each into a length-prefixed record, and writes the batch; the socket may
take it a piece at a time.  The reader collects whatever bytes a read returns
and handles every complete record before it reads again.  The Noise transport
of the established session is a parameter.

A step is what one task does between two points at which another may act: an
application operation, the writer picking a segment, sealing it, starting or
continuing a write, the reader taking bytes or handling one record, or one of
the ways either task ends.
-/

namespace Mux

open Proto Transport

/-! ### Sealed records -/

/-- The two operations of an established Noise session, one direction's state
at a time. -/
structure Noise (κ : Type) where
  writeMessage : κ → Bytes → Except TransportError (Bytes × κ)
  readMessage : κ → Bytes → Except TransportError (Bytes × κ)

/-- Bytes of record-length prefix on the wire. -/
def recordPrefixLen : Nat := 2

/-- How many segments the writer coalesces into a single socket write. -/
def writeBatchSegments : Nat := 16

/-- Bytes read from the socket per syscall. -/
def readChunk : Nat := 16 * 1024

namespace Noise

variable {κ : Type}

/-- What the transport relies on: a message is read back by the peer whose
state pairs with the writer's, the states stay paired, and a sealed message is
one tag longer than its plaintext. -/
structure Lawful (noise : Noise κ) (Paired : κ → κ → Prop) : Prop where
  read : ∀ w r plaintext sealed w', Paired w r →
    noise.writeMessage w plaintext = .ok (sealed, w') →
      ∃ r', noise.readMessage r sealed = .ok (plaintext, r') ∧ Paired w' r'
  length : ∀ w plaintext sealed w', noise.writeMessage w plaintext = .ok (sealed, w') →
    sealed.length = plaintext.length + noiseTagLen

/-- `Session::encrypt`: a plaintext over the limit is refused. -/
def encrypt (noise : Noise κ) (k : κ) (plaintext : Bytes) : Except TransportError (Bytes × κ) :=
  if maxPlaintextLen < plaintext.length then .error .crypto else noise.writeMessage k plaintext

/-- One sealed record: the length of the ciphertext, then the ciphertext. -/
def encodeRecord (noise : Noise κ) (k : κ) (plaintext : Bytes) :
    Except TransportError (Bytes × κ) :=
  match noise.encrypt k plaintext with
  | .error err => .error err
  | .ok (sealed, k) =>
      if sealed.length < 2 ^ 16 then
        .ok (BigEndian.ofU16 (UInt16.ofNat sealed.length) ++ sealed, k)
      else
        .error .crypto

end Noise

/-! ### State -/

/-- Where the writer is in its loop. -/
inductive WriteStage
  /-- Filling a batch that has `n` segments so far. -/
  | gathering (n : Nat)
  /-- A picked segment is about to be sealed. -/
  | sealing (n : Nat) (segment : Segment)
  /-- The batch is being written. -/
  | writing
  /-- The loop has returned. -/
  | ended
  deriving DecidableEq

/-- The writer of one end; `out` is the batch, as far as it is not written. -/
structure Writer (κ : Type) where
  stage : WriteStage
  out : Bytes
  cipher : κ

/-- The reader of one end. -/
structure Reader (κ : Type) where
  pending : Bytes
  cipher : κ
  running : Bool

/-- Two ends and the bytes each has written that the other has not read. -/
structure Wire (κ : Type) where
  ends : Sides Endpoint
  writer : Sides (Writer κ)
  pipe : Sides Bytes
  reader : Sides (Reader κ)

namespace Wire

variable {κ : Type}

/-- Two fresh ends over an established session: `sending s` is the cipher state
side `s` writes with and `receiving s` the one it reads with. -/
def spawn (cfg : MuxConfig) (sending receiving : Sides κ) : Except TransportError (Wire κ) := do
  let initiator ← Endpoint.spawn cfg .initiator
  let responder ← Endpoint.spawn cfg .responder
  return {
    ends := ⟨initiator, responder⟩
    writer := ⟨⟨.gathering 0, [], sending.initiator⟩, ⟨.gathering 0, [], sending.responder⟩⟩
    pipe := ⟨[], []⟩
    reader := ⟨⟨[], receiving.initiator, true⟩, ⟨[], receiving.responder, true⟩⟩ }

/-! ### Steps -/

/-- What can happen next, and at which side. -/
inductive Event
  | op (side : Role) (o : Endpoint.LocalOp)
  /-- The writer picks the next segment of its batch. -/
  | gather (side : Role)
  /-- The writer seals the segment it picked. -/
  | sealNext (side : Role)
  /-- The segment it picked cannot be sealed, which ends the writer. -/
  | sealFails (side : Role) (err : TransportError)
  /-- The batch is full or there is nothing to add: the writer starts to write
  it, or ends when the link is gone and there is nothing to write. -/
  | flush (side : Role)
  /-- The socket takes so many bytes of the batch. -/
  | write (side : Role) (bytes : Nat)
  /-- The socket refuses the batch, which ends the writer. -/
  | writeFails (side : Role)
  /-- A read returns so many bytes. -/
  | read (side : Role) (bytes : Nat)
  /-- A read fails, or finds the stream at its end: the reader ends, without an
  error when nothing of a record is left over. -/
  | readFails (side : Role) (err : Option TransportError)
  /-- The reader handles the next complete record. -/
  | handle (side : Role)
  deriving DecidableEq

/-- What the front of the reader's buffer is. -/
inductive Front
  /-- Not a whole record yet. -/
  | incomplete
  /-- A record too short to be one. -/
  | short (len : Nat)
  /-- A record's ciphertext and what follows it. -/
  | record (sealed rest : Bytes)
  deriving DecidableEq

/-- The record at the front of `pending`. -/
def front (pending : Bytes) : Front :=
  match pending with
  | a :: b :: rest =>
      let len := (BigEndian.toU16 a b).toNat
      if len < noiseTagLen then .short len
      else if rest.length < len then .incomplete
      else .record (rest.take len) (rest.drop len)
  | _ => .incomplete

/-- Dispatches one plaintext; a violation ends the connection. -/
def dispatch (e : Endpoint) (plaintext : Bytes) : Endpoint × Except TransportError Unit :=
  match e.handleSegment plaintext with
  | (e, .ok ()) => (e, .ok ())
  | (e, .error err) => (e.shutdown (some err), .error err)

/-- What the reader makes of the front of its buffer; `none` when it has to
read first.  An error ends the reader and shuts the endpoint down. -/
def drainRecord (noise : Noise κ) (e : Endpoint) (r : Reader κ) :
    Option (Endpoint × Reader κ × Except TransportError Unit) :=
  match front r.pending with
  | .incomplete => none
  | .short len =>
      let err := .protocol (.shortRecord len)
      some (e.shutdown (some err), { r with running := false }, .error err)
  | .record sealed rest =>
      match noise.readMessage r.cipher sealed with
      | .error err => some (e.shutdown (some err), { r with running := false }, .error err)
      | .ok (plaintext, cipher) =>
          let (e, result) := dispatch e plaintext
          some (e, { pending := rest, cipher := cipher, running := result matches .ok () }, result)

/-- One step of the two ends. -/
def step (noise : Noise κ) (w : Wire κ) : Event → Option (Wire κ × Endpoint.Obs)
  | .op s o => do
      let (e, obs) ← (w.ends.get s).perform o
      return ({ w with ends := w.ends.set s e }, obs)
  | .gather s =>
      match (w.writer.get s).stage with
      | .gathering n =>
          if n < writeBatchSegments then do
            let (seg, e) ← (w.ends.get s).takeNext
            return ({ w with
              ends := w.ends.set s e
              writer := w.writer.set s { w.writer.get s with stage := .sealing n seg } },
              .taken seg)
          else
            none
      | _ => none
  | .sealNext s =>
      match (w.writer.get s).stage with
      | .sealing n seg =>
          match noise.encodeRecord (w.writer.get s).cipher seg.encode with
          | .error _ => none
          | .ok (record, cipher) =>
              some ({ w with
                writer := w.writer.set s
                  { stage := .gathering (n + 1)
                    out := (w.writer.get s).out ++ record
                    cipher := cipher } }, .silent)
      | _ => none
  | .sealFails s err =>
      match (w.writer.get s).stage with
      | .sealing _ seg =>
          match noise.encodeRecord (w.writer.get s).cipher seg.encode with
          | .error err' =>
              if err' = err then
                some ({ w with
                  ends := w.ends.set s ((w.ends.get s).shutdown (some err))
                  writer := w.writer.set s { w.writer.get s with stage := .ended } }, .silent)
              else
                none
          | .ok _ => none
      | _ => none
  | .flush s =>
      match (w.writer.get s).stage with
      | .gathering n =>
          if n < writeBatchSegments ∧ (w.ends.get s).takeNext.isSome then
            none
          else if (w.writer.get s).out ≠ [] then
            some ({ w with writer := w.writer.set s { w.writer.get s with stage := .writing } },
              .silent)
          else if (w.ends.get s).closed then
            some ({ w with writer := w.writer.set s { w.writer.get s with stage := .ended } },
              .silent)
          else
            none
      | _ => none
  | .write s n =>
      match (w.writer.get s).stage with
      | .writing =>
          if 0 < n ∧ n ≤ (w.writer.get s).out.length then
            let rest := (w.writer.get s).out.drop n
            some ({ w with
              writer := w.writer.set s { w.writer.get s with
                stage := if rest = [] then .gathering 0 else .writing
                out := rest }
              pipe := w.pipe.set s (w.pipe.get s ++ (w.writer.get s).out.take n) }, .silent)
          else
            none
      | _ => none
  | .writeFails s =>
      match (w.writer.get s).stage with
      | .writing =>
          some ({ w with
            ends := w.ends.set s ((w.ends.get s).shutdown (some .connectionLost))
            writer := w.writer.set s { w.writer.get s with stage := .ended } }, .silent)
      | _ => none
  | .read s n =>
      if (w.reader.get s).running ∧ front (w.reader.get s).pending = .incomplete ∧
          0 < n ∧ n ≤ readChunk ∧ n ≤ (w.pipe.get s.other).length then
        some ({ w with
          reader := w.reader.set s { w.reader.get s with
            pending := (w.reader.get s).pending ++ (w.pipe.get s.other).take n }
          pipe := w.pipe.set s.other ((w.pipe.get s.other).drop n) }, .silent)
      else
        none
  | .readFails s err =>
      if (w.reader.get s).running ∧ front (w.reader.get s).pending = .incomplete ∧
          (err = some .connectionLost ∨ err = none ∧ (w.reader.get s).pending = []) then
        some ({ w with
          ends := w.ends.set s ((w.ends.get s).shutdown err)
          reader := w.reader.set s { w.reader.get s with running := false } }, .silent)
      else
        none
  | .handle s =>
      if (w.reader.get s).running then do
        let (e, r, result) ← drainRecord noise (w.ends.get s) (w.reader.get s)
        return ({ w with ends := w.ends.set s e, reader := w.reader.set s r }, .delivered result)
      else
        none

/-- A finished run: what happened, in order. -/
abbrev Trace := List (Event × Endpoint.Obs)

/-- Runs under a guard on their steps. -/
abbrev Runs (noise : Noise κ) (ok : Trace → Wire κ → Event → Prop) (init : Wire κ) (trace : Trace)
    (w : Wire κ) : Prop :=
  Transition.Run (step noise) ok init trace w

/-- What an entry of a trace is on the link of segments. -/
def shows : Event × Endpoint.Obs → Option (Link.Event × Endpoint.Obs)
  | (.op s o, obs) => some (.op s o, obs)
  | (.gather s, obs) => some (.take s, obs)
  | (.handle s, obs) => some (.deliver s, obs)
  | (.sealFails s err, obs) => some (.lose s (some err), obs)
  | (.writeFails s, obs) => some (.lose s (some .connectionLost), obs)
  | (.readFails s err, obs) => some (.lose s err, obs)
  | _ => none

/-- An open that succeeds takes an id its side has not issued before. -/
def freshIds (trace : Trace) (w : Wire κ) (ev : Event) : Bool :=
  match ev with
  | .op s .openBi =>
      !(w.ends.get s).opens ||
        !(Link.opened s (trace.filterMap shows)).contains (w.ends.get s).nextLocal
  | _ => true

end Wire

end Mux
