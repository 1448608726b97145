import Mathlib.Tactic.SplitIfs
import GoNomad.Lib.BigEndian
import GoNomad.Lib.PrefixCode

/-!
# Frames and their length-prefixed codec

A frame is a flags byte and an opaque payload; on the wire it is the payload
length as a big-endian `u32`, the flags byte and the payload.  `decode` is a
streaming codec: it answers a complete frame, "not yet", or an error.

* `decode_encode_append` — decoding what was encoded returns the frame and
  leaves what follows alone;
* `decode_some` — whatever decodes was the encoding of what it decodes to;
* `Frame.code` — encodings form a prefix code, so a stream of frames can be cut
  in one way only.
-/

namespace Proto

abbrev Bytes := List UInt8

/-- Bytes of framing overhead: the `u32` length plus the flags byte. -/
def headerLen : Nat := 5

/-- Largest payload this build will decode, in bytes. -/
def maxPayloadLen : Nat := 32 * 1024 * 1024

/-- Errors produced while encoding or decoding a frame. -/
inductive FrameError
  | tooLarge (len : Nat)
  | unknownFlags (bits : UInt8)
  | malformedPayload
  | unserializable
  deriving DecidableEq, Repr

/-- Every flag bit this build understands. -/
def knownFlags : UInt8 := 0b00000111

/-- Per-frame flags; no bit outside the known mask can be set. -/
structure FrameFlags where
  bits : UInt8
  known : bits &&& ~~~knownFlags = 0
  deriving DecidableEq

namespace FrameFlags

def none : FrameFlags := ⟨0, by decide⟩
def compressed : FrameFlags := ⟨1, by decide⟩
def raw : FrameFlags := ⟨2, by decide⟩
def last : FrameFlags := ⟨4, by decide⟩

/-- Wraps a raw bits value, rejecting unknown bits. -/
def fromBits (bits : UInt8) : Except FrameError FrameFlags :=
  if h : bits &&& ~~~knownFlags = 0 then .ok ⟨bits, h⟩ else .error (.unknownFlags bits)

/-- Whether every flag in `other` is set here. -/
def contains (flags other : FrameFlags) : Bool := flags.bits &&& other.bits == other.bits

def isCompressed (flags : FrameFlags) : Bool := flags.contains compressed

def isRaw (flags : FrameFlags) : Bool := flags.contains raw

theorem fromBits_bits (flags : FrameFlags) : fromBits flags.bits = .ok flags := by
  unfold fromBits
  rw [dif_pos flags.known]

theorem bits_of_fromBits {bits : UInt8} {flags : FrameFlags} (h : fromBits bits = .ok flags) :
    flags.bits = bits := by
  unfold fromBits at h
  split at h
  · cases h; rfl
  · cases h

end FrameFlags

/-- A single wire frame.  `Frame.new` is the only way to make one, so no frame
is larger than the codec allows. -/
structure Frame where
  flags : FrameFlags
  payload : Bytes
  payload_le : payload.length ≤ maxPayloadLen
  deriving DecidableEq

namespace Frame

/-- Builds a frame from flags and payload. -/
def new (flags : FrameFlags) (payload : Bytes) : Except FrameError Frame :=
  if h : payload.length ≤ maxPayloadLen then
    .ok ⟨flags, payload, h⟩
  else
    .error (.tooLarge payload.length)

/-- Total wire size of this frame, including the header. -/
def wireLen (f : Frame) : Nat := headerLen + f.payload.length

/-- Encodes the frame into a fresh buffer. -/
def encode (f : Frame) : Bytes :=
  BigEndian.ofU32 (UInt32.ofNat f.payload.length) ++ f.flags.bits :: f.payload

/-- The payload length a header declares. -/
def declaredLen (a b c d : UInt8) : Nat := (BigEndian.toU32 a b c d).toNat

/-- Attempts to decode one frame from the front of `buf`. -/
def decode (buf : Bytes) : Except FrameError (Option (Frame × Nat)) :=
  match buf with
  | a :: b :: c :: d :: bits :: body =>
      let len := declaredLen a b c d
      if hlen : maxPayloadLen < len then
        .error (.tooLarge len)
      else
        match FrameFlags.fromBits bits with
        | .error e => .error e
        | .ok flags =>
            if body.length < len then
              .ok Option.none
            else
              .ok (some (⟨flags, body.take len, by
                have := List.length_take_le len body
                omega⟩, headerLen + len))
  -- Not enough bytes for a header yet.
  | _ => .ok Option.none

theorem encode_mk (flags : FrameFlags) (payload : Bytes) (h : payload.length ≤ maxPayloadLen) :
    encode ⟨flags, payload, h⟩ =
      BigEndian.ofU32 (UInt32.ofNat payload.length) ++ flags.bits :: payload := rfl

theorem length_encode (f : Frame) : f.encode.length = f.wireLen := by
  simp only [encode, wireLen, headerLen, List.length_append, BigEndian.length_ofU32,
    List.length_cons]
  omega

theorem encode_ne_nil (f : Frame) : f.encode ≠ [] := by
  intro h
  have hlen := f.length_encode
  rw [h, List.length_nil, wireLen, headerLen] at hlen
  omega

theorem declaredLen_ofNat {n : Nat} (hn : n ≤ maxPayloadLen) :
    declaredLen (UInt8.ofNat ((UInt32.ofNat n).toNat / 2 ^ 24))
      (UInt8.ofNat ((UInt32.ofNat n).toNat / 2 ^ 16))
      (UInt8.ofNat ((UInt32.ofNat n).toNat / 2 ^ 8))
      (UInt8.ofNat (UInt32.ofNat n).toNat) = n := by
  unfold declaredLen
  rw [BigEndian.toU32_ofU32, UInt32.toNat_ofNat']
  unfold maxPayloadLen at hn
  omega

/-- Decoding an encoded frame returns it, whatever follows. -/
theorem decode_encode_append (f : Frame) (rest : Bytes) :
    decode (f.encode ++ rest) = .ok (some (f, f.wireLen)) := by
  have hdeclared := declaredLen_ofNat f.payload_le
  have hle := f.payload_le
  simp only [encode, BigEndian.ofU32, List.cons_append, List.nil_append, decode, hdeclared,
    FrameFlags.fromBits_bits]
  rw [dif_neg (by omega), if_neg (by simp)]
  simp [wireLen]

/-- A word is determined by the bytes it was read from. -/
theorem ofU32_declaredLen (a b c d : UInt8) :
    BigEndian.ofU32 (UInt32.ofNat (declaredLen a b c d)) = [a, b, c, d] := by
  unfold declaredLen
  rw [UInt32.ofNat_toNat, BigEndian.ofU32_toU32]

/-- **What decodes was encoded.**  A complete frame at the front of `buf` is
there as its own encoding, and `consumed` is that encoding's length. -/
theorem decode_some {buf : Bytes} {f : Frame} {consumed : Nat}
    (h : decode buf = .ok (some (f, consumed))) :
    consumed = f.wireLen ∧ buf = f.encode ++ buf.drop consumed := by
  unfold decode at h
  split at h
  · next a b c d bits body =>
      by_cases hlen : maxPayloadLen < declaredLen a b c d
      · simp only [hlen, dite_true, reduceCtorEq] at h
      cases hflags : FrameFlags.fromBits bits with
      | error e => simp only [hlen, dite_false, hflags, reduceCtorEq] at h
      | ok flags =>
          by_cases hbody : body.length < declaredLen a b c d
          · simp only [hlen, dite_false, hflags, if_pos hbody, Except.ok.injEq, reduceCtorEq] at h
          simp only [hlen, dite_false, hflags, if_neg hbody, Except.ok.injEq, Option.some.injEq,
            Prod.mk.injEq] at h
          obtain ⟨rfl, rfl⟩ := h
          have htake : (body.take (declaredLen a b c d)).length = declaredLen a b c d := by
            rw [List.length_take]
            omega
          have hdrop : (a :: b :: c :: d :: bits :: body).drop (headerLen + declaredLen a b c d) =
              body.drop (declaredLen a b c d) := by
            rw [← List.drop_drop]
            rfl
          refine ⟨by simp only [wireLen, htake], ?_⟩
          rw [hdrop, encode_mk, htake, ofU32_declaredLen, FrameFlags.bits_of_fromBits hflags]
          have hcons : ∀ l m : Bytes,
              [a, b, c, d] ++ bits :: l ++ m = a :: b :: c :: d :: bits :: (l ++ m) :=
            fun l m => rfl
          rw [hcons, List.take_append_drop]
  · cases h

/-- Encodings form a prefix code. -/
def code : PrefixCode Frame UInt8 where
  enc := encode
  enc_ne_nil := encode_ne_nil
  prefix_free := by
    intro f g s t h
    have hf := decode_encode_append f s
    rw [h, decode_encode_append g t] at hf
    simp only [Except.ok.injEq, Option.some.injEq, Prod.mk.injEq] at hf
    exact hf.1.symm

@[simp] theorem code_enc (f : Frame) : code.enc f = f.encode := rfl

/-- A buffer that decodes to "not yet" holds no complete frame. -/
theorem stuck_of_decode_none {buf : Bytes} (h : decode buf = .ok Option.none) :
    code.Stuck buf := by
  intro f t hbuf
  rw [hbuf, code_enc, decode_encode_append] at h
  cases h

/-- The header of a frame declares its payload length. -/
theorem encode_header (f : Frame) :
    ∃ a b c d, f.encode = a :: b :: c :: d :: f.flags.bits :: f.payload ∧
      declaredLen a b c d = f.payload.length := by
  exact ⟨_, _, _, _, rfl, declaredLen_ofNat f.payload_le⟩

/-- A buffer that is the start of a frame and has a header has that frame's
header. -/
theorem header_of_le_encode {f : Frame} {a b c d bits : UInt8} {body t : Bytes}
    (h : a :: b :: c :: d :: bits :: body <+: f.encode ++ t) :
    declaredLen a b c d = f.payload.length ∧ bits = f.flags.bits ∧ body <+: f.payload ++ t := by
  obtain ⟨a', b', c', d', henc, hlen⟩ := f.encode_header
  rw [henc] at h
  simp only [List.cons_append, List.cons_prefix_cons] at h
  obtain ⟨rfl, rfl, rfl, rfl, hbits, hbody⟩ := h
  exact ⟨hlen, hbits, hbody⟩

/-- Decoding the start of a stream of frames never fails. -/
theorem decode_of_le_encode {f : Frame} {buf t : Bytes} (h : buf <+: f.encode ++ t) :
    ∀ err, decode buf ≠ .error err := by
  intro err herr
  unfold decode at herr
  split at herr
  · next a b c d bits body =>
      obtain ⟨hlen, rfl, -⟩ := header_of_le_encode h
      have hle := f.payload_le
      have hsmall : ¬ maxPayloadLen < declaredLen a b c d := by omega
      simp only [hsmall, dite_false, FrameFlags.fromBits_bits] at herr
      split_ifs at herr
  · cases herr

end Frame

end Proto
