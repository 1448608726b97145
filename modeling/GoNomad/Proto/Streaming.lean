import GoNomad.Proto.Frame

/-!
# Reading a stream of frames

A reader appends whatever arrived to its buffer and decodes until the buffer
holds no complete frame.  `bytesNeeded` lets it size its next read instead of
guessing.

* `readChunks_writeAll` — however a written stream is cut into reads, exactly
  the written frames come out and nothing is left over;
* `decode_of_lt_take` — no strict prefix of a frame decodes;
* `bytesNeeded_none_iff`, `bytesNeeded_some_iff` — the two separately written
  length computations agree;
* `streaming_codec` — all of it, as the law of the codec.
-/

namespace Proto

namespace Frame

/-! ### Writing and reading -/

/-- Appends the encoded frame to `buf`. -/
def encodeTo (f : Frame) (buf : Bytes) : Bytes :=
  buf ++ BigEndian.ofU32 (UInt32.ofNat f.payload.length) ++ [f.flags.bits] ++ f.payload

/-- A writer batches frames into one buffer. -/
def writeAll (fs : List Frame) : Bytes := fs.foldl (fun buf f => f.encodeTo buf) []

/-- How many more bytes are needed to complete the frame at the front of `buf`,
or `none` if a complete frame is already present. -/
def bytesNeeded (buf : Bytes) : Except FrameError (Option Nat) :=
  match buf with
  | a :: b :: c :: d :: _ :: _ =>
      let len := declaredLen a b c d
      if maxPayloadLen < len then
        .error (.tooLarge len)
      else
        let total := headerLen + len
        .ok (if total ≤ buf.length then none else some (total - buf.length))
  | _ => .ok (some (headerLen - buf.length))

/-- A decoded frame was in the buffer, header and all. -/
theorem drop_lt_of_decode {buf : Bytes} {f : Frame} {consumed : Nat}
    (h : decode buf = .ok (some (f, consumed))) : (buf.drop consumed).length < buf.length := by
  obtain ⟨hused, hbuf⟩ := decode_some h
  have hlen := congrArg List.length hbuf
  rw [List.length_append, length_encode, wireLen, headerLen] at hlen
  omega

/-- Decodes until "not yet": the frames cut off the buffer, and what is left. -/
def drain (buf : Bytes) : Except FrameError (List Frame × Bytes) :=
  match _h : decode buf with
  | .error err => .error err
  | .ok none => .ok ([], buf)
  | .ok (some (f, consumed)) => do
      let (fs, rest) ← drain (buf.drop consumed)
      return (f :: fs, rest)
termination_by buf.length
decreasing_by exact drop_lt_of_decode _h

/-- Appends one chunk after the other, decoding until "not yet" each time. -/
def readChunks : Bytes → List Bytes → Except FrameError (List Frame × Bytes)
  | buf, [] => .ok ([], buf)
  | buf, chunk :: chunks => do
      let (fs, rest) ← drain (buf ++ chunk)
      let (gs, left) ← readChunks rest chunks
      return (fs ++ gs, left)

theorem encodeTo_eq (f : Frame) (buf : Bytes) : f.encodeTo buf = buf ++ f.encode := by
  simp [encodeTo, encode]

theorem foldl_encodeTo (fs : List Frame) (buf : Bytes) :
    fs.foldl (fun buf f => f.encodeTo buf) buf = buf ++ code.encAll fs := by
  induction fs generalizing buf with
  | nil => simp
  | cons f fs ih =>
      rw [List.foldl_cons, ih, encodeTo_eq, PrefixCode.encAll_cons, code_enc, List.append_assoc]

theorem writeAll_eq (fs : List Frame) : writeAll fs = code.encAll fs := by
  rw [writeAll, foldl_encodeTo, List.nil_append]

/-! ### Draining a buffer -/

theorem drain_of_none {buf : Bytes} (h : decode buf = .ok none) : drain buf = .ok ([], buf) := by
  rw [drain]
  split
  · simp_all
  · rfl
  · simp_all

theorem drain_encode_append (f : Frame) (rest : Bytes) :
    drain (f.encode ++ rest) = do
      let (fs, left) ← drain rest
      return (f :: fs, left) := by
  have hdecode := decode_encode_append f rest
  have hrest : (f.encode ++ rest).drop f.wireLen = rest := by
    rw [← f.length_encode, List.drop_left]
  rw [drain]
  split
  · simp_all
  · simp_all
  · next g consumed hg =>
      rw [hdecode] at hg
      simp only [Except.ok.injEq, Option.some.injEq, Prod.mk.injEq] at hg
      obtain ⟨rfl, rfl⟩ := hg
      rw [hrest]

/-- Draining what has arrived of a stream of frames cuts off the first of them
and leaves a stretch that holds no complete frame. -/
theorem drain_of_le {fs : List Frame} {buf : Bytes} (h : buf <+: code.encAll fs) :
    ∃ gs hs rest, fs = gs ++ hs ∧ buf = code.encAll gs ++ rest ∧ code.Stuck rest ∧
      drain buf = .ok (gs, rest) := by
  induction fs generalizing buf with
  | nil =>
      obtain rfl : buf = [] := by simpa using h
      exact ⟨[], [], [], rfl, rfl, code.stuck_nil, drain_of_none rfl⟩
  | cons f fs ih =>
      rw [PrefixCode.encAll_cons, code_enc] at h
      cases hdecode : decode buf with
      | error err => exact absurd hdecode (decode_of_le_encode h err)
      | ok result =>
          cases result with
          | none =>
              exact ⟨[], f :: fs, buf, rfl, by simp, stuck_of_decode_none hdecode,
                drain_of_none hdecode⟩
          | some found =>
              obtain ⟨g, consumed⟩ := found
              obtain ⟨-, hbuf⟩ := decode_some hdecode
              obtain ⟨t, ht⟩ := h
              -- The frame that decoded is the one that was sent.
              obtain rfl : g = f := code.prefix_free (s := buf.drop consumed ++ t) (t := code.encAll fs)
                (by rw [code_enc, code_enc, ← List.append_assoc, ← hbuf, ht])
              have hrest : buf.drop consumed <+: code.encAll fs := by
                have hwhole : g.encode ++ (buf.drop consumed ++ t) = g.encode ++ code.encAll fs := by
                  rw [← List.append_assoc, ← hbuf, ht]
                exact ⟨t, List.append_cancel_left hwhole⟩
              obtain ⟨gs, hs, rest, rfl, hsplit, hstuck, hdrain⟩ := ih hrest
              refine ⟨g :: gs, hs, rest, rfl, ?_, hstuck, ?_⟩
              · rw [PrefixCode.encAll_cons, code_enc, List.append_assoc, ← hsplit]
                exact hbuf
              · rw [hbuf, drain_encode_append, hdrain]
                rfl

/-- Reading on: with `buf` left over and `chunks` still to come, the frames that
make up both together come out. -/
theorem readChunks_of_eq {chunks : List Bytes} :
    ∀ {fs : List Frame} {buf : Bytes}, code.Stuck buf →
      buf ++ chunks.flatten = code.encAll fs → readChunks buf chunks = .ok (fs, []) := by
  induction chunks with
  | nil =>
      intro fs buf hstuck h
      have hbuf : buf = code.encAll fs := by simpa using h
      obtain rfl := hstuck.eq_nil hbuf
      rw [hbuf]
      rfl
  | cons chunk chunks ih =>
      intro fs buf _ h
      rw [List.flatten_cons, ← List.append_assoc] at h
      obtain ⟨gs, hs, rest, rfl, hsplit, hrest, hdrain⟩ := drain_of_le ⟨chunks.flatten, h⟩
      have hlater : rest ++ chunks.flatten = code.encAll hs := by
        rw [hsplit, PrefixCode.encAll_append, List.append_assoc] at h
        exact List.append_cancel_left h
      simp only [readChunks, hdrain, ih hrest hlater, bind, Except.bind, pure, Except.pure]

/-- **However a written stream is cut into reads**, exactly the written frames
come out and the buffer ends empty. -/
theorem readChunks_writeAll {fs : List Frame} {chunks : List Bytes}
    (h : chunks.flatten = writeAll fs) : readChunks [] chunks = .ok (fs, []) :=
  readChunks_of_eq code.stuck_nil (by rw [List.nil_append, h, writeAll_eq])

/-! ### What a header says -/

/-- The header at the front of a buffer, if it has one, is one this build
accepts: its length is within the limit and its flag bits are known. -/
theorem decode_header {a b c d bits : UInt8} (body : Bytes)
    (hlen : declaredLen a b c d ≤ maxPayloadLen) (hbits : bits &&& ~~~knownFlags = 0) :
    (body.length < declaredLen a b c d →
      decode (a :: b :: c :: d :: bits :: body) = .ok none) ∧
    (declaredLen a b c d ≤ body.length →
      ∃ f, decode (a :: b :: c :: d :: bits :: body) =
        .ok (some (f, headerLen + declaredLen a b c d))) := by
  have hflags := FrameFlags.fromBits_bits ⟨bits, hbits⟩
  unfold decode
  simp only [dif_neg (Nat.not_lt.mpr hlen), hflags]
  constructor
  · intro hshort
    rw [if_pos hshort]
  · intro hfull
    rw [if_neg (Nat.not_lt.mpr hfull)]
    exact ⟨_, rfl⟩

theorem decode_tooLarge {a b c d : UInt8} (bits : UInt8) (body : Bytes)
    (hlen : maxPayloadLen < declaredLen a b c d) :
    decode (a :: b :: c :: d :: bits :: body) = .error (.tooLarge (declaredLen a b c d)) := by
  simp only [decode, dif_pos hlen]

theorem bytesNeeded_tooLarge {a b c d : UInt8} (bits : UInt8) (body : Bytes)
    (hlen : maxPayloadLen < declaredLen a b c d) :
    bytesNeeded (a :: b :: c :: d :: bits :: body) = .error (.tooLarge (declaredLen a b c d)) := by
  simp only [bytesNeeded, if_pos hlen]

theorem bytesNeeded_header {a b c d bits : UInt8} {body : Bytes}
    (hlen : declaredLen a b c d ≤ maxPayloadLen) :
    bytesNeeded (a :: b :: c :: d :: bits :: body) =
      .ok (if declaredLen a b c d ≤ body.length then none
        else some (declaredLen a b c d - body.length)) := by
  have htotal : headerLen + declaredLen a b c d ≤ (a :: b :: c :: d :: bits :: body).length ↔
      declaredLen a b c d ≤ body.length := by
    simp only [headerLen, List.length_cons]
    omega
  have hmissing : headerLen + declaredLen a b c d - (a :: b :: c :: d :: bits :: body).length =
      declaredLen a b c d - body.length := by
    simp only [headerLen, List.length_cons]
    omega
  simp only [bytesNeeded, if_neg (Nat.not_lt.mpr hlen), htotal, hmissing]

/-- Without a header there is no frame yet, and the rest of the header is
needed. -/
theorem short_buffer {buf : Bytes} (h : buf.length < headerLen) :
    decode buf = .ok none ∧ bytesNeeded buf = .ok (some (headerLen - buf.length)) := by
  match buf, h with
  | [], _ => exact ⟨rfl, rfl⟩
  | [_], _ => exact ⟨rfl, rfl⟩
  | [_, _], _ => exact ⟨rfl, rfl⟩
  | [_, _, _], _ => exact ⟨rfl, rfl⟩
  | [_, _, _, _], _ => exact ⟨rfl, rfl⟩
  | _ :: _ :: _ :: _ :: _ :: _, h =>
      simp only [List.length_cons, headerLen] at h
      omega

/-- A buffer is too short for a header or starts with one. -/
theorem short_or_header (buf : Bytes) :
    buf.length < headerLen ∨ ∃ a b c d bits body, buf = a :: b :: c :: d :: bits :: body := by
  match buf with
  | a :: b :: c :: d :: bits :: body => exact .inr ⟨a, b, c, d, bits, body, rfl⟩
  | [] | [_] | [_, _] | [_, _, _] | [_, _, _, _] => exact .inl (by simp [headerLen])

/-! ### Prefixes -/

theorem decode_append {buf : Bytes} {f : Frame} {n : Nat} (h : decode buf = .ok (some (f, n)))
    (x : Bytes) : decode (buf ++ x) = .ok (some (f, n)) := by
  obtain ⟨rfl, hbuf⟩ := decode_some h
  rw [hbuf, List.append_assoc]
  exact decode_encode_append f _

theorem encode_eq_take {buf : Bytes} {f : Frame} {n : Nat} (h : decode buf = .ok (some (f, n))) :
    f.encode = buf.take n := by
  obtain ⟨rfl, hbuf⟩ := decode_some h
  rw [hbuf, ← f.length_encode, List.take_left]

/-- **No strict prefix of a frame decodes**: it is answered "not yet". -/
theorem decode_of_lt_take {buf p : Bytes} {f : Frame} {n : Nat}
    (h : decode buf = .ok (some (f, n))) (hp : p <+: buf.take n) (hne : p ≠ buf.take n) :
    decode p = .ok none := by
  rw [← encode_eq_take h] at hp hne
  have hpre : p <+: f.encode ++ [] := by simpa using hp
  cases hdecode : decode p with
  | error err => exact absurd hdecode (decode_of_le_encode hpre err)
  | ok result =>
      cases result with
      | none => rfl
      | some found =>
          obtain ⟨g, m⟩ := found
          obtain ⟨rfl, hbuf⟩ := decode_some hdecode
          obtain ⟨t, ht⟩ := hp
          -- A complete frame inside `f`'s encoding is `f`, and then nothing is missing.
          obtain rfl : g = f := code.prefix_free (s := p.drop g.wireLen ++ t) (t := [])
            (by rw [code_enc, code_enc, ← List.append_assoc, ← hbuf, ht, List.append_nil])
          have hle : g.encode.length ≤ p.length := by
            rw [hbuf, List.length_append]
            omega
          exact absurd (List.IsPrefix.eq_of_length_le ⟨t, ht⟩ hle) hne

/-! ### The two length computations agree -/

/-- The flags byte, once it is there, sets no bit this build does not know. -/
def KnownBits (buf : Bytes) : Prop := ∀ bits, buf[4]? = some bits → bits &&& ~~~knownFlags = 0

theorem bytesNeeded_none_iff {buf : Bytes} (hknown : KnownBits buf) :
    bytesNeeded buf = .ok none ↔ ∃ f n, decode buf = .ok (some (f, n)) := by
  obtain hshort | ⟨a, b, c, d, bits, body, rfl⟩ := short_or_header buf
  · obtain ⟨hdecode, hneeded⟩ := short_buffer hshort
    simp [hdecode, hneeded]
  by_cases hlen : maxPayloadLen < declaredLen a b c d
  · simp [decode_tooLarge bits body hlen, bytesNeeded_tooLarge bits body hlen]
  have hle := Nat.not_lt.mp hlen
  obtain ⟨hnone, hsome⟩ := decode_header body hle (hknown bits rfl)
  rw [bytesNeeded_header hle]
  by_cases hfull : declaredLen a b c d ≤ body.length
  · obtain ⟨f, hf⟩ := hsome hfull
    simp [hfull, hf]
  · simp [hfull, hnone (Nat.not_le.mp hfull)]

theorem bytesNeeded_some_iff {buf : Bytes} (hknown : KnownBits buf) :
    (∃ k, 1 ≤ k ∧ bytesNeeded buf = .ok (some k)) ↔ decode buf = .ok none := by
  obtain hshort | ⟨a, b, c, d, bits, body, rfl⟩ := short_or_header buf
  · obtain ⟨hdecode, hneeded⟩ := short_buffer hshort
    exact iff_of_true ⟨_, by omega, hneeded⟩ hdecode
  by_cases hlen : maxPayloadLen < declaredLen a b c d
  · simp [decode_tooLarge bits body hlen, bytesNeeded_tooLarge bits body hlen]
  have hle := Nat.not_lt.mp hlen
  obtain ⟨hnone, hsome⟩ := decode_header body hle (hknown bits rfl)
  rw [bytesNeeded_header hle]
  by_cases hfull : declaredLen a b c d ≤ body.length
  · obtain ⟨f, hf⟩ := hsome hfull
    simp [hfull, hf]
  · rw [if_neg hfull, hnone (Nat.not_le.mp hfull)]
    exact iff_of_true ⟨_, by omega, rfl⟩ rfl

/-- Fewer bytes than were asked for never complete the frame. -/
theorem decode_of_short_append {buf x : Bytes} {k : Nat} (hknown : KnownBits buf)
    (h : bytesNeeded buf = .ok (some k)) (hx : x.length < k) : decode (buf ++ x) = .ok none := by
  obtain hshort | ⟨a, b, c, d, bits, body, rfl⟩ := short_or_header buf
  · rw [(short_buffer hshort).2, Except.ok.injEq, Option.some.injEq] at h
    refine (short_buffer ?_).1
    rw [List.length_append]
    omega
  by_cases hlen : maxPayloadLen < declaredLen a b c d
  · rw [bytesNeeded_tooLarge bits body hlen] at h
    cases h
  have hle := Nat.not_lt.mp hlen
  rw [bytesNeeded_header hle] at h
  by_cases hfull : declaredLen a b c d ≤ body.length
  · rw [if_pos hfull, Except.ok.injEq] at h
    cases h
  · rw [if_neg hfull, Except.ok.injEq, Option.some.injEq] at h
    refine (decode_header (body ++ x) hle (hknown bits rfl)).1 ?_
    rw [List.length_append]
    omega

/-- An oversized length is refused by both, with the same error. -/
theorem tooLarge_iff (buf : Bytes) (len : Nat) :
    bytesNeeded buf = .error (.tooLarge len) ↔ decode buf = .error (.tooLarge len) := by
  obtain hshort | ⟨a, b, c, d, bits, body, rfl⟩ := short_or_header buf
  · obtain ⟨hdecode, hneeded⟩ := short_buffer hshort
    simp [hdecode, hneeded]
  by_cases hlen : maxPayloadLen < declaredLen a b c d
  · rw [decode_tooLarge bits body hlen, bytesNeeded_tooLarge bits body hlen]
    simp
  have hle := Nat.not_lt.mp hlen
  rw [bytesNeeded_header hle]
  refine iff_of_false (by simp) ?_
  simp only [decode, dif_neg hlen]
  cases hflags : FrameFlags.fromBits bits with
  | error err =>
      -- Unknown bits are an error too, but not this one.
      unfold FrameFlags.fromBits at hflags
      split at hflags <;> cases hflags
      simp
  | ok flags => split_ifs <;> simp

/-- **The law of the streaming codec.** -/
theorem streaming_codec :
    (∀ fs chunks, chunks.flatten = writeAll fs → readChunks [] chunks = .ok (fs, [])) ∧
    (∀ buf f n, decode buf = .ok (some (f, n)) →
      f.encode = buf.take n ∧ (∀ x, decode (buf ++ x) = .ok (some (f, n))) ∧
      ∀ p, p <+: buf.take n → p ≠ buf.take n → decode p = .ok none) ∧
    (∀ buf, KnownBits buf →
      (bytesNeeded buf = .ok none ↔ ∃ f n, decode buf = .ok (some (f, n))) ∧
      ((∃ k, 1 ≤ k ∧ bytesNeeded buf = .ok (some k)) ↔ decode buf = .ok none) ∧
      ∀ k, bytesNeeded buf = .ok (some k) →
        ∀ x : Bytes, x.length < k → decode (buf ++ x) = .ok none) ∧
    (∀ buf len, bytesNeeded buf = .error (.tooLarge len) ↔ decode buf = .error (.tooLarge len)) ∧
    ∀ a b c d bits body, maxPayloadLen < declaredLen a b c d →
      decode (a :: b :: c :: d :: bits :: body) = .error (.tooLarge (declaredLen a b c d)) ∧
      bytesNeeded (a :: b :: c :: d :: bits :: body) =
        .error (.tooLarge (declaredLen a b c d)) := by
  refine ⟨fun fs chunks h => readChunks_writeAll h, fun buf f n h => ?_, fun buf hknown => ?_,
    tooLarge_iff, fun a b c d bits body hlen => ?_⟩
  · exact ⟨encode_eq_take h, decode_append h, fun p => decode_of_lt_take h⟩
  · exact ⟨bytesNeeded_none_iff hknown, bytesNeeded_some_iff hknown,
      fun k hk x hx => decode_of_short_append hknown hk hx⟩
  · exact ⟨decode_tooLarge bits body hlen, bytesNeeded_tooLarge bits body hlen⟩

end Frame

end Proto
