import GoNomad.Transport.Wire

/-!
# The byte streams carry the segments

What a reader has in its buffer, what is in the pipe and what the writer has in
its batch are, in this order, the records of the segments on the link.  So
every step of the two ends is a step of the link of segments or none, however
reads and writes cut the bytes, and the results about the link hold of the
bytes on the wire.
-/

namespace Mux

open Proto Transport

namespace Noise

variable {κ : Type} {noise : Noise κ} {Paired : κ → κ → Prop} {k k' k'' : κ}
variable {seg : Segment} {segs : List Segment} {plaintext record bytes : Bytes}

/-- The records of some segments, sealed one after the other. -/
inductive Sealed (noise : Noise κ) : κ → List Segment → Bytes → κ → Prop
  | nil (k : κ) : Sealed noise k [] [] k
  | cons {k k' k'' : κ} {seg : Segment} {segs : List Segment} {record bytes : Bytes}
      (hseal : noise.encodeRecord k seg.encode = .ok (record, k'))
      (hrest : Sealed noise k' segs bytes k'') :
      Sealed noise k (seg :: segs) (record ++ bytes) k''

theorem Sealed.snoc (h : Sealed noise k segs bytes k')
    (hseal : noise.encodeRecord k' seg.encode = .ok (record, k'')) :
    Sealed noise k (segs ++ [seg]) (bytes ++ record) k'' := by
  induction h with
  | nil k =>
      have hone := Sealed.cons hseal (.nil k'')
      rw [List.append_nil] at hone
      exact hone
  | cons hseal' _ ih =>
      rw [List.append_assoc]
      exact .cons hseal' (ih hseal)

/-- A sealed record is the ciphertext behind its length. -/
theorem encodeRecord_ok (h : noise.encodeRecord k plaintext = .ok (record, k')) :
    ∃ sealed, noise.writeMessage k plaintext = .ok (sealed, k') ∧ sealed.length < 2 ^ 16 ∧
      record = BigEndian.ofU16 (UInt16.ofNat sealed.length) ++ sealed := by
  unfold encodeRecord at h
  cases hencrypt : noise.encrypt k plaintext with
  | error err =>
      rw [hencrypt] at h
      cases h
  | ok result =>
      obtain ⟨sealed, k₁⟩ := result
      rw [hencrypt] at h
      dsimp only at h
      by_cases hlen : sealed.length < 2 ^ 16
      · rw [if_pos hlen] at h
        cases h
        refine ⟨sealed, ?_, hlen, rfl⟩
        unfold encrypt at hencrypt
        by_cases hlong : maxPlaintextLen < plaintext.length
        · rw [if_pos hlong] at hencrypt
          cases hencrypt
        · rw [if_neg hlong] at hencrypt
          exact hencrypt
      · rw [if_neg hlen] at h
        cases h

end Noise

namespace Wire

variable {κ : Type} {noise : Noise κ} {Paired : κ → κ → Prop} {k k' : κ}

/-- When the front of the buffer is complete it is the first record written. -/
theorem front_record (hlaw : noise.Lawful Paired) {plaintext record bytes pending : Bytes}
    (hseal : noise.encodeRecord k plaintext = .ok (record, k'))
    (hpre : pending <+: record ++ bytes) (hfront : front pending ≠ .incomplete) :
    ∃ sealed rest, noise.writeMessage k plaintext = .ok (sealed, k') ∧
      front pending = .record sealed rest ∧ pending = record ++ rest ∧ rest <+: bytes := by
  obtain ⟨sealed, hwrite, hlt, rfl⟩ := Noise.encodeRecord_ok hseal
  have htag := hlaw.length _ _ _ _ hwrite
  refine ⟨sealed, pending.drop (2 + sealed.length), hwrite, ?_⟩
  unfold front at hfront ⊢
  match pending, hpre, hfront with
  | [], _, hfront => exact absurd rfl hfront
  | [_], _, hfront => exact absurd rfl hfront
  | a :: b :: tail, hpre, hfront =>
      unfold BigEndian.ofU16 at hpre
      rw [List.cons_append, List.cons_append, List.cons_append, List.cons_append,
        List.nil_append, List.cons_prefix_cons, List.cons_prefix_cons] at hpre
      obtain ⟨rfl, rfl, htail⟩ := hpre
      have hlen : (BigEndian.toU16 (UInt8.ofNat ((UInt16.ofNat sealed.length).toNat / 2 ^ 8))
          (UInt8.ofNat (UInt16.ofNat sealed.length).toNat)).toNat = sealed.length := by
        rw [BigEndian.toU16_ofU16, UInt16.toNat_ofNat']
        omega
      simp only [hlen] at hfront ⊢
      rw [if_neg (by omega)] at hfront ⊢
      by_cases hshort : tail.length < sealed.length
      · rw [if_pos hshort] at hfront
        exact absurd rfl hfront
      · rw [if_neg hshort]
        obtain ⟨rest, rfl⟩ : sealed <+: tail := by
          refine List.prefix_of_prefix_length_le (List.prefix_append sealed bytes) htail ?_
          omega
        have hrest : rest <+: bytes := (List.prefix_append_right_inj sealed).mp htail
        have hdrop : List.drop (2 + sealed.length)
            (UInt8.ofNat ((UInt16.ofNat sealed.length).toNat / 2 ^ 8) ::
              UInt8.ofNat (UInt16.ofNat sealed.length).toNat :: (sealed ++ rest)) = rest := by
          rw [Nat.add_comm, List.drop_succ_cons, List.drop_succ_cons, List.drop_left]
        rw [hdrop, List.take_left, List.drop_left]
        exact ⟨rfl, rfl, hrest⟩

/-! ### The relation -/

/-- The segment the writer has picked and not yet sealed. -/
def picked : WriteStage → List Segment
  | .sealing _ seg => [seg]
  | _ => []

/-- The bytes between a writer and its peer's reader, and the segments they are
the records of.  A writer that ended may have kept some of its batch. -/
structure Carries (noise : Noise κ) (Paired : κ → κ → Prop) (wr : Writer κ) (pipe : Bytes)
    (rd : Reader κ) (segs : List Segment) (wire : List Segment) (bytes : Bytes) (k k' : κ) :
    Prop where
  paired : Paired k rd.cipher
  sealed : noise.Sealed k segs bytes k'
  arrived : rd.pending ++ pipe <+: bytes
  taken : segs <+: wire
  going : wr.stage ≠ .ended →
    bytes = rd.pending ++ pipe ++ wr.out ∧ k' = wr.cipher ∧ wire = segs ++ picked wr.stage

/-- The bytes of one direction stand for the segments on its wire. -/
def Stands (noise : Noise κ) (Paired : κ → κ → Prop) (wr : Writer κ) (pipe : Bytes)
    (rd : Reader κ) (wire : List Segment) : Prop :=
  ∃ segs bytes k k', Carries noise Paired wr pipe rd segs wire bytes k k'

variable {wr : Writer κ} {pipe : Bytes} {rd : Reader κ} {wire : List Segment} {seg : Segment}

/-- A writer that ends leaves what has arrived as it is. -/
theorem Stands.ended (h : Stands noise Paired wr pipe rd wire) :
    Stands noise Paired { wr with stage := .ended } pipe rd wire := by
  obtain ⟨segs, bytes, k, k', hc⟩ := h
  exact ⟨segs, bytes, k, k', hc.paired, hc.sealed, hc.arrived, hc.taken,
    fun hstage => absurd rfl hstage⟩

theorem Stands.gather (h : Stands noise Paired wr pipe rd wire) {n : Nat}
    (hstage : wr.stage = .gathering n) :
    Stands noise Paired { wr with stage := .sealing n seg } pipe rd (wire ++ [seg]) := by
  obtain ⟨segs, bytes, k, k', hc⟩ := h
  obtain ⟨hbytes, hcipher, hwire⟩ := hc.going (by rw [hstage]; exact fun h => nomatch h)
  rw [hstage] at hwire
  refine ⟨segs, bytes, k, k', hc.paired, hc.sealed, hc.arrived,
    hc.taken.trans (List.prefix_append _ _), fun _ => ⟨hbytes, hcipher, ?_⟩⟩
  rw [hwire]
  exact congrArg (· ++ [seg]) (List.append_nil segs)

theorem Stands.sealNext (h : Stands noise Paired wr pipe rd wire) {n : Nat} {record : Bytes}
    (hstage : wr.stage = .sealing n seg)
    (hseal : noise.encodeRecord wr.cipher seg.encode = .ok (record, k')) :
    Stands noise Paired ⟨.gathering (n + 1), wr.out ++ record, k'⟩ pipe rd wire := by
  obtain ⟨segs, bytes, k, k₁, hc⟩ := h
  obtain ⟨hbytes, rfl, hwire⟩ := hc.going (by rw [hstage]; exact fun h => nomatch h)
  rw [hstage] at hwire
  change wire = segs ++ [seg] at hwire
  refine ⟨segs ++ [seg], bytes ++ record, k, k', hc.paired, hc.sealed.snoc hseal,
    hc.arrived.trans (List.prefix_append _ _), by rw [hwire], fun _ => ⟨?_, rfl, ?_⟩⟩
  · rw [hbytes, List.append_assoc]
  · rw [hwire]
    exact (List.append_nil _).symm

/-- Moving bytes along changes nothing, as long as nothing is picked. -/
theorem Stands.move (h : Stands noise Paired wr pipe rd wire) {stage : WriteStage}
    {out pipe' pending : Bytes} (hpicked : picked wr.stage = []) (hpicked' : picked stage = [])
    (hlive : wr.stage ≠ .ended)
    (hbytes : pending ++ pipe' ++ out = rd.pending ++ pipe ++ wr.out) :
    Stands noise Paired { wr with stage := stage, out := out } pipe'
      { rd with pending := pending } wire := by
  obtain ⟨segs, bytes, k, k', hc⟩ := h
  obtain ⟨hall, hcipher, hwire⟩ := hc.going hlive
  rw [hpicked] at hwire
  refine ⟨segs, bytes, k, k', hc.paired, hc.sealed, ?_, hc.taken, fun _ => ⟨?_, hcipher, ?_⟩⟩
  · rw [hall, ← hbytes]
    exact List.prefix_append _ _
  · rw [hall, ← hbytes]
  · change wire = segs ++ picked stage
    rw [hpicked', hwire]

/-- A read moves bytes from the pipe to the buffer. -/
theorem Stands.read (h : Stands noise Paired wr pipe rd wire) (n : Nat) :
    Stands noise Paired wr (pipe.drop n) { rd with pending := rd.pending ++ pipe.take n } wire := by
  obtain ⟨segs, bytes, k, k', hc⟩ := h
  have hsame : rd.pending ++ pipe.take n ++ pipe.drop n = rd.pending ++ pipe := by
    rw [List.append_assoc, List.take_append_drop]
  refine ⟨segs, bytes, k, k', hc.paired, hc.sealed, ?_, hc.taken, fun hstage => ?_⟩
  · rw [hsame]
    exact hc.arrived
  · rw [hsame]
    exact hc.going hstage

/-- **The record at the front of the buffer is the oldest segment.** -/
theorem Stands.front (hlaw : noise.Lawful Paired) (h : Stands noise Paired wr pipe rd wire)
    (hfront : front rd.pending ≠ .incomplete) :
    ∃ seg rest sealed pending cipher, wire = seg :: rest ∧
      front rd.pending = .record sealed pending ∧
      noise.readMessage rd.cipher sealed = .ok (seg.encode, cipher) ∧
      ∀ running, Stands noise Paired wr pipe ⟨pending, cipher, running⟩ rest := by
  obtain ⟨segs, bytes, k, k', hc⟩ := h
  cases hc.sealed with
  | nil =>
      exfalso
      have hnil := List.prefix_nil.mp hc.arrived
      rw [(List.append_eq_nil_iff.mp hnil).1] at hfront
      exact hfront rfl
  | @cons _ k₁ _ seg segs record bytes hseal hrest =>
      have hpending : rd.pending <+: record ++ bytes :=
        (List.prefix_append _ _).trans hc.arrived
      obtain ⟨sealed, pending, hwrite, hfront', hsplit, -⟩ :=
        front_record hlaw hseal hpending hfront
      obtain ⟨cipher, hread, hpaired⟩ := hlaw.read _ _ _ _ _ hc.paired hwrite
      obtain ⟨rest, hwire⟩ := hc.taken
      refine ⟨seg, segs ++ rest, sealed, pending, cipher, hwire.symm, hfront', hread,
        fun running => ⟨segs, bytes, k₁, k', hpaired, hrest, ?_, List.prefix_append _ _,
          fun hstage => ?_⟩⟩
      · have harrived := hc.arrived
        rw [hsplit, List.append_assoc] at harrived
        exact (List.prefix_append_right_inj record).mp harrived
      · obtain ⟨hall, hcipher, hwire'⟩ := hc.going hstage
        refine ⟨?_, hcipher, ?_⟩
        · rw [hsplit, List.append_assoc, List.append_assoc] at hall
          rw [List.append_assoc]
          exact List.append_cancel_left hall
        · rw [← hwire, List.cons_append] at hwire'
          exact (List.cons.inj hwire').2

/-! ### The simulation -/

/-- The two ends over bytes are the two ends over segments. -/
structure Refines (noise : Noise κ) (Paired : κ → κ → Prop) (w : Wire κ) (l : Link) : Prop where
  ends : l.ends = w.ends
  reading : ∀ s : Role, (w.reader.get s.other).running = true →
    l.reader.get s.other = true ∧
      Stands noise Paired (w.writer.get s) (w.pipe.get s) (w.reader.get s.other) (l.wire.get s)

variable {w w' : Wire κ} {l l' : Link} {s : Role} {ev : Event} {obs : Endpoint.Obs}

/-- A step of the writer of side `s`. -/
theorem Refines.of_writer (h : Refines noise Paired w l) (s : Role) (hends : l'.ends = w'.ends)
    (hreader : w'.reader = w.reader) (hlink : l'.reader = l.reader)
    (hwriter : w'.writer.get s.other = w.writer.get s.other)
    (hpipe : w'.pipe.get s.other = w.pipe.get s.other)
    (hwire : l'.wire.get s.other = l.wire.get s.other)
    (hstands : Stands noise Paired (w.writer.get s) (w.pipe.get s) (w.reader.get s.other)
        (l.wire.get s) →
      Stands noise Paired (w'.writer.get s) (w'.pipe.get s) (w.reader.get s.other)
        (l'.wire.get s)) :
    Refines noise Paired w' l' := by
  refine ⟨hends, Link.sides_cases s h.reading ?_ ?_⟩
  · intro hrunning
    rw [hreader] at hrunning ⊢
    rw [hlink]
    obtain ⟨hreads, hold⟩ := h.reading s hrunning
    exact ⟨hreads, hstands hold⟩
  · intro hother hrunning
    rw [hreader] at hrunning ⊢
    rw [hlink, hwriter, hpipe, hwire]
    exact hother hrunning

/-- A step of the reader of side `s`. -/
theorem Refines.of_reader (h : Refines noise Paired w l) (s : Role) (hends : l'.ends = w'.ends)
    (hwriter : w'.writer = w.writer) (hreader : w'.reader.get s.other = w.reader.get s.other)
    (hlink : l'.reader.get s.other = l.reader.get s.other)
    (hpipe : w'.pipe.get s = w.pipe.get s) (hwire : l'.wire.get s = l.wire.get s)
    (hself : (w'.reader.get s).running = true → l'.reader.get s = true ∧
      Stands noise Paired (w.writer.get s.other) (w'.pipe.get s.other) (w'.reader.get s)
        (l'.wire.get s.other)) :
    Refines noise Paired w' l' := by
  refine ⟨hends, Link.sides_cases s h.reading ?_ ?_⟩
  · intro hrunning
    rw [hreader] at hrunning ⊢
    rw [hlink, hwriter, hpipe, hwire]
    exact h.reading s hrunning
  · intro _ hrunning
    rw [Role.other_other] at hrunning ⊢
    rw [hwriter]
    exact hself hrunning

/-- What the running reader of side `s` reads from. -/
theorem Refines.incoming (h : Refines noise Paired w l) (hrunning : (w.reader.get s).running = true) :
    l.reader.get s = true ∧
      Stands noise Paired (w.writer.get s.other) (w.pipe.get s.other) (w.reader.get s)
        (l.wire.get s.other) := by
  have hback := h.reading s.other
  rw [Role.other_other] at hback
  exact hback hrunning

/-- What a step must be on the link of segments. -/
def Matched (noise : Noise κ) (Paired : κ → κ → Prop) (w' : Wire κ) (l : Link)
    (entry : Event × Endpoint.Obs) : Prop :=
  match shows entry with
  | none => Refines noise Paired w' l
  | some (ev, obs) => ∃ l', Link.step l ev = some (l', obs) ∧ Refines noise Paired w' l'

theorem matched_op (h : Refines noise Paired w l) {o : Endpoint.LocalOp}
    (hstep : step noise w (.op s o) = some (w', obs)) :
    Matched noise Paired w' l (.op s o, obs) := by
  obtain ⟨⟨e, obs'⟩, hr, hnext⟩ := Option.bind_eq_some_iff.mp hstep
  cases hnext
  refine ⟨{ l with ends := l.ends.set s e }, ?_, ⟨?_, h.reading⟩⟩
  · unfold Link.step
    dsimp only
    rw [h.ends, hr]
    rfl
  · change l.ends.set s e = w.ends.set s e
    rw [h.ends]

theorem matched_gather (h : Refines noise Paired w l)
    (hstep : step noise w (.gather s) = some (w', obs)) :
    Matched noise Paired w' l (.gather s, obs) := by
  unfold step at hstep
  dsimp only at hstep
  split at hstep
  · next n hstage =>
      split at hstep
      · obtain ⟨⟨seg, e⟩, ht, hnext⟩ := Option.bind_eq_some_iff.mp hstep
        cases hnext
        refine ⟨{ l with ends := l.ends.set s e, wire := l.wire.set s (l.wire.get s ++ [seg]) },
          ?_, ?_⟩
        · unfold Link.step
          dsimp only
          rw [h.ends, ht]
          rfl
        · refine h.of_writer s ?_ rfl rfl (by simp) rfl (by simp) fun hold => ?_
          · change l.ends.set s e = w.ends.set s e
            rw [h.ends]
          · dsimp only
            rw [Sides.get_set_self, Sides.get_set_self]
            exact hold.gather hstage
      · cases hstep
  · cases hstep

theorem matched_sealNext (h : Refines noise Paired w l)
    (hstep : step noise w (.sealNext s) = some (w', obs)) :
    Matched noise Paired w' l (.sealNext s, obs) := by
  unfold step at hstep
  dsimp only at hstep
  split at hstep
  · next n seg hstage =>
      split at hstep
      · cases hstep
      · next record cipher hseal =>
          cases hstep
          refine h.of_writer s h.ends rfl rfl (by simp) rfl rfl fun hold => ?_
          dsimp only
          rw [Sides.get_set_self]
          exact hold.sealNext hstage hseal
  · cases hstep

/-- The link going away under a side. -/
theorem Refines.lose (h : Refines noise Paired w l) (err : Option TransportError) :
    ∃ l', Link.step l (.lose s err) = some (l', .silent) ∧
      l'.ends = w.ends.set s ((w.ends.get s).shutdown err) ∧ l'.wire = l.wire ∧
      l'.reader = l.reader := by
  refine ⟨{ l with ends := l.ends.set s ((l.ends.get s).shutdown err) }, rfl, ?_, rfl, rfl⟩
  rw [h.ends]

theorem matched_sealFails (h : Refines noise Paired w l) {err : TransportError}
    (hstep : step noise w (.sealFails s err) = some (w', obs)) :
    Matched noise Paired w' l (.sealFails s err, obs) := by
  unfold step at hstep
  dsimp only at hstep
  split at hstep
  · split at hstep
    · split at hstep
      · cases hstep
        obtain ⟨l', hlose, hends, hwire, hreader⟩ := h.lose (s := s) (some err)
        refine ⟨l', hlose, h.of_writer s hends rfl hreader (by simp) rfl (by rw [hwire])
          fun hold => ?_⟩
        dsimp only
        rw [Sides.get_set_self, hwire]
        exact hold.ended
      · cases hstep
    · cases hstep
  · cases hstep

theorem matched_flush (h : Refines noise Paired w l)
    (hstep : step noise w (.flush s) = some (w', obs)) :
    Matched noise Paired w' l (.flush s, obs) := by
  unfold step at hstep
  dsimp only at hstep
  split at hstep
  · next n hstage =>
      have hpicked : picked (w.writer.get s).stage = [] := by
        rw [hstage]
        rfl
      have hlive : (w.writer.get s).stage ≠ .ended := by
        rw [hstage]
        exact fun h => nomatch h
      split at hstep
      · cases hstep
      · split at hstep
        · cases hstep
          refine h.of_writer s h.ends rfl rfl (by simp) rfl rfl fun hold => ?_
          dsimp only
          rw [Sides.get_set_self]
          exact hold.move hpicked rfl hlive rfl
        · split at hstep
          · cases hstep
            refine h.of_writer s h.ends rfl rfl (by simp) rfl rfl fun hold => ?_
            dsimp only
            rw [Sides.get_set_self]
            exact hold.ended
          · cases hstep
  · cases hstep

theorem matched_write (h : Refines noise Paired w l) {n : Nat}
    (hstep : step noise w (.write s n) = some (w', obs)) :
    Matched noise Paired w' l (.write s n, obs) := by
  unfold step at hstep
  dsimp only at hstep
  split at hstep
  · next hstage =>
      have hpicked : picked (w.writer.get s).stage = [] := by
        rw [hstage]
        rfl
      have hlive : (w.writer.get s).stage ≠ .ended := by
        rw [hstage]
        exact fun h => nomatch h
      split at hstep
      · cases hstep
        refine h.of_writer s h.ends rfl rfl (by simp) (by simp) rfl fun hold => ?_
        dsimp only
        rw [Sides.get_set_self, Sides.get_set_self]
        refine hold.move hpicked ?_ hlive ?_
        · split
          · rfl
          · rfl
        · rw [List.append_assoc, List.append_assoc, List.take_append_drop, List.append_assoc]
          rfl
      · cases hstep
  · cases hstep

theorem matched_writeFails (h : Refines noise Paired w l)
    (hstep : step noise w (.writeFails s) = some (w', obs)) :
    Matched noise Paired w' l (.writeFails s, obs) := by
  unfold step at hstep
  dsimp only at hstep
  split at hstep
  · cases hstep
    obtain ⟨l', hlose, hends, hwire, hreader⟩ := h.lose (s := s) (some .connectionLost)
    refine ⟨l', hlose, h.of_writer s hends rfl hreader (by simp) rfl (by rw [hwire])
      fun hold => ?_⟩
    dsimp only
    rw [Sides.get_set_self, hwire]
    exact hold.ended
  · cases hstep

theorem matched_read (h : Refines noise Paired w l) {n : Nat}
    (hstep : step noise w (.read s n) = some (w', obs)) :
    Matched noise Paired w' l (.read s n, obs) := by
  unfold step at hstep
  dsimp only at hstep
  split at hstep
  · next hok =>
      cases hstep
      obtain ⟨hreads, hold⟩ := h.incoming hok.1
      refine h.of_reader s h.ends rfl (by simp) rfl (by simp) rfl fun _ => ⟨hreads, ?_⟩
      dsimp only
      rw [Sides.get_set_self, Sides.get_set_self]
      exact hold.read n
  · cases hstep

theorem matched_readFails (h : Refines noise Paired w l) {err : Option TransportError}
    (hstep : step noise w (.readFails s err) = some (w', obs)) :
    Matched noise Paired w' l (.readFails s err, obs) := by
  unfold step at hstep
  dsimp only at hstep
  split at hstep
  · cases hstep
    obtain ⟨l', hlose, hends, hwire, hreader⟩ := h.lose (s := s) err
    refine ⟨l', hlose, h.of_reader s hends rfl (by simp) (by rw [hreader]) rfl (by rw [hwire])
      fun hrunning => ?_⟩
    dsimp only at hrunning
    rw [Sides.get_set_self] at hrunning
    cases hrunning
  · cases hstep

/-- A record that is handled is the oldest segment on the wire. -/
theorem matched_handle (hlaw : noise.Lawful Paired) (h : Refines noise Paired w l)
    (hstep : step noise w (.handle s) = some (w', obs)) :
    Matched noise Paired w' l (.handle s, obs) := by
  unfold step at hstep
  dsimp only at hstep
  split at hstep
  · next hrunning =>
      obtain ⟨⟨e, rd, result⟩, hdrain, hnext⟩ := Option.bind_eq_some_iff.mp hstep
      cases hnext
      obtain ⟨hreads, hold⟩ := h.incoming hrunning
      have hfront : front (w.reader.get s).pending ≠ .incomplete := by
        intro hincomplete
        unfold drainRecord at hdrain
        rw [hincomplete] at hdrain
        cases hdrain
      obtain ⟨seg, rest, sealed, pending, cipher, hwire, hfront', hread, hstands⟩ :=
        hold.front hlaw hfront
      unfold drainRecord at hdrain
      rw [hfront'] at hdrain
      dsimp only at hdrain
      rw [hread] at hdrain
      cases hdrain
      apply Exists.intro
      constructor
      · unfold Link.step
        dsimp only
        rw [hwire]
        dsimp only
        rw [if_pos hreads, h.ends]
        rfl
      · refine h.of_reader s ?_ rfl (by simp) (by simp) rfl (by simp) fun hgoing => ⟨?_, ?_⟩
        · rfl
        · dsimp only at hgoing ⊢
          rw [Sides.get_set_self] at hgoing ⊢
          exact hgoing
        · dsimp only
          rw [Sides.get_set_self, Sides.get_set_self]
          exact hstands _
  · cases hstep

/-- **Every step over bytes is a step over segments, or none.** -/
theorem Refines.step (hlaw : noise.Lawful Paired) (h : Refines noise Paired w l)
    (hstep : Wire.step noise w ev = some (w', obs)) : Matched noise Paired w' l (ev, obs) := by
  cases ev with
  | op s o => exact matched_op h hstep
  | gather s => exact matched_gather h hstep
  | sealNext s => exact matched_sealNext h hstep
  | sealFails s err => exact matched_sealFails h hstep
  | flush s => exact matched_flush h hstep
  | write s n => exact matched_write h hstep
  | writeFails s => exact matched_writeFails h hstep
  | read s n => exact matched_read h hstep
  | readFails s err => exact matched_readFails h hstep
  | handle s => exact matched_handle hlaw h hstep

theorem spawn_refines (noise : Noise κ) {cfg : MuxConfig} {sending receiving : Sides κ} {w₀ : Wire κ}
    (hkeys : ∀ s : Role, Paired (sending.get s) (receiving.get s.other))
    (hinit : spawn cfg sending receiving = .ok w₀) :
    ∃ l₀, Link.spawn cfg = .ok l₀ ∧ Refines noise Paired w₀ l₀ := by
  unfold spawn at hinit
  unfold Link.spawn
  cases hi : Endpoint.spawn cfg .initiator with
  | error err =>
      rw [hi] at hinit
      cases hinit
  | ok ei =>
      cases hr : Endpoint.spawn cfg .responder with
      | error err =>
          rw [hi, hr] at hinit
          cases hinit
      | ok er =>
          rw [hi, hr] at hinit
          cases hinit
          refine ⟨_, rfl, rfl, fun s _ => ?_⟩
          have hkey := hkeys s
          cases s with
          | initiator =>
              exact ⟨rfl, [], [], _, _, hkey, .nil _, List.prefix_rfl, List.prefix_rfl,
                fun _ => ⟨rfl, rfl, rfl⟩⟩
          | responder =>
              exact ⟨rfl, [], [], _, _, hkey, .nil _, List.prefix_rfl, List.prefix_rfl,
                fun _ => ⟨rfl, rfl, rfl⟩⟩

end Wire

end Mux
