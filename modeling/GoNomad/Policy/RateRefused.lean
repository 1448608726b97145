import GoNomad.Policy.RateHeld

/-!
# What a refused call leaves

An acquisition passes two limits one after the other, and the first may make the
bucket of its key before the second refuses.  Whichever of them refuses, nothing is
counted and nothing is charged.

* `tryAcquireSlot_full` — at the concurrency ceiling the limiter stays as it is;
* `tryAcquire_refused` — a bucket that refuses is refilled, and no token is taken;
* `reserveBytes_refused_iff` — bytes are refused by their sum, which does not wrap;
* `refusals_spare` — what every refusal leaves as it was.
-/

namespace Policy

open Proto

namespace RateLimiter

variable {rl rl' : RateLimiter} {device : DeviceId} {cls : OperationClass}
variable {now now' : Duration} {err : ProtoError}

/-- What a refused call leaves as it was: the slots and bytes that are counted for every
key, and every bucket but that of its own key. -/
structure Spared (k : Key) (rl rl' : RateLimiter) : Prop where
  lent : rl'.lent = rl.lent
  elsewhere : ∀ k', k' ≠ k → rl' k' = rl k'

/-! ### The concurrency ceiling -/

/-- No ceiling of the limits table is zero. -/
theorem maxConcurrent_pos {ceiling : UInt32} (h : cls.limits.maxConcurrent = some ceiling) :
    0 < ceiling := by
  cases cls <;> cases h <;> decide

/-- **At the ceiling nothing changes**: a key that counts that many slots has its bucket
already. -/
theorem tryAcquireSlot_full {ceiling : UInt32} (h : cls.limits.maxConcurrent = some ceiling)
    (hfull : ceiling ≤ rl.inFlight device cls) (now now' : Duration) :
    rl.tryAcquireSlot device cls now now' = (rl, .error (exhausted cls ceiling.toNat)) := by
  have hpos := maxConcurrent_pos h
  obtain ⟨b, hb⟩ : ∃ b, rl (key device cls) = some b := by
    apply Option.ne_none_iff_exists'.mp
    intro hnone
    have hzero : rl.inFlight device cls = 0 := by
      unfold inFlight lent
      rw [hnone]
    rw [hzero] at hfull
    exact absurd hpos (UInt32.not_lt.mpr hfull)
  have hcount : rl.inFlight device cls = b.inFlight := by
    unfold inFlight lent
    rw [hb]
  have hsame : rl.put (key device cls) b = rl := Function.update_eq_self_iff.mpr hb.symm
  unfold tryAcquireSlot
  dsimp only
  rw [h, bucket_of_some hb]
  dsimp only
  rw [if_pos (hcount ▸ hfull), hsame]

/-! ### The bucket -/

/-- **A bucket that refuses** is refilled; it holds no whole token, and none is taken. -/
theorem tryAcquire_refused (h : rl.tryAcquire device cls now = (rl', .error err)) :
    rl' = rl.put (key device cls) ((rl.bucket (key device cls) now).refill now cls.limits) ∧
      ((rl.bucket (key device cls) now).refill now cls.limits).tokens < tokenScale := by
  unfold tryAcquire at h
  dsimp only at h
  split_ifs at h with hunrated
  · cases h
  · unfold Bucket.tryTakeToken at h
    split_ifs at h with htoken
    · cases h
    · obtain ⟨hput, -⟩ := Prod.mk.inj h
      exact ⟨hput.symm, Nat.not_le.mp htoken⟩

theorem spared_tryAcquire (h : rl.tryAcquire device cls now = (rl', .error err)) :
    Spared (key device cls) rl rl' := by
  have hlent := @lent_tryAcquire rl device cls now
  rw [h] at hlent
  refine ⟨hlent, fun k' hk => ?_⟩
  rw [(tryAcquire_refused h).1]
  exact put_of_ne _ (Ne.symm hk)

theorem spared_tryAcquireSlot (h : rl.tryAcquireSlot device cls now now' = (rl', .error err)) :
    Spared (key device cls) rl rl' := by
  refine ⟨?_, fun k' hk => ?_⟩
  · obtain ⟨_, -, hlent⟩ | ⟨hok, -⟩ := lent_tryAcquireSlot h
    · exact hlent
    · cases hok
  · have htouches : (Op.tryAcquireSlot device cls now now').touches k' = false :=
      decide_eq_false (Ne.symm hk)
    have hsame := apply_elsewhere rl htouches
    dsimp only [apply] at hsame
    rw [h] at hsame
    exact hsame

/-! ### Bytes -/

/-- **Bytes are refused by their sum**: a request of any size is refused exactly when it
and what is reserved exceed the ceiling, as numbers. -/
theorem reserveBytes_refused_iff {ceiling : UInt64}
    (h : cls.limits.maxBytesInFlight = some ceiling) (bytes : UInt64) (now : Duration) :
    (∃ rl' err, rl.reserveBytes device cls bytes now = (rl', .error err)) ↔
      ceiling.toNat < rl.bytesInFlight device cls + bytes.toNat := by
  have hlt := maxBytes_lt h
  have hcount : (rl.bucket (key device cls) now).bytesInFlight = rl.bytesInFlight device cls :=
    congrArg Prod.snd (bucket_lent rl (key device cls) now)
  unfold reserveBytes
  dsimp only
  rw [h]
  dsimp only
  rw [hcount]
  split_ifs with hover
  · refine iff_of_true ⟨_, _, rfl⟩ ?_
    omega
  · refine iff_of_false ?_ ?_
    · intro ⟨_, _, hrefused⟩
      cases hrefused
    · omega

theorem spared_reserveBytes {bytes : UInt64}
    (h : rl.reserveBytes device cls bytes now = (rl', .error err)) :
    Spared (key device cls) rl rl' := by
  refine ⟨?_, fun k' hk => ?_⟩
  · obtain ⟨_, -, hlent⟩ | ⟨_, hok, -⟩ := lent_reserveBytes h
    · exact hlent
    · cases hok
  · have htouches : (Op.reserveBytes device cls bytes now).touches k' = false :=
      decide_eq_false (Ne.symm hk)
    have hsame := apply_elsewhere rl htouches
    dsimp only [apply] at hsame
    rw [h] at hsame
    exact hsame

/-- **What refusals leave as it was**, in every state of the limiter: at the concurrency
ceiling everything, and so every token; otherwise every count and every other bucket.
Bytes are refused only where their sum exceeds the ceiling. -/
theorem refusals_spare (rl : RateLimiter) (device : DeviceId) (cls : OperationClass) :
    (∀ ceiling now now', cls.limits.maxConcurrent = some ceiling →
      ceiling ≤ rl.inFlight device cls →
      rl.tryAcquireSlot device cls now now' = (rl, .error (exhausted cls ceiling.toNat))) ∧
    (∀ now now' rl' err, rl.tryAcquireSlot device cls now now' = (rl', .error err) →
      Spared (key device cls) rl rl') ∧
    (∀ now rl' err, rl.tryAcquire device cls now = (rl', .error err) →
      Spared (key device cls) rl rl') ∧
    (∀ (bytes : UInt64) now rl' err, rl.reserveBytes device cls bytes now = (rl', .error err) →
      Spared (key device cls) rl rl') ∧
    ∀ ceiling (bytes : UInt64) now, cls.limits.maxBytesInFlight = some ceiling →
      ((∃ rl' err, rl.reserveBytes device cls bytes now = (rl', .error err)) ↔
        ceiling.toNat < rl.bytesInFlight device cls + bytes.toNat) :=
  ⟨fun _ now now' h hfull => tryAcquireSlot_full h hfull now now',
    fun _ _ _ _ => spared_tryAcquireSlot, fun _ _ _ => spared_tryAcquire,
    fun _ _ _ _ => spared_reserveBytes, fun _ bytes now h => reserveBytes_refused_iff h bytes now⟩

/-- The send buffer holds all it may, and is asked for the largest number of bytes. -/
def fullBuffer : RateLimiter :=
  new.put (none, .sendBuffer) ⟨0, .ofNanos 4, 0, maxSendBufferBytes⟩

/-- A sum that would wrap is refused, and the bytes that are reserved stay. -/
theorem refusals_spare_buffer :
    Spared (none, .sendBuffer) fullBuffer
      (fullBuffer.reserveBytes (.replicate 1) .sendBuffer (UInt64.ofNat u64Max) (.ofNanos 5)).1 := by
  obtain ⟨-, -, -, hspared, hiff⟩ := refusals_spare fullBuffer (.replicate 1) .sendBuffer
  obtain ⟨rl', err, hrefused⟩ :=
    (hiff (UInt64.ofNat maxSendBufferBytes) (UInt64.ofNat u64Max) (.ofNanos 5) rfl).mpr
      (by decide +kernel)
  have hsame := hspared (UInt64.ofNat u64Max) (.ofNanos 5) rl' err hrefused
  rw [hrefused]
  exact hsame

end RateLimiter

end Policy
