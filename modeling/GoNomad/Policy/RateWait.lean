import GoNomad.Policy.RateRefill

/-!
# How long to wait

A refused attempt says after how many milliseconds a token will be there.  The
wait is a deficit in units, rounded up; the refill counts units, rounded down.

* `lastRefill_le` — no bucket was refilled later than the clock was read;
* `retry_after_true` — an attempt that waits as long as it was told is granted,
  and one that comes more than two milliseconds early is refused.
-/

namespace Policy

open Proto Accrual

namespace RateLimiter

variable {rl rl' : RateLimiter} {k : Key} {op : Op} {ops : List Op} {device : DeviceId}
variable {cls : OperationClass} {rate : Refill} {b : Bucket} {now now' : Duration} {latest : Nat}

/-! ### No refill is later than the readings -/

/-- Every bucket was last refilled no later than `latest`. -/
def Behind (rl : RateLimiter) (latest : Nat) : Prop :=
  ∀ k b, rl k = some b → b.lastRefill.nanos ≤ latest

theorem Behind.put (h : Behind rl latest) (hb : b.lastRefill.nanos ≤ latest) :
    Behind (rl.put k b) latest := by
  intro k' b' hb'
  by_cases hk : k = k'
  · subst hk
    rw [put_self] at hb'
    cases hb'
    exact hb
  · rw [put_of_ne b hk] at hb'
    exact h k' b' hb'

theorem Behind.bucket (h : Behind rl latest) (hnow : now.nanos ≤ latest) :
    (rl.bucket k now).lastRefill.nanos ≤ latest := by
  cases hb : rl k with
  | none =>
      rw [bucket_of_none hb]
      exact hnow
  | some b =>
      rw [bucket_of_some hb]
      exact h k b hb

theorem refill_behind (hb : b.lastRefill.nanos ≤ latest) (hnow : now.nanos ≤ latest) :
    (b.refill now cls.limits).lastRefill.nanos ≤ latest := by
  cases hrefill : cls.limits.refill with
  | none =>
      rw [Bucket.refill_of_none hrefill]
      exact hb
  | some rate =>
      rw [(Bucket.refill_spec hrefill b now).1]
      exact look_le hb hnow

theorem tryTakeToken_lastRefill (b : Bucket) : b.tryTakeToken.1.lastRefill = b.lastRefill := by
  obtain ⟨tokens, last, inFlight, bytes⟩ := b
  unfold Bucket.tryTakeToken
  split_ifs <;> rfl

/-- An attempt leaves the buckets alone or refills one and takes from it. -/
theorem tryAcquire_fst (rl : RateLimiter) (device : DeviceId) (cls : OperationClass)
    (now : Duration) : (rl.tryAcquire device cls now).1 = rl ∨
      (rl.tryAcquire device cls now).1 = rl.put (key device cls)
        ((rl.bucket (key device cls) now).refill now cls.limits).tryTakeToken.1 := by
  unfold tryAcquire
  dsimp only
  split_ifs
  · exact .inl rfl
  · rcases ((rl.bucket (key device cls) now).refill now cls.limits).tryTakeToken with
      ⟨b, ok | ok⟩
    · exact .inr rfl
    · exact .inr rfl

theorem Behind.tryAcquire (h : Behind rl latest) (hnow : now.nanos ≤ latest) :
    Behind (rl.tryAcquire device cls now).1 latest := by
  rcases tryAcquire_fst rl device cls now with hsame | hput
  · rw [hsame]
    exact h
  · rw [hput]
    apply h.put
    rw [tryTakeToken_lastRefill]
    exact refill_behind (h.bucket hnow) hnow

theorem Behind.takeSlot (h : Behind rl latest) (hnow : now.nanos ≤ latest)
    (hnow' : now'.nanos ≤ latest) : Behind (rl.takeSlot device cls now now').1 latest := by
  have hacquired := @Behind.tryAcquire rl device cls now' latest h hnow'
  unfold RateLimiter.takeSlot
  dsimp only
  rcases htry : rl.tryAcquire device cls now' with ⟨rl', err | ok⟩
  all_goals rw [htry] at hacquired
  · exact hacquired
  · exact hacquired.put (hacquired.bucket hnow)

/-- A call refills no bucket later than its readings. -/
theorem Behind.apply (h : Behind rl latest) (hreadings : ∀ t ∈ op.readings, t ≤ latest) :
    Behind (rl.apply op).1 latest := by
  cases op with
  | tryAcquire device cls now => exact h.tryAcquire (hreadings _ (.head _))
  | tryAcquireSlot device cls now now' =>
      have hnow : now.nanos ≤ latest := hreadings _ (.head _)
      have hnow' : now'.nanos ≤ latest := hreadings _ (.tail _ (.head _))
      unfold RateLimiter.apply tryAcquireSlot
      dsimp only
      cases cls.limits.maxConcurrent with
      | none => exact h.takeSlot hnow hnow'
      | some ceiling =>
          dsimp only
          split_ifs
          · exact h.put (h.bucket hnow)
          · exact (h.put (h.bucket hnow)).takeSlot hnow hnow'
  | release slot =>
      unfold RateLimiter.apply release
      dsimp only
      cases hb : rl slot.key with
      | none => exact h
      | some b => exact h.put (h _ b hb)
  | reserveBytes device cls bytes now =>
      have hnow : now.nanos ≤ latest := hreadings _ (.head _)
      unfold RateLimiter.apply reserveBytes
      dsimp only
      cases cls.limits.maxBytesInFlight with
      | none => exact h
      | some ceiling =>
          dsimp only
          split_ifs
          · exact h.put (h.bucket hnow)
          · exact h.put (h.bucket hnow)
  | releaseBytes reservation =>
      unfold RateLimiter.apply releaseBytes
      dsimp only
      cases hb : rl reservation.key with
      | none => exact h
      | some b => exact h.put (h _ b hb)
  | reset device cls now => exact h.put (hreadings _ (.head _))
  | forgetDevice device =>
      intro k b hb
      change (if k.1 = some device then none else rl k) = some b at hb
      split_ifs at hb
      exact h k b hb

/-- **No bucket was refilled later than the clock was read.** -/
theorem lastRefill_le (h : Behind rl latest)
    (hreadings : ∀ t ∈ ops.flatMap Op.readings, t ≤ latest) : Behind (rl.after ops) latest := by
  induction ops generalizing rl with
  | nil => exact h
  | cons op ops ih =>
      rw [List.flatMap_cons] at hreadings
      exact ih (h.apply fun t ht => hreadings t (List.mem_append_left _ ht))
        fun t ht => hreadings t (List.mem_append_right _ ht)

/-! ### The wait -/

/-- The wait is the time of the deficit, in whole milliseconds and rounded up. -/
theorem toNat_retryAfterMs (h : cls.limits.refill = some rate) {tokens : Nat}
    (htokens : tokens < tokenScale) : (retryAfterMs tokens rate).toNat =
      ((tokenScale - tokens) * cls.unit + 999999) / 1000000 := by
  obtain ⟨hper, hunit, hslow, hpos, hsmall, -⟩ := unit_of_refill h
  have hscale : tokenScale = 1000000 := rfl
  have htokens' : 0 < rate.tokens.toNat := by
    have hne : rate.tokens.toNat ≠ 0 := fun hzero => hpos (UInt32.toNat_inj.mp hzero)
    omega
  have hrate : 0 < rate.tokens.toNat * tokenScale := by
    rw [hscale]
    omega
  have hwords : rate.tokens.toNat * tokenScale ≤ u128Max := by
    rw [hscale]
    unfold u128Max
    omega
  have hper' : rate.per.nanos ≤ 6000 * (100 * 1000000) := by
    rw [hper, hscale]
    exact Nat.mul_le_mul hslow (Nat.mul_le_mul_right _ hsmall)
  have hdeficit : (tokenScale - tokens) * rate.per.nanos ≤ 1000000 * (6000 * (100 * 1000000)) :=
    Nat.mul_le_mul (Nat.sub_le _ _) hper'
  have hproduct : (tokenScale - tokens) * rate.per.nanos ≤ u128Max := by
    unfold u128Max
    omega
  have hwait : (tokenScale - tokens) * cls.unit ≤ 1000000 * 6000 :=
    Nat.mul_le_mul (Nat.sub_le _ _) hslow
  have hsome : 1 ≤ (tokenScale - tokens) * cls.unit := Nat.mul_pos (by omega) hunit
  have hnanos : (tokenScale - tokens) * rate.per.nanos / (rate.tokens.toNat * tokenScale) =
      (tokenScale - tokens) * cls.unit := by
    rw [hper, ← Nat.mul_assoc]
    exact Nat.mul_div_cancel _ hrate
  unfold retryAfterMs
  dsimp only
  rw [Nat.min_eq_left hwords, if_neg hrate.ne', Nat.min_eq_left hproduct, hnanos]
  have hms : ((tokenScale - tokens) * cls.unit + 999999) / 1000000 ≤ 6000 := by omega
  rw [Nat.max_eq_left (by omega), if_pos (by unfold u32Max; omega), UInt32.toNat_ofNat']
  omega

/-- What an attempt of a class with a rate comes to. -/
theorem tryAcquire_of_refill (h : cls.limits.refill = some rate) (rl : RateLimiter)
    (device : DeviceId) (now : Duration) :
    let filled := (rl.bucket (key device cls) now).refill now cls.limits
    rl.tryAcquire device cls now =
      if tokenScale ≤ filled.tokens then
        (rl.put (key device cls) { filled with tokens := filled.tokens - tokenScale }, .ok ())
      else
        (rl.put (key device cls) filled,
          .error (.rateLimited (retryAfterMs filled.tokens rate))) := by
  have hrated : ¬ (cls.limits.refill = none ∧ cls.limits.burst = 0) := by
    rw [h]
    exact fun hfree => nomatch hfree.1
  unfold tryAcquire Bucket.tryTakeToken
  dsimp only
  rw [if_neg hrated, h]
  split_ifs
  · rfl
  · rfl

/-- A refill makes up a deficit exactly when the time of the deficit has gone by. -/
theorem refilled_iff (h : cls.limits.refill = some rate) (hshort : b.tokens < tokenScale)
    (now : Duration) : tokenScale ≤ (b.refill now cls.limits).tokens ↔
      (tokenScale - b.tokens) * cls.unit ≤ now.nanos - b.lastRefill.nanos := by
  obtain ⟨-, hunit, -, -, -, hburst⟩ := unit_of_refill h
  have hcap : tokenScale ≤ capacity cls.limits := Nat.le_mul_of_pos_left _ hburst
  rw [(Bucket.refill_spec h b now).2, ← Nat.le_div_iff_mul_le hunit]
  split_ifs <;> omega

/-- A class that says when to retry has a rate. -/
theorem refill_of_rateLimited {ms : UInt32}
    (h : (rl.tryAcquire device cls now).2 = .error (.rateLimited ms)) :
    ∃ rate, cls.limits.refill = some rate := by
  cases hrefill : cls.limits.refill with
  | some rate => exact ⟨rate, rfl⟩
  | none =>
      unfold tryAcquire at h
      dsimp only at h
      rw [hrefill] at h
      split_ifs at h
      rcases htake : ((rl.bucket (key device cls) now).refill now cls.limits).tryTakeToken with
        ⟨b, ok | ok⟩
      all_goals
        rw [htake] at h
        cases h

/-- Calls about other buckets leave a bucket alone. -/
theorem after_elsewhere (h : ∀ op ∈ ops, op.touches k = false) : rl.after ops k = rl k := by
  induction ops generalizing rl with
  | nil => rfl
  | cons op ops ih =>
      rw [after, ih fun op hop => h op (.tail _ hop)]
      exact apply_elsewhere rl (h op (.head _))

/-! ### What a refusal promises -/

/-- What a refusal leaves: a bucket short of a token, in which less than a unit
has accrued, and the wait for the rest. -/
theorem refusal {ms : UInt32} (hrefill : cls.limits.refill = some rate)
    (hbehind : Behind rl now.nanos)
    (h : (rl.tryAcquire device cls now).2 = .error (.rateLimited ms)) :
    ∃ b, (rl.tryAcquire device cls now).1 (key device cls) = some b ∧ b.tokens < tokenScale ∧
      b.lastRefill.nanos ≤ now.nanos ∧ now.nanos - b.lastRefill.nanos < cls.unit ∧
      ms.toNat = ((tokenScale - b.tokens) * cls.unit + 999999) / 1000000 := by
  have hspec := tryAcquire_of_refill hrefill rl device now
  dsimp only at hspec
  by_cases hfull : tokenScale ≤ ((rl.bucket (key device cls) now).refill now cls.limits).tokens
  · rw [hspec, if_pos hfull] at h
    cases h
  · rw [hspec, if_neg hfull] at h ⊢
    have hshort := Nat.lt_of_not_le hfull
    have hms : retryAfterMs _ rate = ms :=
      ErrorKind.rateLimited.inj (congrArg ProtoError.kind (Except.error.inj h))
    refine ⟨_, put_self _ _ _, hshort, ?_, ?_, ?_⟩
    · exact refill_behind (hbehind.bucket (Nat.le_refl _)) (Nat.le_refl _)
    · rw [(Bucket.refill_spec hrefill _ now).1]
      exact look_recent (unit_of_refill hrefill).2.1 now.nanos
    · rw [← hms]
      exact toNat_retryAfterMs hrefill hshort

/-- **A refusal tells how long to wait.**  After any calls up to now, an attempt
that is refused for `ms` milliseconds says at least one; whatever happens to other
buckets in between, one that comes `ms` later is granted, and one that comes more
than two milliseconds before that is refused. -/
theorem retry_after_true (ops : List Op) (device : DeviceId) (cls : OperationClass)
    (now : Duration) (ms : UInt32)
    (hreadings : (ops.flatMap Op.readings ++ [now.nanos]).Pairwise (· ≤ ·))
    (hrefused : ((new.after ops).tryAcquire device cls now).2 = .error (.rateLimited ms)) :
    1 ≤ ms.toNat ∧
    ∀ between, (∀ op ∈ between, op.touches (key device cls) = false) →
      let rl := ((new.after ops).tryAcquire device cls now).1.after between
      (∀ later : Duration, now.nanos + ms.toNat * 1000000 ≤ later.nanos →
        (rl.tryAcquire device cls later).2 = .ok ()) ∧
      ∀ early : Duration, now.nanos ≤ early.nanos →
        early.nanos + 2 * 1000000 < now.nanos + ms.toNat * 1000000 →
        ∃ again, (rl.tryAcquire device cls early).2 = .error (.rateLimited again) := by
  obtain ⟨rate, hrefill⟩ := refill_of_rateLimited hrefused
  obtain ⟨-, hunit, hslow, -, -, -⟩ := unit_of_refill hrefill
  have hbehind : Behind (new.after ops) now.nanos := by
    refine lastRefill_le (fun k b hb => nomatch hb) fun t ht => ?_
    exact (List.pairwise_append.mp hreadings).2.2 t ht _ (.head _)
  obtain ⟨b, hb, hshort, hlast, hrecent, hms⟩ := refusal hrefill hbehind hrefused
  have hdeficit : 1 ≤ (tokenScale - b.tokens) * cls.unit := Nat.mul_pos (by omega) hunit
  refine ⟨by omega, fun between hbetween => ?_⟩
  intro rl
  have hkept : rl (key device cls) = some b := (after_elsewhere hbetween).trans hb
  refine ⟨fun later hlater => ?_, fun early hnow hearly => ?_⟩
  · have hfull := (refilled_iff hrefill hshort later).mpr (by omega)
    have hspec := tryAcquire_of_refill hrefill rl device later
    dsimp only at hspec
    rw [bucket_of_some hkept, if_pos hfull] at hspec
    rw [hspec]
  · have hless := mt (refilled_iff hrefill hshort early).mp (by omega)
    have hspec := tryAcquire_of_refill hrefill rl device early
    dsimp only at hspec
    rw [bucket_of_some hkept, if_neg hless] at hspec
    rw [hspec]
    exact ⟨_, rfl⟩

/-- A device that spawned a terminal is told to wait a second for the next. -/
theorem retry_after_true_pty :
    let device : DeviceId := .replicate 0
    let spawned := [Op.tryAcquire device .ptySpawn (.ofNanos 0)]
    1 ≤ (1000 : UInt32).toNat ∧
    ∀ between, (∀ op ∈ between, op.touches (key device .ptySpawn) = false) →
      let rl := ((new.after spawned).tryAcquire device .ptySpawn (.ofNanos 0)).1.after between
      (∀ later : Duration, 0 + 1000 * 1000000 ≤ later.nanos →
        (rl.tryAcquire device .ptySpawn later).2 = .ok ()) ∧
      ∀ early : Duration, 0 ≤ early.nanos → early.nanos + 2 * 1000000 < 0 + 1000 * 1000000 →
        ∃ again, (rl.tryAcquire device .ptySpawn early).2 = .error (.rateLimited again) :=
  retry_after_true [.tryAcquire (.replicate 0) .ptySpawn (.ofNanos 0)] (.replicate 0) .ptySpawn
    (.ofNanos 0) 1000 (by decide) (by decide +kernel)

end RateLimiter

end Policy
