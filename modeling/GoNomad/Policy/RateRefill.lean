import GoNomad.Lib.Accrual
import GoNomad.Policy.RateBound

/-!
# Refills on the way

Every rate of the limits table gives whole nanoseconds to a unit, so a refill
counts the whole units since the stamp of the bucket and drops the fraction.

* `refill_spec` — a refill counts whole units;
* `refused_attempts` — attempts that are refused are refills;
* `refill_drift` — when refilling at some instants on the way leaves the tokens
  that one refill at the end leaves.
-/

namespace Policy

open Proto Accrual

/-! ### Units of a rate -/

/-- The nanoseconds in which a class earns one unit, a millionth of a token. -/
def OperationClass.unit (cls : OperationClass) : Nat :=
  match cls.limits.refill with
  | none => 1
  | some rate => rate.per.nanos / (rate.tokens.toNat * tokenScale)

variable {cls : OperationClass} {rate : Refill}

/-- What the limits table says of every rate: a unit takes whole nanoseconds. -/
theorem unit_of_refill (h : cls.limits.refill = some rate) :
    rate.per.nanos = cls.unit * (rate.tokens.toNat * tokenScale) ∧ 0 < cls.unit ∧
      cls.unit ≤ 6000 ∧ rate.tokens ≠ 0 ∧ rate.tokens.toNat ≤ 100 ∧ 1 ≤ cls.limits.burst.toNat := by
  cases cls <;> cases h <;> decide

namespace Bucket

/-- What accrues are the whole units since the stamp: no product saturates. -/
theorem accrued_eq (h : cls.limits.refill = some rate) (b : Bucket) (now : Duration) :
    b.accrued now rate = (now.nanos - b.lastRefill.nanos) / cls.unit := by
  obtain ⟨hper, hunit, -, hpos, hsmall, -⟩ := unit_of_refill h
  have htokens : 0 < rate.tokens.toNat := by
    have hne : rate.tokens.toNat ≠ 0 := fun hzero => hpos (UInt32.toNat_inj.mp hzero)
    omega
  have hscale : tokenScale = 1000000 := rfl
  have helapsed : now.nanos - b.lastRefill.nanos < 2 ^ 64 * 10 ^ 9 :=
    (Nat.sub_le _ _).trans_lt now.bounded
  have hbound : (now.nanos - b.lastRefill.nanos) * rate.tokens.toNat ≤ 2 ^ 64 * 10 ^ 9 * 100 :=
    Nat.mul_le_mul helapsed.le hsmall
  have hrate : 0 < rate.tokens.toNat * tokenScale := by
    rw [hscale]
    omega
  have hone : 1 ≤ rate.per.nanos := by
    rw [hper]
    exact Nat.mul_pos hunit hrate
  have hearned : (now.nanos - b.lastRefill.nanos) * rate.tokens.toNat ≤ u128Max := by
    unfold u128Max
    omega
  have hscaled : (now.nanos - b.lastRefill.nanos) * rate.tokens.toNat * tokenScale ≤ u128Max := by
    rw [hscale]
    unfold u128Max
    omega
  unfold accrued Duration.saturatingSince
  dsimp only
  rw [Nat.min_eq_left hearned, Nat.min_eq_left hscaled, Nat.max_eq_left hone, hper, Nat.mul_assoc]
  exact Nat.mul_div_mul_right _ _ hrate

/-- **A refill counts whole units**, and moves the stamp when there are any. -/
theorem refill_spec (h : cls.limits.refill = some rate) (b : Bucket) (now : Duration) :
    (b.refill now cls.limits).lastRefill.nanos = look cls.unit b.lastRefill.nanos now.nanos ∧
      (b.refill now cls.limits).tokens =
        if (now.nanos - b.lastRefill.nanos) / cls.unit = 0 then b.tokens
        else min (b.tokens + (now.nanos - b.lastRefill.nanos) / cls.unit)
          (capacity cls.limits) := by
  obtain ⟨-, -, -, hpos, -, -⟩ := unit_of_refill h
  have hcap := capacity_le cls.limits
  unfold refill look
  rw [h]
  dsimp only
  rw [if_neg hpos, accrued_eq h]
  have hwords : u64Max ≤ u128Max := by decide
  by_cases hnone : (now.nanos - b.lastRefill.nanos) / cls.unit = 0
  · rw [if_pos hnone, if_pos hnone, if_pos hnone]
    exact ⟨rfl, rfl⟩
  · rw [if_neg hnone, if_neg hnone, if_neg hnone]
    refine ⟨rfl, ?_⟩
    dsimp only
    split_ifs <;> omega

/-- A refill of a class without a rate does nothing. -/
theorem refill_of_none (h : cls.limits.refill = none) (b : Bucket) (now : Duration) :
    b.refill now cls.limits = b := by
  unfold refill
  rw [h]

/-! ### Refilling on the way -/

/-- Refills at some instants, one after the other. -/
def refills (b : Bucket) (limits : ClassLimits) (instants : List Duration) : Bucket :=
  instants.foldl (fun b now => b.refill now limits) b

theorem refills_of_none (h : cls.limits.refill = none) (b : Bucket) (instants : List Duration) :
    b.refills cls.limits instants = b := by
  unfold refills
  induction instants with
  | nil => rfl
  | cons now instants ih => rw [List.foldl_cons, refill_of_none h, ih]

/-- Refills add what looks at their instants count. -/
theorem refills_tokens (h : cls.limits.refill = some rate) (b : Bucket)
    (instants : List Duration) : (b.refills cls.limits instants).tokens =
      let count := counted cls.unit b.lastRefill.nanos (instants.map Duration.nanos)
      if count = 0 then b.tokens else min (b.tokens + count) (capacity cls.limits) := by
  induction instants generalizing b with
  | nil => rfl
  | cons now instants ih =>
      obtain ⟨hstamp, htokens⟩ := refill_spec h b now
      have hrest := ih (b.refill now cls.limits)
      rw [hstamp, htokens] at hrest
      change ((b.refill now cls.limits).refills cls.limits instants).tokens = _
      rw [hrest, List.map_cons, counted]
      dsimp only
      generalize (now.nanos - b.lastRefill.nanos) / cls.unit = first
      generalize counted cls.unit _ (instants.map Duration.nanos) = later
      by_cases hfirst : first = 0
      · rw [if_pos hfirst, hfirst, Nat.zero_add]
      · have hsome : first + later ≠ 0 := by omega
        rw [if_neg hfirst, if_neg hsome]
        split_ifs <;> omega

/-- **When refilling on the way loses nothing.**  Refills at some instants and
then at `now` leave the tokens that the refill at `now` alone leaves, exactly
when what the earlier ones drop fits into the fraction of a unit that one refill
drops, or the bucket is full in spite of it. -/
theorem refills_iff (cls : OperationClass) (b : Bucket) (instants : List Duration) (now : Duration)
    (hbefore : ∀ t ∈ instants, t.nanos ≤ now.nanos) :
    (b.refills cls.limits (instants ++ [now])).tokens = (b.refill now cls.limits).tokens ↔
      cls.limits.refill = none ∨
      dropped cls.unit b.lastRefill.nanos (instants.map Duration.nanos) ≤
        (now.nanos - b.lastRefill.nanos) % cls.unit ∨
      capacity cls.limits ≤ b.tokens + (now.nanos - b.lastRefill.nanos -
        dropped cls.unit b.lastRefill.nanos (instants.map Duration.nanos)) / cls.unit := by
  cases hrefill : cls.limits.refill with
  | none =>
      rw [refills_of_none hrefill, refill_of_none hrefill]
      simp
  | some rate =>
      have hunit : 0 < cls.unit := (unit_of_refill hrefill).2.1
      have hinstants : ∀ t ∈ instants.map Duration.nanos, t ≤ now.nanos := by
        intro t ht
        obtain ⟨instant, hmem, rfl⟩ := List.mem_map.mp ht
        exact hbefore instant hmem
      have hcount := @counted_eq cls.unit b.lastRefill.nanos _ _ hunit hinstants
      have hsame := @counted_eq_iff cls.unit b.lastRefill.nanos _ _ hunit hinstants
      have hle := @counted_le cls.unit b.lastRefill.nanos _ _ hunit hinstants
      rw [refills_tokens hrefill, (refill_spec hrefill b now).2, List.map_append, List.map_cons,
        List.map_nil, ← hsame, ← hcount]
      dsimp only
      -- Looks on the way count no more, and nothing only if one look counts nothing.
      have hnone := @counted_eq_zero_iff cls.unit b.lastRefill.nanos _ _ hunit hinstants
      simp only [reduceCtorEq, false_or]
      split_ifs <;> omega

end Bucket

/-! ### Refused attempts -/

namespace RateLimiter

variable {rl : RateLimiter} {device : DeviceId} {b : Bucket} {now : Duration}

/-- An attempt that is refused refills the bucket and takes nothing. -/
theorem refused_attempt (hb : rl (key device cls) = some b)
    (hrefused : (rl.tryAcquire device cls now).2.isOk = false) :
    (rl.tryAcquire device cls now).1 (key device cls) = some (b.refill now cls.limits) ∧
      (b.refill now cls.limits).tokens < tokenScale := by
  have hbucket : rl.bucket (key device cls) now = b := bucket_of_some hb
  unfold tryAcquire Bucket.tryTakeToken at hrefused ⊢
  dsimp only at hrefused ⊢
  rw [hbucket] at hrefused ⊢
  split_ifs at hrefused ⊢ with hfree htoken
  · cases hrefused
  · cases hrefused
  · exact ⟨put_self _ _ _, Nat.lt_of_not_le htoken⟩

/-- Attempts of a device at some instants. -/
def attempts (device : DeviceId) (cls : OperationClass) (instants : List Duration) : List Op :=
  instants.map (Op.tryAcquire device cls)

/-- **Refused attempts are refills**, however many there are. -/
theorem refused_attempts (device : DeviceId) (cls : OperationClass) (instants : List Duration) :
    ∀ {rl : RateLimiter} {b : Bucket}, rl (key device cls) = some b →
      (∀ call ∈ rl.results (attempts device cls instants), call.2.isOk = false) →
      (rl.after (attempts device cls instants)) (key device cls) =
        some (b.refills cls.limits instants) := by
  induction instants with
  | nil => exact fun hb _ => hb
  | cons now instants ih =>
      intro rl b hb hrefused
      have hfirst := hrefused _ (.head _)
      exact ih (refused_attempt hb hfirst).1 fun call hcall => hrefused call (.tail _ hcall)

/-- **When a bucket does not drift.**  Refills at increasing instants and then at
`now` leave the tokens of the one refill at `now`, exactly when what they drop
fits into the fraction of a unit that one refill drops, or the bucket is full in
spite of it; attempts that are refused are such refills. -/
theorem refill_drift (cls : OperationClass) (b : Bucket) (instants : List Duration)
    (now : Duration)
    (hincreasing : ((instants ++ [now]).map Duration.nanos).Pairwise (· < ·)) :
    ((b.refills cls.limits (instants ++ [now])).tokens = (b.refill now cls.limits).tokens ↔
      cls.limits.refill = none ∨
      dropped cls.unit b.lastRefill.nanos (instants.map Duration.nanos) ≤
        (now.nanos - b.lastRefill.nanos) % cls.unit ∨
      capacity cls.limits ≤ b.tokens + (now.nanos - b.lastRefill.nanos -
        dropped cls.unit b.lastRefill.nanos (instants.map Duration.nanos)) / cls.unit) ∧
    ∀ (rl : RateLimiter) (device : DeviceId), rl (key device cls) = some b →
      (∀ call ∈ rl.results (attempts device cls instants), call.2.isOk = false) →
      (rl.after (attempts device cls instants)) (key device cls) =
        some (b.refills cls.limits instants) := by
  refine ⟨b.refills_iff cls instants now fun t ht => ?_,
    fun rl device => refused_attempts device cls instants⟩
  rw [List.map_append, List.pairwise_append] at hincreasing
  exact (hincreasing.2.2 t.nanos (List.mem_map_of_mem ht) now.nanos (.head _)).le

/-- The only token of a class is taken at once.  Two attempts later it has
earned two millionths of another, or one. -/
theorem refill_drifts :
    let device : DeviceId := .replicate 0
    let taken := (new.tryAcquire device .ptySpawn (.ofNanos 0)).1
    let polled := taken.after (attempts device .ptySpawn [.ofNanos 1999])
    (taken.results (attempts device .ptySpawn [.ofNanos 1999])).all (fun call => !call.2.isOk) ∧
      ((polled.bucket (key device .ptySpawn) (.ofNanos 2000)).refill (.ofNanos 2000)
        OperationClass.ptySpawn.limits).tokens ≠
      ((taken.bucket (key device .ptySpawn) (.ofNanos 2000)).refill (.ofNanos 2000)
        OperationClass.ptySpawn.limits).tokens ∧
      ¬ ∀ (cls : OperationClass) (b : Bucket) (instants : List Duration) (now : Duration),
        ((instants ++ [now]).map Duration.nanos).Pairwise (· < ·) →
        (b.refills cls.limits (instants ++ [now])).tokens = (b.refill now cls.limits).tokens := by
  intro device taken polled
  refine ⟨by decide, by decide, fun h => ?_⟩
  have hsame := h .ptySpawn ⟨0, .ofNanos 0, 0, 0⟩ [.ofNanos 1999] (.ofNanos 2000) (by decide)
  revert hsame
  decide

/-- Looks at whole units drop nothing. -/
theorem refill_drift_whole :
    ((⟨0, .ofNanos 0, 0, 0⟩ : Bucket).refills OperationClass.ptySpawn.limits
        ([.ofNanos 1000, .ofNanos 5000] ++ [.ofNanos 7500])).tokens =
      ((⟨0, .ofNanos 0, 0, 0⟩ : Bucket).refill (.ofNanos 7500)
        OperationClass.ptySpawn.limits).tokens :=
  (refill_drift .ptySpawn ⟨0, .ofNanos 0, 0, 0⟩ [.ofNanos 1000, .ofNanos 5000] (.ofNanos 7500)
    (by decide)).1.mpr (.inr (.inl (by decide)))

end RateLimiter

end Policy
