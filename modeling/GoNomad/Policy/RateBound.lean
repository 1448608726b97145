import GoNomad.Policy.RateLimit

/-!
# What the rate limiter grants

Every call does one of three things to the bucket of a key: nothing that matters
to its tokens, or one call of a token bucket.  `effect` says so once; the bounds
are then those of the token bucket.

* `grants_within` — the bound in a window of time;
* `grants_without_refill` — a budget that does not refill;
* `within_capacity` — no bucket ever holds more than its capacity;
* `results_filter` — the calls of one key do not notice those of another;
* `rate_limited` — all of it.
-/

namespace Policy

open Proto TokenBucket

/-! ### Limits as rates -/

/-- The limits of a class as a rate; without a refill nothing accrues. -/
def ClassLimits.rate (limits : ClassLimits) : Rate where
  burst := limits.burst.toNat
  tokens := match limits.refill with
    | .none => 0
    | some rate => rate.tokens.toNat
  per := match limits.refill with
    | .none => 1
    | some rate => max rate.per.nanos 1
  scale := tokenScale
  per_pos := by
    split
    · exact Nat.one_pos
    · exact Nat.lt_of_lt_of_le Nat.one_pos (Nat.le_max_right _ _)
  scale_pos := by decide

/-- Every refill of the table has a period. -/
theorem per_pos_of_refill {cls : OperationClass} {rate : Refill}
    (h : cls.limits.refill = some rate) : 0 < rate.per.nanos := by
  cases cls <;> cases h <;> decide

/-- The capacity of every bucket is a 64-bit word. -/
theorem capacity_le (limits : ClassLimits) : capacity limits ≤ u64Max := by
  have hburst := limits.burst.toNat_lt
  unfold capacity tokenScale u64Max
  omega

/-- Whether a class has a budget of tokens at all. -/
def OperationClass.rated (cls : OperationClass) : Prop :=
  ¬ (cls.limits.refill = none ∧ cls.limits.burst = 0)

namespace Bucket

/-- The token part of a bucket. -/
def level (b : Bucket) : Level := ⟨b.tokens, b.lastRefill.nanos⟩

variable {b : Bucket} {now : Duration} {limits : ClassLimits} {rate : Refill}

theorem accrued_le : b.accrued now rate * max rate.per.nanos 1 ≤
    (now.nanos - b.lastRefill.nanos) * (rate.tokens.toNat * tokenScale) := by
  unfold accrued
  refine (Nat.div_mul_le_self _ _).trans ((Nat.min_le_left _ _).trans ?_)
  rw [← Nat.mul_assoc]
  exact Nat.mul_le_mul_right _ (Nat.min_le_left _ _)

/-- Nothing is added only while less than one unit has accrued: saturation
never rounds a long wait down to nothing. -/
theorem lt_of_accrued_zero (h : b.accrued now rate = 0) :
    (now.nanos - b.lastRefill.nanos) * (rate.tokens.toNat * tokenScale) <
      max rate.per.nanos 1 := by
  have hper := rate.per.bounded
  unfold accrued at h
  rw [Nat.div_eq_zero_iff] at h
  have hmin := h.resolve_left (by omega)
  have hbig : max rate.per.nanos 1 ≤ u128Max := by
    unfold u128Max
    omega
  have hscale : 1 ≤ tokenScale := by decide
  rw [← Nat.mul_assoc]
  change min (min ((now.nanos - b.lastRefill.nanos) * rate.tokens.toNat) u128Max * tokenScale)
    u128Max < _ at hmin
  generalize (now.nanos - b.lastRefill.nanos) * rate.tokens.toNat = earned at hmin ⊢
  rcases Nat.le_total earned u128Max with hle | hge
  · rw [Nat.min_eq_left hle] at hmin
    omega
  · rw [Nat.min_eq_right hge] at hmin
    have hmul : u128Max * 1 ≤ u128Max * tokenScale := Nat.mul_le_mul_left _ hscale
    omega

/-- Cutting a sum down to a word never raises it. -/
theorem cut_le (sum word : Nat) : (if sum ≤ word then sum else word) ≤ sum := by
  split_ifs with h
  · exact Nat.le_refl _
  · exact Nat.le_of_not_le h

/-- A refill of a bucket is a refill of a token bucket. -/
theorem refill_refilled (b : Bucket) (now : Duration) (limits : ClassLimits) :
    Refilled limits.rate now.nanos b.level (b.refill now limits).level := by
  unfold refill
  cases hrefill : limits.refill with
  | none =>
      refine .kept ?_
      simp [ClassLimits.rate, hrefill]
  | some rate =>
      have hrate : limits.rate.tokens = rate.tokens.toNat ∧
          limits.rate.per = max rate.per.nanos 1 := by
        simp [ClassLimits.rate, hrefill]
      dsimp only
      by_cases hzero : rate.tokens = 0
      · rw [if_pos hzero]
        refine .kept ?_
        rw [hrate.1, hrate.2, hzero]
        simp
      rw [if_neg hzero]
      by_cases hadded : b.accrued now rate = 0
      · rw [if_pos hadded]
        refine .kept ?_
        rw [hrate.1, hrate.2]
        exact lt_of_accrued_zero hadded
      · rw [if_neg hadded]
        have hle := @accrued_le b now rate
        have hlast : b.lastRefill.nanos ≤ now.nanos := by
          by_contra hback
          have hnone : now.nanos - b.lastRefill.nanos = 0 := by omega
          rw [hnone, Nat.zero_mul, Nat.le_zero, Nat.mul_eq_zero] at hle
          omega
        refine .added hlast (hrate.1 ▸ hrate.2 ▸ hle) ?_ ?_
        · exact (Nat.min_le_left _ _).trans ((cut_le _ _).trans (Nat.min_le_left _ _))
        · exact Nat.min_le_right _ _

/-- Refilling and taking a token is a call of a token bucket. -/
theorem call_of_take {b' : Bucket} {ok : Bool}
    (h : (b.refill now limits).tryTakeToken = (b', ok)) :
    Call limits.rate now.nanos b.level ok b'.level := by
  have hrefill := refill_refilled b now limits
  unfold tryTakeToken at h
  by_cases htoken : tokenScale ≤ (b.refill now limits).tokens
  · rw [if_pos htoken] at h
    injection h with hb hok
    have hscale : limits.rate.scale = tokenScale := rfl
    have hgranted := Call.granted hrefill (hscale ▸ htoken)
    rw [hscale] at hgranted
    rw [← hb, ← hok]
    exact hgranted
  · rw [if_neg htoken] at h
    cases h
    exact .refused hrefill

end Bucket

namespace RateLimiter

variable {rl rl' other : RateLimiter} {k : Key} {op : Op} {ops past : List Op}
variable {device : DeviceId} {cls : OperationClass} {now now' : Duration}

@[simp] theorem put_self (rl : RateLimiter) (k : Key) (b : Bucket) : rl.put k b k = some b :=
  Function.update_self _ _ _

theorem put_of_ne {k' : Key} (b : Bucket) (h : k' ≠ k) : rl.put k' b k = rl k :=
  Function.update_of_ne (Ne.symm h) _ _

@[simp] theorem key_snd (device : DeviceId) (cls : OperationClass) : (key device cls).2 = cls := by
  unfold key
  cases cls.scope <;> rfl

theorem bucket_of_some {b : Bucket} (h : rl k = some b) : rl.bucket k now = b := by
  unfold bucket
  rw [h]
  rfl

theorem bucket_of_none (h : rl k = none) : rl.bucket k now = .new k.2.limits now := by
  unfold bucket
  rw [h]
  rfl

/-! ### What one call does to one bucket -/

/-- What a call that succeeded or not did to the bucket of `k`. -/
inductive Effect (rl rl' : RateLimiter) (k : Key) (op : Op) (ok : Bool) : Prop
  /-- The bucket is as it was, and no token of a budget was granted. -/
  | untouched (hsame : rl' k = rl k) (hfree : ok = true → op.acquires k = none ∨ ¬ k.2.rated)
  /-- The bucket has the tokens it had. -/
  | held {t : Duration} {b : Bucket} (hnew : rl' k = some b)
      (hlevel : b.level = (rl.bucket k t).level)
      (hfree : ok = true → op.acquires k = none ∨ ¬ k.2.rated)
  /-- A token was asked for. -/
  | charged {t : Duration} {time : Nat} {b : Bucket} (hacquires : op.acquires k = some time)
      (hnew : rl' k = some b)
      (hcall : Call k.2.limits.rate time (rl.bucket k t).level ok b.level)

/-- What `tryAcquire` does to the bucket of its key. -/
theorem tryAcquire_effect (rl : RateLimiter) (device : DeviceId) (cls : OperationClass)
    (now : Duration) :
    (¬ cls.rated ∧ rl.tryAcquire device cls now = (rl, .ok ())) ∨
    cls.rated ∧ ∃ b, (rl.tryAcquire device cls now).1 = rl.put (key device cls) b ∧
      Call cls.limits.rate now.nanos (rl.bucket (key device cls) now).level
        (rl.tryAcquire device cls now).2.isOk b.level := by
  unfold tryAcquire
  by_cases hrated : cls.limits.refill = none ∧ cls.limits.burst = 0
  · exact .inl ⟨fun h => h hrated, by rw [if_pos hrated]⟩
  · right
    refine ⟨hrated, ?_⟩
    dsimp only
    rw [if_neg hrated]
    rcases htake : ((rl.bucket (key device cls) now).refill now cls.limits).tryTakeToken with
      ⟨b, ok | ok⟩
    · exact ⟨b, rfl, Bucket.call_of_take htake⟩
    · exact ⟨b, rfl, Bucket.call_of_take htake⟩

/-- What taking a slot behind the ceiling does to the bucket of its key. -/
theorem takeSlot_effect (rl : RateLimiter) (device : DeviceId) (cls : OperationClass)
    (now now' : Duration) :
    (¬ cls.rated ∧ ∃ b, (rl.takeSlot device cls now now').1 = rl.put (key device cls) b ∧
      b.level = (rl.bucket (key device cls) now).level) ∨
    cls.rated ∧ ∃ b rl₁, (rl.takeSlot device cls now now').1 = rl₁ ∧
      rl₁ (key device cls) = some b ∧ (∀ k, key device cls ≠ k → rl₁ k = rl k) ∧
      Call cls.limits.rate now'.nanos (rl.bucket (key device cls) now').level
        (rl.takeSlot device cls now now').2.isOk b.level := by
  unfold takeSlot
  obtain ⟨hrated, hfree⟩ | ⟨hrated, b, hput, hcall⟩ := tryAcquire_effect rl device cls now'
  · left
    refine ⟨hrated, ?_⟩
    dsimp only
    rw [hfree]
    exact ⟨_, rfl, rfl⟩
  · right
    refine ⟨hrated, ?_⟩
    dsimp only
    rcases htry : rl.tryAcquire device cls now' with ⟨rl₁, err | ok⟩
    · rw [htry] at hput hcall
      dsimp only at hput hcall ⊢
      refine ⟨b, rl₁, rfl, by rw [hput, put_self], fun k hk => by rw [hput, put_of_ne b hk], hcall⟩
    · rw [htry] at hput hcall
      dsimp only at hput hcall ⊢
      have hsame : rl₁.bucket (key device cls) now = b :=
        bucket_of_some (by rw [hput, put_self])
      refine ⟨{ b with inFlight := b.inFlight + 1 }, _, rfl, by rw [hsame, put_self],
        fun k hk => by rw [put_of_ne _ hk, hput, put_of_ne b hk], hcall⟩

/-- Elsewhere `takeSlot` changes nothing. -/
theorem takeSlot_elsewhere (hk : key device cls ≠ k) :
    (rl.takeSlot device cls now now').1 k = rl k := by
  obtain ⟨-, b, hput, -⟩ | ⟨-, b, rl₁, hput, -, hother, -⟩ := takeSlot_effect rl device cls now now'
  · rw [hput, put_of_ne b hk]
  · rw [hput, hother k hk]

/-- What `tryAcquireSlot` does to the bucket of its key. -/
theorem tryAcquireSlot_effect (rl : RateLimiter) (device : DeviceId) (cls : OperationClass)
    (now now' : Duration) :
    Effect rl (rl.apply (.tryAcquireSlot device cls now now')).1 (key device cls)
      (.tryAcquireSlot device cls now now')
      (rl.apply (.tryAcquireSlot device cls now now')).2.isOk := by
  have hacquires : (Op.tryAcquireSlot device cls now now').acquires (key device cls) =
      some now'.nanos := by
    simp [Op.acquires]
  have hok : ∀ result : Except ProtoError Slot, (result.map fun _ => ()).isOk = result.isOk := by
    intro result
    cases result <;> rfl
  unfold apply
  dsimp only
  rw [hok]
  unfold tryAcquireSlot
  dsimp only
  cases hceiling : cls.limits.maxConcurrent with
  | none =>
      dsimp only
      obtain ⟨hfree, b, hput, hlevel⟩ | ⟨-, b, rl₁, hput, hb, -, hcall⟩ :=
        takeSlot_effect rl device cls now now'
      · refine .held (b := b) (t := now) (by rw [hput, put_self]) hlevel fun _ => .inr ?_
        rwa [key_snd]
      · refine .charged (t := now') hacquires (hput ▸ hb) ?_
        rw [key_snd]
        exact hcall
  | some ceiling =>
      dsimp only
      by_cases hfull : ceiling ≤ (rl.bucket (key device cls) now).inFlight
      · rw [if_pos hfull]
        exact .held (put_self _ _ _) rfl fun h => nomatch h
      · rw [if_neg hfull]
        have hsame : ∀ t, (rl.put (key device cls) (rl.bucket (key device cls) now)).bucket
            (key device cls) t = rl.bucket (key device cls) now :=
          fun t => bucket_of_some (put_self _ _ _)
        obtain ⟨hfree, b, hput, hlevel⟩ | ⟨-, b, rl₁, hput, hb, -, hcall⟩ :=
          takeSlot_effect (rl.put (key device cls) (rl.bucket (key device cls) now)) device cls now
            now'
        · rw [hsame] at hlevel
          refine .held (b := b) (t := now) (by rw [hput, put_self]) hlevel fun _ => .inr ?_
          rwa [key_snd]
        · rw [hsame] at hcall
          refine .charged (t := now) hacquires (hput ▸ hb) ?_
          rw [key_snd]
          exact hcall

/-- A call that is not about `k` leaves its bucket alone. -/
theorem apply_elsewhere (rl : RateLimiter) (h : op.touches k = false) : (rl.apply op).1 k = rl k := by
  cases op with
  | tryAcquire device cls now =>
      have hk : key device cls ≠ k := by simpa [Op.touches] using h
      obtain ⟨-, hfree⟩ | ⟨-, b, hput, -⟩ := tryAcquire_effect rl device cls now
      · simp [apply, hfree]
      · rw [apply, hput, put_of_ne b hk]
  | tryAcquireSlot device cls now now' =>
      have hk : key device cls ≠ k := by simpa [Op.touches] using h
      unfold apply tryAcquireSlot
      dsimp only
      cases cls.limits.maxConcurrent with
      | none => exact takeSlot_elsewhere hk
      | some ceiling =>
          dsimp only
          split_ifs
          · exact put_of_ne _ hk
          · rw [takeSlot_elsewhere hk, put_of_ne _ hk]
  | release slot =>
      have hk : slot.key ≠ k := by simpa [Op.touches] using h
      unfold apply release
      dsimp only
      cases rl slot.key with
      | none => rfl
      | some b => exact put_of_ne _ hk
  | reserveBytes device cls bytes now =>
      have hk : key device cls ≠ k := by simpa [Op.touches] using h
      unfold apply reserveBytes
      dsimp only
      cases cls.limits.maxBytesInFlight with
      | none => rfl
      | some ceiling =>
          dsimp only
          split_ifs
          · exact put_of_ne _ hk
          · exact put_of_ne _ hk
  | releaseBytes reservation =>
      have hk : reservation.key ≠ k := by simpa [Op.touches] using h
      unfold apply releaseBytes
      dsimp only
      cases rl reservation.key with
      | none => rfl
      | some b => exact put_of_ne _ hk
  | reset device cls now =>
      have hk : key device cls ≠ k := by simpa [Op.touches] using h
      exact put_of_ne _ hk
  | forgetDevice device =>
      have hk : k.1 ≠ some device := by simpa [Op.touches] using h
      show (if k.1 = some device then none else rl k) = rl k
      rw [if_neg hk]

/-- A call that asks for a token of `k` is about it. -/
theorem touches_of_acquires {t : Nat} (h : op.acquires k = some t) : op.touches k = true := by
  cases op <;> simp_all [Op.acquires, Op.touches]

/-- **What a call does to a bucket** that it does not reset or drop. -/
theorem effect (rl : RateLimiter) (k : Key) (op : Op) (hkept : op.renews k = false) :
    Effect rl (rl.apply op).1 k op (rl.apply op).2.isOk := by
  cases htouches : op.touches k with
  | false =>
      refine .untouched (apply_elsewhere rl htouches) fun _ => .inl ?_
      cases hacquires : op.acquires k with
      | none => rfl
      | some t => rw [touches_of_acquires hacquires] at htouches; cases htouches
  | true =>
      cases op with
      | tryAcquire device cls now =>
          obtain rfl : key device cls = k := by simpa [Op.touches] using htouches
          obtain ⟨hfree, htry⟩ | ⟨-, b, hput, hcall⟩ := tryAcquire_effect rl device cls now
          · refine .untouched (by rw [apply, htry]) fun _ => .inr ?_
            rwa [key_snd]
          · have hacquires : (Op.tryAcquire device cls now).acquires (key device cls) =
                some now.nanos := by
              simp [Op.acquires]
            refine .charged (t := now) hacquires (by rw [apply, hput, put_self]) ?_
            rw [key_snd]
            exact hcall
      | tryAcquireSlot device cls now now' =>
          obtain rfl : key device cls = k := by simpa [Op.touches] using htouches
          exact tryAcquireSlot_effect rl device cls now now'
      | release slot =>
          obtain rfl : slot.key = k := by simpa [Op.touches] using htouches
          unfold apply release
          dsimp only
          cases hb : rl slot.key with
          | none => exact .untouched rfl fun _ => .inl rfl
          | some b =>
              refine .held (t := ⟨0, by decide⟩) (put_self _ _ _) ?_ fun _ => .inl rfl
              rw [bucket_of_some hb]
              rfl
      | reserveBytes device cls bytes now =>
          obtain rfl : key device cls = k := by simpa [Op.touches] using htouches
          unfold apply reserveBytes
          dsimp only
          cases cls.limits.maxBytesInFlight with
          | none => exact .untouched rfl fun _ => .inl rfl
          | some ceiling =>
              dsimp only
              split_ifs
              · exact .held (put_self _ _ _) rfl fun _ => .inl rfl
              · exact .held (put_self _ _ _) rfl fun _ => .inl rfl
      | releaseBytes reservation =>
          obtain rfl : reservation.key = k := by simpa [Op.touches] using htouches
          unfold apply releaseBytes
          dsimp only
          cases hb : rl reservation.key with
          | none => exact .untouched rfl fun _ => .inl rfl
          | some b =>
              refine .held (t := ⟨0, by decide⟩) (put_self _ _ _) ?_ fun _ => .inl rfl
              rw [bucket_of_some hb]
              rfl
      | reset device cls now =>
          rw [show (Op.reset device cls now).touches k = (Op.reset device cls now).renews k from rfl,
            hkept] at htouches
          cases htouches
      | forgetDevice device =>
          rw [show (Op.forgetDevice device).touches k = (Op.forgetDevice device).renews k from rfl,
            hkept] at htouches
          cases htouches

/-! ### Runs -/

/-- No bucket holds more than its capacity. -/
def WithinCapacity (rl : RateLimiter) : Prop :=
  ∀ k b, rl k = some b → b.tokens ≤ capacity k.2.limits

theorem within_new : WithinCapacity new := by
  intro k b h
  cases h

theorem WithinCapacity.bucket (h : WithinCapacity rl) (k : Key) (now : Duration) :
    (rl.bucket k now).tokens ≤ capacity k.2.limits := by
  cases hb : rl k with
  | none =>
      rw [bucket_of_none hb]
      exact Nat.le_refl _
  | some b =>
      rw [bucket_of_some hb]
      exact h k b hb

/-- A call keeps every bucket within its capacity. -/
theorem WithinCapacity.apply (h : WithinCapacity rl) (op : Op) :
    WithinCapacity (rl.apply op).1 := by
  intro k b hb
  cases hkept : op.renews k with
  | false =>
      cases effect rl k op hkept with
      | untouched hsame _ => exact h k b (hsame ▸ hb)
      | @held t b' hnew hlevel _ =>
          obtain rfl : b' = b := Option.some.inj (hnew.symm.trans hb)
          have htokens : b'.tokens = (rl.bucket k t).tokens := congrArg Level.level hlevel
          rw [htokens]
          exact h.bucket k t
      | @charged t _ b' _ hnew hcall =>
          obtain rfl : b' = b := Option.some.inj (hnew.symm.trans hb)
          exact hcall.within (h.bucket k t)
  | true =>
      cases op with
      | reset device cls now =>
          obtain rfl : key device cls = k := by simpa [Op.renews] using hkept
          have hfull := Option.some.inj ((put_self _ _ _).symm.trans hb)
          rw [← hfull, key_snd]
      | forgetDevice device =>
          have hk : k.1 = some device := by simpa [Op.renews] using hkept
          change (if k.1 = some device then none else rl k) = some b at hb
          rw [if_pos hk] at hb
          cases hb
      | _ => cases hkept

theorem WithinCapacity.after (h : WithinCapacity rl) (ops : List Op) :
    WithinCapacity (rl.after ops) := by
  induction ops generalizing rl with
  | nil => exact h
  | cons op ops ih => exact ih (h.apply op)

/-- **No bucket ever holds more than its capacity**, and that is a 64-bit
word. -/
theorem within_capacity (ops : List Op) : WithinCapacity (new.after ops) :=
  within_new.after ops

/-- No call of a sequence resets or drops the bucket of `k`. -/
def Kept (k : Key) (ops : List Op) : Prop := ∀ op ∈ ops, op.renews k = false

/-- The clock does not go backwards over a sequence of calls. -/
def Monotone (ops : List Op) : Prop := (ops.flatMap Op.readings).Pairwise (· ≤ ·)

theorem grants_cons (k : Key) (call : Op × Except ProtoError Unit)
    (calls : List (Op × Except ProtoError Unit)) (t₁ t₂ : Nat) :
    grants k (call :: calls) t₁ t₂ = (call.2.isOk && (call.1.acquires k).any fun t =>
      decide (t₁ ≤ t) && decide (t ≤ t₂)).toNat + grants k calls t₁ t₂ := by
  unfold grants
  rw [List.countP_cons, Nat.add_comm]
  cases call.2.isOk && (call.1.acquires k).any fun t => decide (t₁ ≤ t) && decide (t ≤ t₂) <;> rfl

theorem grantsEver_cons (k : Key) (call : Op × Except ProtoError Unit)
    (calls : List (Op × Except ProtoError Unit)) :
    grantsEver k (call :: calls) =
      (call.2.isOk && (call.1.acquires k).isSome).toNat + grantsEver k calls := by
  unfold grantsEver
  rw [List.countP_cons, Nat.add_comm]
  cases call.2.isOk && (call.1.acquires k).isSome <;> rfl

/-- The token bucket behind a sequence of calls: their log for `k`, from the
bucket `k` has, or from a full one. -/
structure Logged (rl : RateLimiter) (k : Key) (ops : List Op) (b b' : Level)
    (log : List (Nat × Bool)) : Prop where
  start : b.level ≤ capacity k.2.limits
  same : ∀ b₀, rl k = some b₀ → b = b₀.level
  calls : Calls k.2.limits.rate b log b'
  within : ∀ t₁ t₂, grants k (rl.results ops) t₁ t₂ = granted log t₁ t₂
  ever : grantsEver k (rl.results ops) = log.countP fun entry => entry.2
  times : (log.map Prod.fst).Sublist (ops.flatMap Op.readings)

/-- A token is asked for at a reading of the call. -/
theorem acquires_sublist {t : Nat} (h : op.acquires k = some t) : [t].Sublist op.readings := by
  rw [List.singleton_sublist]
  cases op <;> simp_all [Op.acquires, Op.readings]

/-- **The calls for a key are calls of one token bucket.** -/
theorem logged (hrated : k.2.rated) :
    ∀ {ops : List Op} {rl : RateLimiter}, WithinCapacity rl → Kept k ops →
      ∃ b b' log, Logged rl k ops b b' log := by
  intro ops
  induction ops with
  | nil =>
      intro rl hcap _
      refine ⟨_, _, [], ⟨hcap.bucket k ⟨0, by decide⟩, fun b₀ hb => ?_, .nil (rl.bucket k _).level,
        fun _ _ => rfl, rfl, List.nil_sublist _⟩⟩
      show (rl.bucket k _).level = b₀.level
      rw [bucket_of_some hb]
  | cons op ops ih =>
      intro rl hcap hkept
      obtain ⟨b, b', log, hlog⟩ := ih (hcap.apply op) fun o ho => hkept o (.tail _ ho)
      have hsub := hlog.times.trans (List.sublist_append_right op.readings _)
      rw [← List.flatMap_cons] at hsub
      -- A call that grants no token of the budget adds nothing to the log.
      have hfree : ((rl.apply op).2.isOk = true → op.acquires k = none ∨ ¬ k.2.rated) →
          (∀ t₁ t₂, grants k (rl.results (op :: ops)) t₁ t₂ = granted log t₁ t₂) ∧
            grantsEver k (rl.results (op :: ops)) = log.countP fun entry => entry.2 := by
        intro hfree
        have hnone : (rl.apply op).2.isOk = true → op.acquires k = none :=
          fun hok => (hfree hok).resolve_right fun h => h hrated
        rw [results, grantsEver_cons, hlog.ever]
        refine ⟨fun t₁ t₂ => ?_, ?_⟩
        · rw [grants_cons, hlog.within]
          cases hok : (rl.apply op).2.isOk <;> simp_all
        · cases hok : (rl.apply op).2.isOk <;> simp_all
      cases effect rl k op (hkept op (.head _)) with
      | untouched hsame hfree' =>
          obtain ⟨hwithin, hever⟩ := hfree hfree'
          exact ⟨b, b', log, ⟨hlog.start, fun b₀ hb => hlog.same b₀ (hsame ▸ hb), hlog.calls,
            hwithin, hever, hsub⟩⟩
      | @held t b₁ hnew hlevel hfree' =>
          obtain ⟨hwithin, hever⟩ := hfree hfree'
          have hb : b = (rl.bucket k t).level := (hlog.same b₁ hnew).trans hlevel
          refine ⟨b, b', log, ⟨hlog.start, fun b₀ hb₀ => ?_, hlog.calls, hwithin, hever, hsub⟩⟩
          rw [hb, bucket_of_some hb₀]
      | @charged t time b₁ hacquires hnew hcall =>
          have hb := hlog.same b₁ hnew
          rw [← hb] at hcall
          refine ⟨(rl.bucket k t).level, b', (time, (rl.apply op).2.isOk) :: log,
            ⟨hcap.bucket k t, fun b₀ hb₀ => ?_, .cons hcall hlog.calls, fun t₁ t₂ => ?_, ?_, ?_⟩⟩
          · rw [bucket_of_some hb₀]
          · rw [results, grants_cons, granted_cons, hlog.within, hacquires]
            simp [Bool.and_assoc]
          · rw [results, grantsEver_cons, hlog.ever, hacquires, List.countP_cons, Nat.add_comm]
            cases (rl.apply op).2.isOk <;> simp
          · rw [List.map_cons, List.flatMap_cons]
            exact (acquires_sublist hacquires).append hlog.times

/-- **The bound in a window**, from any state the limiter can be in. -/
theorem grants_within (hcap : WithinCapacity rl) (hrated : k.2.rated) (hkept : Kept k ops)
    (hmono : Monotone ops) {t₁ t₂ : Nat} (hle : t₁ ≤ t₂) :
    grants k (rl.results ops) t₁ t₂ ≤
      k.2.limits.burst.toNat + k.2.limits.rate.refills (t₂ - t₁) := by
  obtain ⟨b, b', log, hlog⟩ := logged hrated hcap hkept
  rw [hlog.within]
  exact granted_within hlog.calls hlog.start (hmono.sublist hlog.times) hle

/-- **A budget that does not refill** is all that is ever granted. -/
theorem grants_without_refill (hcap : WithinCapacity rl) (hnone : k.2.limits.refill = none)
    (hburst : k.2.limits.burst ≠ 0) (hkept : Kept k ops) :
    grantsEver k (rl.results ops) ≤ k.2.limits.burst.toNat := by
  obtain ⟨b, b', log, hlog⟩ := logged (fun h => hburst h.2) hcap hkept
  have htokens : k.2.limits.rate.tokens = 0 := by simp [ClassLimits.rate, hnone]
  have hle := (granted_without_refill htokens hlog.calls).trans hlog.start
  rw [hlog.ever]
  exact Nat.le_of_mul_le_mul_right hle k.2.limits.rate.scale_pos

/-! ### Other keys -/

theorem bucket_congr (h : rl k = other k) : rl.bucket k now = other.bucket k now := by
  unfold bucket
  rw [h]

theorem tryAcquire_congr (h : rl (key device cls) = other (key device cls)) :
    (rl.tryAcquire device cls now).2 = (other.tryAcquire device cls now).2 ∧
      (rl.tryAcquire device cls now).1 (key device cls) =
        (other.tryAcquire device cls now).1 (key device cls) := by
  unfold tryAcquire
  dsimp only
  rw [bucket_congr h]
  split_ifs
  · exact ⟨rfl, h⟩
  · rcases ((other.bucket (key device cls) now).refill now cls.limits).tryTakeToken with
      ⟨b, ok | ok⟩
    · exact ⟨rfl, by simp⟩
    · exact ⟨rfl, by simp⟩

theorem takeSlot_congr (h : rl (key device cls) = other (key device cls)) :
    (rl.takeSlot device cls now now').2 = (other.takeSlot device cls now now').2 ∧
      (rl.takeSlot device cls now now').1 (key device cls) =
        (other.takeSlot device cls now now').1 (key device cls) := by
  obtain ⟨hresult, hbucket⟩ := @tryAcquire_congr rl other device cls now' h
  unfold takeSlot
  dsimp only
  rcases htry : rl.tryAcquire device cls now' with ⟨rl₁, err | ok⟩
  all_goals
    rcases htry' : other.tryAcquire device cls now' with ⟨other₁, err' | ok'⟩
    all_goals
      rw [htry, htry'] at hresult hbucket
      dsimp only at hresult hbucket ⊢
  · exact ⟨by rw [Except.error.inj hresult], hbucket⟩
  · cases hresult
  · cases hresult
  · exact ⟨rfl, by rw [put_self, put_self, bucket_congr hbucket]⟩

theorem tryAcquireSlot_congr (h : rl (key device cls) = other (key device cls)) :
    (rl.tryAcquireSlot device cls now now').2 = (other.tryAcquireSlot device cls now now').2 ∧
      (rl.tryAcquireSlot device cls now now').1 (key device cls) =
        (other.tryAcquireSlot device cls now now').1 (key device cls) := by
  unfold tryAcquireSlot
  dsimp only
  cases cls.limits.maxConcurrent with
  | none => exact takeSlot_congr h
  | some ceiling =>
      dsimp only
      rw [bucket_congr h]
      split_ifs
      · exact ⟨rfl, by simp⟩
      · exact takeSlot_congr (by simp)

/-- What a call about `k` answers and does to its bucket depends on that bucket
only. -/
theorem apply_congr (h : rl k = other k) (htouches : op.touches k = true) :
    (rl.apply op).2 = (other.apply op).2 ∧ (rl.apply op).1 k = (other.apply op).1 k := by
  cases op with
  | tryAcquire device cls now =>
      obtain rfl : key device cls = k := by simpa [Op.touches] using htouches
      exact tryAcquire_congr h
  | tryAcquireSlot device cls now now' =>
      obtain rfl : key device cls = k := by simpa [Op.touches] using htouches
      obtain ⟨hresult, hbucket⟩ := @tryAcquireSlot_congr rl other device cls now now' h
      exact ⟨by rw [apply, apply, hresult], hbucket⟩
  | release slot =>
      obtain rfl : slot.key = k := by simpa [Op.touches] using htouches
      unfold apply release
      dsimp only
      rw [h]
      cases hb : other slot.key with
      | none => exact ⟨rfl, h⟩
      | some b => exact ⟨rfl, by simp⟩
  | reserveBytes device cls bytes now =>
      obtain rfl : key device cls = k := by simpa [Op.touches] using htouches
      unfold apply reserveBytes
      dsimp only
      cases cls.limits.maxBytesInFlight with
      | none => exact ⟨rfl, h⟩
      | some ceiling =>
          dsimp only
          rw [bucket_congr h]
          split_ifs
          · exact ⟨rfl, by simp⟩
          · exact ⟨rfl, by simp⟩
  | releaseBytes reservation =>
      obtain rfl : reservation.key = k := by simpa [Op.touches] using htouches
      unfold apply releaseBytes
      dsimp only
      rw [h]
      cases hb : other reservation.key with
      | none => exact ⟨rfl, h⟩
      | some b => exact ⟨rfl, by simp⟩
  | reset device cls now =>
      obtain rfl : key device cls = k := by simpa [Op.touches] using htouches
      refine ⟨rfl, ?_⟩
      show rl.reset device cls now _ = other.reset device cls now _
      unfold reset
      rw [put_self, put_self, bucket_congr h]
  | forgetDevice device =>
      refine ⟨rfl, ?_⟩
      show (if k.1 = some device then none else rl k) = if k.1 = some device then none else other k
      rw [h]

/-- **Keys do not affect one another.**  What the calls about `k` answer, and
the bucket they leave, is what it would be without all the other calls. -/
theorem results_filter (k : Key) (ops : List Op) :
    ∀ {rl other : RateLimiter}, rl k = other k →
      (rl.results ops).filter (fun call => call.1.touches k) =
          other.results (ops.filter (Op.touches k)) ∧
        rl.after ops k = other.after (ops.filter (Op.touches k)) k := by
  induction ops with
  | nil =>
      intro rl other h
      exact ⟨rfl, h⟩
  | cons op ops ih =>
      intro rl other h
      cases htouches : op.touches k with
      | false =>
          have hsame := (apply_elsewhere rl htouches).trans h
          rw [results, after, List.filter_cons_of_neg (by simp [htouches]),
            List.filter_cons_of_neg (by simp [htouches])]
          exact ih hsame
      | true =>
          obtain ⟨hresult, hbucket⟩ := apply_congr h htouches
          obtain ⟨hrest, hafter⟩ := ih hbucket
          rw [results, after, List.filter_cons_of_pos (by simp [htouches]),
            List.filter_cons_of_pos (by simp [htouches]), hrest, hresult]
          exact ⟨rfl, hafter⟩

/-! ### The law of the limiter -/

/-- The calls for a key that all read one time are granted within one window. -/
theorem grantsEver_eq (k : Key) {t : Nat} (hall : ∀ reading ∈ ops.flatMap Op.readings, reading = t) :
    grantsEver k (rl.results ops) = grants k (rl.results ops) t t := by
  induction ops generalizing rl with
  | nil => rfl
  | cons op ops ih =>
      rw [List.flatMap_cons] at hall
      have hrest : grantsEver k ((rl.apply op).1.results ops) =
          grants k ((rl.apply op).1.results ops) t t :=
        ih fun reading hmem => hall reading (List.mem_append_right _ hmem)
      rw [results, grantsEver_cons, grants_cons, hrest]
      cases hacquires : op.acquires k with
      | none => simp
      | some time =>
          have hmem := List.singleton_sublist.mp (acquires_sublist hacquires)
          obtain rfl := hall time (List.mem_append_left _ hmem)
          simp

/-- A watcher has no rate, so asking for a token of one is always granted. -/
theorem watcher_granted :
    ¬ ∀ (k : Key) (ops : List Op), Kept k ops → k.2.limits.refill = none →
      grantsEver k (new.results ops) ≤ k.2.limits.burst.toNat := by
  intro h
  have hle := h (some (.replicate 0), .watcher)
    [.tryAcquire (.replicate 0) .watcher ⟨0, by decide⟩] (by unfold Kept; decide) rfl
  exact absurd hle (by decide)

/-- **What the limiter promises.**  Whatever was called before, at whatever
readings: over calls during which the clock does not go backwards a class that
refills grants in any window at most its burst and what refills in the window,
rounded up; a class with a budget that does not refill never grants more than
its burst; no bucket ever holds more than its capacity, which is a 64-bit word,
also right after a refill at any reading; calls at one reading, whichever, are
granted at most a full bucket; and keys do not affect one another. -/
theorem rate_limited (k : Key) :
    (∀ past ops, Kept k ops → Monotone ops → ∀ rate, k.2.limits.refill = some rate →
      ∀ t₁ t₂, t₁ ≤ t₂ → grants k ((new.after past).results ops) t₁ t₂ ≤
        k.2.limits.burst.toNat +
          (rate.tokens.toNat * (t₂ - t₁) + (rate.per.nanos - 1)) / rate.per.nanos) ∧
    (∀ ops, Kept k ops → k.2.limits.refill = none → k.2.limits.burst ≠ 0 →
      grantsEver k (new.results ops) ≤ k.2.limits.burst.toNat) ∧
    (∀ ops, (∀ b, new.after ops k = some b → b.tokens ≤ capacity k.2.limits) ∧
      (∀ now, (((new.after ops).bucket k now).refill now k.2.limits).tokens ≤
        capacity k.2.limits) ∧ capacity k.2.limits ≤ u64Max) ∧
    (∀ past ops t, Kept k ops → (∀ reading ∈ ops.flatMap Op.readings, reading = t) →
      k.2.rated → grantsEver k ((new.after past).results ops) ≤ k.2.limits.burst.toNat) ∧
    ∀ ops, (new.results ops).filter (fun call => call.1.touches k) =
        new.results (ops.filter (Op.touches k)) ∧
      new.after ops k = new.after (ops.filter (Op.touches k)) k := by
  refine ⟨fun past ops hkept hmono rate hrate t₁ t₂ hle => ?_,
    fun ops hkept hnone hburst => grants_without_refill within_new hnone hburst hkept,
    fun ops => ⟨within_capacity ops k, fun now => ?_, capacity_le _⟩,
    fun past ops t hkept hall hrated => ?_, fun ops => results_filter k ops rfl⟩
  · have hrated : k.2.rated := by
      intro hnone
      rw [hrate] at hnone
      cases hnone.1
    have hwithin := grants_within (within_capacity past) hrated hkept hmono hle
    have htokens : k.2.limits.rate.tokens = rate.tokens.toNat := by
      simp [ClassLimits.rate, hrate]
    have hper : k.2.limits.rate.per = rate.per.nanos := by
      have hpos := per_pos_of_refill hrate
      simp only [ClassLimits.rate, hrate]
      omega
    rw [Rate.refills, htokens, hper] at hwithin
    exact hwithin
  · exact (Bucket.refill_refilled _ now k.2.limits).within
      ((within_capacity ops).bucket k now)
  · have hmono : Monotone ops := by
      unfold Monotone
      rw [List.pairwise_iff_forall_sublist]
      intro a b hsub
      rw [hall a (hsub.subset (.head _)), hall b (hsub.subset (.tail _ (.head _)))]
    have hwithin := grants_within (within_capacity past) hrated hkept hmono (Nat.le_refl t)
    rw [grantsEver_eq k hall]
    have hnothing : k.2.limits.rate.refills (t - t) = 0 := by
      have hper := k.2.limits.rate.per_pos
      unfold Rate.refills
      rw [Nat.sub_self, Nat.mul_zero, Nat.zero_add]
      exact Nat.div_eq_of_lt (by omega)
    rw [hnothing, Nat.add_zero] at hwithin
    exact hwithin

end RateLimiter

end Policy
