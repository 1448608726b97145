import Mathlib.Tactic.Linarith
import Mathlib.Tactic.Ring

/-!
# Token buckets over integer arithmetic

A bucket holds tokens in units of a fixed scale, refills at a rate of whole
tokens per period, and grants a call when it holds a whole token.  Integer
division loses fractions of a unit; whether the bucket keeps its time stamp or
not while a fraction accrues is left open, so that both habits are covered.

* `granted_from` — what can be granted after a call, in terms of the level and
  the time that has gone by since the last refill;
* `granted_within` — in any window of time no more calls are granted than a full
  bucket and what refills during the window, rounded up;
* `granted_without_refill` — without a refill no more than the level.
-/

namespace TokenBucket

/-- Capacity and rate: `burst` whole tokens at most, `tokens` whole tokens every
`per` units of time, `scale` units of level to one token. -/
structure Rate where
  burst : Nat
  tokens : Nat
  per : Nat
  scale : Nat
  per_pos : 0 < per
  scale_pos : 0 < scale

/-- What a full bucket holds. -/
def Rate.capacity (p : Rate) : Nat := p.burst * p.scale

/-- How full a bucket is, and when it was last refilled. -/
structure Level where
  level : Nat
  last : Nat

variable {p : Rate} {b b' b'' : Level} {now t₁ t₂ : Nat} {log : List (Nat × Bool)}

/-- A refill at time `now`: nothing happens while less than one unit has
accrued, otherwise no more is added than accrued, up to the capacity. -/
inductive Refilled (p : Rate) (now : Nat) (b : Level) : Level → Prop
  | kept (hless : (now - b.last) * (p.tokens * p.scale) < p.per) : Refilled p now b b
  | added {level gained : Nat} (hlast : b.last ≤ now)
      (hgained : gained * p.per ≤ (now - b.last) * (p.tokens * p.scale))
      (hlevel : level ≤ b.level + gained) (hcap : level ≤ p.capacity) :
      Refilled p now b ⟨level, now⟩

/-- One call at time `now`, and whether it was granted. -/
inductive Call (p : Rate) (now : Nat) (b : Level) : Bool → Level → Prop
  | granted {b' : Level} (hrefill : Refilled p now b b') (htoken : p.scale ≤ b'.level) :
      Call p now b true ⟨b'.level - p.scale, b'.last⟩
  | refused {b' : Level} (hrefill : Refilled p now b b') : Call p now b false b'

/-- Calls one after the other: their times, and which were granted. -/
inductive Calls (p : Rate) : Level → List (Nat × Bool) → Level → Prop
  | nil (b : Level) : Calls p b [] b
  | cons {b b' b'' : Level} {now : Nat} {ok : Bool} {log : List (Nat × Bool)}
      (hcall : Call p now b ok b') (hrest : Calls p b' log b'') :
      Calls p b ((now, ok) :: log) b''

/-- Times that do not go backwards. -/
def Ordered (log : List (Nat × Bool)) : Prop := (log.map Prod.fst).Pairwise (· ≤ ·)

/-- How many calls of a window were granted. -/
def granted (log : List (Nat × Bool)) (t₁ t₂ : Nat) : Nat :=
  log.countP fun entry => entry.2 && decide (t₁ ≤ entry.1) && decide (entry.1 ≤ t₂)

/-- What refills in a stretch of time, in whole tokens and rounded up. -/
def Rate.refills (p : Rate) (time : Nat) : Nat := (p.tokens * time + (p.per - 1)) / p.per

/-! ### One call -/

theorem Refilled.within (h : Refilled p now b b') (hcap : b.level ≤ p.capacity) :
    b'.level ≤ p.capacity := by
  cases h with
  | kept _ => exact hcap
  | added _ _ _ hcap' => exact hcap'

theorem Call.within {ok : Bool} (h : Call p now b ok b') (hcap : b.level ≤ p.capacity) :
    b'.level ≤ p.capacity := by
  cases h with
  | granted hrefill _ =>
      have hle := hrefill.within hcap
      exact (Nat.sub_le _ _).trans hle
  | refused hrefill => exact hrefill.within hcap

/-- What a refill leaves, level and accrued time together, is no more than there
was and what accrued since `t₁`. -/
theorem Refilled.potential (h : Refilled p now b b') (hle : t₁ ≤ now) :
    b'.level * p.per + (now - b'.last) * (p.tokens * p.scale) ≤
      b.level * p.per + (t₁ - b.last) * (p.tokens * p.scale) +
        (now - t₁) * (p.tokens * p.scale) := by
  have hsplit : (now - b.last) * (p.tokens * p.scale) ≤
      (t₁ - b.last) * (p.tokens * p.scale) + (now - t₁) * (p.tokens * p.scale) := by
    rw [← Nat.add_mul]
    exact Nat.mul_le_mul_right _ (by omega)
  cases h with
  | kept _ => omega
  | @added level gained _ hgained hlevel _ =>
      have hmul : level * p.per ≤ b.level * p.per + gained * p.per := by
        rw [← Nat.add_mul]
        exact Nat.mul_le_mul_right _ hlevel
      simp only [Nat.sub_self, Nat.zero_mul, Nat.add_zero]
      omega

/-- The same for a call; a granted one also takes a whole token. -/
theorem Call.potential {ok : Bool} (h : Call p now b ok b') (hle : t₁ ≤ now) :
    ok.toNat * p.scale * p.per + b'.level * p.per + (now - b'.last) * (p.tokens * p.scale) ≤
      b.level * p.per + (t₁ - b.last) * (p.tokens * p.scale) +
        (now - t₁) * (p.tokens * p.scale) := by
  cases h with
  | @granted filled hrefill htoken =>
      have hpot := hrefill.potential hle
      have htake : p.scale * p.per + (filled.level - p.scale) * p.per = filled.level * p.per := by
        rw [← Nat.add_mul, Nat.add_sub_cancel' htoken]
      simp only [Bool.toNat_true, Nat.one_mul]
      omega
  | refused hrefill =>
      have hpot := hrefill.potential hle
      simp only [Bool.toNat_false, Nat.zero_mul, Nat.zero_add]
      exact hpot

/-! ### Runs of calls -/

theorem granted_cons (entry : Nat × Bool) (log : List (Nat × Bool)) (t₁ t₂ : Nat) :
    granted (entry :: log) t₁ t₂ =
      (entry.2 && decide (t₁ ≤ entry.1) && decide (entry.1 ≤ t₂)).toNat + granted log t₁ t₂ := by
  unfold granted
  rw [List.countP_cons, Nat.add_comm]
  cases entry.2 && decide (t₁ ≤ entry.1) && decide (entry.1 ≤ t₂) <;> rfl

/-- Nothing is granted in a window that is over. -/
theorem granted_of_late (h : ∀ entry ∈ log, t₂ < entry.1) : granted log t₁ t₂ = 0 := by
  unfold granted
  rw [List.countP_eq_zero]
  intro entry hmem
  have hlate := h entry hmem
  simp only [Bool.and_eq_true, decide_eq_true_eq, not_and]
  omega

/-- A window may start with its first call. -/
theorem granted_later (hle : t₁ ≤ now) (h : ∀ entry ∈ log, now ≤ entry.1) :
    granted log t₁ t₂ = granted log now t₂ := by
  unfold granted
  refine List.countP_congr fun entry hmem => ?_
  have hafter := h entry hmem
  have hboth : t₁ ≤ entry.1 := by omega
  simp [hafter, hboth]

theorem Ordered.tail {entry : Nat × Bool} (h : Ordered (entry :: log)) :
    Ordered log ∧ ∀ later ∈ log, entry.1 ≤ later.1 := by
  unfold Ordered at h
  rw [List.map_cons, List.pairwise_cons] at h
  exact ⟨h.2, fun later hmem => h.1 later.1 (List.mem_map_of_mem hmem)⟩

/-- **What is granted from a level on.**  Counted in units, the calls granted up
to `t₂` are covered by the level at `t₁` and by what accrued since the last
refill. -/
theorem granted_from (h : Calls p b log b') :
    ∀ {t₁ : Nat}, t₁ ≤ t₂ → Ordered log → (∀ entry ∈ log, t₁ ≤ entry.1) →
      granted log t₁ t₂ * p.scale * p.per ≤
        b.level * p.per + (t₁ - b.last) * (p.tokens * p.scale) +
          (t₂ - t₁) * (p.tokens * p.scale) := by
  induction h with
  | nil b =>
      intro t₁ _ _ _
      simp [granted]
  | @cons b b₁ b₂ now ok log hcall _ ih =>
      intro t₁ hle hordered hlate
      obtain ⟨htail, hnext⟩ := hordered.tail
      have hnow : t₁ ≤ now := hlate _ (.head _)
      by_cases hin : now ≤ t₂
      · have hpot := hcall.potential hnow
        have hrest := ih hin htail hnext
        -- The window of the rest starts at this call.
        have hcount : granted ((now, ok) :: log) t₁ t₂ = ok.toNat + granted log now t₂ := by
          rw [granted_cons, granted_later hnow hnext]
          simp [hnow, hin]
        have hspan : (t₂ - t₁) * (p.tokens * p.scale) =
            (now - t₁) * (p.tokens * p.scale) + (t₂ - now) * (p.tokens * p.scale) := by
          rw [← Nat.add_mul]
          congr 1
          omega
        rw [hcount, Nat.add_mul, Nat.add_mul, hspan]
        omega
      · rw [granted_of_late fun entry hmem => ?_]
        · simp
        · rcases List.mem_cons.mp hmem with rfl | hmem
          · exact Nat.not_le.mp hin
          · exact (Nat.not_le.mp hin).trans_le (hnext entry hmem)

/-- After a call less than one unit has accrued and not been added. -/
theorem Refilled.accrued (h : Refilled p now b b') :
    (now - b'.last) * (p.tokens * p.scale) < p.per := by
  cases h with
  | kept hless => exact hless
  | added _ _ _ _ => simpa using p.per_pos

theorem Call.accrued {ok : Bool} (h : Call p now b ok b') (hcap : b.level ≤ p.capacity) :
    (now - b'.last) * (p.tokens * p.scale) < p.per ∧
      ok.toNat * p.scale + b'.level ≤ p.capacity := by
  cases h with
  | granted hrefill htoken =>
      have hfull := hrefill.within hcap
      exact ⟨hrefill.accrued, by simp only [Bool.toNat_true]; omega⟩
  | refused hrefill =>
      have hfull := hrefill.within hcap
      exact ⟨hrefill.accrued, by simp only [Bool.toNat_false]; omega⟩

/-- Rounding: less than one unit over `burst` tokens and what accrued in `time`
is no more than what refills in `time`. -/
theorem count_le_of_units {count time : Nat}
    (h : count * p.scale * p.per < p.capacity * p.per + p.per + time * (p.tokens * p.scale)) :
    count ≤ p.burst + p.refills time := by
  by_contra hmore
  have hper := p.per_pos
  have hscale := p.scale_pos
  have hceil : p.tokens * time ≤ p.refills time * p.per := by
    unfold Rate.refills
    have hdiv := Nat.div_add_mod (p.tokens * time + (p.per - 1)) p.per
    have hmod := Nat.mod_lt (p.tokens * time + (p.per - 1)) hper
    rw [Nat.mul_comm ((p.tokens * time + (p.per - 1)) / p.per)]
    omega
  have hcount : (p.burst + p.refills time + 1) * p.scale * p.per ≤ count * p.scale * p.per :=
    Nat.mul_le_mul_right _ (Nat.mul_le_mul_right _ (by omega))
  have hrate : time * (p.tokens * p.scale) ≤ p.refills time * p.scale * p.per := by
    calc time * (p.tokens * p.scale) = p.tokens * time * p.scale := by ring
      _ ≤ p.refills time * p.per * p.scale := Nat.mul_le_mul_right _ hceil
      _ = p.refills time * p.scale * p.per := by ring
  have hone : p.per ≤ p.scale * p.per := Nat.le_mul_of_pos_left _ hscale
  have hexpand : (p.burst + p.refills time + 1) * p.scale * p.per =
      p.capacity * p.per + p.refills time * p.scale * p.per + p.scale * p.per := by
    unfold Rate.capacity
    ring
  omega

/-- **The bound in a window.**  From any level within the capacity on, the calls
granted in a window are at most a full bucket and what refills in the window,
rounded up. -/
theorem granted_within (h : Calls p b log b') :
    b.level ≤ p.capacity → Ordered log → t₁ ≤ t₂ →
      granted log t₁ t₂ ≤ p.burst + p.refills (t₂ - t₁) := by
  induction h with
  | nil b =>
      intro _ _ _
      simp [granted]
  | @cons b b₁ b₂ now ok log hcall hrest ih =>
      intro hcap hordered hle
      obtain ⟨htail, hnext⟩ := hordered.tail
      by_cases hstart : t₁ ≤ now
      · by_cases hin : now ≤ t₂
        · -- The first call of the window: from here on the level decides.
          obtain ⟨haccrued, hfull⟩ := hcall.accrued hcap
          have hafter := granted_from hrest hin htail hnext
          have hcount : granted ((now, ok) :: log) t₁ t₂ = ok.toNat + granted log now t₂ := by
            rw [granted_cons, granted_later hstart hnext]
            simp [hstart, hin]
          have hspan : (t₂ - now) * (p.tokens * p.scale) ≤ (t₂ - t₁) * (p.tokens * p.scale) :=
            Nat.mul_le_mul_right _ (by omega)
          have hunits : (ok.toNat * p.scale + b₁.level) * p.per ≤ p.capacity * p.per :=
            Nat.mul_le_mul_right _ hfull
          rw [Nat.add_mul] at hunits
          rw [hcount]
          apply count_le_of_units
          rw [Nat.add_mul, Nat.add_mul]
          omega
        · rw [granted_of_late fun entry hmem => ?_]
          · exact Nat.zero_le _
          · rcases List.mem_cons.mp hmem with rfl | hmem
            · exact Nat.not_le.mp hin
            · exact (Nat.not_le.mp hin).trans_le (hnext entry hmem)
      · have hskip : granted ((now, ok) :: log) t₁ t₂ = granted log t₁ t₂ := by
          rw [granted_cons]
          simp [hstart]
        rw [hskip]
        exact ih (hcall.within hcap) htail hle

/-- **Without a refill** the level is all there is, whatever the clock says. -/
theorem granted_without_refill (hnone : p.tokens = 0) (h : Calls p b log b') :
    log.countP (fun entry => entry.2) * p.scale ≤ b.level := by
  induction h with
  | nil b => simp
  | @cons b b₁ b₂ now ok log hcall _ ih =>
      have hstep : ok.toNat * p.scale + b₁.level ≤ b.level := by
        have hpot := hcall.potential (Nat.zero_le now)
        rw [hnone] at hpot
        simp only [Nat.zero_mul, Nat.mul_zero, Nat.add_zero] at hpot
        rw [← Nat.add_mul] at hpot
        exact Nat.le_of_mul_le_mul_right hpot p.per_pos
      have hcount : ((now, ok) :: log).countP (fun entry => entry.2) =
          ok.toNat + log.countP (fun entry => entry.2) := by
        rw [List.countP_cons, Nat.add_comm]
        cases ok <;> rfl
      rw [hcount, Nat.add_mul]
      omega

end TokenBucket
