import Mathlib.Data.Nat.Basic
import Mathlib.Tactic.Ring

/-!
# Whole units that accrue with time

Something accrues at one unit every `unit` of time, and whoever looks counts the
whole units since a stamp.  The stamp moves on to the instant of the look when
there were any, and the fraction of a unit that had accrued by then is dropped.

* `balance` — what was counted, what was dropped and what still accrues make up
  the time that has gone by;
* `counted_eq` — what is counted by looking at some instants on the way, in terms
  of what is dropped at them;
* `counted_eq_iff` — it is what one look at the end counts exactly when the
  dropped fractions are no more than one look drops.
-/

namespace Accrual

/-- The stamp after a look at the instant `t`. -/
def look (unit last t : Nat) : Nat := if (t - last) / unit = 0 then last else t

/-- The stamp after looks at some instants. -/
def stamp (unit : Nat) (last : Nat) : List Nat → Nat
  | [] => last
  | t :: ts => stamp unit (look unit last t) ts

/-- The units that looks at some instants count. -/
def counted (unit : Nat) (last : Nat) : List Nat → Nat
  | [] => 0
  | t :: ts => (t - last) / unit + counted unit (look unit last t) ts

/-- The time whose units were not complete when a look moved the stamp. -/
def dropped (unit : Nat) (last : Nat) : List Nat → Nat
  | [] => 0
  | t :: ts =>
      (if (t - last) / unit = 0 then 0 else (t - last) % unit) +
        dropped unit (look unit last t) ts

variable {unit last finish : Nat} {ts : List Nat}

theorem look_le {t latest : Nat} (hlast : last ≤ latest) (ht : t ≤ latest) :
    look unit last t ≤ latest := by
  unfold look
  split_ifs <;> omega

/-- After a look less than one unit has accrued. -/
theorem look_recent (hunit : 0 < unit) (t : Nat) : t - look unit last t < unit := by
  unfold look
  split_ifs with hnone
  · exact (Nat.div_eq_zero_iff.mp hnone).resolve_left hunit.ne'
  · omega

/-- **Nothing else is lost**: counted units, dropped fractions and what has
accrued since the stamp make up the time from the first stamp on. -/
theorem balance (h : ∀ t ∈ ts, t ≤ finish) :
    counted unit last ts * unit + dropped unit last ts + (finish - stamp unit last ts) =
      finish - last := by
  induction ts generalizing last with
  | nil => simp [counted, dropped, stamp]
  | cons t ts ih =>
      have hle : t ≤ finish := h t (.head _)
      have hrest := @ih (look unit last t) fun a ha => h a (.tail _ ha)
      by_cases hnone : (t - last) / unit = 0
      · rw [look, if_pos hnone] at hrest
        simpa [counted, dropped, stamp, look, hnone] using hrest
      · rw [look, if_neg hnone] at hrest
        have hsplit := Nat.div_add_mod (t - last) unit
        have hlate : last < t := by
          by_contra hearly
          have hzero : t - last = 0 := by omega
          exact hnone (by rw [hzero, Nat.zero_div])
        simp only [counted, dropped, stamp, look, if_neg hnone, Nat.add_mul]
        rw [Nat.mul_comm unit] at hsplit
        omega

theorem counted_snoc : counted unit last (ts ++ [finish]) =
    counted unit last ts + (finish - stamp unit last ts) / unit := by
  induction ts generalizing last with
  | nil => simp [counted, stamp]
  | cons t ts ih =>
      rw [List.cons_append, counted, ih, counted, stamp, Nat.add_assoc]

/-- **What looks on the way count**: the whole units of the time that was not
dropped. -/
theorem counted_eq (hunit : 0 < unit) (h : ∀ t ∈ ts, t ≤ finish) :
    counted unit last (ts ++ [finish]) = (finish - last - dropped unit last ts) / unit := by
  have hsum := @balance unit last finish ts h
  have hkept : finish - last - dropped unit last ts =
      finish - stamp unit last ts + counted unit last ts * unit := by omega
  rw [hkept, Nat.add_mul_div_right _ _ hunit, counted_snoc, Nat.add_comm]

/-- Nothing is dropped before something is counted. -/
theorem dropped_of_counted (h : counted unit last ts = 0) : dropped unit last ts = 0 := by
  induction ts generalizing last with
  | nil => rfl
  | cons t ts ih =>
      obtain ⟨hnone, hrest⟩ := Nat.add_eq_zero_iff.mp h
      rw [dropped, if_pos hnone, ih hrest]

theorem counted_le (hunit : 0 < unit) (h : ∀ t ∈ ts, t ≤ finish) :
    counted unit last (ts ++ [finish]) ≤ (finish - last) / unit := by
  rw [counted_eq hunit h]
  exact Nat.div_le_div_right (Nat.sub_le _ _)

/-- Looks on the way count nothing only if one look counts nothing. -/
theorem counted_eq_zero_iff (hunit : 0 < unit) (h : ∀ t ∈ ts, t ≤ finish) :
    counted unit last (ts ++ [finish]) = 0 ↔ (finish - last) / unit = 0 := by
  constructor
  · intro hzero
    have hbefore : counted unit last ts = 0 := by
      rw [counted_snoc] at hzero
      exact (Nat.add_eq_zero_iff.mp hzero).1
    have hcount := @counted_eq unit last finish ts hunit h
    rwa [dropped_of_counted hbefore, Nat.sub_zero, hzero, eq_comm] at hcount
  · intro hzero
    have hle := @counted_le unit last finish ts hunit h
    omega

/-- **Looking on the way loses nothing** exactly when the dropped fractions fit
into the one that a single look drops. -/
theorem counted_eq_iff (hunit : 0 < unit) (h : ∀ t ∈ ts, t ≤ finish) :
    counted unit last (ts ++ [finish]) = (finish - last) / unit ↔
      dropped unit last ts ≤ (finish - last) % unit := by
  have hle : dropped unit last ts ≤ finish - last := by
    have hsum := @balance unit last finish ts h
    omega
  rw [counted_eq hunit h]
  have hsplit := Nat.div_add_mod (finish - last) unit
  constructor
  · intro heq
    have hmul := Nat.mul_div_le (finish - last - dropped unit last ts) unit
    rw [heq] at hmul
    omega
  · intro hfit
    have hkept : finish - last - dropped unit last ts =
        ((finish - last) % unit - dropped unit last ts) + unit * ((finish - last) / unit) := by
      omega
    have hsmall : (finish - last) % unit - dropped unit last ts < unit :=
      (Nat.sub_le _ _).trans_lt (Nat.mod_lt _ hunit)
    rw [hkept, Nat.add_mul_div_left _ _ hunit, Nat.div_eq_of_lt hsmall, Nat.zero_add]

end Accrual
