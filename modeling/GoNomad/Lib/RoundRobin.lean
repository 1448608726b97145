import Mathlib.Order.Lattice

/-!
# Serving keys in a round

Some keys of a linear order wait.  The next one to be served is the first from a
cursor on, or where none is left there the first of all; then the cursor moves
behind it.  Behind the last key of the order there is no place: the cursor stays
on it.

* `between_of_behind` — from a key that is not the last the round goes to all others;
* `between_next` — on its way to a key that waits, it does not come back;
* `next_of_top` — from the last key it goes nowhere while that one waits;
* `between_of_top` — and to all others where it does not.
-/

namespace RoundRobin

variable {α : Type*} [LinearOrder α]

/-- Of the keys that wait, the first from the cursor on; or where there is none, the
first of all. -/
def Next (waits : α → Prop) (cursor x : α) : Prop :=
  waits x ∧ ((cursor ≤ x ∧ ∀ y, waits y → cursor ≤ y → x ≤ y) ∨
    ((∀ y, waits y → y < cursor) ∧ ∀ y, waits y → x ≤ y))

/-- The place right behind a key; the last key is behind itself. -/
def Behind (x cursor : α) : Prop :=
  (x < cursor ∧ ∀ y, x < y → cursor ≤ y) ∨ ((∀ y, y ≤ x) ∧ cursor = x)

/-- The cursor is on its way round from `c` to `d`. -/
def Between (c cursor d : α) : Prop :=
  (c < d ∧ c < cursor ∧ cursor ≤ d) ∨ (d < c ∧ (c < cursor ∨ cursor ≤ d))

variable {waits : α → Prop} {c d x y cursor cursor' : α}

/-- **From a key that is not the last** the round goes to every other key. -/
theorem between_of_behind (hne : d ≠ c) (hbelow : c < y) (h : Behind c cursor) :
    Between c cursor d := by
  rcases h with ⟨hlt, hleast⟩ | ⟨htop, -⟩
  · rcases lt_or_gt_of_ne hne with hd | hd
    · exact .inr ⟨hd, .inl hlt⟩
    · exact .inl ⟨hd, hlt, hleast d hd⟩
  · exact absurd hbelow (not_lt.mpr (htop y))

/-- What is served on the way to a key that waits. -/
theorem next_le (hd : waits d) (hx : Next waits cursor x) (hle : cursor ≤ d) :
    cursor ≤ x ∧ x ≤ d := by
  obtain ⟨-, ⟨hge, hleast⟩ | ⟨hnone, -⟩⟩ := hx
  · exact ⟨hge, hleast d hd hle⟩
  · exact absurd hle (not_le.mpr (hnone d hd))

/-- Behind a key below `d` the cursor has not passed `d`. -/
theorem behind_le (hlt : x < d) (h : Behind x cursor) : x < cursor ∧ cursor ≤ d := by
  rcases h with ⟨hbehind, hleast⟩ | ⟨htop, -⟩
  · exact ⟨hbehind, hleast d hlt⟩
  · exact absurd hlt (not_lt.mpr (htop d))

theorem le_of_behind (h : Behind x cursor) : x ≤ cursor := by
  rcases h with ⟨hlt, -⟩ | ⟨-, rfl⟩
  · exact le_of_lt hlt
  · exact le_refl _

/-- **On its way to a key that waits** the round does not come back: what is served
is that key, or the cursor is still on its way. -/
theorem between_next (h : Between c cursor d) (hd : waits d) (hx : Next waits cursor x)
    (hne : x ≠ d) (hcursor : Behind x cursor') : x ≠ c ∧ Between c cursor' d := by
  rcases h with ⟨hcd, hlt, hle⟩ | ⟨hdc, hlt | hle⟩
  · obtain ⟨hge, hxd⟩ := next_le hd hx hle
    have hxd := lt_of_le_of_ne hxd hne
    have hcx := lt_of_lt_of_le hlt hge
    obtain ⟨hbehind, hle'⟩ := behind_le hxd hcursor
    exact ⟨ne_of_gt hcx, .inl ⟨hcd, lt_trans hcx hbehind, hle'⟩⟩
  · obtain ⟨-, ⟨hge, -⟩ | ⟨-, hleast⟩⟩ := hx
    · have hcx := lt_of_lt_of_le hlt hge
      exact ⟨ne_of_gt hcx, .inr ⟨hdc, .inl (lt_of_lt_of_le hcx (le_of_behind hcursor))⟩⟩
    · -- Nothing is left behind the cursor: the round starts again from the front.
      have hxd := lt_of_le_of_ne (hleast d hd) hne
      exact ⟨ne_of_lt (lt_trans hxd hdc), .inr ⟨hdc, .inr (behind_le hxd hcursor).2⟩⟩
  · obtain ⟨-, hxd⟩ := next_le hd hx hle
    have hxd := lt_of_le_of_ne hxd hne
    exact ⟨ne_of_lt (lt_trans hxd hdc), .inr ⟨hdc, .inr (behind_le hxd hcursor).2⟩⟩

/-- **From the last key** it goes nowhere else while that one waits. -/
theorem next_of_top (htop : ∀ y, y ≤ c) (hc : waits c) (hx : Next waits c x) : x = c := by
  obtain ⟨-, ⟨hge, -⟩ | ⟨hnone, -⟩⟩ := hx
  · exact le_antisymm (htop x) hge
  · exact absurd (hnone c hc) (lt_irrefl c)

/-- **Once it does not wait**, the round goes from the last key to all others. -/
theorem between_of_top (htop : ∀ y, y ≤ c) (hc : ¬ waits c) (hd : waits d)
    (hx : Next waits c x) (hne : x ≠ d) (hcursor : Behind x cursor') : Between c cursor' d := by
  have hdc : d < c := lt_of_le_of_ne (htop d) fun heq => hc (heq ▸ hd)
  obtain ⟨hwaits, ⟨hge, -⟩ | ⟨-, hleast⟩⟩ := hx
  · exact absurd (le_antisymm (htop x) hge ▸ hwaits) hc
  · have hxd := lt_of_le_of_ne (hleast d hd) hne
    exact .inr ⟨hdc, .inr (behind_le hxd hcursor).2⟩

end RoundRobin
