import Mathlib.Data.List.AList
import Mathlib.Tactic.SplitIfs

/-!
# Association lists

What is found under a key once another key, or the same one, was written or removed.
-/

namespace AList

variable {α β : Type*} [DecidableEq α]

theorem lookup_insert_ite (entries : AList fun _ : α => β) (key a : α) (value : β) :
    (entries.insert key value).lookup a = if a = key then some value else entries.lookup a := by
  split_ifs with ha
  · rw [ha, lookup_insert]
  · rw [lookup_insert_ne ha]

theorem lookup_erase_ite (entries : AList fun _ : α => β) (key a : α) :
    (entries.erase key).lookup a = if a = key then none else entries.lookup a := by
  split_ifs with ha
  · rw [ha, lookup_erase]
  · rw [lookup_erase_ne ha]

/-- What is found once a key was removed is under another key. -/
theorem lookup_erase_eq_some {entries : AList fun _ : α => β} {key a : α} {value : β}
    (h : (entries.erase key).lookup a = some value) :
    a ≠ key ∧ entries.lookup a = some value := by
  rw [lookup_erase_ite] at h
  split_ifs at h with ha
  exact ⟨ha, h⟩

end AList
