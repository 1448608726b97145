import Mathlib.Data.List.Pairwise
import Mathlib.Tactic.SplitIfs

/-!
# Tables with an integer primary key

The rows of a table are kept in the order of their keys, and no key occurs
twice: the type carries both.

* `insert_last` — a row with a new greatest key goes to the end;
* `delete_through` — deleting up to a key drops a prefix.
-/

/-- Rows in the order of their keys. -/
structure Table (ρ : Type*) (key : ρ → Int) where
  rows : List ρ
  sorted : rows.Pairwise fun a b => key a < key b

namespace Table

variable {ρ : Type*} {key : ρ → Int} {t t' : Table ρ key} {row : ρ}

/-- The table without rows. -/
def empty : Table ρ key := ⟨[], .nil⟩

/-- The row goes before the first row with a greater key. -/
def place (key : ρ → Int) (row : ρ) : List ρ → List ρ
  | [] => [row]
  | r :: rs => if key row < key r then row :: r :: rs else r :: place key row rs

theorem mem_place {rows : List ρ} {r : ρ} : r ∈ place key row rows ↔ r = row ∨ r ∈ rows := by
  induction rows with
  | nil => simp [place]
  | cons a rows ih =>
      unfold place
      split_ifs
      · simp
      · simp [ih, or_left_comm]

theorem sorted_place {rows : List ρ} (h : rows.Pairwise fun a b => key a < key b)
    (hfresh : ∀ r ∈ rows, key r ≠ key row) :
    (place key row rows).Pairwise fun a b => key a < key b := by
  induction rows with
  | nil => exact List.pairwise_singleton _ _
  | cons a rows ih =>
      obtain ⟨hfirst, hrest⟩ := List.pairwise_cons.mp h
      unfold place
      split_ifs with hlt
      · refine List.pairwise_cons.mpr ⟨?_, h⟩
        intro r hr
        rcases List.mem_cons.mp hr with rfl | hr
        · exact hlt
        · exact Int.lt_trans hlt (hfirst r hr)
      · refine List.pairwise_cons.mpr ⟨?_, ih hrest fun r hr => hfresh r (.tail _ hr)⟩
        intro r hr
        have hne := hfresh a (.head _)
        rcases mem_place.mp hr with rfl | hr
        · omega
        · exact hfirst r hr

/-- Inserts a row; a key that is taken is refused. -/
def insert (t : Table ρ key) (row : ρ) : Option (Table ρ key) :=
  if h : ∀ r ∈ t.rows, key r ≠ key row then some ⟨place key row t.rows, sorted_place t.sorted h⟩
  else none

/-- The row with a key. -/
def find (t : Table ρ key) (k : Int) : Option ρ := t.rows.find? fun r => key r = k

/-- Deletes the rows whose keys are at most `k`. -/
def deleteThrough (t : Table ρ key) (k : Int) : Table ρ key :=
  ⟨t.rows.filter fun r => k < key r, t.sorted.filter _⟩

/-- The row with the least key. -/
def first (t : Table ρ key) : Option ρ := t.rows.head?

/-- The row with the greatest key. -/
def last (t : Table ρ key) : Option ρ := t.rows.getLast?

/-- **A row with a new greatest key goes to the end.** -/
theorem insert_last (h : ∀ r ∈ t.rows, key r < key row) :
    ∃ t', t.insert row = some t' ∧ t'.rows = t.rows ++ [row] := by
  have hfresh : ∀ r ∈ t.rows, key r ≠ key row := fun r hr => Int.ne_of_lt (h r hr)
  refine ⟨⟨place key row t.rows, sorted_place t.sorted hfresh⟩, dif_pos hfresh, ?_⟩
  have hplace : ∀ rows : List ρ, (∀ r ∈ rows, key r < key row) →
      place key row rows = rows ++ [row] := by
    intro rows hrows
    induction rows with
    | nil => rfl
    | cons a rows ih =>
        have ha := hrows a (.head _)
        rw [place, if_neg (by omega), ih fun r hr => hrows r (.tail _ hr), List.cons_append]
  exact hplace t.rows h

/-- No row has a greater key than the last one. -/
theorem key_le_last {r : ρ} (hlast : t.last = some row) (hr : r ∈ t.rows) : key r ≤ key row := by
  obtain ⟨init, hinit⟩ := List.getLast?_eq_some_iff.mp hlast
  have hsorted := t.sorted
  rw [hinit] at hr hsorted
  rcases List.mem_append.mp hr with hr | hr
  · exact Int.le_of_lt ((List.pairwise_append.mp hsorted).2.2 r hr row (.head _))
  · obtain rfl := List.mem_singleton.mp hr
    exact Int.le_refl _

theorem find?_of_mem {rows : List ρ} (hsorted : rows.Pairwise fun a b => key a < key b)
    (h : row ∈ rows) : (rows.find? fun r => key r = key row) = some row := by
  induction rows with
  | nil => cases h
  | cons a rows ih =>
      obtain ⟨hfirst, hrest⟩ := List.pairwise_cons.mp hsorted
      rcases List.mem_cons.mp h with rfl | h
      · rw [List.find?_cons_of_pos (by simp)]
      · have hlt := hfirst row h
        rw [List.find?_cons_of_neg (by simp only [decide_eq_true_eq]; omega)]
        exact ih hrest h

theorem find_of_mem (h : row ∈ t.rows) : t.find (key row) = some row := find?_of_mem t.sorted h

/-- **Deleting up to a key drops a prefix.** -/
theorem delete_through {k : Int} {kept dropped : List ρ} (hrows : t.rows = dropped ++ kept)
    (hdropped : ∀ r ∈ dropped, key r ≤ k) (hkept : ∀ r ∈ kept, k < key r) :
    (t.deleteThrough k).rows = kept := by
  have hnone : dropped.filter (fun r => k < key r) = [] := by
    rw [List.filter_eq_nil_iff]
    intro r hr
    have := hdropped r hr
    simp only [decide_eq_true_eq]
    omega
  have hall : kept.filter (fun r => k < key r) = kept := by
    rw [List.filter_eq_self]
    intro r hr
    simpa using hkept r hr
  show t.rows.filter (fun r => k < key r) = kept
  rw [hrows, List.filter_append, hnone, hall, List.nil_append]

end Table
