import Mathlib.Data.List.Flatten
import Mathlib.Data.List.Nodup
import Mathlib.Data.List.Lattice

/-!
# Trees shown as lists

A tree is given by the children of each of its nodes, and some nodes are open.  Shown
as a list, a node comes before its children, and only the children of open nodes are
shown.  The list holds the address of each node that is shown, which says which child
to take at each step from the root.

* `mem_outline` — what is shown;
* `nodup_outline` — nothing is shown twice;
* `sublist_outline` — a node comes after its parent;
* `flatMap_sep_injective` — addresses that are written with a separator can be read.
-/

namespace Outline

variable {κ ι : Type*} (kids : κ → List ι) (child : κ → ι → κ) (isOpen : κ → Bool) {rank : κ → Nat}

/-- The addresses of what is shown below a node, where children are of lower rank. -/
def outline (hrank : ∀ k, ∀ i ∈ kids k, rank (child k i) < rank k) (k : κ) : List (List ι) :=
  (kids k).attach.flatMap fun i =>
    [i.1] :: if isOpen (child k i.1) then (outline hrank (child k i.1)).map (i.1 :: ·) else []
termination_by rank k
decreasing_by exact hrank k i.1 i.2

/-- What an address must be to be shown. -/
def Shown : κ → List ι → Prop
  | _, [] => False
  | k, [i] => i ∈ kids k
  | k, i :: j :: rest => i ∈ kids k ∧ isOpen (child k i) = true ∧ Shown (child k i) (j :: rest)

/-- What is shown of one child. -/
def block (hrank : ∀ k, ∀ i ∈ kids k, rank (child k i) < rank k) (k : κ) (i : ι) :
    List (List ι) :=
  [i] :: if isOpen (child k i) then (outline kids child isOpen hrank (child k i)).map (i :: ·) else []

variable {kids child isOpen} {hrank : ∀ k, ∀ i ∈ kids k, rank (child k i) < rank k} {k : κ}
  {i j : ι} {address rest : List ι}

theorem outline_eq : outline kids child isOpen hrank k =
    (kids k).flatMap (block kids child isOpen hrank k) := by
  rw [outline, List.flatMap_subtype (g := block kids child isOpen hrank k) fun _ _ => rfl,
    List.unattach_attach]

theorem Shown.ne_nil (h : Shown kids child isOpen k address) : address ≠ [] := by
  rintro rfl
  exact h

theorem shown_cons (hrest : rest ≠ []) : Shown kids child isOpen k (i :: rest) ↔
    i ∈ kids k ∧ isOpen (child k i) = true ∧ Shown kids child isOpen (child k i) rest := by
  cases rest with
  | nil => exact absurd rfl hrest
  | cons j rest => exact Iff.rfl

/-- What is shown below a node that is shown. -/
theorem shown_append (haddress : address ≠ []) : Shown kids child isOpen k (address ++ [i]) ↔
    Shown kids child isOpen k address ∧ isOpen (address.foldl child k) = true ∧
      i ∈ kids (address.foldl child k) := by
  induction address generalizing k with
  | nil => exact absurd rfl haddress
  | cons j rest ih =>
      rw [List.cons_append, shown_cons (by simp), List.foldl_cons]
      by_cases hrest : rest = []
      · subst hrest
        exact Iff.rfl
      · rw [ih hrest, shown_cons hrest]
        tauto

/-- What is shown of one child starts with it. -/
theorem mem_block : address ∈ block kids child isOpen hrank k i ↔ address = [i] ∨
    isOpen (child k i) = true ∧
      ∃ rest ∈ outline kids child isOpen hrank (child k i), address = i :: rest := by
  unfold block
  cases hopen : isOpen (child k i) with
  | false => simp
  | true => simp [eq_comm]

/-- **What is shown.** -/
theorem mem_outline : address ∈ outline kids child isOpen hrank k ↔
    Shown kids child isOpen k address := by
  induction address generalizing k with
  | nil =>
      rw [outline_eq, List.mem_flatMap]
      constructor
      · rintro ⟨i, -, hmem⟩
        rcases mem_block.mp hmem with hself | ⟨-, rest, -, heq⟩
        · cases hself
        · cases heq
      · exact False.elim
  | cons i rest ih =>
      rw [outline_eq, List.mem_flatMap]
      by_cases hrest : rest = []
      · subst hrest
        have hnone : [] ∉ outline kids child isOpen hrank (child k i) := fun h => ih.mp h
        constructor
        · rintro ⟨j, hj, hmem⟩
          rcases mem_block.mp hmem with hself | ⟨-, rest, hrest, heq⟩
          · obtain ⟨rfl, -⟩ := List.cons.inj hself
            exact hj
          · obtain ⟨rfl, rfl⟩ := List.cons.inj heq
            exact absurd hrest hnone
        · exact fun hi => ⟨i, hi, mem_block.mpr (.inl rfl)⟩
      · rw [shown_cons hrest, ← ih]
        constructor
        · rintro ⟨j, hj, hmem⟩
          rcases mem_block.mp hmem with hself | ⟨hopen, rest', hrest', heq⟩
          · exact absurd (List.cons.inj hself).2 hrest
          · obtain ⟨rfl, rfl⟩ := List.cons.inj heq
            exact ⟨hj, hopen, hrest'⟩
        · rintro ⟨hi, hopen, hmem⟩
          exact ⟨i, hi, mem_block.mpr (.inr ⟨hopen, rest, hmem, rfl⟩)⟩

/-- **Nothing is shown twice** where no node has a child twice. -/
theorem nodup_outline (hkids : ∀ k, (kids k).Nodup) :
    (outline kids child isOpen hrank k).Nodup := by
  induction hn : rank k using Nat.strongRecOn generalizing k with
  | ind n ih =>
      subst hn
      rw [outline_eq, List.nodup_flatMap]
      constructor
      · intro i hi
        have hbelow := ih _ (hrank k i hi) rfl
        unfold block
        split_ifs
        · refine List.nodup_cons.mpr ⟨fun hmem => ?_, hbelow.map (List.cons_injective ..)⟩
          obtain ⟨rest, hrest, heq⟩ := List.mem_map.mp hmem
          obtain rfl := (List.cons.inj heq).2
          exact (mem_outline.mp hrest).ne_nil rfl
        · exact List.nodup_singleton _
      · refine (hkids k).imp fun {i j} hne => ?_
        intro address hi hj
        have hhead : ∀ {i}, address ∈ block kids child isOpen hrank k i →
            address.head? = some i := by
          intro i hmem
          rcases mem_block.mp hmem with rfl | ⟨-, rest, -, rfl⟩
          · rfl
          · rfl
        exact hne (Option.some.inj ((hhead hi).symm.trans (hhead hj)))

/-- **A node comes after its parent.** -/
theorem sublist_outline (hrest : rest ≠ [])
    (h : rest ++ [i] ∈ outline kids child isOpen hrank k) :
    [rest, rest ++ [i]].Sublist (outline kids child isOpen hrank k) := by
  induction rest generalizing k with
  | nil => exact absurd rfl hrest
  | cons j rest ih =>
      have hne : rest ++ [i] ≠ [] := by simp
      obtain ⟨hj, hopen, hshown⟩ := (shown_cons hne).mp (mem_outline.mp h)
      have hbelow : rest ++ [i] ∈ outline kids child isOpen hrank (child k j) :=
        mem_outline.mpr hshown
      have hblock : (block kids child isOpen hrank k j).Sublist
          (outline kids child isOpen hrank k) := by
        rw [outline_eq]
        exact List.sublist_flatten_of_mem (List.mem_map_of_mem hj)
      refine List.Sublist.trans ?_ hblock
      unfold block
      rw [if_pos hopen]
      by_cases hempty : rest = []
      · subst hempty
        exact (List.singleton_sublist.mpr (List.mem_map_of_mem hbelow)).cons_cons _
      · exact ((ih hempty hbelow).map (j :: ·)).cons _

/-! ### Addresses with a separator -/

section Separator

variable {α : Type*} {sep : α} {u v s t : List α} {us vs : List (List α)}

/-- What is before the first separator. -/
theorem append_sep_cancel (hu : sep ∉ u) (hv : sep ∉ v) (hs : s = [] ∨ s.head? = some sep)
    (ht : t = [] ∨ t.head? = some sep) (h : u ++ s = v ++ t) : u = v ∧ s = t := by
  induction u generalizing v with
  | nil =>
      cases v with
      | nil => exact ⟨rfl, h⟩
      | cons c v =>
          rw [List.nil_append] at h
          rcases hs with rfl | hs
          · cases h
          · rw [h] at hs
            obtain rfl := Option.some.inj hs
            exact absurd List.mem_cons_self hv
  | cons c u ih =>
      cases v with
      | nil =>
          rw [List.nil_append] at h
          rcases ht with rfl | ht
          · cases h
          · rw [← h] at ht
            obtain rfl := Option.some.inj ht
            exact absurd List.mem_cons_self hu
      | cons d v =>
          obtain ⟨rfl, htail⟩ := List.cons.inj h
          obtain ⟨rfl, hst⟩ := ih (fun hmem => hu (List.mem_cons_of_mem _ hmem))
            (fun hmem => hv (List.mem_cons_of_mem _ hmem)) htail
          exact ⟨rfl, hst⟩

theorem flatMap_sep_head (us : List (List α)) :
    us.flatMap (sep :: ·) = [] ∨ (us.flatMap (sep :: ·)).head? = some sep := by
  cases us with
  | nil => exact .inl rfl
  | cons u us => exact .inr rfl

/-- **Words that are written with a separator before each** can be read. -/
theorem flatMap_sep_injective (hus : ∀ u ∈ us, sep ∉ u) (hvs : ∀ v ∈ vs, sep ∉ v)
    (h : us.flatMap (sep :: ·) = vs.flatMap (sep :: ·)) : us = vs := by
  induction us generalizing vs with
  | nil =>
      cases vs with
      | nil => rfl
      | cons v vs => cases h
  | cons u us ih =>
      cases vs with
      | nil => cases h
      | cons v vs =>
          obtain ⟨rfl, hrest⟩ := append_sep_cancel (hus u List.mem_cons_self)
            (hvs v List.mem_cons_self) (flatMap_sep_head us) (flatMap_sep_head vs)
            (List.cons.inj h).2
          rw [ih (fun w hw => hus w (List.mem_cons_of_mem _ hw))
            (fun w hw => hvs w (List.mem_cons_of_mem _ hw)) hrest]

end Separator

end Outline
