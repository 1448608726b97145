import GoNomad.Lib.Cbor
import Mathlib.Data.List.Sort

/-!
# Canonical maps

What is hashed or signed is encoded as a map with text keys, in the order of the
keys' encoded bytes, so that the order in which the fields are listed does not
matter.

* `Fields.map_perm` — the order of the fields does not matter;
* `Fields.map_eq_iff` — two maps are encoded alike exactly when they say the same;
* `Fields.increasing` — the keys are written in strictly increasing order;
* `map_inj` — two maps with the same keys that are encoded alike have the same
  values.
-/

namespace Store.Canonical

open Cbor

/-- Encodes `fields` as a canonical map: the number of entries, then the entries
sorted by their encoded keys. -/
def map (fields : List (String × Item)) : List UInt8 :=
  let encoded := fields.map fun field => ((Item.text field.1).encode, field.2.encode)
  let sorted := encoded.insertionSort fun a b => a.1 ≤ b.1
  Cbor.length 5 sorted.length ++ sorted.flatMap fun entry => entry.1 ++ entry.2

/-- The fields in the order in which they are written. -/
def ordered (fields : List (String × Item)) : List (String × Item) :=
  fields.insertionSort fun a b => (Item.text a.1).encode ≤ (Item.text b.1).encode

/-- The items of a map in the order in which they are written, keys included. -/
def items (fields : List (String × Item)) : List Item :=
  (ordered fields).flatMap fun field => [.text field.1, field.2]

theorem map_eq (fields : List (String × Item)) :
    map fields = Cbor.length 5 fields.length ++ (items fields).flatMap Item.encode := by
  have hsorted := List.map_insertionSort
    (fun a b : String × Item => (Item.text a.1).encode ≤ (Item.text b.1).encode)
    (fun a b : List UInt8 × List UInt8 => a.1 ≤ b.1)
    (fun field => ((Item.text field.1).encode, field.2.encode)) fields
    (fun a _ b _ => Iff.rfl)
  unfold map items
  dsimp only
  rw [← hsorted, List.length_map, List.length_insertionSort, List.flatMap_map, List.flatMap_assoc,
    ordered]
  simp

theorem ordered_perm (fields : List (String × Item)) : (ordered fields).Perm fields :=
  List.perm_insertionSort _ _

theorem mem_ordered {fields : List (String × Item)} {field : String × Item} :
    field ∈ ordered fields ↔ field ∈ fields :=
  (ordered_perm fields).mem_iff

/-- Every item of a map is the text of a key or the value of a field. -/
theorem mem_items {fields : List (String × Item)} {i : Item} (h : i ∈ items fields) :
    ∃ field ∈ fields, i = .text field.1 ∨ i = field.2 := by
  obtain ⟨field, hfield, hi⟩ := List.mem_flatMap.mp h
  refine ⟨field, mem_ordered.mp hfield, ?_⟩
  simpa using hi

/-- Lists of pairs that are written alike are the same. -/
theorem pairs_inj {α β : Type*} {f g : α → β} {xs ys : List α}
    (h : (xs.flatMap fun x => [f x, g x]) = ys.flatMap fun y => [f y, g y]) :
    (xs.map fun x => (f x, g x)) = ys.map fun y => (f y, g y) := by
  induction xs generalizing ys with
  | nil =>
      cases ys with
      | nil => rfl
      | cons y ys => cases h
  | cons x xs ih =>
      cases ys with
      | nil => cases h
      | cons y ys =>
          simp only [List.flatMap_cons, List.cons_append, List.nil_append, List.cons.injEq] at h
          obtain ⟨hf, hg, hrest⟩ := h
          rw [List.map_cons, List.map_cons, hf, hg, ih hrest]

/-- Two lists with the same distinct keys and the same elements are the same. -/
theorem eq_of_perm {κ α : Type*} {fs gs : List (κ × α)} (hperm : fs.Perm gs)
    (hkeys : fs.map Prod.fst = gs.map Prod.fst) (hnodup : (fs.map Prod.fst).Nodup) : fs = gs := by
  induction fs generalizing gs with
  | nil => exact hperm.nil_eq
  | cons f fs ih =>
      cases gs with
      | nil => cases hkeys
      | cons g gs =>
          rw [List.map_cons, List.map_cons] at hkeys
          obtain ⟨-, htail⟩ := List.cons.inj hkeys
          obtain ⟨hfresh, hnodup⟩ := List.nodup_cons.mp hnodup
          -- The key of `f` occurs once, so `f` is where its key is.
          have hmem : f ∈ g :: gs := hperm.mem_iff.mp (.head _)
          rcases List.mem_cons.mp hmem with rfl | hmem
          · rw [ih hperm.cons_inv htail hnodup]
          · refine absurd ?_ hfresh
            rw [htail]
            exact List.mem_map_of_mem hmem

/-- What a field says: the text of its key and its value. -/
def meaning (field : String × Item) : List UInt8 × Value := (utf8 field.1, field.2.value)

/-- The text a value is. -/
def words : Value → List UInt8
  | .text t => t
  | _ => []

/-- A field whose key and value a length can measure. -/
def Measured (field : String × Item) : Prop := (Item.text field.1).Bounded ∧ field.2.Bounded

/-- **Maps that are encoded alike say the same**, whatever their keys are. -/
theorem meaning_perm {fs gs : List (String × Item)} (hfs : ∀ f ∈ fs, Measured f)
    (hgs : ∀ g ∈ gs, Measured g) (h : map fs = map gs) : (fs.map meaning).Perm (gs.map meaning) := by
  have hbounded : ∀ ks : List (String × Item), (∀ k ∈ ks, Measured k) →
      ∀ i ∈ items ks, i.Bounded := by
    intro ks hks i hi
    obtain ⟨k, hk, rfl | rfl⟩ := mem_items hi
    · exact (hks k hk).1
    · exact (hks k hk).2
  -- The heads of the two maps end where the entries begin.
  have hhead := congrArg readHead h
  rw [map_eq, map_eq, Cbor.length, Cbor.length, readHead_head (by decide),
    readHead_head (by decide)] at hhead
  have hitems := (Prod.mk.inj (Prod.mk.inj (Option.some.inj hhead)).2).2
  have hvalues := flatMap_encode_inj (hbounded fs hfs) (hbounded gs hgs) hitems
  unfold items at hvalues
  rw [List.map_flatMap, List.map_flatMap] at hvalues
  have hpairs := pairs_inj (f := fun f : String × Item => (Item.text f.1).value)
    (g := fun f => f.2.value) hvalues
  have hmeaning : (ordered fs).map meaning = (ordered gs).map meaning := by
    have htext : meaning = (fun p : Value × Value => (words p.1, p.2)) ∘
        fun f : String × Item => ((Item.text f.1).value, f.2.value) := rfl
    rw [htext, ← List.map_map, ← List.map_map, hpairs]
  exact ((ordered_perm fs).map meaning).symm.trans
    ((List.Perm.of_eq hmeaning).trans ((ordered_perm gs).map meaning))

/-- **Two maps with the same keys that are encoded alike have the same values.** -/
theorem map_inj {fs gs : List (String × Item)} (hkeys : fs.map Prod.fst = gs.map Prod.fst)
    (hnodup : (fs.map Prod.fst).Nodup) (htexts : ∀ k ∈ fs.map Prod.fst, (Item.text k).Bounded)
    (hfs : ∀ f ∈ fs, f.2.Bounded) (hgs : ∀ g ∈ gs, g.2.Bounded) (h : map fs = map gs) :
    fs.map (fun f => f.2.value) = gs.map fun g => g.2.value := by
  have hperm : (fs.map meaning).Perm (gs.map meaning) := by
    refine meaning_perm (fun f hf => ⟨htexts f.1 (List.mem_map_of_mem hf), hfs f hf⟩)
      (fun g hg => ⟨htexts g.1 ?_, hgs g hg⟩) h
    rw [hkeys]
    exact List.mem_map_of_mem hg
  have hfst : ∀ ks : List (String × Item),
      (ks.map meaning).map Prod.fst = (ks.map Prod.fst).map utf8 := by
    intro ks
    rw [List.map_map, List.map_map]
    rfl
  -- No two fields have the same key, so the fields are said in one order.
  have hmeaning := eq_of_perm hperm (by rw [hfst, hfst, hkeys])
    (by rw [hfst]; exact hnodup.map fun _ _ => utf8_injective)
  have hsnd := congrArg (List.map Prod.snd) hmeaning
  rwa [List.map_map, List.map_map] at hsnd

/-! ### Maps of distinct keys -/

/-- The fields of a map: their keys are distinct, and a length can measure what
they hold. -/
structure Fields where
  entries : List (String × Item)
  distinct : (entries.map Prod.fst).Nodup
  measured : ∀ field ∈ entries, Measured field

namespace Fields

/-- The map has `value` at `key`. -/
def At (m : Fields) (key : String) (value : Value) : Prop :=
  ∃ item, (key, item) ∈ m.entries ∧ item.value = value

theorem text_inj {a b : String} (ha : (Item.text a).Bounded) (hb : (Item.text b).Bounded)
    (h : (Item.text a).encode = (Item.text b).encode) : a = b := by
  have hvalue := (encode_append_inj ha hb (s := []) (t := []) (by rw [h])).1
  exact utf8_injective (Value.text.inj hvalue)

/-- **The keys are written in strictly increasing order** of their encodings. -/
theorem increasing (m : Fields) : (ordered m.entries).Pairwise fun a b =>
    (Item.text a.1).encode < (Item.text b.1).encode := by
  have hle : (ordered m.entries).Pairwise fun a b =>
      (Item.text a.1).encode ≤ (Item.text b.1).encode := by
    have : IsTrans (String × Item) fun a b => (Item.text a.1).encode ≤ (Item.text b.1).encode :=
      ⟨fun _ _ _ => List.le_trans⟩
    have : Std.Total (α := String × Item) fun a b =>
        (Item.text a.1).encode ≤ (Item.text b.1).encode := ⟨fun _ _ => List.le_total _ _⟩
    unfold ordered
    apply List.pairwise_insertionSort
  have hne : (ordered m.entries).Pairwise fun a b => a.1 ≠ b.1 := by
    have hnodup := ((ordered_perm m.entries).map Prod.fst).nodup_iff.mpr m.distinct
    exact List.pairwise_map.mp hnodup
  refine (hle.and hne).imp_of_mem ?_
  intro a b ha hb hab
  refine Std.lt_of_le_of_ne hab.1 fun heq => hab.2 ?_
  exact text_inj (m.measured a (mem_ordered.mp ha)).1 (m.measured b (mem_ordered.mp hb)).1 heq

/-- The entries as they are written. -/
def written (m : Fields) : List (List UInt8 × List UInt8) :=
  (ordered m.entries).map fun field => ((Item.text field.1).encode, field.2.encode)

/-- A map is its number of fields and then its fields, in order. -/
theorem map_ordered (m : Fields) : map m.entries = Cbor.length 5 (ordered m.entries).length ++
    (ordered m.entries).flatMap fun field => (Item.text field.1).encode ++ field.2.encode := by
  rw [map_eq, items, List.flatMap_assoc, (ordered_perm m.entries).length_eq]
  simp

theorem map_written (m : Fields) : map m.entries =
    Cbor.length 5 m.written.length ++ m.written.flatMap fun entry => entry.1 ++ entry.2 := by
  rw [m.map_ordered, written, List.flatMap_map, List.length_map]

/-- Maps that write the same entries are encoded alike: there is one order. -/
theorem map_congr {m n : Fields} (h : ∀ entry, entry ∈ m.written ↔ entry ∈ n.written) :
    map m.entries = map n.entries := by
  have hsorted : ∀ k : Fields, k.written.Pairwise fun a b => a.1 < b.1 :=
    fun k => List.pairwise_map.mpr k.increasing
  have : Std.Antisymm fun a b : List UInt8 × List UInt8 => a.1 < b.1 :=
    ⟨fun _ _ hab hba => absurd hab (List.lt_asymm hba)⟩
  have : Std.Irrefl fun a b : List UInt8 × List UInt8 => a.1 < b.1 := ⟨fun entry => List.lt_irrefl entry.1⟩
  rw [map_written, map_written, List.Pairwise.eq_of_mem_iff (hsorted m) (hsorted n) h]

theorem mem_written {m : Fields} {entry : List UInt8 × List UInt8} :
    entry ∈ m.written ↔
      ∃ field ∈ m.entries, ((Item.text field.1).encode, field.2.encode) = entry := by
  unfold written
  simp only [List.mem_map, mem_ordered]

/-- **The order of the fields does not matter.** -/
theorem map_perm {m n : Fields} (h : m.entries.Perm n.entries) : map m.entries = map n.entries := by
  apply map_congr
  intro entry
  simp only [mem_written, h.mem_iff]

/-- **Two maps are encoded alike exactly when they say the same.** -/
theorem map_eq_iff (m n : Fields) :
    map m.entries = map n.entries ↔ ∀ key value, m.At key value ↔ n.At key value := by
  have hmeaning : ∀ (k : Fields) key value, k.At key value ↔ (utf8 key, value) ∈ k.entries.map meaning := by
    intro k key value
    simp only [At, List.mem_map, meaning, Prod.mk.injEq, Prod.exists]
    constructor
    · rintro ⟨item, hmem, rfl⟩
      exact ⟨key, item, hmem, rfl, rfl⟩
    · rintro ⟨key', item, hmem, hkey, rfl⟩
      obtain rfl := utf8_injective hkey
      exact ⟨item, hmem, rfl⟩
  constructor
  · intro h key value
    rw [hmeaning, hmeaning, (meaning_perm m.measured n.measured h).mem_iff]
  · intro h
    have hincl : ∀ k l : Fields, (∀ key value, k.At key value → l.At key value) →
        ∀ entry ∈ k.written, entry ∈ l.written := by
      intro k l hkl entry hentry
      obtain ⟨⟨key, item⟩, hmem, rfl⟩ := mem_written.mp hentry
      obtain ⟨item', hmem', hvalue⟩ := hkl key item.value ⟨item, hmem, rfl⟩
      exact mem_written.mpr ⟨(key, item'), hmem', by rw [encode_eq_of_value hvalue]⟩
    exact map_congr fun entry =>
      ⟨hincl m n (fun key value => (h key value).mp) entry,
        hincl n m (fun key value => (h key value).mpr) entry⟩

end Fields

end Store.Canonical
