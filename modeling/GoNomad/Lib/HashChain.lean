import Mathlib.Data.List.Induction
import Mathlib.Tactic.Tauto

/-!
# Hash chains

Entries whose contents carry a number and the hash of the entry before them, and
which store the hash of their own contents.  A chain that hangs together from a
given start is determined by its last hash, as long as no two of the contents in
question collide.

* `linked_append` — a chain is cut and extended at any entry;
* `seq_of_linked` — the numbers are contiguous;
* `eq_of_tip` — a chain is determined by its last hash.
-/

/-- How the entries of a chain read: what is hashed, the number and the hash of
the predecessor in it, and the hash that is stored beside it. -/
structure HashChain (ε κ δ : Type*) where
  content : ε → κ
  seq : κ → Nat
  prev : κ → δ
  stored : ε → δ
  digest : κ → δ
  ext : ∀ {e f : ε}, content e = content f → stored e = stored f → e = f

namespace HashChain

variable {ε κ δ : Type*} (C : HashChain ε κ δ) {n : Nat} {p : δ} {e f : ε} {es fs : List ε}

/-- The entries form a chain that starts with number `n` after hash `p`. -/
def Linked : Nat → δ → List ε → Prop
  | _, _, [] => True
  | n, p, e :: es =>
      C.seq (C.content e) = n ∧ C.stored e = C.digest (C.content e) ∧ C.prev (C.content e) = p ∧
        Linked (n + 1) (C.stored e) es

/-- The last hash of a chain after hash `p`. -/
def tip (p : δ) : List ε → δ
  | [] => p
  | e :: es => tip (C.stored e) es

@[simp] theorem tip_nil : C.tip p [] = p := rfl

@[simp] theorem tip_append (p : δ) (es fs : List ε) : C.tip p (es ++ fs) = C.tip (C.tip p es) fs := by
  induction es generalizing p with
  | nil => rfl
  | cons e es ih => exact ih (C.stored e)

@[simp] theorem tip_snoc (p : δ) (es : List ε) (e : ε) : C.tip p (es ++ [e]) = C.stored e := by
  rw [tip_append]
  rfl

/-- **A chain is cut and extended at any entry.** -/
theorem linked_append : C.Linked n p (es ++ fs) ↔
    C.Linked n p es ∧ C.Linked (n + es.length) (C.tip p es) fs := by
  induction es generalizing n p with
  | nil => simp [Linked]
  | cons e es ih =>
      rw [List.cons_append, Linked, Linked, ih, List.length_cons, tip,
        show n + (es.length + 1) = n + 1 + es.length by omega]
      tauto

theorem linked_snoc : C.Linked n p (es ++ [e]) ↔
    C.Linked n p es ∧ C.seq (C.content e) = n + es.length ∧
      C.stored e = C.digest (C.content e) ∧ C.prev (C.content e) = C.tip p es := by
  rw [linked_append, Linked, Linked]
  tauto

/-- What is left of a chain after `k` entries is a chain. -/
theorem linked_drop {k : Nat} (h : C.Linked n p es) (hk : k ≤ es.length) :
    C.Linked (n + k) (C.tip p (es.take k)) (es.drop k) := by
  rw [← List.take_append_drop k es] at h
  have hrest := (C.linked_append.mp h).2
  rwa [List.length_take, Nat.min_eq_left hk] at hrest

/-- The last hash of a chain that is cut after an entry is the hash of the entry. -/
theorem tip_take {i : Nat} (h : es[i]? = some e) : C.tip p (es.take (i + 1)) = C.stored e := by
  rw [List.take_add_one, h]
  exact C.tip_snoc p _ e

/-- **The numbers are contiguous.** -/
theorem seq_of_linked (h : C.Linked n p es) {i : Nat} (hi : es[i]? = some e) :
    C.seq (C.content e) = n + i := by
  induction es generalizing n p i with
  | nil => cases hi
  | cons f es ih =>
      obtain ⟨hseq, -, -, hrest⟩ := h
      cases i with
      | zero =>
          obtain rfl : f = e := by simpa using hi
          exact hseq
      | succ i =>
          have htail := ih hrest (i := i) (by simpa using hi)
          omega

/-- Every entry of a chain stores its own hash. -/
theorem stored_of_linked (h : C.Linked n p es) (he : e ∈ es) :
    C.stored e = C.digest (C.content e) := by
  induction es generalizing n p with
  | nil => cases he
  | cons f es ih =>
      obtain ⟨-, hstored, -, hrest⟩ := h
      rcases List.mem_cons.mp he with rfl | he
      · exact hstored
      · exact ih hrest he

/-- No content of the one list collides with a content of the other. -/
def NoCollision (es fs : List ε) : Prop :=
  ∀ e ∈ es, ∀ f ∈ fs, C.digest (C.content e) = C.digest (C.content f) → C.content e = C.content f

/-- Of two chains with the same last hash the last entries are the same. -/
theorem last_eq (hes : C.Linked n p (es ++ [e])) (hfs : C.Linked n p (fs ++ [f]))
    (hno : C.NoCollision (es ++ [e]) (fs ++ [f])) (htip : C.stored e = C.stored f) : e = f := by
  have he := C.stored_of_linked hes (List.mem_append_right _ (.head _))
  have hf := C.stored_of_linked hfs (List.mem_append_right _ (.head _))
  refine C.ext (hno e (by simp) f (by simp) ?_) htip
  rw [← he, ← hf, htip]

/-- **A chain is determined by its last hash.**  Two nonempty chains from the
same start with the same last hash are the same, entry by entry from the end. -/
theorem eq_of_tip (hes : C.Linked n p es) (hfs : C.Linked n p fs) (hno : C.NoCollision es fs)
    (htip : C.tip p es = C.tip p fs) (hne : es ≠ []) (hne' : fs ≠ []) : es = fs := by
  induction es using List.reverseRecOn generalizing fs with
  | nil => exact absurd rfl hne
  | append_singleton es e ih =>
      obtain ⟨fs, f, rfl⟩ : ∃ gs g, fs = gs ++ [g] :=
        ⟨fs.dropLast, fs.getLast hne', (List.dropLast_concat_getLast hne').symm⟩
      rw [tip_snoc, tip_snoc] at htip
      obtain rfl := C.last_eq hes hfs hno htip
      obtain ⟨hes, hseq, -, hprev⟩ := C.linked_snoc.mp hes
      obtain ⟨hfs, hseq', -, hprev'⟩ := C.linked_snoc.mp hfs
      -- The last numbers agree, so the lengths do.
      have hlen : es.length = fs.length := by omega
      by_cases hnil : es = []
      · obtain rfl : fs = [] := List.eq_nil_of_length_eq_zero (by rw [← hlen, hnil]; rfl)
        rw [hnil]
      · have hnil' : fs ≠ [] := fun h => hnil (List.eq_nil_of_length_eq_zero (by rw [hlen, h]; rfl))
        have hrest := ih hes hfs
          (fun a ha b hb => hno a (List.mem_append_left _ ha) b (List.mem_append_left _ hb))
          (by rw [← hprev, ← hprev']) hnil hnil'
        rw [hrest]

end HashChain
