import Mathlib.Data.List.Infix
import Mathlib.Data.List.Flatten

/-!
# Prefix codes and the streams they cut

A sender writes frames one after the other into a stream of symbols and a
receiver cuts the stream back into frames.  All that makes this work is that no
code word continues another: `PrefixCode` states it, and the lemmas below are
what a receiver relies on.

* `encAll_append_cut`: what has been cut off a prefix of a sent stream is a
  prefix of the sent frames, and what is left over is a prefix of the rest;
* `encAll_injective`: a stream determines its frames;
* `stuck_tail`: if the left-over bytes hold no complete frame and the symbols
  still to come belong to one frame, then left-over and coming symbols together
  are exactly that frame.
-/

/-- A code whose words are nonempty and none of which continues another. -/
structure PrefixCode (φ α : Type*) where
  enc : φ → List α
  enc_ne_nil : ∀ f, enc f ≠ []
  prefix_free : ∀ {f g : φ} {s t : List α}, enc f ++ s = enc g ++ t → f = g

namespace PrefixCode

variable {φ α : Type*} (K : PrefixCode φ α)

/-- The stream of a list of frames. -/
def encAll (fs : List φ) : List α := fs.flatMap K.enc

@[simp] theorem encAll_nil : K.encAll [] = [] := rfl

@[simp] theorem encAll_cons (f : φ) (fs : List φ) :
    K.encAll (f :: fs) = K.enc f ++ K.encAll fs := by
  simp [encAll]

@[simp] theorem encAll_append (fs gs : List φ) :
    K.encAll (fs ++ gs) = K.encAll fs ++ K.encAll gs := by
  simp [encAll]

theorem encAll_eq_nil {fs : List φ} : K.encAll fs = [] ↔ fs = [] := by
  cases fs with
  | nil => simp
  | cons f fs => simp [K.enc_ne_nil f]

/-- A stretch of stream in which no complete frame has arrived. -/
def Stuck (l : List α) : Prop := ∀ f t, l ≠ K.enc f ++ t

theorem stuck_nil : K.Stuck [] := by
  intro f t h
  exact K.enc_ne_nil f (List.append_eq_nil_iff.mp h.symm).1

/-- Frames cut off a prefix of a sent stream are the first sent frames. -/
theorem encAll_append_cut {fs : List φ} :
    ∀ {gs : List φ} {r : List α}, K.encAll fs ++ r <+: K.encAll gs →
      ∃ hs, gs = fs ++ hs ∧ r <+: K.encAll hs := by
  induction fs with
  | nil =>
      intro gs r h
      exact ⟨gs, rfl, by simpa using h⟩
  | cons f fs ih =>
      intro gs r h
      obtain ⟨t, ht⟩ := h
      cases gs with
      | nil => simp [K.enc_ne_nil f] at ht
      | cons g gs =>
          simp only [encAll_cons, List.append_assoc] at ht
          obtain rfl := K.prefix_free ht
          have hrest : K.encAll fs ++ r <+: K.encAll gs :=
            ⟨t, by simpa using List.append_cancel_left ht⟩
          obtain ⟨hs, rfl, hr⟩ := ih hrest
          exact ⟨hs, rfl, hr⟩

/-- The same for a whole stream: what is left over is the rest of it. -/
theorem encAll_append_eq {fs gs : List φ} {r : List α}
    (h : K.encAll fs ++ r = K.encAll gs) :
    ∃ hs, gs = fs ++ hs ∧ r = K.encAll hs := by
  obtain ⟨hs, rfl, -⟩ := K.encAll_append_cut ⟨[], by simpa using h⟩
  exact ⟨hs, rfl, by simpa using h⟩

/-- A stream determines the frames it was written from. -/
theorem encAll_injective {fs gs : List φ} (h : K.encAll fs = K.encAll gs) : fs = gs := by
  obtain ⟨hs, rfl, hr⟩ := K.encAll_append_eq (r := []) (by simpa using h)
  simp [K.encAll_eq_nil.mp hr.symm]

/-- A left-over that holds no complete frame but is a whole stream is empty. -/
theorem Stuck.eq_nil {K : PrefixCode φ α} {l : List α} (hl : K.Stuck l) {fs : List φ}
    (h : l = K.encAll fs) : fs = [] := by
  cases fs with
  | nil => rfl
  | cons f fs => exact absurd (by simpa using h) (hl f (K.encAll fs))

/-- **The frame in transit.**  If the left-over `l` holds no complete frame and
everything still to come, `p`, belongs to the single frame `f`, then `l` and
`p` together are that frame. -/
theorem stuck_tail {l p : List α} (hl : K.Stuck l) {fs : List φ} {f : φ}
    (hp : p <:+ K.enc f) (h : l ++ p = K.encAll (fs ++ [f])) :
    fs = [] ∧ l ++ p = K.enc f := by
  obtain ⟨q, hq⟩ := hp
  have hsplit : l = K.encAll fs ++ q := by
    have : l ++ p = (K.encAll fs ++ q) ++ p := by
      rw [h, List.append_assoc, hq]
      simp
    exact List.append_cancel_right this
  cases fs with
  | nil => exact ⟨rfl, by simpa using h⟩
  | cons g fs => exact absurd (by simpa using hsplit) (hl g (K.encAll fs ++ q))

end PrefixCode
