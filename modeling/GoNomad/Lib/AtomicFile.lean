import GoNomad.Lib.Run
import Mathlib.Logic.Function.Basic

/-!
# A file that is replaced by a rename

A value is written to a temporary file beside the target and renamed over it.
Names stand for inodes, and what is written goes to the inode that was opened,
whatever its name is by then.  A task can fail at any write, and all of them can be
killed between any two.

* `Holds.step`, `run_holds` — **the invariant**: the target holds the last value that
  was saved, while no two saves overlap;
* `load_answers` — what is loaded.
-/

namespace AtomicFile

open Function (update)

/-- A task that saves, or none. -/
inductive Task (α : Type)
  | idle
  | writing (inode offset : Nat) (value : α)

def Task.isIdle {α : Type} : Task α → Bool
  | .idle => true
  | .writing .. => false

/-- The directory, the inodes, and the tasks. -/
structure State (α : Type) (tasks : Nat) where
  data : Nat → List UInt8
  /-- The inodes from here on are not in use. -/
  fresh : Nat
  temp : Option Nat
  target : Option Nat
  task : Fin tasks → Task α

inductive Event (α : Type) (tasks : Nat)
  /-- Opens the temporary file, which is emptied if there is one. -/
  | create (p : Fin tasks) (value : α)
  /-- Writes up to so many of the bytes that are left. -/
  | write (p : Fin tasks) (count : Nat)
  | rename (p : Fin tasks)
  /-- A write or the rename fails. -/
  | fail (p : Fin tasks)
  | remove
  | load
  | kill

/-- What is loaded. -/
inductive Answer (β : Type)
  | absent
  | holds (value : β)
  | corrupt
  deriving DecidableEq

inductive Outcome (α β : Type)
  | silent
  | saved (value : α)
  | failed
  | removed
  | loaded (answer : Answer β)
  deriving DecidableEq

/-- Bytes with some of them replaced from an offset on; a gap before it is filled. -/
def splice (bytes : List UInt8) (offset : Nat) (chunk : List UInt8) : List UInt8 :=
  bytes.take offset ++ List.replicate (offset - bytes.length) 0 ++ chunk ++
    bytes.drop (offset + chunk.length)

section System

variable {α β : Type} {tasks : Nat}

/-- What the target is read as. -/
def State.answer (decode : List UInt8 → Option β) (s : State α tasks) : Answer β :=
  match s.target with
  | none => .absent
  | some i =>
      match decode (s.data i) with
      | some b => .holds b
      | none => .corrupt

def State.goto (s : State α tasks) (p : Fin tasks) (task : Task α) : State α tasks :=
  { s with task := update s.task p task }

/-- Opens the temporary file: empties it, or makes it. -/
def State.open (s : State α tasks) : State α tasks × Nat :=
  match s.temp with
  | some i => ({ s with data := update s.data i [] }, i)
  | none =>
      ({ s with data := update s.data s.fresh [], fresh := s.fresh + 1, temp := some s.fresh },
        s.fresh)

variable (encode : α → List UInt8) (decode : List UInt8 → Option β)

def step (s : State α tasks) : Event α tasks → Option (State α tasks × Outcome α β)
  | .create p value =>
      match s.task p with
      | .writing .. => none
      | .idle => some (s.open.1.goto p (.writing s.open.2 0 value), .silent)
  | .write p count =>
      match s.task p with
      | .idle => none
      | .writing i offset value =>
          let chunk := ((encode value).drop offset).take count
          some ({ s with data := update s.data i (splice (s.data i) offset chunk) }.goto p
            (.writing i (offset + chunk.length) value), .silent)
  | .rename p =>
      match s.task p with
      | .idle => none
      | .writing _ offset value =>
          if offset < (encode value).length then none
          else
            match s.temp with
            | none => some (s.goto p .idle, .failed)
            | some i => some ({ s with temp := none, target := some i }.goto p .idle, .saved value)
  | .fail p =>
      match s.task p with
      | .idle => none
      | .writing .. => some (s.goto p .idle, .failed)
  | .remove => some ({ s with target := none }, .removed)
  | .load => some (s, .loaded (s.answer decode))
  | .kill => some ({ s with task := fun _ => .idle }, .silent)

/-- No save begins while another is under way. -/
def Apart (_ : List (Event α tasks × Outcome α β)) (s : State α tasks) : Event α tasks → Prop
  | .create _ _ => ∀ q, (s.task q).isIdle = true
  | _ => True

instance (trace : List (Event α tasks × Outcome α β)) (s : State α tasks) (e : Event α tasks) :
    Decidable (Apart trace s e) := by
  unfold Apart
  split <;> infer_instance

/-- What is held after an outcome. -/
def heldAfter (value : α → β) (held : Option β) : Outcome α β → Option β
  | .saved a => some (value a)
  | .removed => none
  | _ => held

/-- What was saved last and not removed since. -/
def lastSaved (value : α → β) (held : Option β) (trace : List (Event α tasks × Outcome α β)) :
    Option β :=
  trace.foldl (fun held entry => heldAfter value held entry.2) held

/-- What is held, as it is loaded. -/
def Answer.of : Option β → Answer β
  | none => .absent
  | some b => .holds b

/-- **What holds in every state**: one task writes at a time, to an inode that only the
temporary name stands for, and has written the front of its value. -/
structure Holds (held : Option β) (s : State α tasks) : Prop where
  answer : s.answer decode = .of held
  below : ∀ i, s.temp = some i ∨ s.target = some i → i < s.fresh
  apart : ∀ i, s.temp = some i → s.target ≠ some i
  single : ∀ p q, (s.task p).isIdle = false → (s.task q).isIdle = false → p = q
  written : ∀ p i offset value, s.task p = .writing i offset value →
    s.temp = some i ∧ offset ≤ (encode value).length ∧ s.data i = (encode value).take offset

end System

section Proofs

variable {α β : Type} {tasks : Nat} {encode : α → List UInt8} {decode : List UInt8 → Option β}
  {value : α → β} {held : Option β} {s t : State α tasks} {e : Event α tasks} {o : Outcome α β}
  {trace : List (Event α tasks × Outcome α β)} {p q : Fin tasks}

/-- Writing on where the bytes end appends. -/
theorem splice_end (bytes : List UInt8) (chunk : List UInt8) :
    splice bytes bytes.length chunk = bytes ++ chunk := by
  simp [splice]

/-- The next bytes of a value go behind its front. -/
theorem splice_take {bytes : List UInt8} {offset : Nat} (h : offset ≤ bytes.length) (count : Nat) :
    splice (bytes.take offset) offset ((bytes.drop offset).take count) =
      bytes.take (offset + ((bytes.drop offset).take count).length) := by
  have hend := splice_end (bytes.take offset) ((bytes.drop offset).take count)
  rw [List.length_take_of_le h] at hend
  rw [hend, List.take_add, List.length_take]
  congr 1
  rw [List.take_eq_take_iff]
  omega

/-- What is loaded depends on the target and its bytes alone. -/
theorem answer_congr (htarget : t.target = s.target)
    (hdata : ∀ i, s.target = some i → t.data i = s.data i) :
    t.answer decode = s.answer decode := by
  unfold State.answer
  rw [htarget]
  cases h : s.target with
  | none => rfl
  | some i => simp only [hdata i h]

@[simp] theorem goto_self (s : State α tasks) (p : Fin tasks) (task : Task α) :
    (s.goto p task).task p = task :=
  Function.update_self ..

theorem goto_of_ne (s : State α tasks) (task : Task α) (h : q ≠ p) :
    (s.goto p task).task q = s.task q :=
  Function.update_of_ne h ..

@[simp] theorem goto_temp (s : State α tasks) (p : Fin tasks) (task : Task α) :
    (s.goto p task).temp = s.temp :=
  rfl

@[simp] theorem goto_answer (s : State α tasks) (p : Fin tasks) (task : Task α) :
    (s.goto p task).answer decode = s.answer decode :=
  rfl

/-- Where only one task writes, the others are idle. -/
theorem Holds.others (h : Holds encode decode held s) (hp : (s.task p).isIdle = false)
    (hq : q ≠ p) : s.task q = .idle := by
  cases htask : s.task q with
  | idle => rfl
  | writing i offset a => exact absurd (h.single q p (by rw [htask]; rfl) hp) hq

/-- A state in which only one task may write. -/
theorem Holds.only (p : Fin tasks) (hanswer : t.answer decode = .of held)
    (hbelow : ∀ i, t.temp = some i ∨ t.target = some i → i < t.fresh)
    (hapart : ∀ i, t.temp = some i → t.target ≠ some i)
    (hothers : ∀ q, q ≠ p → t.task q = .idle)
    (hwritten : ∀ i offset a, t.task p = .writing i offset a →
      t.temp = some i ∧ offset ≤ (encode a).length ∧ t.data i = (encode a).take offset) :
    Holds encode decode held t := by
  have hself : ∀ q, (t.task q).isIdle = false → q = p := by
    intro q hq
    by_contra hne
    rw [hothers q hne] at hq
    cases hq
  refine ⟨hanswer, hbelow, hapart, fun q r hq hr => (hself q hq).trans (hself r hr).symm, ?_⟩
  intro q i offset a hq
  obtain rfl := hself q (by rw [hq]; rfl)
  exact hwritten i offset a hq

/-- **The temporary file opened**: it is empty, and not the target. -/
theorem Holds.open (h : Holds encode decode held s) :
    s.open.1.temp = some s.open.2 ∧ s.open.1.target ≠ some s.open.2 ∧
      s.open.1.data s.open.2 = [] ∧ s.open.1.answer decode = .of held ∧
      s.open.1.task = s.task ∧
      ∀ i, s.open.1.temp = some i ∨ s.open.1.target = some i → i < s.open.1.fresh := by
  unfold State.open
  split
  next i htemp =>
    have hanswer := h.answer
    refine ⟨htemp, h.apart i htemp, Function.update_self .., ?_, rfl, h.below⟩
    rw [← hanswer]
    refine answer_congr rfl fun j hj => Function.update_of_ne ?_ ..
    rintro rfl
    exact h.apart j htemp hj
  next htemp =>
    have hnew : s.target ≠ some s.fresh :=
      fun hfresh => Nat.lt_irrefl _ (h.below s.fresh (.inr hfresh))
    refine ⟨rfl, hnew, Function.update_self .., ?_, rfl, ?_⟩
    · rw [← h.answer]
      refine answer_congr rfl fun j hj => Function.update_of_ne ?_ ..
      rintro rfl
      exact hnew hj
    · rintro i (hi | hi)
      · cases hi
        exact Nat.lt_succ_self _
      · exact Nat.lt_succ_of_lt (h.below i (.inr hi))

/-- **One step** keeps what holds. -/
theorem Holds.step (hcodec : ∀ a, decode (encode a) = some (value a))
    (h : Holds encode decode held s) (hok : Apart trace s e)
    (hstep : step encode decode s e = some (t, o)) :
    Holds encode decode (heldAfter value held o) t := by
  cases e with
  | create p a =>
      have hidle : ∀ q, s.task q = .idle := by
        intro q
        have hq := hok q
        cases htask : s.task q with
        | idle => rfl
        | writing i offset a => rw [htask] at hq; cases hq
      simp only [AtomicFile.step, hidle p, Option.some.injEq, Prod.mk.injEq] at hstep
      obtain ⟨rfl, rfl⟩ := hstep
      obtain ⟨htemp, htarget, hdata, hanswer, htask, hbelow⟩ := h.open
      refine .only p hanswer hbelow ?_ (fun q hq => ?_) ?_
      · rintro i hi hi'
        rw [goto_temp, htemp] at hi
        cases hi
        exact htarget hi'
      · rw [goto_of_ne _ _ hq, htask]
        exact hidle q
      · intro i offset b hp
        rw [goto_self] at hp
        cases hp
        exact ⟨htemp, Nat.zero_le _, hdata⟩
  | write p count =>
      cases htask : s.task p with
      | idle => simp [AtomicFile.step, htask] at hstep
      | writing i offset a =>
          simp only [AtomicFile.step, htask, Option.some.injEq, Prod.mk.injEq] at hstep
          obtain ⟨rfl, rfl⟩ := hstep
          obtain ⟨htemp, hle, hdata⟩ := h.written p i offset a htask
          refine .only p ?_ h.below h.apart (fun q hq => ?_) ?_
          · refine Eq.trans (answer_congr (s := s) rfl fun j hj => ?_) h.answer
            refine Function.update_of_ne ?_ ..
            rintro rfl
            exact h.apart j htemp hj
          · rw [goto_of_ne _ _ hq]
            exact h.others (by rw [htask]; rfl) hq
          · intro j offset' a' hj
            rw [goto_self] at hj
            cases hj
            refine ⟨htemp, ?_, ?_⟩
            · rw [List.length_take, List.length_drop]
              omega
            · rw [← splice_take hle, ← hdata]
              exact Function.update_self ..
  | rename p =>
      cases htask : s.task p with
      | idle => simp [AtomicFile.step, htask] at hstep
      | writing i offset a =>
          obtain ⟨htemp, hle, hdata⟩ := h.written p i offset a htask
          simp only [AtomicFile.step, htask, htemp] at hstep
          split at hstep
          · cases hstep
          next hfull =>
          obtain ⟨rfl, rfl⟩ := by simpa using hstep
          -- All of the value has been written.
          have hall : s.data i = encode a := by
            rw [hdata]
            exact List.take_of_length_le (by omega)
          refine .only p ?_ ?_ (fun j hj => by cases hj) (fun q hq => ?_) ?_
          · rw [goto_answer]
            simp only [State.answer, hall, hcodec]
            rfl
          · rintro j (hj | hj)
            · cases hj
            · cases hj
              exact h.below i (.inl htemp)
          · rw [goto_of_ne _ _ hq]
            exact h.others (by rw [htask]; rfl) hq
          · intro j offset' a' hj
            rw [goto_self] at hj
            cases hj
  | fail p =>
      cases htask : s.task p with
      | idle => simp [AtomicFile.step, htask] at hstep
      | writing i offset a =>
          simp only [AtomicFile.step, htask, Option.some.injEq, Prod.mk.injEq] at hstep
          obtain ⟨rfl, rfl⟩ := hstep
          refine .only p h.answer h.below h.apart (fun q hq => ?_) ?_
          · rw [goto_of_ne _ _ hq]
            exact h.others (by rw [htask]; rfl) hq
          · intro j offset' a' hj
            rw [goto_self] at hj
            cases hj
  | remove =>
      simp only [AtomicFile.step, Option.some.injEq, Prod.mk.injEq] at hstep
      obtain ⟨rfl, rfl⟩ := hstep
      refine ⟨rfl, ?_, fun _ _ hi => (by cases hi), h.single, h.written⟩
      rintro i (hi | hi)
      · exact h.below i (.inl hi)
      · cases hi
  | load =>
      simp only [AtomicFile.step, Option.some.injEq, Prod.mk.injEq] at hstep
      obtain ⟨rfl, rfl⟩ := hstep
      exact h
  | kill =>
      simp only [AtomicFile.step, Option.some.injEq, Prod.mk.injEq] at hstep
      obtain ⟨rfl, rfl⟩ := hstep
      refine ⟨h.answer, h.below, h.apart, fun p q hp => (by cases hp), ?_⟩
      intro p i offset a hp
      cases hp

variable {init : State α tasks}

theorem lastSaved_append :
    lastSaved value held (trace ++ [(e, o)]) = heldAfter value (lastSaved value held trace) o :=
  List.foldl_append ..

/-- **The run**: the target holds what was saved last. -/
theorem run_holds (hcodec : ∀ a, decode (encode a) = some (value a))
    (hinit : Holds encode decode held init)
    (hrun : Transition.Run (AtomicFile.step encode decode) Apart init trace s) :
    Holds encode decode (lastSaved value held trace) s := by
  refine hrun.invariant (fun trace s => Holds encode decode (lastSaved value held trace) s) hinit ?_
  intro trace s e t o h hok hstep
  rw [lastSaved_append]
  exact h.step hcodec hok hstep

/-- **What is loaded** is what was saved last, or nothing where that was removed. -/
theorem load_answers (hcodec : ∀ a, decode (encode a) = some (value a))
    (hinit : Holds encode decode held init) {after : List (Event α tasks × Outcome α β)}
    {answer : Answer β}
    (hrun : Transition.Run (AtomicFile.step encode decode) Apart init
      (trace ++ (.load, .loaded answer) :: after) s) :
    answer = .of (lastSaved value held trace) := by
  obtain ⟨t, t', hbefore, -, hload⟩ := hrun.split
  simp only [AtomicFile.step, Option.some.injEq, Prod.mk.injEq, Outcome.loaded.injEq] at hload
  rw [← hload.2]
  exact (run_holds hcodec hinit hbefore).answer

end Proofs

end AtomicFile
