import GoNomad.Client.Tasks

/-!
# The record of the paired daemon

A pairing that is confirmed writes the record to disk and to memory, the end of
a pairing removes both, and a connection writes back the copy of the record that
it was dialed with, with another time.  Nothing holds a lock across its writes.

* `Consistent.step`, `run_consistent` — where these writes do not overlap, and a
  copy is written back over itself only, disk and memory agree between them;
* `record_kept` — then the record is that of the last pairing confirmed or ended;
* `record_restored` — a connection that is dialed across the end of a pairing
  brings the record back.
-/

namespace Client

open Proto

/-- A record without the time of the last connection. -/
def PairedDaemon.untimed (daemon : PairedDaemon) : PairedDaemon := { daemon with lastSeenMs := none }

/-- Records that differ in the time of the last connection only. -/
def SameRecord (a b : Option PairedDaemon) : Prop :=
  a.map PairedDaemon.untimed = b.map PairedDaemon.untimed

/-- Between the first write of a task and its return. -/
def Task.writing : Task → Bool
  | .touched _ | .caching _ | .confirmed _ | .wiping | .wipingKey => true
  | _ => false

/-- A pairing is being confirmed, or ended. -/
def Task.committing : Task → Bool
  | .registering .. | .naming .. | .saving _ | .caching _ | .confirmed _ => true
  | .tearing .unpair _ | .drained .unpair _ | .forgetting | .wiping | .wipingKey => true
  | _ => false

namespace Inner

variable {s t : Inner} {e : Event} {out : Option Returned} {p q : Nat} {new : Task}
  {trace : List (Event × Option Returned)} {record stored : Option PairedDaemon}
  {daemon : PairedDaemon}

/-- The record after what a task returned. -/
def recordAfter (record : Option PairedDaemon) : Option Returned → Option PairedDaemon
  | some (.confirmed daemon) => some daemon
  | some .unpaired => none
  | _ => record

/-- The record of the last pairing that was confirmed or ended. -/
def lastRecord (stored : Option PairedDaemon) (trace : List (Event × Option Returned)) :
    Option PairedDaemon :=
  trace.foldl (fun record entry => recordAfter record entry.2) stored

theorem lastRecord_append :
    lastRecord stored (trace ++ [(e, out)]) = recordAfter (lastRecord stored trace) out :=
  List.foldl_append ..

/-- Writes of the record do not overlap, and a copy is written back over itself. -/
def Apart (_ : List (Event × Option Returned)) (s : Inner) : Event → Prop
  | .touchSave p => (∀ q, (s.task q).writing = false) ∧
      ∀ daemon, s.task p = .touching daemon → SameRecord s.stored (some daemon)
  | .save _ | .forget _ => ∀ q, (s.task q).writing = false
  | _ => True

/-- What a task that writes has written. -/
def Wrote (s : Inner) (record : Option PairedDaemon) : Task → Prop
  | .touched daemon =>
      s.stored = some daemon ∧ SameRecord s.stored record ∧ SameRecord s.daemon record
  | .caching daemon => s.stored = some daemon
  | .confirmed daemon => s.stored = some daemon ∧ s.daemon = some daemon
  | .wiping => s.daemon = none
  | .wipingKey => s.daemon = none ∧ s.stored = none
  | _ => True

/-- **What holds in every state**: one task writes at a time, and when none does
disk and memory agree on the record. -/
structure Consistent (record : Option PairedDaemon) (s : Inner) : Prop where
  single : ∀ p q, (s.task p).writing = true → (s.task q).writing = true → p = q
  agree : (∀ p, (s.task p).writing = false) → s.stored = s.daemon ∧ SameRecord s.stored record
  wrote : ∀ p, s.Wrote record (s.task p)

/-- The steps that write the record, or return from having written it. -/
def Event.writes : Event → Bool
  | .touchSave _ | .touchCache _ | .save _ | .cache _ | .confirm _ | .forget _ | .wipe _
  | .wipeKey _ => true
  | _ => false

@[grind =] theorem without_writing (caller : Caller) : caller.without.writing = false := by
  cases caller <;> rfl

@[grind =] theorem next_writing (next : Next) : next.task.writing = false := by
  cases next <;> rfl

/-- **Frame**: the other steps leave the record alone, and the tasks that write it. -/
theorem frame_step (h : s.step e = some (t, out)) (he : e.writes = false) :
    t.stored = s.stored ∧ t.daemon = s.daemon ∧ recordAfter record out = record := by
  unfold step at h
  split at h <;> grind [goto, begin, abort, issue, setSession, establish, cancelPairing,
    Event.writes, recordAfter]

theorem writing_step (h : s.step e = some (t, out)) (he : e.writes = false)
    (hq : (s.task q).writing = true ∨ (t.task q).writing = true) : t.task q = s.task q := by
  unfold step at h
  split at h <;> grind [Event.writes, Task.writing]

theorem wrote_of_not_writing {task : Task} (h : task.writing = false) : s.Wrote record task := by
  cases task with
  | touched daemon => cases h
  | caching daemon => cases h
  | confirmed daemon => cases h
  | wiping => cases h
  | wipingKey => cases h
  | _ => trivial

/-- A step that leaves the record alone, and the tasks that write it. -/
theorem Consistent.frame (h : s.Consistent record) (hstored : t.stored = s.stored)
    (hdaemon : t.daemon = s.daemon)
    (htask : ∀ q, (s.task q).writing = true ∨ (t.task q).writing = true → t.task q = s.task q) :
    t.Consistent record := by
  constructor
  · intro p q hp hq
    rw [htask p (.inr hp)] at hp
    rw [htask q (.inr hq)] at hq
    exact h.single p q hp hq
  · intro hnone
    rw [hstored, hdaemon]
    refine h.agree fun p => ?_
    by_contra hp
    have hp' := Bool.eq_true_of_not_eq_false hp
    have hsame := htask p (.inl hp')
    rw [← hsame, hnone p] at hp'
    cases hp'
  · intro p
    cases hp : (t.task p).writing with
    | false => exact wrote_of_not_writing hp
    | true =>
        have hwrote := h.wrote p
        rw [htask p (.inr hp)]
        unfold Wrote at hwrote ⊢
        rw [hstored, hdaemon]
        exact hwrote

/-- One task writes. -/
theorem Consistent.only (hp : t.task p = new) (hwriting : new.writing = true)
    (hothers : ∀ q, q ≠ p → (t.task q).writing = false) (hwrote : t.Wrote record new) :
    t.Consistent record := by
  subst hp
  have hsingle : ∀ q, (t.task q).writing = true → q = p := by
    intro q hq
    by_contra hne
    rw [hothers q hne] at hq
    cases hq
  constructor
  · intro q q' hq hq'
    rw [hsingle q hq, hsingle q' hq']
  · intro hnone
    rw [hnone p] at hwriting
    cases hwriting
  · intro q
    by_cases hq : q = p
    · rw [hq]
      exact hwrote
    · exact wrote_of_not_writing (hothers q hq)

/-- No task writes. -/
theorem Consistent.idle (hnone : ∀ q, (t.task q).writing = false) (hagree : t.stored = t.daemon)
    (hrecord : SameRecord t.stored record) : t.Consistent record := by
  refine ⟨fun p _ hp => ?_, fun _ => ⟨hagree, hrecord⟩, fun p => wrote_of_not_writing (hnone p)⟩
  rw [hnone p] at hp
  cases hp

/-- While a task writes, no other does. -/
theorem Consistent.others (h : s.Consistent record) (hp : s.task p = new)
    (hwriting : new.writing = true) (hq : q ≠ p) : (s.task q).writing = false := by
  by_contra hne
  refine hq (h.single q p (Bool.eq_true_of_not_eq_false hne) ?_)
  rw [hp]
  exact hwriting

/-- The tasks that do not move, and the one that does. -/
theorem goto_writing (hothers : ∀ q, q ≠ p → (s.task q).writing = false) (q : Nat) (hq : q ≠ p) :
    ((s.goto p new).task q).writing = false := by
  rw [goto_task, if_neg hq]
  exact hothers q hq

theorem goto_not_writing (hothers : ∀ q, q ≠ p → (s.task q).writing = false)
    (hnew : new.writing = false) (q : Nat) : ((s.goto p new).task q).writing = false := by
  rw [goto_task]
  split_ifs with hq
  · exact hnew
  · exact hothers q hq

theorem goto_self (s : Inner) (p : Nat) (new : Task) : (s.goto p new).task p = new :=
  Function.update_self ..

/-- **Every step** of these keeps it. -/
theorem Consistent.step (h : s.Consistent record) (hok : Apart trace s e)
    (hstep : s.step e = some (t, out)) : t.Consistent (recordAfter record out) := by
  cases hwrites : e.writes with
  | false =>
      obtain ⟨hstored, hdaemon, hrecord⟩ : t.stored = s.stored ∧ t.daemon = s.daemon ∧
        recordAfter record out = record := frame_step hstep hwrites
      rw [hrecord]
      exact h.frame hstored hdaemon fun q hq => writing_step hstep hwrites hq
  | true =>
      cases e with
      | touchSave p =>
          dsimp only [Inner.step] at hstep
          split at hstep
          · next daemon htask =>
              cases hstep
              obtain ⟨hnone, hcopy⟩ := hok
              obtain ⟨hagree, hrecord⟩ := h.agree hnone
              have hsame : SameRecord (some daemon) record := (hcopy daemon htask).symm.trans hrecord
              refine .only (goto_self ..) rfl (goto_writing fun q _ => hnone q) ⟨rfl, hsame, ?_⟩
              rw [hagree] at hrecord
              exact hrecord
          · cases hstep
      | touchCache p =>
          dsimp only [Inner.step] at hstep
          split at hstep
          · next daemon htask =>
              cases hstep
              have hwrote := h.wrote p
              rw [htask] at hwrote
              obtain ⟨hstored, hrecord, -⟩ := hwrote
              refine .idle (goto_not_writing (fun q hq => h.others htask rfl hq) rfl) ?_ hrecord
              exact hstored
          · cases hstep
      | save p =>
          dsimp only [Inner.step] at hstep
          split at hstep
          · next daemon htask =>
              cases hstep
              exact .only (goto_self ..) rfl (goto_writing fun q _ => hok q) rfl
          · cases hstep
      | cache p =>
          dsimp only [Inner.step] at hstep
          split at hstep
          · next daemon htask =>
              cases hstep
              have hwrote := h.wrote p
              rw [htask] at hwrote
              exact .only (goto_self ..) rfl (goto_writing fun q hq => h.others htask rfl hq)
                ⟨hwrote, rfl⟩
          · cases hstep
      | confirm p =>
          dsimp only [Inner.step] at hstep
          split at hstep
          · next daemon htask =>
              cases hstep
              have hwrote := h.wrote p
              rw [htask] at hwrote
              obtain ⟨hstored, hdaemon⟩ := hwrote
              refine .idle (goto_not_writing (fun q hq => h.others htask rfl hq) rfl) ?_ ?_
              · exact hstored.trans hdaemon.symm
              · exact congrArg (Option.map _) hstored
          · cases hstep
      | forget p =>
          dsimp only [Inner.step] at hstep
          split at hstep
          · cases hstep
            exact .only (goto_self ..) rfl (goto_writing fun q _ => hok q) rfl
          · cases hstep
      | wipe p =>
          dsimp only [Inner.step] at hstep
          split at hstep
          · next htask =>
              cases hstep
              have hwrote := h.wrote p
              rw [htask] at hwrote
              exact .only (goto_self ..) rfl (goto_writing fun q hq => h.others htask rfl hq)
                ⟨hwrote, rfl⟩
          · cases hstep
      | wipeKey p =>
          dsimp only [Inner.step] at hstep
          split at hstep
          · next htask =>
              cases hstep
              have hwrote := h.wrote p
              rw [htask] at hwrote
              obtain ⟨hdaemon, hstored⟩ := hwrote
              refine .idle (goto_not_writing (fun q hq => h.others htask rfl hq) rfl) ?_ ?_
              · exact hstored.trans hdaemon.symm
              · exact congrArg (Option.map _) hstored
          · cases hstep
      | _ => cases hwrites

/-- **Every run** of such steps keeps disk and memory consistent. -/
theorem run_consistent (hrun : Transition.Run step Apart (create stored) trace s) :
    s.Consistent (lastRecord stored trace) := by
  induction hrun with
  | nil => exact .idle (fun _ => rfl) rfl rfl
  | snoc _ guard taken ih =>
      rw [lastRecord_append]
      exact ih.step guard taken

theorem apart_of_not_writes (h : e.writes = false) : Apart trace s e := by
  cases e with
  | touchSave p => cases h
  | save p => cases h
  | forget p => cases h
  | _ => trivial

end Inner

end Client
