import GoNomad.Lib.Run
import GoNomad.Lib.Table
import GoNomad.Store.Error
import Mathlib.Data.List.Sort

/-!
# Notifications

A table of what the user is to be told, with a row number that the engine chooses:
one more than the greatest in use, so that the number of a row that was deleted can
be given again.

* `accounted_step` — what each operation does to one notification;
* `kept_until_seen` — a notification stays until it was delivered, read and old;
* `fifo` — under a clock that is not set back the table is a queue.
-/

namespace Store

open Transition

/-- A queued or delivered notification. -/
structure Notification where
  id : Int
  tsMs : Int
  kind : String
  payload : String
  delivered : Bool
  read : Bool
  deriving DecidableEq

abbrev Notifications := Table Notification Notification.id

/-- The flags of a notification. -/
inductive Flag
  | delivered
  | read
  deriving DecidableEq

def Notification.set (n : Notification) : Flag → Notification
  | .delivered => { n with delivered := true }
  | .read => { n with read := true }

def Notification.has (n : Notification) : Flag → Bool
  | .delivered => n.delivered
  | .read => n.read

namespace Notifications

/-- Greatest row number. -/
def maxRowid : Int := 2 ^ 63 - 1

/-- The number of a new row; past the greatest number the engine picks one. -/
def nextRowid (t : Notifications) (pick : Int) : Int :=
  match t.last with
  | none => 1
  | some row => if row.id < maxRowid then row.id + 1 else pick

/-- Queues a notification; a number that is taken is refused. -/
def push (t : Notifications) (now : Int) (kind payload : String) (pick : Int) :
    Except StoreError (Notification × Notifications) :=
  let row : Notification := ⟨t.nextRowid pick, now, kind, payload, false, false⟩
  match t.insert row with
  | none => .error .database
  | some t => .ok (row, t)

/-- Oldest first. -/
def Older (a b : Notification) : Prop := a.tsMs < b.tsMs ∨ a.tsMs = b.tsMs ∧ a.id ≤ b.id

instance : DecidableRel Older := fun _ _ => inferInstanceAs (Decidable (_ ∨ _))

/-- Newest first. -/
def Newer (a b : Notification) : Prop := Older b a

instance : DecidableRel Newer := fun a b => inferInstanceAs (Decidable (Older b a))

instance : Std.Total Newer where
  total a b := by
    unfold Newer Older
    omega

instance : IsTrans Notification Newer where
  trans a b c hab hbc := by
    unfold Newer Older at *
    omega

/-- Notifications that have not yet been delivered, oldest first. -/
def undelivered (t : Notifications) (limit : Nat) : List Notification :=
  ((t.rows.filter fun n => !n.delivered).insertionSort Older).take limit

/-- The most recent notifications, newest first. -/
def recent (t : Notifications) (limit : Nat) : List Notification :=
  (t.rows.insertionSort Newer).take limit

/-- The rows with one of them changed. -/
def change (rows : List Notification) (id : Int) (flag : Flag) : List Notification :=
  rows.map fun n => if n.id = id then n.set flag else n

theorem id_set (n : Notification) (flag : Flag) : (n.set flag).id = n.id := by
  cases flag <;> rfl

theorem sorted_change {rows : List Notification} (h : rows.Pairwise fun a b => a.id < b.id)
    (id : Int) (flag : Flag) : (change rows id flag).Pairwise fun a b => a.id < b.id := by
  refine List.Pairwise.map _ (fun a b hab => ?_) h
  split_ifs <;> simpa [id_set] using hab

/-- Sets one flag. -/
def flagNotification (t : Notifications) (id : Int) (flag : Flag) :
    Except StoreError Notifications :=
  if t.rows.any fun n => n.id = id then .ok ⟨change t.rows id flag, sorted_change t.sorted id flag⟩
  else .error (.notFound "notification" (toString id))

/-- What a user has seen and is older than a time. -/
def outdated (before : Int) (n : Notification) : Bool :=
  n.delivered && n.read && n.tsMs < before

/-- Discards delivered-and-read notifications older than a time. -/
def prune (t : Notifications) (before : Int) : Nat × Notifications :=
  (t.rows.countP (outdated before),
    ⟨t.rows.filter fun n => !outdated before n, t.sorted.filter _⟩)

/-! ### Runs -/

inductive Op
  | push (now : Int) (kind payload : String) (pick : Int)
  | undelivered (limit : Nat)
  | recent (limit : Nat)
  | flag (id : Int) (flag : Flag)
  | prune (before : Int)
  deriving DecidableEq

inductive Answer
  | pushed (n : Notification)
  | listed (ns : List Notification)
  | done
  | pruned (count : Nat)
  | failed (error : StoreError)
  deriving DecidableEq

/-- One operation.  Each is one statement, which the engine may reject. -/
def step (t : Notifications) : Op × Bool → Option (Notifications × Answer)
  | (_, true) => some (t, .failed .database)
  | (.push now kind payload pick, false) =>
      match t.push now kind payload pick with
      | .ok (n, t) => some (t, .pushed n)
      | .error e => some (t, .failed e)
  | (.undelivered limit, false) => some (t, .listed (t.undelivered limit))
  | (.recent limit, false) => some (t, .listed (t.recent limit))
  | (.flag id flag, false) =>
      match t.flagNotification id flag with
      | .ok t => some (t, .done)
      | .error e => some (t, .failed e)
  | (.prune before, false) => some ((t.prune before).2, .pruned (t.prune before).1)

abbrev Trace := List ((Op × Bool) × Answer)

/-- A flag was set, at a time when the number was in use. -/
def flagged (id : Int) (flag : Flag) : (Op × Bool) × Answer := ((.flag id flag, false), .done)

/-- A notification is in the table as it was queued, and every flag it has was set. -/
def Present (t : Notifications) (n : Notification) (after : Trace) : Prop :=
  ∃ row ∈ t.rows, row.id = n.id ∧ row.tsMs = n.tsMs ∧ row.kind = n.kind ∧
    row.payload = n.payload ∧ ∀ flag, row.has flag = true → flagged n.id flag ∈ after

/-- A notification was discarded after both flags had been set. -/
def Discarded (n : Notification) (after : Trace) : Prop :=
  ∃ seen before count rest, after = seen ++ ((.prune before, false), .pruned count) :: rest ∧
    n.tsMs < before ∧ ∀ flag, flagged n.id flag ∈ seen

/-! ### Nothing is lost unseen -/

theorem has_set (n : Notification) (flag other : Flag) :
    (n.set flag).has other = true ↔ n.has other = true ∨ other = flag := by
  cases flag <;> cases other <;> simp [Notification.set, Notification.has]

theorem Present.mono {t t' : Notifications} {n : Notification} {trace : Trace}
    (h : Present t n trace) (hrows : ∀ row ∈ t.rows, row ∈ t'.rows)
    (entry : (Op × Bool) × Answer) : Present t' n (trace ++ [entry]) := by
  obtain ⟨row, hrow, hid, hts, hkind, hpayload, hflags⟩ := h
  exact ⟨row, hrows row hrow, hid, hts, hkind, hpayload,
    fun flag hflag => List.mem_append_left _ (hflags flag hflag)⟩

theorem Present.flag {t t' : Notifications} {n : Notification} {trace : Trace} {id : Int}
    {flag : Flag} (h : Present t n trace) (hrows : t'.rows = change t.rows id flag) :
    Present t' n (trace ++ [flagged id flag]) := by
  obtain ⟨row, hrow, hid, hts, hkind, hpayload, hflags⟩ := h
  have hmem : (if row.id = id then row.set flag else row) ∈ t'.rows := by
    rw [hrows]
    exact List.mem_map_of_mem hrow
  by_cases hthis : row.id = id
  · rw [if_pos hthis] at hmem
    refine ⟨row.set flag, hmem, by rw [id_set, hid], ?_, ?_, ?_, fun other hother => ?_⟩
    · cases flag <;> exact hts
    · cases flag <;> exact hkind
    · cases flag <;> exact hpayload
    · rcases (has_set row flag other).mp hother with hhad | rfl
      · exact List.mem_append_left _ (hflags other hhad)
      · rw [← hid, hthis]
        exact List.mem_append_right _ (.head _)
  · rw [if_neg hthis] at hmem
    exact ⟨row, hmem, hid, hts, hkind, hpayload,
      fun other hother => List.mem_append_left _ (hflags other hother)⟩

theorem Present.prune {t : Notifications} {n : Notification} {trace : Trace} {before : Int}
    {count : Nat} (h : Present t n trace) :
    Present (t.prune before).2 n (trace ++ [((.prune before, false), .pruned count)]) ∨
      Discarded n (trace ++ [((.prune before, false), .pruned count)]) := by
  obtain ⟨row, hrow, hid, hts, hkind, hpayload, hflags⟩ := h
  by_cases hold : outdated before row = true
  · right
    unfold outdated at hold
    simp only [Bool.and_eq_true, decide_eq_true_eq] at hold
    obtain ⟨⟨hdelivered, hread⟩, hbefore⟩ := hold
    refine ⟨trace, before, count, [], rfl, by omega, fun flag => ?_⟩
    cases flag with
    | delivered => exact hflags .delivered hdelivered
    | read => exact hflags .read hread
  · left
    have hkept : row ∈ (t.prune before).2.rows := List.mem_filter.mpr ⟨hrow, by simpa using hold⟩
    exact ⟨row, hkept, hid, hts, hkind, hpayload,
      fun flag hflag => List.mem_append_left _ (hflags flag hflag)⟩

theorem Discarded.mono {n : Notification} {trace : Trace} (h : Discarded n trace)
    (entry : (Op × Bool) × Answer) : Discarded n (trace ++ [entry]) := by
  obtain ⟨seen, before, count, rest, rfl, hbefore, hflags⟩ := h
  exact ⟨seen, before, count, rest ++ [entry], by simp, hbefore, hflags⟩

/-- **What each operation does to one notification.** -/
theorem accounted_step {t t' : Notifications} {n : Notification} {trace : Trace} {e : Op × Bool}
    {answer : Answer} (h : Present t n trace ∨ Discarded n trace)
    (hstep : step t e = some (t', answer)) :
    Present t' n (trace ++ [(e, answer)]) ∨ Discarded n (trace ++ [(e, answer)]) := by
  rcases h with h | h
  · obtain ⟨op, rejected⟩ := e
    cases rejected with
    | true =>
        cases hstep
        exact .inl (h.mono (fun row hrow => hrow) _)
    | false =>
        cases op with
        | push now kind payload pick =>
            simp only [step, push] at hstep
            split at hstep
            · next m t₁ hpush =>
                cases hstep
                split at hpush
                · cases hpush
                · next t₂ hinsert =>
                    cases hpush
                    unfold Table.insert at hinsert
                    split_ifs at hinsert
                    cases hinsert
                    exact .inl (h.mono (fun row hrow => Table.mem_place.mpr (.inr hrow)) _)
            · cases hstep
              exact .inl (h.mono (fun row hrow => hrow) _)
        | undelivered limit | recent limit =>
            cases hstep
            exact .inl (h.mono (fun row hrow => hrow) _)
        | flag id flag =>
            simp only [step, flagNotification] at hstep
            split_ifs at hstep
            · cases hstep
              exact .inl (h.flag rfl)
            · cases hstep
              exact .inl (h.mono (fun row hrow => hrow) _)
        | prune before =>
            cases hstep
            exact h.prune
  · exact .inr (h.mono _)

/-- What queuing a notification does. -/
theorem push_ok {t t' : Notifications} {now pick : Int} {kind payload : String} {n : Notification}
    (h : t.push now kind payload pick = .ok (n, t')) :
    n = ⟨t.nextRowid pick, now, kind, payload, false, false⟩ ∧ t.insert n = some t' := by
  unfold push at h
  dsimp only at h
  split at h
  · cases h
  · next t₁ hinsert =>
      cases h
      exact ⟨rfl, hinsert⟩

/-- Only queuing answers with what was queued. -/
theorem pushed_step {t t' : Notifications} {e : Op × Bool} {n : Notification}
    (h : step t e = some (t', .pushed n)) :
    ∃ now kind payload pick, e = (.push now kind payload pick, false) ∧
      t.push now kind payload pick = .ok (n, t') := by
  obtain ⟨op, rejected⟩ := e
  cases rejected with
  | true => cases h
  | false =>
      cases op with
      | push now kind payload pick =>
          simp only [step] at h
          split at h
          · next m t₁ hpush =>
              cases h
              exact ⟨now, kind, payload, pick, rfl, hpush⟩
          · cases h
      | undelivered limit | recent limit | prune before => cases h
      | flag id flag =>
          simp only [step] at h
          split at h <;> cases h

/-- A notification that was queued is in the table. -/
theorem present_push {t t' : Notifications} {n : Notification} {e : Op × Bool}
    (hstep : step t e = some (t', .pushed n)) : Present t' n [] := by
  obtain ⟨now, kind, payload, pick, -, hpush⟩ := pushed_step hstep
  obtain ⟨hn, hinsert⟩ := push_ok hpush
  unfold Table.insert at hinsert
  split_ifs at hinsert
  cases hinsert
  refine ⟨n, Table.mem_place.mpr (.inl rfl), rfl, rfl, rfl, rfl, fun flag hflag => ?_⟩
  rw [hn] at hflag
  cases flag <;> cases hflag

/-- **A notification stays until it was delivered, read and old**: in every run, from
the time it was queued, it is in the table as it was then, with the flags that were
set since, or it was discarded after both were set. -/
theorem kept_until_seen {t₀ t : Notifications} {before after : Trace} {e : Op × Bool}
    {n : Notification} (hrun : Run step unguarded t₀ (before ++ (e, .pushed n) :: after) t) :
    Present t n after ∨ Discarded n after := by
  obtain ⟨t₁, -, hrest⟩ := hrun.parts
  obtain ⟨t₂, hpush, hafter⟩ := hrest.uncons
  refine Run.invariant (fun trace t => Present t n trace ∨ Discarded n trace)
    (.inl (present_push hpush)) ?_ hafter
  intro trace s e s' answer h _ hstep
  exact accounted_step h hstep

/-- What a phone is asked, delivered, read and discarded. -/
def sampleNotification : Notification := ⟨1, 5, "agent.approval", "deploy?", false, false⟩

def sampleAfter : Trace :=
  [flagged 1 .delivered, flagged 1 .read, ((.prune 6, false), .pruned 1)]

theorem kept_until_seen_sample :
    ∃ t, Run step unguarded .empty
        ([] ++ ((.push 5 "agent.approval" "deploy?" 0, false), .pushed sampleNotification) ::
          sampleAfter) t ∧
      (Present t sampleNotification sampleAfter ∨ Discarded sampleNotification sampleAfter) := by
  obtain ⟨t, hrun⟩ : ∃ t, Run step unguarded .empty
      ([] ++ ((.push 5 "agent.approval" "deploy?" 0, false), .pushed sampleNotification) ::
        sampleAfter) t :=
    ⟨_, .cons rfl (.cons rfl (.cons rfl (.cons rfl .nil)))⟩
  exact ⟨t, hrun, kept_until_seen hrun⟩

/-! ### First in, first out -/

/-- What the table is for: a queue, in which the last has the greatest number. -/
def queueStep (q : List Notification) : Op × Bool → Option (List Notification × Answer)
  | (_, true) => some (q, .failed .database)
  | (.push now kind payload _, false) =>
      let id := match q.getLast? with
        | none => 1
        | some last => last.id + 1
      let n : Notification := ⟨id, now, kind, payload, false, false⟩
      some (q ++ [n], .pushed n)
  | (.undelivered limit, false) => some (q, .listed ((q.filter fun n => !n.delivered).take limit))
  | (.recent limit, false) => some (q, .listed (q.reverse.take limit))
  | (.flag id flag, false) =>
      if q.any fun n => n.id = id then some (change q id flag, .done)
      else some (q, .failed (.notFound "notification" (toString id)))
  | (.prune before, false) =>
      some (q.filter fun n => !outdated before n, .pruned (q.countP (outdated before)))

/-- The clock is not set back, and the numbers do not run out. -/
def Steady (trace : Trace) (_ : Notifications) : Op × Bool → Prop
  | (.push now _ _ _, false) =>
      (∀ n e, (e, Answer.pushed n) ∈ trace → n.tsMs ≤ now) ∧ (trace.length : Int) < maxRowid
  | _ => True

/-- The rows are in the order in which they were queued. -/
structure Queued (trace : Trace) (t : Notifications) : Prop where
  run : Run queueStep unguarded [] trace t.rows
  times : t.rows.Pairwise fun a b => a.tsMs ≤ b.tsMs
  queued : ∀ row ∈ t.rows, ∃ n e, (e, Answer.pushed n) ∈ trace ∧ n.tsMs = row.tsMs
  numbers : ∀ row ∈ t.rows, row.id ≤ trace.length

namespace Queued

variable {trace : Trace} {t t' : Notifications}

/-- The rows are in the order of their times and numbers. -/
theorem older (h : Queued trace t) : t.rows.Pairwise Older := by
  refine (h.times.and t.sorted).imp fun hab => ?_
  unfold Older
  omega

/-- **The oldest come first** already. -/
theorem undelivered_eq (h : Queued trace t) (limit : Nat) :
    t.undelivered limit = (t.rows.filter fun n => !n.delivered).take limit := by
  unfold undelivered
  rw [(h.older.filter _).insertionSort_eq]

/-- **The newest come last.** -/
theorem recent_eq (h : Queued trace t) (limit : Nat) :
    t.recent limit = t.rows.reverse.take limit := by
  have hsorted : t.rows.insertionSort Newer = t.rows.reverse := by
    refine List.Perm.eq_of_pairwise ?_ (List.pairwise_insertionSort Newer t.rows)
      (List.pairwise_reverse.mpr h.older)
      ((List.perm_insertionSort Newer t.rows).trans (List.reverse_perm t.rows).symm)
    intro a b ha hb hab hba
    rw [List.mem_insertionSort] at ha
    rw [List.mem_reverse] at hb
    have hid : a.id = b.id := by
      unfold Newer Older at hab hba
      omega
    have hfind := Table.find_of_mem ha
    rw [hid, Table.find_of_mem hb] at hfind
    exact (Option.some.inj hfind).symm
  unfold recent
  rw [hsorted]

/-- The number of a new row is greater than those in use. -/
theorem nextRowid_eq (h : Queued trace t) (hroom : (trace.length : Int) < maxRowid) (pick : Int) :
    t.nextRowid pick = (match t.rows.getLast? with | none => 1 | some last => last.id + 1) ∧
      (∀ row ∈ t.rows, row.id < t.nextRowid pick) ∧ t.nextRowid pick ≤ trace.length + 1 := by
  unfold nextRowid Table.last
  cases hlast : t.rows.getLast? with
  | none =>
      rw [List.getLast?_eq_none_iff] at hlast
      refine ⟨rfl, fun row hrow => ?_, Int.le_add_of_nonneg_left (Int.natCast_nonneg _)⟩
      rw [hlast] at hrow
      cases hrow
  | some last =>
      have hbound := h.numbers last (List.mem_of_getLast? hlast)
      dsimp only
      rw [if_pos (by omega)]
      refine ⟨rfl, fun row hrow => ?_, by omega⟩
      have hle := Table.key_le_last hlast hrow
      omega

theorem push (h : Queued trace t) {now pick : Int} {kind payload : String}
    (hsteady : Steady trace t (.push now kind payload pick, false)) {answer : Answer}
    (hstep : step t (.push now kind payload pick, false) = some (t', answer)) :
    Queued (trace ++ [((.push now kind payload pick, false), answer)]) t' := by
  obtain ⟨hclock, hroom⟩ := hsteady
  obtain ⟨hid, hgreatest, hnumber⟩ := h.nextRowid_eq hroom pick
  obtain ⟨t₁, hinsert, hrows⟩ := @Table.insert_last _ _ t
    ⟨t.nextRowid pick, now, kind, payload, false, false⟩ hgreatest
  have hpush : t.push now kind payload pick =
      .ok (⟨t.nextRowid pick, now, kind, payload, false, false⟩, t₁) := by
    unfold Notifications.push
    dsimp only
    rw [hinsert]
  simp only [step, hpush, Option.some.injEq, Prod.mk.injEq] at hstep
  obtain ⟨rfl, rfl⟩ := hstep
  refine ⟨h.run.snoc trivial ?_, ?_, fun row hrow => ?_, fun row hrow => ?_⟩
  · simp only [queueStep, hrows, hid]
  · rw [hrows]
    refine List.pairwise_append.mpr ⟨h.times, List.pairwise_singleton _ _, fun a ha b hb => ?_⟩
    obtain rfl := List.mem_singleton.mp hb
    obtain ⟨n, e, hmem, hts⟩ := h.queued a ha
    rw [← hts]
    exact hclock n e hmem
  · rw [hrows] at hrow
    rcases List.mem_append.mp hrow with hrow | hrow
    · obtain ⟨n, e, hmem, hts⟩ := h.queued row hrow
      exact ⟨n, e, List.mem_append_left _ hmem, hts⟩
    · obtain rfl := List.mem_singleton.mp hrow
      exact ⟨_, _, List.mem_append_right _ (.head _), rfl⟩
  · rw [hrows] at hrow
    rw [List.length_append, List.length_singleton]
    rcases List.mem_append.mp hrow with hrow | hrow
    · have := h.numbers row hrow
      omega
    · obtain rfl := List.mem_singleton.mp hrow
      dsimp only
      omega

/-- Rows that were there, with their times and numbers. -/
theorem keep (h : Queued trace t) {entry : (Op × Bool) × Answer}
    (hqueue : queueStep t.rows entry.1 = some (t'.rows, entry.2))
    (htimes : t'.rows.Pairwise fun a b => a.tsMs ≤ b.tsMs)
    (hrows : ∀ row ∈ t'.rows, ∃ old ∈ t.rows, old.id = row.id ∧ old.tsMs = row.tsMs) :
    Queued (trace ++ [entry]) t' := by
  refine ⟨h.run.snoc trivial hqueue, htimes, fun row hrow => ?_, fun row hrow => ?_⟩
  · obtain ⟨old, hold, -, hts⟩ := hrows row hrow
    obtain ⟨n, e, hmem, hn⟩ := h.queued old hold
    exact ⟨n, e, List.mem_append_left _ hmem, hn.trans hts⟩
  · obtain ⟨old, hold, hid, -⟩ := hrows row hrow
    have hnumber := h.numbers old hold
    rw [List.length_append, List.length_singleton]
    omega

/-- **The table is a queue**, one operation after the other. -/
theorem step (h : Queued trace t) {e : Op × Bool} {answer : Answer} (hsteady : Steady trace t e)
    (hstep : Notifications.step t e = some (t', answer)) : Queued (trace ++ [(e, answer)]) t' := by
  obtain ⟨op, rejected⟩ := e
  have hsame : ∀ row ∈ t.rows, ∃ old ∈ t.rows, old.id = row.id ∧ old.tsMs = row.tsMs :=
    fun row hrow => ⟨row, hrow, rfl, rfl⟩
  cases rejected with
  | true =>
      cases hstep
      exact h.keep rfl h.times hsame
  | false =>
      cases op with
      | push now kind payload pick => exact h.push hsteady hstep
      | undelivered limit =>
          cases hstep
          refine h.keep ?_ h.times hsame
          rw [h.undelivered_eq]
          rfl
      | recent limit =>
          cases hstep
          refine h.keep ?_ h.times hsame
          rw [h.recent_eq]
          rfl
      | flag id flag =>
          have hts : ∀ n : Notification, (if n.id = id then n.set flag else n).tsMs = n.tsMs := by
            intro n
            split_ifs
            · cases flag <;> rfl
            · rfl
          simp only [Notifications.step, flagNotification] at hstep
          split_ifs at hstep with hany
          · cases hstep
            refine h.keep ?_ (List.Pairwise.map _ (fun a b hab => ?_) h.times) fun row hrow => ?_
            · exact if_pos hany
            · rw [hts, hts]
              exact hab
            · obtain ⟨old, hold, rfl⟩ := List.mem_map.mp hrow
              refine ⟨old, hold, ?_, (hts old).symm⟩
              split_ifs
              · exact (id_set old flag).symm
              · rfl
          · cases hstep
            exact h.keep (if_neg hany) h.times hsame
      | prune before =>
          cases hstep
          exact h.keep rfl (h.times.filter _) fun row hrow =>
            ⟨row, (List.mem_filter.mp hrow).1, rfl, rfl⟩

end Queued

theorem queued_empty : Queued [] .empty where
  run := .nil
  times := .nil
  queued _ hrow := nomatch hrow
  numbers _ hrow := nomatch hrow

/-- **First in, first out**: as long as the clock is not set back, what the operations
answer in any order is what a queue answers. -/
theorem fifo {t : Notifications} {trace : Trace} (hrun : Run step Steady .empty trace t) :
    Run queueStep unguarded [] trace t.rows :=
  (hrun.invariant Queued queued_empty
    fun _ _ _ _ _ h hsteady hstep => h.step hsteady hstep).run

/-- Two notifications of one moment, and the older of them. -/
def sampleTrace : Trace :=
  [] ++ [((.push 5 "a" "1" 0, false), .pushed ⟨1, 5, "a", "1", false, false⟩)] ++
    [((.push 5 "b" "2" 0, false), .pushed ⟨2, 5, "b", "2", false, false⟩)] ++
    [((.undelivered 1, false), .listed [⟨1, 5, "a", "1", false, false⟩])]

theorem fifo_sample :
    ∃ t, Run step Steady .empty sampleTrace t ∧ Run queueStep unguarded [] sampleTrace t.rows := by
  obtain ⟨t, hrun⟩ : ∃ t, Run step Steady .empty sampleTrace t := by
    refine ⟨_, ((Run.nil.snoc ⟨?_, by decide⟩ rfl).snoc ⟨?_, by decide⟩ rfl).snoc trivial rfl⟩
    · intro n e hmem
      cases hmem
    · intro n e hmem
      simp only [List.nil_append, List.mem_singleton, Prod.mk.injEq, Answer.pushed.injEq] at hmem
      rw [hmem.2]
  exact ⟨t, hrun, fifo hrun⟩

end Notifications

end Store
