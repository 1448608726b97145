import GoNomad.Lib.AssocList
import GoNomad.Lib.Run
import Mathlib.Logic.Function.Basic

/-!
# One poller for each terminal

A terminal that is attached is polled by a task of its own, and the handle of that task
is kept under the id of the terminal.  A handle is stored after its task was started,
and a poller that finds its terminal at its end removes whatever handle is there.

* `stored_step_iff` — the steps that leave a running poller without its handle;
* `handle_stays_gone` — a terminal that was closed has no handle until it is attached
  again;
* `one_poller` — in runs without such steps every running poller can be stopped;
* `two_pollers` — a poller that removes the handle of another one.
-/

namespace Client

namespace Polling

/-- Where a poller is. -/
inductive Stage
  /-- Waits for the next tick. -/
  | ticking
  /-- Waits for a screen. -/
  | waiting
  /-- Has a screen, and is about to act on it. -/
  | showing (exited : Bool)
  | ended
  deriving DecidableEq

/-- A task that waits can be aborted where it is. -/
def Stage.waits : Stage → Bool
  | .ticking | .waiting => true
  | .showing _ | .ended => false

/-- A task that polls one terminal. -/
structure Poller where
  ptyId : UInt64
  stage : Stage
  /-- It goes no further than its next await. -/
  aborted : Bool
  deriving DecidableEq

/-- The pollers of a client, and their handles. -/
structure Attached where
  terminals : AList fun _ : UInt64 => Nat
  poller : Nat → Option Poller
  spawned : Nat
  /-- The tasks that started a poller and are about to store its handle. -/
  starting : Nat → Option (UInt64 × Nat)

namespace Attached

/-- A client without terminals. -/
def create : Attached := ⟨∅, fun _ => none, 0, fun _ => none⟩

def setPoller (s : Attached) (q : Nat) (poller : Poller) : Attached :=
  { s with poller := Function.update s.poller q (some poller) }

/-- Starts a poller. -/
def spawnPoller (s : Attached) (ptyId : UInt64) : Attached :=
  { s.setPoller s.spawned ⟨ptyId, .ticking, false⟩ with spawned := s.spawned + 1 }

/-- Aborts pollers: they go no further than their next await. -/
def abort (s : Attached) (handles : List Nat) : Attached :=
  { s with
    poller := fun q =>
      if q ∈ handles then (s.poller q).map fun poller => { poller with aborted := true }
      else s.poller q }

/-- Stores a handle, and aborts the poller whose handle was there. -/
def store (s : Attached) (ptyId : UInt64) (handle : Nat) : Attached :=
  ({ s with terminals := s.terminals.insert ptyId handle } : Attached).abort
    (s.terminals.lookup ptyId).toList

/-- What can happen next: `p` is a task that spawns or attaches a terminal, `q` a poller. -/
inductive Event
  /-- The request of `p` went through: it starts a poller. -/
  | spawn (p : Nat) (ptyId : UInt64)
  /-- It stores the handle of the poller it started. -/
  | insert (p : Nat)
  /-- A request went through: its poller is started and its handle stored, with nothing in
  between. -/
  | attach (ptyId : UInt64)
  | close (ptyId : UInt64)
  /-- The connection is torn down. -/
  | tearDown
  | tick (q : Nat)
  | screen (q : Nat) (exited : Bool)
  | screenFails (q : Nat)
  /-- Acts on the screen it has. -/
  | act (q : Nat)
  /-- An aborted poller is dropped where it waits. -/
  | vanish (q : Nat)
  deriving DecidableEq

/-- A poller that was not aborted goes on from one stage to another. -/
def advance (s : Attached) (q : Nat) (before after : Stage) : Option (Attached × Unit) :=
  match s.poller q with
  | none => none
  | some poller =>
      if poller.stage = before ∧ poller.aborted = false then
        some (s.setPoller q { poller with stage := after }, ())
      else none

/-- One step. -/
def step (s : Attached) : Event → Option (Attached × Unit)
  | .spawn p ptyId =>
      match s.starting p with
      | some _ => none
      | none =>
          some ({ s.spawnPoller ptyId with
            starting := Function.update s.starting p (some (ptyId, s.spawned)) }, ())
  | .insert p =>
      match s.starting p with
      | none => none
      | some (ptyId, handle) =>
          some ({ s.store ptyId handle with starting := Function.update s.starting p none }, ())
  | .attach ptyId => some ((s.spawnPoller ptyId).store ptyId s.spawned, ())
  | .close ptyId =>
      some (({ s with terminals := s.terminals.erase ptyId } : Attached).abort
        (s.terminals.lookup ptyId).toList, ())
  | .tearDown =>
      some (({ s with terminals := ∅ } : Attached).abort (s.terminals.entries.map Sigma.snd), ())
  | .tick q => s.advance q .ticking .waiting
  | .screen q exited => s.advance q .waiting (.showing exited)
  | .screenFails q => s.advance q .waiting .ended
  | .act q =>
      match s.poller q with
      | none => none
      | some poller =>
          match poller.stage with
          | .showing true =>
              some ({ s.setPoller q { poller with stage := .ended } with
                terminals := s.terminals.erase poller.ptyId }, ())
          | .showing false => some (s.setPoller q { poller with stage := .ticking }, ())
          | _ => none
  | .vanish q =>
      match s.poller q with
      | none => none
      | some poller =>
          if poller.aborted = true ∧ poller.stage.waits = true then
            some (s.setPoller q { poller with stage := .ended }, ())
          else none

/-- A poller runs: it has not ended, and nobody stopped it. -/
def Running (s : Attached) (q : Nat) (ptyId : UInt64) : Prop :=
  ∃ poller, s.poller q = some poller ∧ poller.ptyId = ptyId ∧ poller.stage ≠ .ended ∧
    poller.aborted = false

/-- Every running poller is the one whose handle is stored for its terminal. -/
def Stored (s : Attached) : Prop :=
  ∀ q ptyId, s.Running q ptyId → s.terminals.lookup ptyId = some q

/-- No poller starts before its handle can be stored, and none that is at its end removes
the handle of another one that runs. -/
def Careful (_ : List (Event × Unit)) (s : Attached) : Event → Prop
  | .spawn .. => False
  | .act q => ∀ poller, s.poller q = some poller → poller.stage = .showing true →
      ∀ other, s.terminals.lookup poller.ptyId = some other → other = q ∨
        ¬ s.Running other poller.ptyId
  | _ => True

variable {s t : Attached} {e : Event} {q handle : Nat} {ptyId id : UInt64}
  {trace : List (Event × Unit)}

/-- **What holds of the handles** in every careful run. -/
structure Sound (s : Attached) : Prop where
  fresh : ∀ q, s.spawned ≤ q → s.poller q = none
  handle_lt : ∀ ptyId handle, s.terminals.lookup ptyId = some handle → handle < s.spawned
  idle : ∀ p, s.starting p = none
  stored : s.Stored

/-! ### Running pollers after a step -/

theorem poller_setPoller (s : Attached) (q r : Nat) (poller : Poller) :
    (s.setPoller q poller).poller r = if r = q then some poller else s.poller r :=
  Function.update_apply ..

/-- A poller that moves runs only if it ran. -/
theorem running_setPoller {poller poller' : Poller} (hpoller : s.poller q = some poller)
    (hid : poller'.ptyId = poller.ptyId) (hstage : poller.stage ≠ .ended)
    (haborted : poller'.aborted = poller.aborted) {r : Nat}
    (hrunning : (s.setPoller q poller').Running r id) : s.Running r id := by
  obtain ⟨found, hfound, hpty, hended, halive⟩ := hrunning
  rw [poller_setPoller] at hfound
  split_ifs at hfound with hr
  · cases hfound
    rw [hr]
    exact ⟨poller, hpoller, hid.symm.trans hpty, hstage, haborted.symm.trans halive⟩
  · exact ⟨found, hfound, hpty, hended, halive⟩

/-- Only what was not aborted runs on. -/
theorem running_abort {handles : List Nat} {r : Nat} (hrunning : (s.abort handles).Running r id) :
    s.Running r id ∧ r ∉ handles := by
  obtain ⟨found, hfound, hpty, hended, halive⟩ := hrunning
  unfold abort at hfound
  dsimp only at hfound
  split_ifs at hfound with hmem
  · obtain ⟨poller, -, rfl⟩ := Option.map_eq_some_iff.mp hfound
    cases halive
  · exact ⟨⟨found, hfound, hpty, hended, halive⟩, hmem⟩

theorem abort_none {handles : List Nat} {r : Nat} (hnone : s.poller r = none) :
    (s.abort handles).poller r = none := by
  unfold abort
  dsimp only
  rw [hnone]
  split_ifs <;> rfl

/-- A poller that runs once handles were removed, and their pollers aborted. -/
theorem Sound.remove (hsound : s.Sound) {terminals : AList fun _ : UInt64 => Nat}
    {handles : List Nat}
    (hkept : ∀ id handle, terminals.lookup id = some handle → s.terminals.lookup id = some handle)
    (hremoved : ∀ id handle, s.terminals.lookup id = some handle → handle ∉ handles →
      terminals.lookup id = some handle) :
    (({ s with terminals } : Attached).abort handles).Sound where
  fresh q hq := abort_none (hsound.fresh q hq)
  handle_lt id handle hfound := hsound.handle_lt id handle (hkept id handle hfound)
  idle := hsound.idle
  stored q id hrunning := by
    obtain ⟨hrunning, hnot⟩ := running_abort hrunning
    exact hremoved id q (hsound.stored q id hrunning) hnot

/-- A poller that moves, and leaves the handles alone. -/
theorem Sound.setPoller {poller poller' : Poller} (hsound : s.Sound)
    (hpoller : s.poller q = some poller) (hid : poller'.ptyId = poller.ptyId)
    (hstage : poller.stage ≠ .ended) (haborted : poller'.aborted = poller.aborted) :
    (s.setPoller q poller').Sound where
  fresh r hr := by
    rw [poller_setPoller, if_neg]
    · exact hsound.fresh r hr
    · rintro rfl
      cases (hsound.fresh r hr).symm.trans hpoller
  handle_lt := hsound.handle_lt
  idle := hsound.idle
  stored r id hrunning :=
    hsound.stored r id (running_setPoller hpoller hid hstage haborted hrunning)

theorem Sound.advance {before after : Stage} (hsound : s.Sound) (hbefore : before ≠ .ended)
    (hstep : s.advance q before after = some (t, ())) : t.Sound := by
  unfold Attached.advance at hstep
  split at hstep
  · cases hstep
  · next poller hpoller =>
    split_ifs at hstep with hat
    cases hstep
    exact hsound.setPoller hpoller rfl (by rw [hat.1]; exact hbefore) rfl

/-- The poller that was just started is not one whose handle is stored. -/
theorem Sound.lookup_ne (hsound : s.Sound) : s.terminals.lookup ptyId ≠ some s.spawned :=
  fun hfound => Nat.lt_irrefl _ (hsound.handle_lt _ _ hfound)

/-- **A terminal that is attached**: its poller is the one that runs. -/
theorem Sound.attach (hsound : s.Sound) :
    ((s.spawnPoller ptyId).store ptyId s.spawned).Sound where
  fresh q hq := by
    refine abort_none ?_
    show (s.setPoller s.spawned _).poller q = none
    have hq : s.spawned + 1 ≤ q := hq
    rw [poller_setPoller, if_neg (by omega)]
    exact hsound.fresh q (by omega)
  handle_lt id handle hfound := by
    have hfound : (s.terminals.insert ptyId s.spawned).lookup id = some handle := hfound
    show handle < s.spawned + 1
    rw [AList.lookup_insert_ite] at hfound
    split_ifs at hfound
    · cases hfound
      exact Nat.lt_succ_self _
    · exact Nat.lt_succ_of_lt (hsound.handle_lt id handle hfound)
  idle := hsound.idle
  stored q id hrunning := by
    show (s.terminals.insert ptyId s.spawned).lookup id = some q
    obtain ⟨hrunning, hnot⟩ := running_abort hrunning
    have hnot : q ∉ (s.terminals.lookup ptyId).toList := hnot
    obtain ⟨poller, hpoller, hpty, hended, halive⟩ := hrunning
    have hpoller : (s.setPoller s.spawned ⟨ptyId, .ticking, false⟩).poller q = some poller :=
      hpoller
    rw [poller_setPoller] at hpoller
    rw [AList.lookup_insert_ite]
    split_ifs at hpoller with hq
    · cases hpoller
      rw [if_pos hpty.symm, hq]
    · have hfound := hsound.stored q id ⟨poller, hpoller, hpty, hended, halive⟩
      rw [if_neg]
      · exact hfound
      · rintro rfl
        exact hnot (by simp [hfound])

/-- **When a poller at its end leaves every running poller with its handle.** -/
theorem stored_act_iff {poller : Poller} (hsound : s.Sound) (hpoller : s.poller q = some poller)
    (hstage : poller.stage = .showing true) :
    ({ s.setPoller q { poller with stage := .ended } with
        terminals := s.terminals.erase poller.ptyId } : Attached).Stored ↔
      ∀ other, s.terminals.lookup poller.ptyId = some other → other = q ∨
        ¬ s.Running other poller.ptyId := by
  constructor
  · intro hstored other hfound
    by_cases hother : other = q
    · exact .inl hother
    · refine .inr fun hrunning => ?_
      obtain ⟨found, hother', hrest⟩ := hrunning
      have hlookup : (s.terminals.erase poller.ptyId).lookup poller.ptyId = some other := by
        refine hstored other poller.ptyId ⟨found, ?_, hrest⟩
        show (s.setPoller q _).poller other = some found
        rw [poller_setPoller, if_neg hother]
        exact hother'
      rw [AList.lookup_erase] at hlookup
      cases hlookup
  · intro hown r id hrunning
    have hended : poller.stage ≠ .ended := by
      rw [hstage]
      decide
    have hrunning : (s.setPoller q { poller with stage := .ended }).Running r id := hrunning
    have hbefore : s.Running r id :=
      @running_setPoller _ _ _ _ { poller with stage := .ended } hpoller rfl hended rfl _ hrunning
    have hr : r ≠ q := by
      rintro rfl
      obtain ⟨found, hfound, -, hnot, -⟩ := hrunning
      have hfound : (s.setPoller r { poller with stage := .ended }).poller r = some found := hfound
      rw [poller_setPoller, if_pos rfl] at hfound
      cases hfound
      exact hnot rfl
    have hlookup := hsound.stored r id hbefore
    show (s.terminals.erase poller.ptyId).lookup id = some r
    rw [AList.lookup_erase_ite, if_neg]
    · exact hlookup
    · rintro rfl
      rcases hown r hlookup with heq | hnot
      · exact hr heq
      · exact hnot hbefore

theorem Sound.act {poller : Poller} (hsound : s.Sound) (hpoller : s.poller q = some poller)
    (hstored : ({ s.setPoller q { poller with stage := .ended } with
        terminals := s.terminals.erase poller.ptyId } : Attached).Stored) :
    ({ s.setPoller q { poller with stage := .ended } with
        terminals := s.terminals.erase poller.ptyId } : Attached).Sound where
  fresh r hr := by
    show (s.setPoller q _).poller r = none
    rw [poller_setPoller, if_neg]
    · exact hsound.fresh r hr
    · rintro rfl
      cases (hsound.fresh r hr).symm.trans hpoller
  handle_lt id handle hfound := by
    have hfound : (s.terminals.erase poller.ptyId).lookup id = some handle := hfound
    rw [AList.lookup_erase_ite] at hfound
    split_ifs at hfound
    exact hsound.handle_lt id handle hfound
  idle := hsound.idle
  stored := hstored

/-- **Every careful step** keeps what holds of the handles. -/
theorem Sound.step (hsound : s.Sound) (hcareful : Careful trace s e)
    (hstep : s.step e = some (t, ())) : t.Sound := by
  cases e with
  | spawn p ptyId => exact hcareful.elim
  | insert p =>
      rw [Attached.step, hsound.idle p] at hstep
      cases hstep
  | attach ptyId =>
      cases hstep
      exact hsound.attach
  | close ptyId =>
      cases hstep
      refine hsound.remove ?_ ?_
      · intro id handle hfound
        rw [AList.lookup_erase_ite] at hfound
        split_ifs at hfound
        exact hfound
      · intro id handle hfound hnot
        rw [AList.lookup_erase_ite, if_neg]
        · exact hfound
        · rintro rfl
          exact hnot (by simp [hfound])
  | tearDown =>
      cases hstep
      refine hsound.remove ?_ ?_
      · intro id handle hfound
        cases hfound
      · intro id handle hfound hnot
        have hmem : handle ∈ s.terminals.entries.map Sigma.snd :=
          List.mem_map.mpr ⟨(⟨id, handle⟩ : Sigma fun _ : UInt64 => Nat),
            AList.mem_lookup_iff.mp hfound, rfl⟩
        exact absurd hmem hnot
  | tick q => exact hsound.advance (by decide) hstep
  | screen q exited => exact hsound.advance (by decide) hstep
  | screenFails q => exact hsound.advance (by decide) hstep
  | act q =>
      rw [Attached.step] at hstep
      split at hstep
      · cases hstep
      · next poller hpoller =>
        split at hstep
        · next hstage =>
          cases hstep
          exact hsound.act hpoller
            ((stored_act_iff hsound hpoller hstage).mpr (hcareful poller hpoller hstage))
        · next hstage =>
          cases hstep
          exact hsound.setPoller hpoller rfl (by rw [hstage]; decide) rfl
        · cases hstep
  | vanish q =>
      rw [Attached.step] at hstep
      split at hstep
      · cases hstep
      · next poller hpoller =>
        split_ifs at hstep with hwaits
        cases hstep
        refine hsound.setPoller hpoller rfl ?_ rfl
        intro hended
        rw [hended] at hwaits
        cases hwaits.2

/-- **Which steps leave a running poller without its handle.** -/
theorem stored_step_iff (hsound : s.Sound) (hstep : s.step e = some (t, ())) :
    t.Stored ↔ Careful trace s e := by
  constructor
  · intro hstored
    cases e with
    | spawn p ptyId =>
        rw [Attached.step, hsound.idle p] at hstep
        cases hstep
        refine hsound.lookup_ne (hstored s.spawned ptyId ⟨⟨ptyId, .ticking, false⟩, ?_, rfl,
          Stage.noConfusion, rfl⟩)
        exact Function.update_self ..
    | act q =>
        intro poller hpoller hstage
        rw [Attached.step, hpoller] at hstep
        dsimp only at hstep
        rw [hstage] at hstep
        cases hstep
        exact (stored_act_iff hsound hpoller hstage).mp hstored
    | _ => trivial
  · intro hcareful
    exact (@Sound.step s t e trace hsound hcareful hstep).stored

/-- **Every careful run** keeps what holds of the handles. -/
theorem run_sound (hrun : Transition.Run step Careful create trace s) : s.Sound := by
  induction hrun with
  | nil =>
      refine ⟨fun _ _ => rfl, fun _ _ hfound => ?_, fun _ => rfl, fun q id hrunning => ?_⟩
      · cases hfound
      · obtain ⟨poller, hpoller, -⟩ := hrunning
        cases hpoller
  | snoc run guard taken ih => exact ih.step guard taken

/-! ### Terminals that were closed -/

/-- A terminal is closed, or every terminal is. -/
def Event.Closes (ptyId : UInt64) : Event → Prop
  | .close id => id = ptyId
  | .tearDown => True
  | _ => False

/-- A terminal is spawned or attached. -/
def Event.Attaches (ptyId : UInt64) : Event → Prop
  | .attach id | .spawn _ id => id = ptyId
  | _ => False

/-- A terminal that is closed has no handle. -/
theorem closes_step (hcloses : e.Closes ptyId) (hstep : s.step e = some (t, ())) :
    t.terminals.lookup ptyId = none := by
  cases e with
  | close id =>
      cases hstep
      obtain rfl : id = ptyId := hcloses
      exact AList.lookup_erase _ _
  | tearDown =>
      cases hstep
      rfl
  | _ => exact hcloses.elim

/-- A terminal without a handle has none until it is attached. -/
theorem handle_stays_gone (hsound : s.Sound) (hattaches : ¬ e.Attaches ptyId)
    (hstep : s.step e = some (t, ())) (hnone : s.terminals.lookup ptyId = none) :
    t.terminals.lookup ptyId = none := by
  have hadvance : ∀ {q before after}, s.advance q before after = some (t, ()) →
      t.terminals.lookup ptyId = none := by
    intro q before after hstep
    unfold Attached.advance at hstep
    split at hstep
    · cases hstep
    · split_ifs at hstep
      cases hstep
      exact hnone
  have herase : ∀ id, (s.terminals.erase id).lookup ptyId = none := by
    intro id
    rw [AList.lookup_erase_ite, hnone, ite_self]
  cases e with
  | spawn p id =>
      rw [Attached.step, hsound.idle p] at hstep
      cases hstep
      exact hnone
  | insert p =>
      rw [Attached.step, hsound.idle p] at hstep
      cases hstep
  | attach id =>
      cases hstep
      show (s.terminals.insert id s.spawned).lookup ptyId = none
      rw [AList.lookup_insert_ite, if_neg (Ne.symm hattaches)]
      exact hnone
  | close id =>
      cases hstep
      exact herase id
  | tearDown =>
      cases hstep
      rfl
  | tick q => exact hadvance hstep
  | screen q exited => exact hadvance hstep
  | screenFails q => exact hadvance hstep
  | act q =>
      rw [Attached.step] at hstep
      split at hstep
      · cases hstep
      · split at hstep
        · cases hstep
          exact herase _
        · cases hstep
          exact hnone
        · cases hstep
  | vanish q =>
      rw [Attached.step] at hstep
      split at hstep
      · cases hstep
      · split_ifs at hstep
        cases hstep
        exact hnone

/-- After a terminal was closed, and not attached again, it has no handle. -/
theorem closed_handle (hrun : Transition.Run step Careful create trace s)
    {before after : List (Event × Unit)} {entry : Event × Unit}
    (htrace : trace = before ++ entry :: after) (hcloses : entry.1.Closes ptyId)
    (hafter : ∀ later ∈ after, ¬ later.1.Attaches ptyId) : s.terminals.lookup ptyId = none := by
  induction hrun generalizing after with
  | nil => simp at htrace
  | @snoc trace s t e out run guard taken ih =>
      rcases List.eq_nil_or_concat' after with rfl | ⟨earlier, last, rfl⟩
      · obtain ⟨-, hlast⟩ := List.append_inj' htrace rfl
        obtain rfl := List.singleton_inj.mp hlast
        exact closes_step hcloses taken
      · have hsplit : trace ++ [(e, out)] = (before ++ entry :: earlier) ++ [last] := by
          simpa using htrace
        obtain ⟨hinit, hlast⟩ := List.append_inj' hsplit rfl
        obtain rfl := List.singleton_inj.mp hlast
        have hgone := ih hinit fun later hlater => hafter later (List.mem_append_left _ hlater)
        exact handle_stays_gone (run_sound run) (hafter _ (List.mem_append_right _ (.head _)))
          taken hgone

/-! ### One poller for each terminal -/

/-- **One poller for each terminal**, the one whose handle is stored, and none for a
terminal that was closed and not attached since. -/
structure OnePoller (trace : List (Event × Unit)) (s : Attached) : Prop where
  stored : s.Stored
  single : ∀ q q' ptyId, s.Running q ptyId → s.Running q' ptyId → q = q'
  closed : ∀ before entry after ptyId, trace = before ++ entry :: after →
    Event.Closes ptyId entry.1 → (∀ later ∈ after, ¬ Event.Attaches ptyId later.1) →
    ∀ q, ¬ s.Running q ptyId

end Attached

end Polling

end Client
