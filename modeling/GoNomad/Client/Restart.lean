import GoNomad.Client.Tasks
import GoNomad.Lib.Hex
import GoNomad.Lib.Text

/-!
# A client across restarts

The identity of a phone is in memory for the life of a client, and in a file that
the end of a pairing removes; the record of a pairing is written for the identity
in memory, and read back next to the identity that the file holds.

* `load_write` — what is written to the key file is what is loaded from it;
* `Bound.step`, `run_bound` — where a record is written only while the key file is
  there, the record on disk belongs to the identity in it;
* `pairing_survives` — then the next start loads the identity that was registered;
* `pairing_orphaned` — a pairing that is confirmed after another one was ended.
-/

namespace Client

open Proto

/-- The master seed of a device, from which its keys are derived. -/
abbrev Seed := { bytes : List UInt8 // bytes.length = 32 }

def trim (text : List Char) : List Char :=
  ((text.dropWhile isWhiteSpace).reverse.dropWhile isWhiteSpace).reverse

/-- Reads an identity that is there. -/
def loadIdentity (text : List Char) : Option Seed :=
  match Hex.decode (trim text) with
  | none => none
  | some bytes => if h : bytes.length = 32 then some ⟨bytes, h⟩ else none

/-- What is written for an identity. -/
def writeIdentity (identity : Seed) : List Char := Hex.encode identity.val

/-- Loads the identity, or writes a new one where there is none: the identity, and
the file that is there afterwards. -/
def loadOrCreateIdentity (keyFile : Option (List Char)) (generated : Seed) :
    Option (Seed × List Char) :=
  match keyFile with
  | some text => (loadIdentity text).map (·, text)
  | none => some (generated, writeIdentity generated)

/-- A state directory, and the client that was created on it. -/
structure Phone where
  keyFile : Option (List Char)
  /-- The identity in memory. -/
  identity : Seed
  inner : Inner

namespace Phone

/-- Creates a client on a state directory. -/
def create (keyFile : Option (List Char)) (stored : Option PairedDaemon) (generated : Seed) :
    Option Phone :=
  match loadOrCreateIdentity keyFile generated with
  | none => none
  | some (identity, text) => some ⟨some text, identity, .create stored⟩

/-- The client that is created on an empty directory. -/
def start (generated : Seed) : Phone := ⟨some (writeIdentity generated), generated, .create none⟩

/-- What can happen next. -/
inductive Event
  /-- A step of the client. -/
  | inner (event : Inner.Event)
  /-- The client is dropped, wherever its tasks are, and created again. -/
  | restart (generated : Seed)

/-- The key file after a step of the client. -/
def keyAfter (keyFile : Option (List Char)) : Inner.Event → Option (List Char)
  | .wipeKey _ => none
  | _ => keyFile

/-- Whose pairing a step of the client writes: that of the identity in memory,
which authenticated the connection on which it was registered. -/
def registers (identity : Seed) : Inner.Event → Option Seed
  | .save _ => some identity
  | _ => none

/-- One step, and the identity whose pairing was written. -/
def step (s : Phone) : Event → Option (Phone × Option Seed)
  | .inner event =>
      match s.inner.step event with
      | none => none
      | some (inner, _) =>
          some ({ s with keyFile := keyAfter s.keyFile event, inner },
            registers s.identity event)
  | .restart generated => (create s.keyFile s.inner.stored generated).map (·, none)

/-- The identity whose pairing was written last. -/
def registrant (trace : List (Event × Option Seed)) : Option Seed :=
  trace.foldl (fun known entry => entry.2.or known) none

/-- Records are written while the key file is there, and it is removed when none is. -/
def Kept (_ : List (Event × Option Seed)) (s : Phone) : Event → Prop
  | .inner (.save _) | .inner (.touchSave _) => s.keyFile.isSome = true
  | .inner (.wipeKey _) => s.inner.stored.isNone = true
  | _ => True

instance (trace : List (Event × Option Seed)) (s : Phone) (e : Event) :
    Decidable (Kept trace s e) := by
  unfold Kept
  split <;> infer_instance

end Phone

/-! ### The key file -/

theorem dropWhile_of_none {p : Char → Bool} {text : List Char} (h : ∀ c ∈ text, p c = false) :
    text.dropWhile p = text := by
  cases text with
  | nil => rfl
  | cons c text =>
      rw [List.dropWhile_cons_of_neg]
      rw [h c (List.mem_cons_self ..)]
      exact Bool.false_ne_true

theorem trim_of_none {text : List Char} (h : ∀ c ∈ text, isWhiteSpace c = false) :
    trim text = text := by
  unfold trim
  rw [dropWhile_of_none h, dropWhile_of_none, List.reverse_reverse]
  intro c hc
  exact h c (List.mem_reverse.mp hc)

theorem digit_no_space {n : Nat} (h : n < 16) : isWhiteSpace (Hex.digit n) = false := by
  have hall : ∀ m : Fin 16, isWhiteSpace (Hex.digit m.val) = false := by decide
  exact hall ⟨n, h⟩

theorem encode_no_space (bytes : List UInt8) : ∀ c ∈ Hex.encode bytes, isWhiteSpace c = false := by
  induction bytes with
  | nil =>
      intro c hc
      cases hc
  | cons b bytes ih =>
      have hb := b.toNat_lt
      intro c hc
      rcases List.mem_cons.mp hc with rfl | hc
      · exact digit_no_space (by omega)
      · rcases List.mem_cons.mp hc with rfl | hc
        · exact digit_no_space (by omega)
        · exact ih c hc

/-- **What is written** for an identity is what is loaded. -/
theorem load_write (identity : Seed) : loadIdentity (writeIdentity identity) = some identity := by
  unfold loadIdentity writeIdentity
  rw [trim_of_none (encode_no_space _), Hex.decode_encode]
  exact dif_pos identity.property

/-- What is loaded or written is what the next start loads. -/
theorem load_of_loadOrCreate {keyFile : Option (List Char)} {generated identity : Seed}
    {text : List Char} (h : loadOrCreateIdentity keyFile generated = some (identity, text)) :
    loadIdentity text = some identity := by
  cases keyFile with
  | none =>
      cases h
      exact load_write generated
  | some text' =>
      obtain ⟨identity', hload, heq⟩ := Option.map_eq_some_iff.mp h
      cases heq
      exact hload

/-! ### Where records come from -/

def Caller.copies : Caller → Bool
  | .connect _ => true
  | _ => false

def Next.copies : Next → Bool
  | .dial _ => true
  | _ => false

/-- The task has a copy of a record that may be written back or cached. -/
def Task.copies : Task → Bool
  | .looking caller | .checking caller _ | .requesting caller _ _ => caller.copies
  | .tearing _ next | .drained _ next => next.copies
  | .dialing _ | .touching _ | .touched _ | .caching _ => true
  | _ => false

namespace Inner

variable {s t : Inner} {e : Event} {out : Option Returned} {p q : Nat}

/-- A record is in memory. -/
def Knows (s : Inner) : Prop := s.daemon ≠ none ∨ ∃ p, (s.task p).copies = true

@[grind =] theorem without_copies (caller : Caller) : caller.without.copies = caller.copies := by
  cases caller <;> rfl

@[grind =] theorem callerNext_copies (caller : Caller) : caller.next.copies = caller.copies := by
  cases caller <;> rfl

@[grind =] theorem next_copies (next : Next) : next.task.copies = next.copies := by
  cases next <;> rfl

theorem copies_step (h : s.step e = some (t, out)) (ht : (t.task q).copies = true) :
    s.Knows ∨ ∃ p, e = .save p := by
  unfold step at h
  unfold Knows
  split at h <;> grind [Task.copies, Caller.copies, Next.copies]

theorem daemon_step (h : s.step e = some (t, out)) (ht : t.daemon ≠ none) : s.Knows := by
  unfold step at h
  unfold Knows
  split at h <;> grind [goto, begin, abort, issue, setSession, cancelPairing, establish, Task.copies]

/-- **A record that is in memory** was there, or is that of a pairing being confirmed. -/
theorem Knows.of_step (h : s.step e = some (t, out)) (ht : t.Knows) :
    s.Knows ∨ ∃ p, e = .save p := by
  rcases ht with hdaemon | ⟨q, hq⟩
  · exact .inl (daemon_step h hdaemon)
  · exact copies_step h hq

/-- **A record that is on disk** was there, or is written by a pairing that is
confirmed, or by a connect from its copy. -/
theorem stored_step (h : s.step e = some (t, out)) (ht : t.stored ≠ none) :
    (s.stored ≠ none ∧ ∀ p, e ≠ .wipe p) ∨ (∃ p, e = .save p) ∨
      ∃ p, e = .touchSave p ∧ s.Knows := by
  unfold step at h
  unfold Knows
  split at h <;> grind [goto, begin, abort, issue, setSession, cancelPairing, establish, Task.copies]

end Inner

namespace Phone

variable {s t : Phone} {e : Event} {out : Option Seed} {trace : List (Event × Option Seed)}
  {generated : Seed} {known : Option Seed}

theorem registrant_append :
    registrant (trace ++ [(e, out)]) = out.or (registrant trace) := List.foldl_append ..

/-- **What holds in every state**: the key file, where it is there, is that of the
identity in memory; and a record, on disk or in memory, is that of a pairing of
this identity, with its key file still there if it is on disk. -/
structure Bound (known : Option Seed) (s : Phone) : Prop where
  key : ∀ text, s.keyFile = some text → loadIdentity text = some s.identity
  disk : s.inner.stored ≠ none → s.keyFile ≠ none ∧ known = some s.identity
  memory : s.inner.Knows → known = some s.identity

/-- A client that is created where the record on disk is that of the identity in
the key file. -/
theorem bound_create {keyFile : Option (List Char)} {stored : Option PairedDaemon}
    (h : create keyFile stored generated = some t)
    (hdisk : stored ≠ none → ∃ text identity, keyFile = some text ∧
      loadIdentity text = some identity ∧ known = some identity) :
    t.Bound known := by
  unfold create at h
  split at h
  · cases h
  · next identity text hload =>
      cases h
      have hknown : stored ≠ none → known = some identity := by
        intro hstored
        obtain ⟨text', identity', rfl, hidentity, hknown⟩ := hdisk hstored
        unfold loadOrCreateIdentity at hload
        dsimp only at hload
        rw [hidentity] at hload
        cases hload
        exact hknown
      refine ⟨?_, fun hstored => ⟨Option.some_ne_none _, hknown hstored⟩, ?_⟩
      · rintro _ ⟨⟩
        exact load_of_loadOrCreate hload
      · rintro (hdaemon | ⟨p, hp⟩)
        · exact hknown hdaemon
        · cases hp

theorem bound_start : (start generated).Bound known := by
  have hcreate : create none none generated = some (start generated) := rfl
  exact bound_create hcreate fun hstored => absurd rfl hstored

/-- **Every step** of these keeps it. -/
theorem Bound.step (h : s.Bound known) (hok : Kept trace s e) (hstep : s.step e = some (t, out)) :
    t.Bound (out.or known) := by
  cases e with
  | restart generated =>
      obtain ⟨t', hcreate, heq⟩ := Option.map_eq_some_iff.mp hstep
      cases heq
      refine bound_create hcreate fun hstored => ?_
      obtain ⟨hkey, hknown⟩ := h.disk hstored
      obtain ⟨text, htext⟩ := Option.ne_none_iff_exists'.mp hkey
      exact ⟨text, s.identity, htext, h.key text htext, hknown⟩
  | inner event =>
      dsimp only [Phone.step] at hstep
      split at hstep
      · cases hstep
      · next inner out' htaken =>
          cases hstep
          by_cases hsave : ∃ p, event = .save p
          · -- The record that is written is that of the identity in memory.
            obtain ⟨p, rfl⟩ := hsave
            refine ⟨h.key, fun _ => ⟨?_, rfl⟩, fun _ => rfl⟩
            exact Option.isSome_iff_ne_none.mp hok
          · have hregisters : registers s.identity event = none := by
              cases event with
              | save p => exact absurd ⟨p, rfl⟩ hsave
              | _ => rfl
            rw [hregisters]
            have hmemory : inner.Knows → known = some s.identity := by
              intro hknows
              rcases hknows.of_step htaken with hknows | hsaved
              · exact h.memory hknows
              · exact absurd hsaved hsave
            refine ⟨?_, ?_, hmemory⟩
            · intro text htext
              cases event with
              | wipeKey p => cases htext
              | _ => exact h.key text htext
            · intro hstored
              rcases Inner.stored_step htaken hstored with ⟨hbefore, -⟩ | hsaved | ⟨p, rfl, hknows⟩
              · obtain ⟨hkey, hknown⟩ := h.disk hbefore
                refine ⟨?_, hknown⟩
                cases event with
                | wipeKey p => exact absurd (Option.isNone_iff_eq_none.mp hok) hbefore
                | _ => exact hkey
              · exact absurd hsaved hsave
              · exact ⟨Option.isSome_iff_ne_none.mp hok, h.memory hknows⟩

/-- **Every run** of such steps keeps it. -/
theorem run_bound (hrun : Transition.Run step Kept (start generated) trace s) :
    s.Bound (registrant trace) := by
  induction hrun with
  | nil => exact bound_start
  | snoc _ guard taken ih =>
      rw [registrant_append]
      exact ih.step guard taken

/-- **A stored pairing survives** in runs in which records are written while the key
file is there: the next client that is created has the identity whose pairing was
written last. -/
theorem pairing_survives (hrun : Transition.Run step Kept (start generated) trace s)
    (hstored : s.inner.stored ≠ none) (generated' : Seed) :
    ∃ t, create s.keyFile s.inner.stored generated' = some t ∧
      registrant trace = some t.identity := by
  have h := run_bound hrun
  obtain ⟨hkey, hknown⟩ := h.disk hstored
  obtain ⟨text, htext⟩ := Option.ne_none_iff_exists'.mp hkey
  refine ⟨⟨some text, s.identity, .create s.inner.stored⟩, ?_, hknown⟩
  unfold create loadOrCreateIdentity
  rw [htext]
  dsimp only
  rw [h.key text htext]
  rfl

/-- The steps of a pairing, on the connection of the client with this number. -/
def pair (live : Nat) : List Event :=
  [.startPairing 0, .scanned 0 Inner.paired.noiseKey Inner.paired.noiseKey [], .startConfirm 0,
    .session live (.register 0), .session live (.sent 0),
    .session live (.receive (some (.response ⟨1, .ok []⟩))), .session live .hand,
    .session live (.wake 0 true), .registered 0 "phone", .session live (.register 1),
    .session live .close, .session live (.sendFails 1), .session live (.takeBack 1),
    .named 0 "" 3, .save 0, .cache 0, .confirm 0].map .inner

/-- A pairing, and a restart. -/
theorem pairing_survives_restart :
    ∃ trace s, Transition.Run step Kept (start ⟨List.replicate 32 1, rfl⟩) trace s ∧
      s.inner.stored ≠ none ∧
      ∃ t, create s.keyFile s.inner.stored ⟨List.replicate 32 2, rfl⟩ = some t ∧
        registrant trace = some t.identity := by
  have hrun : Transition.Run step Kept (start ⟨List.replicate 32 1, rfl⟩) _ _ :=
    Transition.run_of_exec (pair 0) rfl
  have hstored := Option.some_ne_none (Inner.record ⟨0, Inner.paired.noiseKey,
    Inner.paired.noiseKey, []⟩ "phone" "Your machine" 3)
  exact ⟨_, _, hrun, hstored, pairing_survives hrun hstored _⟩

/-- A pairing is ended, and another one is confirmed before the client is created
again: its record stays, and the identity that it was registered with is gone. -/
theorem pairing_orphaned :
    ¬∀ generated trace s, Transition.Run step Transition.unguarded (start generated) trace s →
      s.inner.stored ≠ none → ∀ generated' : Seed,
        ∃ t, create s.keyFile s.inner.stored generated' = some t ∧
          registrant trace = some t.identity := by
  intro h
  have hexec : (Transition.exec step Transition.unguarded
      (pair 0 ++ [.inner (.startUnpair 0), .inner (.drain 0), .inner (.takeLive 0),
        .inner (.forget 0), .inner (.wipe 0), .inner (.wipeKey 0)] ++ pair 1) []
      (start ⟨List.replicate 32 1, rfl⟩)).map
        (fun r => (r.2.keyFile, r.2.inner.stored.isSome, (registrant r.1).map Subtype.val)) =
      some (none, true, some (List.replicate 32 1)) := by decide +kernel
  obtain ⟨⟨trace, s⟩, hexec, hs⟩ := Option.map_eq_some_iff.mp hexec
  obtain ⟨hkey, hstored⟩ := Prod.mk.inj hs
  obtain ⟨hstored, hregistrant⟩ := Prod.mk.inj hstored
  obtain ⟨t, hcreate, hknown⟩ := h _ _ _ (Transition.run_of_exec _ hexec)
    (Option.isSome_iff_ne_none.mp hstored) ⟨List.replicate 32 2, rfl⟩
  dsimp only at hkey
  rw [hkey] at hcreate
  cases hcreate
  rw [hknown] at hregistrant
  cases hregistrant

end Phone

end Client
