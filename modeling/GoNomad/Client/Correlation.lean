import GoNomad.Lib.AssocList
import GoNomad.Client.Session

/-!
# Correlation

Whose response a request returns, whatever the tasks of a connection, the daemon
and the clock do in whatever order.

* `Sound` — what holds of slots, channels and outcomes in every state;
* `Sound.step`, `run_sound` — every step and every run keeps it;
* `correlated` — a request returns at most once, what it returns arrived for it,
  and it leaves no slot.
-/

namespace Client

open Proto

/-- The stages in which the slot of a request may be in the map. -/
def Stage.holds : Stage → Prop
  | .sending | .refused | .waiting | .expired | .dropped => True
  | _ => False

def Stage.outcome : Stage → Option Outcome
  | .returned outcome => some outcome
  | _ => none

/-- The stages behind the registration of a slot. -/
def Stage.behind (stage : Stage) : Prop := stage ≠ .unborn ∧ stage ≠ .numbered

/-- The stages in which a request counts on its channel. -/
def Stage.counts (stage : Stage) : Prop := stage = .sending ∨ stage = .waiting

/-- The reader has nothing in its hands. -/
def Reader.empty : Reader → Prop
  | .holding .. => False
  | .abandoning requests => requests = []
  | _ => True

namespace Session

/-! ### What a trace shows -/

/-- What was taken from a trace of steps. -/
abbrev Trace := List (Event × Option (Nat × Outcome))

/-- The outcomes of one request. -/
def outcomes (trace : Trace) (r : Nat) : List Outcome :=
  trace.filterMap fun entry => entry.2.bind fun returned =>
    if returned.1 = r then some returned.2 else none

/-- After a request registered its slot, a response with an id and this reply arrived. -/
def Answered (trace : Trace) (id : UInt64) (r : Nat) (reply : Reply) : Prop :=
  ∃ before between after response, trace = before ++ (.register r, none) :: between ++
      (.receive (some (.response response)), none) :: after ∧
    response.correlationId = id ∧ replyOf response.body = some reply

/-- What the daemon is said to have answered, it answered. -/
def Justified (trace : Trace) (id : UInt64) (r : Nat) : Outcome → Prop
  | .ok result => Answered trace id r (.ok result)
  | .remote error => Answered trace id r (.error error)
  | _ => True

/-- The sender of a request's channel is somewhere. -/
def Covered (s : Session) (r : Nat) : Prop :=
  s.slots.lookup (s.call r).id = some r ∨ (∃ reply, s.reader = .holding r reply) ∨
    ∃ requests, s.reader = .abandoning requests ∧ r ∈ requests

/-- **What holds in every state**: slots are the slots of requests that are not
answered, replies are what a response with the id of the request said after it
registered, and a request that counts on a channel that was not used does so with
reason. -/
structure Sound (trace : Trace) (s : Session) : Prop where
  fresh : ∀ r, s.count ≤ r → (s.call r).stage = .unborn
  nextId_eq : s.nextId = UInt64.ofNat (s.count + 1)
  id_eq : ∀ r, r < s.count → (s.call r).id = UInt64.ofNat (r + 1)
  slot : ∀ id r, s.slots.lookup id = some r → (s.call r).id = id ∧
    (s.call r).channel = .unused ∧ (s.call r).stage.holds ∧ (Event.register r, none) ∈ trace
  held : ∀ r reply, s.reader = .holding r reply → (s.call r).stage.behind ∧
    (∀ id, s.slots.lookup id ≠ some r) ∧ Answered trace (s.call r).id r reply
  abandoned : ∀ requests, s.reader = .abandoning requests → ∀ r ∈ requests,
    (s.call r).stage.behind ∧ ∀ id, s.slots.lookup id ≠ some r
  unused : ∀ r, (s.call r).stage = .numbered → (s.call r).channel = .unused
  sent : ∀ r reply, (s.call r).channel = .sent reply → Answered trace (s.call r).id r reply
  outcomes_eq : ∀ r, outcomes trace r = (s.call r).stage.outcome.toList
  justified : ∀ r outcome, (s.call r).stage = .returned outcome →
    Justified trace (s.call r).id r outcome
  covered : ∀ r, (s.call r).stage.counts → (s.call r).channel = .unused → s.Covered r

variable {trace : Trace} {s t : Session} {event : Event} {out : Option (Nat × Outcome)}
  {r : Nat} {id : UInt64} {stage : Stage} {channel : Channel} {outcome : Outcome}

@[simp] theorem setStage_self : (s.setStage r stage).call r = { s.call r with stage } :=
  Function.update_self ..

theorem setStage_ne {q : Nat} (h : q ≠ r) : (s.setStage r stage).call q = s.call q :=
  Function.update_of_ne h ..

@[simp] theorem setStage_id (q : Nat) : ((s.setStage r stage).call q).id = (s.call q).id := by
  by_cases h : q = r
  · rw [h, setStage_self]
  · rw [setStage_ne h]

@[simp] theorem setStage_channel (q : Nat) :
    ((s.setStage r stage).call q).channel = (s.call q).channel := by
  by_cases h : q = r
  · rw [h, setStage_self]
  · rw [setStage_ne h]

@[simp] theorem setChannel_self : (s.setChannel r channel).call r = { s.call r with channel } :=
  Function.update_self ..

theorem setChannel_ne {q : Nat} (h : q ≠ r) : (s.setChannel r channel).call q = s.call q :=
  Function.update_of_ne h ..

@[simp] theorem setChannel_id (q : Nat) : ((s.setChannel r channel).call q).id = (s.call q).id := by
  by_cases h : q = r
  · rw [h, setChannel_self]
  · rw [setChannel_ne h]

@[simp] theorem setChannel_stage (q : Nat) :
    ((s.setChannel r channel).call q).stage = (s.call q).stage := by
  by_cases h : q = r
  · rw [h, setChannel_self]
  · rw [setChannel_ne h]

theorem Answered.append {reply : Reply} (h : Answered trace id r reply) (more : Trace) :
    Answered (trace ++ more) id r reply := by
  obtain ⟨before, between, after, response, rfl, hid, hreply⟩ := h
  exact ⟨before, between, after ++ more, response, by simp, hid, hreply⟩

theorem Justified.append (h : Justified trace id r outcome) (more : Trace) :
    Justified (trace ++ more) id r outcome := by
  cases outcome with
  | ok result => exact Answered.append h more
  | remote error => exact Answered.append h more
  | _ => trivial

theorem outcomes_append (trace more : Trace) (r : Nat) :
    outcomes (trace ++ more) r = outcomes trace r ++ outcomes more r := List.filterMap_append ..

/-- A trace that goes on without a return. -/
theorem Sound.append (h : Sound trace s) : Sound (trace ++ [(event, none)]) s where
  fresh := h.fresh
  nextId_eq := h.nextId_eq
  id_eq := h.id_eq
  slot := by
    intro id r hlookup
    obtain ⟨hid, hchannel, hstage, hmem⟩ := h.slot id r hlookup
    exact ⟨hid, hchannel, hstage, List.mem_append_left _ hmem⟩
  held := by
    intro r reply hreader
    obtain ⟨hstage, hslots, hanswered⟩ := h.held r reply hreader
    exact ⟨hstage, hslots, hanswered.append _⟩
  abandoned := h.abandoned
  unused := h.unused
  sent := fun r reply hchannel => (h.sent r reply hchannel).append _
  outcomes_eq := by
    intro r
    rw [outcomes_append, h.outcomes_eq]
    exact List.append_nil _
  justified := fun r outcome hstage => (h.justified r outcome hstage).append _
  covered := h.covered

/-- **A request that goes on** or returns: a slot that it leaves is one that it may
leave, and what it returns is justified. -/
theorem Sound.setStage (h : Sound trace s) (hborn : (s.call r).stage ≠ .unborn)
    (hopen : (s.call r).stage.outcome = none) (hstage : stage.behind)
    (hslot : stage.holds ∨ ∀ id, s.slots.lookup id ≠ some r)
    (hcounts : stage.counts → (s.call r).stage.counts)
    (hjustified : ∀ outcome, stage = .returned outcome → Justified trace (s.call r).id r outcome) :
    Sound (trace ++ [(event, stage.outcome.map fun outcome => (r, outcome))])
      (s.setStage r stage) where
  fresh := by
    intro q hq
    by_cases hqr : q = r
    · exact absurd (h.fresh r (hqr ▸ hq)) hborn
    · rw [setStage_ne hqr]
      exact h.fresh q hq
  nextId_eq := h.nextId_eq
  id_eq := by
    intro q hq
    rw [setStage_id]
    exact h.id_eq q hq
  slot := by
    intro id q hlookup
    obtain ⟨hid, hchannel, hholds, hmem⟩ := h.slot id q hlookup
    rw [setStage_id, setStage_channel]
    refine ⟨hid, hchannel, ?_, List.mem_append_left _ hmem⟩
    by_cases hqr : q = r
    · subst hqr
      rw [setStage_self]
      exact hslot.resolve_right fun hnone => hnone id hlookup
    · rw [setStage_ne hqr]
      exact hholds
  held := by
    intro q reply hreader
    obtain ⟨hqborn, hslots, hanswered⟩ := h.held q reply hreader
    rw [setStage_id]
    refine ⟨?_, hslots, hanswered.append _⟩
    by_cases hqr : q = r
    · rw [hqr, setStage_self]
      exact hstage
    · rw [setStage_ne hqr]
      exact hqborn
  abandoned := by
    intro requests hreader q hq
    obtain ⟨hqbehind, hslots⟩ := h.abandoned requests hreader q hq
    refine ⟨?_, hslots⟩
    by_cases hqr : q = r
    · rw [hqr, setStage_self]
      exact hstage
    · rw [setStage_ne hqr]
      exact hqbehind
  unused := by
    intro q hq
    rw [setStage_channel]
    by_cases hqr : q = r
    · rw [hqr, setStage_self] at hq
      exact absurd hq hstage.2
    · rw [setStage_ne hqr] at hq
      exact h.unused q hq
  sent := by
    intro q reply hchannel
    rw [setStage_channel] at hchannel
    rw [setStage_id]
    exact (h.sent q reply hchannel).append _
  outcomes_eq := by
    intro q
    rw [outcomes_append, h.outcomes_eq]
    by_cases hqr : q = r
    · subst hqr
      rw [setStage_self, hopen]
      unfold outcomes
      cases stage.outcome with
      | none => rfl
      | some outcome => simp
    · rw [setStage_ne hqr]
      unfold outcomes
      cases stage.outcome with
      | none => simp
      | some outcome => simp [Ne.symm hqr]
  justified := by
    intro q outcome hq
    rw [setStage_id]
    by_cases hqr : q = r
    · rw [hqr, setStage_self] at hq
      rw [hqr]
      exact (hjustified outcome hq).append _
    · rw [setStage_ne hqr] at hq
      exact (h.justified q outcome hq).append _
  covered := by
    intro q hq hchannel
    rw [setStage_channel] at hchannel
    unfold Covered
    rw [setStage_id]
    by_cases hqr : q = r
    · rw [hqr, setStage_self] at hq
      rw [hqr] at hchannel ⊢
      exact h.covered r (hcounts hq) hchannel
    · rw [setStage_ne hqr] at hq
      exact h.covered q hq hchannel

/-- A slot that is left when one was removed is the slot of another request. -/
theorem Sound.other_slot (h : Sound trace s) {id : UInt64} {r : Nat}
    (hlookup : s.slots.lookup id = some r) (id' : UInt64) (q : Nat)
    (hq : (s.slots.erase id).lookup id' = some q) : s.slots.lookup id' = some q ∧ q ≠ r := by
  obtain ⟨hne, hq⟩ := AList.lookup_erase_eq_some hq
  refine ⟨hq, ?_⟩
  intro heq
  rw [heq] at hq
  exact hne ((h.slot id' r hq).1.symm.trans (h.slot id r hlookup).1)

/-- **A slot that is dropped** closes the channel of its request. -/
theorem Sound.dropSlot (h : Sound trace s) (id : UInt64) : Sound trace (s.dropSlot id) := by
  unfold Session.dropSlot
  split
  · exact h
  · next r hlookup =>
      obtain ⟨hid, -, hholds, -⟩ := h.slot id r hlookup
      have hother := h.other_slot hlookup
      refine ⟨?_, h.nextId_eq, ?_, ?_, ?_, ?_, ?_, ?_, ?_, ?_, ?_⟩
      · intro q hq
        dsimp only
        rw [setChannel_stage]
        exact h.fresh q hq
      · intro q hq
        dsimp only
        rw [setChannel_id]
        exact h.id_eq q hq
      · intro id' q hq
        obtain ⟨hq, hqr⟩ := hother id' q hq
        dsimp only
        rw [setChannel_ne hqr]
        exact h.slot id' q hq
      · intro q reply hreader
        obtain ⟨hqborn, hslots, hanswered⟩ := h.held q reply hreader
        dsimp only
        rw [setChannel_stage, setChannel_id]
        exact ⟨hqborn, fun id' hq => hslots id' (hother id' q hq).1, hanswered⟩
      · intro requests hreader q hq
        obtain ⟨hqbehind, hslots⟩ := h.abandoned requests hreader q hq
        dsimp only
        rw [setChannel_stage]
        exact ⟨hqbehind, fun id' hq' => hslots id' (hother id' q hq').1⟩
      · intro q hq
        dsimp only at hq ⊢
        rw [setChannel_stage] at hq
        have hqr : q ≠ r := by
          rintro rfl
          rw [hq] at hholds
          exact hholds
        rw [setChannel_ne hqr]
        exact h.unused q hq
      · intro q reply hchannel
        dsimp only at hchannel ⊢
        by_cases hqr : q = r
        · rw [hqr, setChannel_self] at hchannel
          cases hchannel
        · rw [setChannel_ne hqr] at hchannel ⊢
          exact h.sent q reply hchannel
      · intro q
        dsimp only
        rw [setChannel_stage]
        exact h.outcomes_eq q
      · intro q outcome hq
        dsimp only at hq ⊢
        rw [setChannel_stage] at hq
        rw [setChannel_id]
        exact h.justified q outcome hq
      · intro q hq hchannel
        dsimp only at hq hchannel
        by_cases hqr : q = r
        · rw [hqr, setChannel_self] at hchannel
          cases hchannel
        · rw [setChannel_stage] at hq
          rw [setChannel_ne hqr] at hchannel
          unfold Covered
          dsimp only
          rw [setChannel_ne hqr]
          rcases h.covered q hq hchannel with hslot | hreader
          · left
            have hne : (s.call q).id ≠ id := by
              intro heq
              rw [heq, hlookup] at hslot
              exact hqr (Option.some.inj hslot).symm
            rw [AList.lookup_erase_ne hne]
            exact hslot
          · exact .inr hreader

theorem slots_dropSlot (id id' : UInt64) : (s.dropSlot id).slots.lookup id' =
    if id' = id then none else s.slots.lookup id' := by
  unfold Session.dropSlot
  split
  · next hlookup =>
      split_ifs with heq
      · rw [heq, hlookup]
      · rfl
  · split_ifs with heq
    · rw [heq]
      exact AList.lookup_erase ..
    · exact AList.lookup_erase_ne heq

@[simp] theorem stage_dropSlot (id : UInt64) (q : Nat) :
    ((s.dropSlot id).call q).stage = (s.call q).stage := by
  unfold Session.dropSlot
  split
  · rfl
  · exact setChannel_stage q

@[simp] theorem id_dropSlot (id : UInt64) (q : Nat) :
    ((s.dropSlot id).call q).id = (s.call q).id := by
  unfold Session.dropSlot
  split
  · rfl
  · exact setChannel_id q

theorem reader_dropSlot (id : UInt64) : (s.dropSlot id).reader = s.reader := by
  unfold Session.dropSlot
  split
  · rfl
  · rfl

/-- Another request's slot is none of a request without one. -/
theorem lookup_insert_ne_some {q : Nat} (hqr : q ≠ r) (hslots : ∀ id, s.slots.lookup id ≠ some q)
    (id' : UInt64) : (s.slots.insert id r).lookup id' ≠ some q := by
  by_cases hid : id' = id
  · rw [hid, AList.lookup_insert]
    exact fun heq => hqr (Option.some.inj heq).symm
  · rw [AList.lookup_insert_ne hid]
    exact hslots id'

/-- A request whose id has no slot registers. -/
theorem Sound.insert (h : Sound trace s) (hr : (s.call r).stage = .numbered)
    (hmem : (Event.register r, none) ∈ trace) (hfree : s.slots.lookup (s.call r).id = none) :
    Sound trace ({ s with slots := s.slots.insert (s.call r).id r }.setStage r .sending) where
  fresh := by
    intro q hq
    by_cases hqr : q = r
    · have hnone := h.fresh q hq
      rw [hqr, hr] at hnone
      cases hnone
    · rw [setStage_ne hqr]
      exact h.fresh q hq
  nextId_eq := h.nextId_eq
  id_eq := by
    intro q hq
    rw [setStage_id]
    exact h.id_eq q hq
  slot := by
    intro id q hlookup
    have hlookup : (s.slots.insert (s.call r).id r).lookup id = some q := hlookup
    by_cases hid : id = (s.call r).id
    · rw [hid, AList.lookup_insert] at hlookup
      cases hlookup
      rw [setStage_self, hid]
      exact ⟨rfl, h.unused r hr, trivial, hmem⟩
    · rw [AList.lookup_insert_ne hid] at hlookup
      obtain ⟨hqid, hchannel, hholds, hqmem⟩ := h.slot id q hlookup
      have hqr : q ≠ r := by
        rintro rfl
        rw [hr] at hholds
        exact hholds
      rw [setStage_ne hqr]
      exact ⟨hqid, hchannel, hholds, hqmem⟩
  held := by
    intro q reply hreader
    obtain ⟨hqbehind, hslots, hanswered⟩ := h.held q reply hreader
    have hqr : q ≠ r := by
      rintro rfl
      exact hqbehind.2 hr
    rw [setStage_ne hqr]
    exact ⟨hqbehind, lookup_insert_ne_some hqr hslots, hanswered⟩
  abandoned := by
    intro requests hreader q hq
    obtain ⟨hqbehind, hslots⟩ := h.abandoned requests hreader q hq
    have hqr : q ≠ r := by
      rintro rfl
      exact hqbehind.2 hr
    rw [setStage_ne hqr]
    exact ⟨hqbehind, lookup_insert_ne_some hqr hslots⟩
  unused := by
    intro q hq
    by_cases hqr : q = r
    · rw [hqr, setStage_self] at hq
      cases hq
    · rw [setStage_ne hqr] at hq ⊢
      exact h.unused q hq
  sent := by
    intro q reply hchannel
    rw [setStage_channel] at hchannel
    rw [setStage_id]
    exact h.sent q reply hchannel
  outcomes_eq := by
    intro q
    rw [h.outcomes_eq]
    by_cases hqr : q = r
    · rw [hqr, setStage_self, hr]
      rfl
    · rw [setStage_ne hqr]
  justified := by
    intro q outcome hq
    by_cases hqr : q = r
    · rw [hqr, setStage_self] at hq
      cases hq
    · rw [setStage_ne hqr] at hq ⊢
      exact h.justified q outcome hq
  covered := by
    intro q hq hchannel
    rw [setStage_channel] at hchannel
    unfold Covered
    rw [setStage_id]
    show (s.slots.insert (s.call r).id r).lookup (s.call q).id = some q ∨ _
    by_cases hqr : q = r
    · rw [hqr]
      exact .inl (AList.lookup_insert ..)
    · rw [setStage_ne hqr] at hq
      rcases h.covered q hq hchannel with hslot | hreader
      · left
        have hid : (s.call q).id ≠ (s.call r).id := by
          intro heq
          rw [heq, hfree] at hslot
          cases hslot
        rw [AList.lookup_insert_ne hid]
        exact hslot
      · exact .inr hreader

/-- **A request that registers** has the slot of its id. -/
theorem Sound.register (h : Sound trace s) (hr : (s.call r).stage = .numbered) :
    Sound (trace ++ [(.register r, none)]) ((s.register r).setStage r .sending) := by
  have hdrop : Sound (trace ++ [(.register r, none)]) (s.dropSlot (s.call r).id) :=
    (h.dropSlot (s.call r).id).append
  have hinsert := hdrop.insert (r := r) (by rw [stage_dropSlot, hr])
    (List.mem_append_right _ (List.mem_singleton_self _))
    (by rw [id_dropSlot, slots_dropSlot, if_pos rfl])
  rw [id_dropSlot] at hinsert
  exact hinsert

/-- **A response that arrives** takes the slot that it names. -/
theorem Sound.deliver (h : Sound trace s) (hreader : s.reader = .reading) (response : Response) :
    Sound (trace ++ [(.receive (some (.response response)), none)]) (s.deliver response) := by
  unfold Session.deliver
  split
  · exact h.append
  · next reply hreply =>
      split
      · exact h.append
      · next r hlookup =>
          obtain ⟨hid, hchannel, hholds, hmem⟩ := h.slot _ r hlookup
          have hbehind : (s.call r).stage.behind := by
            constructor
            · intro hstage
              rw [hstage] at hholds
              exact hholds
            · intro hstage
              rw [hstage] at hholds
              exact hholds
          have hother := h.other_slot hlookup
          have happend : Sound (trace ++ [(.receive (some (.response response)), none)]) s :=
            h.append
          refine ⟨h.fresh, h.nextId_eq, h.id_eq, ?_, ?_, ?_, h.unused, happend.sent,
            happend.outcomes_eq, happend.justified, ?_⟩
          · intro id q hq
            exact happend.slot id q (hother id q hq).1
          · intro q reply' hheld
            cases hheld
            refine ⟨hbehind, fun id hq => (hother id r hq).2 rfl, ?_⟩
            obtain ⟨before, between, rfl⟩ := List.append_of_mem hmem
            exact ⟨before, between, [], response, by simp, hid.symm, hreply⟩
          · intro requests hheld
            cases hheld
          · intro q hq hqchannel
            rcases h.covered q hq hqchannel with hslot | ⟨reply', hheld⟩ | ⟨requests, hheld, -⟩
            · by_cases hqr : q = r
              · exact .inr (.inl ⟨reply, by rw [hqr]⟩)
              · left
                have hne : (s.call q).id ≠ response.correlationId := by
                  intro heq
                  rw [heq, hlookup] at hslot
                  exact hqr (Option.some.inj hslot).symm
                rw [← hslot]
                exact AList.lookup_erase_ne hne
            · rw [hreader] at hheld
              cases hheld
            · rw [hreader] at hheld
              cases hheld

/-- **A channel that is used**, by a reply or by its end, leaves the reader with
the others. -/
theorem Sound.settle (h : Sound trace s) (hbehind : (s.call r).stage.behind)
    (hslots : ∀ id, s.slots.lookup id ≠ some r) (hused : channel ≠ .unused)
    (hsent : ∀ reply, channel = .sent reply → Answered trace (s.call r).id r reply) {reader : Reader}
    (hheld : ∀ q reply, reader ≠ .holding q reply)
    (habandoned : ∀ requests, reader = .abandoning requests → ∀ q ∈ requests,
      (s.call q).stage.behind ∧ ∀ id, s.slots.lookup id ≠ some q)
    (hcovered : ∀ q, q ≠ r → s.Covered q → s.slots.lookup (s.call q).id = some q ∨
      ∃ requests, reader = .abandoning requests ∧ q ∈ requests) :
    Sound trace { s.setChannel r channel with reader } where
  fresh := by
    intro q hq
    dsimp only
    rw [setChannel_stage]
    exact h.fresh q hq
  nextId_eq := h.nextId_eq
  id_eq := by
    intro q hq
    dsimp only
    rw [setChannel_id]
    exact h.id_eq q hq
  slot := by
    intro id q hlookup
    have hqr : q ≠ r := by
      rintro rfl
      exact hslots id hlookup
    dsimp only
    rw [setChannel_ne hqr]
    exact h.slot id q hlookup
  held := fun q reply hreader => absurd hreader (hheld q reply)
  abandoned := by
    intro requests hreader q hq
    dsimp only
    rw [setChannel_stage]
    exact habandoned requests hreader q hq
  unused := by
    intro q hq
    dsimp only at hq ⊢
    rw [setChannel_stage] at hq
    have hqr : q ≠ r := by
      rintro rfl
      exact hbehind.2 hq
    rw [setChannel_ne hqr]
    exact h.unused q hq
  sent := by
    intro q reply hchannel
    dsimp only at hchannel ⊢
    rw [setChannel_id]
    by_cases hqr : q = r
    · subst hqr
      rw [setChannel_self] at hchannel
      exact hsent reply hchannel
    · rw [setChannel_ne hqr] at hchannel
      exact h.sent q reply hchannel
  outcomes_eq := by
    intro q
    dsimp only
    rw [setChannel_stage]
    exact h.outcomes_eq q
  justified := by
    intro q outcome hq
    dsimp only at hq ⊢
    rw [setChannel_stage] at hq
    rw [setChannel_id]
    exact h.justified q outcome hq
  covered := by
    intro q hq hchannel
    dsimp only at hq hchannel
    rw [setChannel_stage] at hq
    have hqr : q ≠ r := by
      rintro rfl
      rw [setChannel_self] at hchannel
      exact hused hchannel
    rw [setChannel_ne hqr] at hchannel
    unfold Covered
    dsimp only
    rw [setChannel_ne hqr]
    exact (hcovered q hqr (h.covered q hq hchannel)).imp_right .inr

/-- **A reply that is sent** through the slot that was taken. -/
theorem Sound.hand (h : Sound trace s) {reply : Reply} (hreader : s.reader = .holding r reply) :
    Sound trace { s.setChannel r (.sent reply) with reader := .reading } := by
  obtain ⟨hbehind, hslots, hanswered⟩ := h.held r reply hreader
  refine h.settle hbehind hslots Channel.noConfusion ?_ (fun _ _ => Reader.noConfusion)
    (fun _ heq => by cases heq) ?_
  · intro reply' heq
    cases heq
    exact hanswered
  · rintro q hqr (hslot | ⟨reply', hheld⟩ | ⟨requests, hheld, -⟩)
    · exact .inl hslot
    · rw [hreader] at hheld
      cases hheld
      exact absurd rfl hqr
    · rw [hreader] at hheld
      cases hheld

/-- **A slot that was in the map** when the stream ended is dropped. -/
theorem Sound.release (h : Sound trace s) {requests : List Nat} {i : Nat}
    (hreader : s.reader = .abandoning requests) (hi : requests[i]? = some r) :
    Sound trace { s.setChannel r .closed with reader := .abandoning (requests.eraseIdx i) } := by
  obtain ⟨hbehind, hslots⟩ := h.abandoned requests hreader r (List.mem_of_getElem? hi)
  refine h.settle hbehind hslots Channel.noConfusion (fun _ heq => by cases heq)
    (fun _ _ => Reader.noConfusion) ?_ ?_
  · intro rest heq q hq
    cases heq
    exact h.abandoned requests hreader q (List.mem_of_mem_eraseIdx hq)
  · rintro q hqr (hslot | ⟨reply', hheld⟩ | ⟨requests', hheld, hq⟩)
    · exact .inl hslot
    · rw [hreader] at hheld
      cases hheld
    · rw [hreader] at hheld
      cases hheld
      refine .inr ⟨_, rfl, ?_⟩
      obtain ⟨j, hj⟩ := List.getElem?_of_mem hq
      refine List.mem_eraseIdx_iff_getElem?.mpr ⟨j, ?_, hj⟩
      rintro rfl
      rw [hi] at hj
      exact hqr (Option.some.inj hj).symm

/-- A reader that goes on with nothing in its hands. -/
theorem Sound.setReader (h : Sound trace s) {old reader : Reader} (hreader : s.reader = old)
    (hold : old.empty) (hnew : reader.empty) : Sound trace { s with reader } where
  fresh := h.fresh
  nextId_eq := h.nextId_eq
  id_eq := h.id_eq
  slot := h.slot
  held := by
    rintro q reply rfl
    cases hnew
  abandoned := by
    rintro requests rfl q hq
    rw [show requests = [] from hnew] at hq
    cases hq
  unused := h.unused
  sent := h.sent
  outcomes_eq := h.outcomes_eq
  justified := h.justified
  covered := by
    intro q hq hchannel
    rcases h.covered q hq hchannel with hslot | ⟨reply, hheld⟩ | ⟨requests, hheld, hmem⟩
    · exact .inl hslot
    · rw [← hreader, hheld] at hold
      cases hold
    · rw [← hreader, hheld] at hold
      rw [show requests = [] from hold] at hmem
      cases hmem

/-- **The end of the stream** takes every slot out of the map. -/
theorem Sound.abandon (h : Sound trace s) (hreader : s.reader = .broken) :
    Sound trace { s with
      slots := ∅
      reader := .abandoning (s.slots.entries.map Sigma.snd) } where
  fresh := h.fresh
  nextId_eq := h.nextId_eq
  id_eq := h.id_eq
  slot := by
    intro id q hlookup
    dsimp only at hlookup
    rw [AList.lookup_empty] at hlookup
    cases hlookup
  held := by
    intro q reply hheld
    cases hheld
  abandoned := by
    intro requests hheld q hq
    cases hheld
    obtain ⟨⟨id, q⟩, hentry, rfl⟩ := List.mem_map.mp hq
    obtain ⟨-, -, hholds, -⟩ := h.slot id q (AList.mem_lookup_iff.mpr hentry)
    refine ⟨⟨fun hstage => ?_, fun hstage => ?_⟩, fun id' hlookup => ?_⟩
    · rw [hstage] at hholds
      exact hholds
    · rw [hstage] at hholds
      exact hholds
    · dsimp only at hlookup
      rw [AList.lookup_empty] at hlookup
      cases hlookup
  unused := h.unused
  sent := h.sent
  outcomes_eq := h.outcomes_eq
  justified := h.justified
  covered := by
    intro q hq hchannel
    rcases h.covered q hq hchannel with hslot | ⟨reply, hheld⟩ | ⟨requests, hheld, -⟩
    · refine .inr (.inr ⟨_, rfl, ?_⟩)
      exact List.mem_map_of_mem (AList.mem_lookup_iff.mp hslot)
    · rw [hreader] at hheld
      cases hheld
    · rw [hreader] at hheld
      cases hheld

/-- **A new request** has the next id. -/
theorem Sound.number (h : Sound trace s) : Sound trace { s with
    nextId := s.nextId + 1
    count := s.count + 1
    call := Function.update s.call s.count ⟨s.nextId, .numbered, .unused⟩ } := by
  have hborn : (s.call s.count).stage = .unborn := h.fresh _ (Nat.le_refl _)
  have hself : Function.update s.call s.count ⟨s.nextId, .numbered, .unused⟩ s.count =
      ⟨s.nextId, .numbered, .unused⟩ := Function.update_self ..
  have hne : ∀ q, q ≠ s.count →
      Function.update s.call s.count ⟨s.nextId, .numbered, .unused⟩ q = s.call q := fun q hq =>
    Function.update_of_ne hq ..
  have hbehind : ∀ q, (s.call q).stage.behind → q ≠ s.count := by
    rintro q hq rfl
    exact hq.1 hborn
  refine ⟨?_, ?_, ?_, ?_, ?_, ?_, ?_, ?_, ?_, ?_, ?_⟩
  · intro q hq
    dsimp only at hq ⊢
    rw [hne q (by omega)]
    exact h.fresh q (by omega)
  · dsimp only
    rw [h.nextId_eq, UInt64.ofNat_add (s.count + 1) 1]
    rfl
  · intro q hq
    dsimp only at hq ⊢
    by_cases hqc : q = s.count
    · rw [hqc, hself]
      exact h.nextId_eq
    · rw [hne q hqc]
      exact h.id_eq q (by omega)
  · intro id q hlookup
    have hslot := h.slot id q hlookup
    have hqc : q ≠ s.count := by
      rintro rfl
      rw [hborn] at hslot
      exact hslot.2.2.1
    dsimp only
    rw [hne q hqc]
    exact hslot
  · intro q reply hheld
    have hq := h.held q reply hheld
    dsimp only
    rw [hne q (hbehind q hq.1)]
    exact hq
  · intro requests hreader q hq
    have habandoned := h.abandoned requests hreader q hq
    dsimp only
    rw [hne q (hbehind q habandoned.1)]
    exact habandoned
  · intro q hq
    dsimp only at hq ⊢
    by_cases hqc : q = s.count
    · rw [hqc, hself]
    · rw [hne q hqc] at hq ⊢
      exact h.unused q hq
  · intro q reply hchannel
    dsimp only at hchannel ⊢
    by_cases hqc : q = s.count
    · rw [hqc, hself] at hchannel
      cases hchannel
    · rw [hne q hqc] at hchannel ⊢
      exact h.sent q reply hchannel
  · intro q
    dsimp only
    by_cases hqc : q = s.count
    · rw [hqc, hself, h.outcomes_eq, hborn]
      rfl
    · rw [hne q hqc]
      exact h.outcomes_eq q
  · intro q outcome hq
    dsimp only at hq ⊢
    by_cases hqc : q = s.count
    · rw [hqc, hself] at hq
      cases hq
    · rw [hne q hqc] at hq ⊢
      exact h.justified q outcome hq
  · intro q hq hchannel
    unfold Covered
    dsimp only at hq hchannel ⊢
    by_cases hqc : q = s.count
    · rw [hqc, hself] at hq
      rcases hq with hq | hq
      · cases hq
      · cases hq
    · rw [hne q hqc] at hq hchannel ⊢
      exact h.covered q hq hchannel

theorem Sound.no_slot (h : Sound trace s) (hr : ¬(s.call r).stage.holds) (id : UInt64) :
    s.slots.lookup id ≠ some r := fun hlookup => hr (h.slot id r hlookup).2.2.1

/-- A request that goes on. -/
theorem Sound.goOn (h : Sound trace s) {old : Stage} (hr : (s.call r).stage = old)
    (hold : old ≠ .unborn ∧ old.outcome = none) (hnew : stage.behind ∧ stage.outcome = none)
    (hslot : stage.holds ∨ ∀ id, s.slots.lookup id ≠ some r) (hcounts : stage.counts → old.counts) :
    Sound (trace ++ [(event, none)]) (s.setStage r stage) := by
  subst hr
  have hset : Sound (trace ++ [(event, stage.outcome.map (r, ·))]) (s.setStage r stage) := by
    refine h.setStage hold.1 hold.2 hnew.1 hslot hcounts fun outcome heq => ?_
    rw [heq] at hnew
    cases hnew.2
  rw [hnew.2] at hset
  exact hset

/-- A request that returns. -/
theorem Sound.returns (h : Sound trace s) {old : Stage} (hr : (s.call r).stage = old)
    (hold : old ≠ .unborn ∧ old.outcome = none) (hslot : ∀ id, s.slots.lookup id ≠ some r)
    (hjustified : Justified trace (s.call r).id r outcome) :
    Sound (trace ++ [(event, some (r, outcome))]) (s.setStage r (.returned outcome)) := by
  subst hr
  change Sound (trace ++ [(event, (Stage.returned outcome).outcome.map fun outcome => (r, outcome))])
    (s.setStage r (.returned outcome))
  refine h.setStage hold.1 hold.2 ⟨Stage.noConfusion, Stage.noConfusion⟩ (.inr hslot) ?_ ?_
  · rintro (hcounts | hcounts)
    · cases hcounts
    · cases hcounts
  · intro outcome' heq
    cases heq
    exact hjustified

/-- A request that took its slot back has none. -/
theorem Sound.no_slot_dropSlot (h : Sound trace s) (id : UInt64) :
    (s.dropSlot (s.call r).id).slots.lookup id ≠ some r := by
  rw [slots_dropSlot]
  split_ifs with hid
  · intro hnone
    cases hnone
  · exact fun hlookup => hid (h.slot id r hlookup).1.symm

/-- What a request returns that has its reply, or none to come. -/
theorem Sound.justified_wake (h : Sound trace s) {decoded : Bool}
    (houtcome : (s.call r).channel.outcome decoded = some outcome) :
    Justified trace (s.call r).id r outcome ∧ ∀ id, s.slots.lookup id ≠ some r := by
  constructor
  · cases hchannel : (s.call r).channel with
    | unused =>
        rw [hchannel] at houtcome
        cases houtcome
    | closed =>
        rw [hchannel] at houtcome
        cases houtcome
        trivial
    | sent reply =>
        have hanswered := h.sent r reply hchannel
        rw [hchannel] at houtcome
        cases reply with
        | error error =>
            cases houtcome
            exact hanswered
        | ok result =>
            cases houtcome
            cases decoded with
            | true => exact hanswered
            | false => trivial
  · intro id hlookup
    rw [(h.slot id r hlookup).2.1] at houtcome
    cases houtcome

/-- The connection does not matter to what is read. -/
theorem Sound.close (h : Sound trace s) : Sound trace { s with closed := true } :=
  ⟨h.fresh, h.nextId_eq, h.id_eq, h.slot, h.held, h.abandoned, h.unused, h.sent, h.outcomes_eq,
    h.justified, h.covered⟩

/-- **Every step** keeps what holds in every state. -/
theorem Sound.step (h : Sound trace s) (hstep : s.step event = some (t, out)) :
    Sound (trace ++ [(event, out)]) t := by
  cases event with
  | number =>
      cases hstep
      exact h.number.append
  | encodingFails r =>
      dsimp only [Session.step] at hstep
      split_ifs at hstep with hr
      cases hstep
      refine h.returns hr ⟨Stage.noConfusion, rfl⟩ (h.no_slot ?_) trivial
      rw [hr]
      exact id
  | register r =>
      dsimp only [Session.step] at hstep
      split_ifs at hstep with hr
      cases hstep
      exact h.register hr
  | sent r =>
      dsimp only [Session.step] at hstep
      split_ifs at hstep with hr
      cases hstep
      exact h.goOn hr.1 ⟨Stage.noConfusion, rfl⟩ ⟨⟨Stage.noConfusion, Stage.noConfusion⟩, rfl⟩
        (.inl trivial) fun _ => .inl rfl
  | sendFails r =>
      dsimp only [Session.step] at hstep
      split_ifs at hstep with hr
      cases hstep
      exact h.goOn hr ⟨Stage.noConfusion, rfl⟩ ⟨⟨Stage.noConfusion, Stage.noConfusion⟩, rfl⟩
        (.inl trivial) fun _ => .inl rfl
  | takeBack r =>
      dsimp only [Session.step] at hstep
      have hdrop := h.dropSlot (s.call r).id
      have hstage := @stage_dropSlot s (s.call r).id r
      split at hstep
      · next hr =>
          cases hstep
          exact hdrop.returns (hstage.trans hr) ⟨Stage.noConfusion, rfl⟩
            h.no_slot_dropSlot trivial
      · next hr =>
          cases hstep
          refine hdrop.goOn (hstage.trans hr) ⟨Stage.noConfusion, rfl⟩
            ⟨⟨Stage.noConfusion, Stage.noConfusion⟩, rfl⟩ (.inr h.no_slot_dropSlot) ?_
          exact fun hcounts => nomatch hcounts
      · cases hstep
  | wake r decoded =>
      dsimp only [Session.step] at hstep
      split_ifs at hstep with hr
      split at hstep
      · cases hstep
      · next outcome houtcome =>
          cases hstep
          obtain ⟨hjustified, hslot⟩ := h.justified_wake houtcome
          exact h.returns hr ⟨Stage.noConfusion, rfl⟩ hslot hjustified
  | expire r =>
      dsimp only [Session.step] at hstep
      split at hstep
      · next hr _ =>
          cases hstep
          exact h.goOn hr ⟨Stage.noConfusion, rfl⟩ ⟨⟨Stage.noConfusion, Stage.noConfusion⟩, rfl⟩
            (.inl trivial) fun _ => .inr rfl
      · cases hstep
  | cancelled r =>
      dsimp only [Session.step] at hstep
      split_ifs at hstep with hr
      cases hstep
      refine h.returns hr ⟨Stage.noConfusion, rfl⟩ (h.no_slot ?_) trivial
      rw [hr]
      exact id
  | drop r =>
      dsimp only [Session.step] at hstep
      have hdropped : ¬Stage.counts .dropped := fun hcounts => nomatch hcounts
      split at hstep
      · next hr =>
          cases hstep
          exact h.goOn hr ⟨Stage.noConfusion, rfl⟩ ⟨⟨Stage.noConfusion, Stage.noConfusion⟩, rfl⟩
            (.inl trivial) fun hcounts => absurd hcounts hdropped
      · next hr =>
          cases hstep
          exact h.goOn hr ⟨Stage.noConfusion, rfl⟩ ⟨⟨Stage.noConfusion, Stage.noConfusion⟩, rfl⟩
            (.inl trivial) fun hcounts => absurd hcounts hdropped
      · next hr =>
          cases hstep
          exact h.goOn hr ⟨Stage.noConfusion, rfl⟩ ⟨⟨Stage.noConfusion, Stage.noConfusion⟩, rfl⟩
            (.inl trivial) fun hcounts => absurd hcounts hdropped
      · cases hstep
  | receive message =>
      dsimp only [Session.step] at hstep
      split at hstep
      · next response hreader =>
          cases hstep
          exact h.deliver hreader response
      · next nonce hreader =>
          cases hstep
          exact .append (h.setReader hreader trivial trivial)
      · cases hstep
        exact h.append
      · cases hstep
  | hand =>
      dsimp only [Session.step] at hstep
      split at hstep
      · next r reply hreader =>
          cases hstep
          exact (h.hand hreader).append
      · cases hstep
  | answered =>
      dsimp only [Session.step] at hstep
      split at hstep
      · next hreader =>
          cases hstep
          exact .append (h.setReader hreader trivial trivial)
      · cases hstep
  | answerFails =>
      dsimp only [Session.step] at hstep
      split at hstep
      · next hreader =>
          cases hstep
          exact .append (h.setReader hreader trivial trivial)
      · cases hstep
  | streamEnds =>
      dsimp only [Session.step] at hstep
      split at hstep
      · next hreader =>
          cases hstep
          exact .append (h.setReader hreader trivial trivial)
      · cases hstep
  | abandon =>
      dsimp only [Session.step] at hstep
      split at hstep
      · next hreader =>
          cases hstep
          exact (h.abandon hreader).append
      · cases hstep
  | release i =>
      dsimp only [Session.step] at hstep
      split at hstep
      · next requests hreader =>
          split at hstep
          · cases hstep
          · next r hr =>
              cases hstep
              exact (h.release hreader hr).append
      · cases hstep
  | leave =>
      dsimp only [Session.step] at hstep
      split at hstep
      · next hreader =>
          cases hstep
          exact .append (h.setReader hreader rfl trivial)
      · cases hstep
  | close =>
      cases hstep
      exact h.close.append

theorem sound_start : Sound [] start := by
  have hnone : ∀ id r, (start.slots.lookup id : Option Nat) ≠ some r := by
    intro id r hlookup
    rw [show start.slots = ∅ from rfl, AList.lookup_empty] at hlookup
    cases hlookup
  refine ⟨fun _ _ => rfl, rfl, fun r hr => absurd hr (Nat.not_lt_zero r),
    fun id r hlookup => absurd hlookup (hnone id r), fun _ _ h => (nomatch h),
    fun _ h => (nomatch h), fun _ h => (nomatch h), fun _ _ h => (nomatch h), fun _ => rfl,
    fun _ _ h => (nomatch h), ?_⟩
  rintro r (hr | hr)
  · cases hr
  · cases hr

/-- **Every run** keeps what holds in every state. -/
theorem run_sound (hrun : Transition.Run step Transition.unguarded start trace s) : Sound trace s := by
  apply hrun.invariant Sound sound_start
  intro trace s event t out h _ hstep
  exact h.step hstep

/-! ### Whose response a request returns -/

/-- A return is no response that arrives. -/
theorem Answered.of_return {reply : Reply} {returned : Nat × Outcome}
    (h : Answered (trace ++ [(event, some returned)]) id r reply) : Answered trace id r reply := by
  obtain ⟨before, between, after, response, htrace, hid, hreply⟩ := h
  rcases List.eq_nil_or_concat after with rfl | ⟨after, last, rfl⟩
  · have hlast := (List.append_inj' htrace rfl).2
    cases hlast
  · have hsplit : before ++ (.register r, none) :: between ++
        (.receive (some (.response response)), none) :: after.concat last =
        (before ++ (.register r, none) :: between ++
          (.receive (some (.response response)), none) :: after) ++ [last] := by simp
    rw [hsplit] at htrace
    exact ⟨before, between, after, response, (List.append_inj' htrace rfl).1, hid, hreply⟩

theorem Justified.of_return {returned : Nat × Outcome}
    (h : Justified (trace ++ [(event, some returned)]) id r outcome) :
    Justified trace id r outcome := by
  cases outcome with
  | ok result => exact Answered.of_return h
  | remote error => exact Answered.of_return h
  | _ => trivial

/-- A request that returned is one that was issued. -/
theorem Sound.lt_count (h : Sound trace s) (hmem : outcome ∈ outcomes trace r) : r < s.count := by
  by_contra hge
  rw [h.outcomes_eq, h.fresh r (Nat.not_lt.mp hge)] at hmem
  cases hmem

/-- **A return** is justified by what arrived before it. -/
theorem justified_return (h : Sound trace s) (hstep : s.step event = some (t, some (r, outcome))) :
    Justified trace (UInt64.ofNat (r + 1)) r outcome := by
  have ht := h.step hstep
  have hmem : outcome ∈ outcomes (trace ++ [(event, some (r, outcome))]) r := by
    rw [outcomes_append]
    refine List.mem_append_right _ ?_
    unfold outcomes
    simp
  have hlt := ht.lt_count hmem
  rw [ht.outcomes_eq] at hmem
  rw [← ht.id_eq r hlt]
  cases hstage : (t.call r).stage with
  | returned outcome' =>
      rw [hstage] at hmem
      cases List.mem_singleton.mp hmem
      exact (ht.justified r outcome hstage).of_return
  | _ =>
      rw [hstage] at hmem
      cases hmem

/-- **Requests and responses are correlated**, whatever the tasks, the daemon and
the clock do in whatever order: a request returns at most once; where it returns
what the daemon answered, a terminal response with its id arrived after it had
registered; fewer than 2^64 requests have ids of their own; and a request that
has returned has left no slot. -/
theorem correlated (hrun : Transition.Run step Transition.unguarded start trace s) :
    (∀ r, (outcomes trace r).length ≤ 1) ∧
    (∀ before event r outcome after, trace = before ++ (event, some (r, outcome)) :: after →
      Justified before (s.call r).id r outcome) ∧
    (s.count < 2 ^ 64 → ∀ i j, i < s.count → j < s.count → (s.call i).id = (s.call j).id → i = j) ∧
    ∀ r outcome, (s.call r).stage = .returned outcome → ∀ id, s.slots.lookup id ≠ some r := by
  have h := run_sound hrun
  refine ⟨fun r => ?_, ?_, fun hcount i j hi hj hid => ?_, fun r outcome hr => h.no_slot ?_⟩
  · rw [h.outcomes_eq]
    cases (s.call r).stage.outcome with
    | none => exact Nat.zero_le _
    | some outcome => exact Nat.le_refl _
  · rintro before event r outcome after rfl
    obtain ⟨t, t', hbefore, -, htaken⟩ := hrun.split
    have hmem : outcome ∈ outcomes (before ++ (event, some (r, outcome)) :: after) r := by
      rw [outcomes_append]
      refine List.mem_append_right _ ?_
      unfold outcomes
      simp
    rw [h.id_eq r (h.lt_count hmem)]
    exact justified_return (run_sound hbefore) htaken
  · rw [h.id_eq i hi, h.id_eq j hj] at hid
    have hnat := congrArg UInt64.toNat hid
    rw [UInt64.toNat_ofNat', UInt64.toNat_ofNat'] at hnat
    omega
  · rw [hr]
    exact id

/-- A request that is answered, after a response that nobody waits for. -/
theorem correlated_answered :
    ∃ trace s, Transition.Run step Transition.unguarded start trace s ∧
      outcomes trace 0 = [.ok [7]] ∧ Justified trace 1 0 (.ok [7]) ∧
      ∀ id, s.slots.lookup id ≠ some 0 := by
  have hrun : Transition.Run step Transition.unguarded start _ _ :=
    Transition.run_of_exec
      [.number, .register 0, .receive (some (.response ⟨9, .ok [3]⟩)), .sent 0,
        .receive (some (.response ⟨1, .ok [7]⟩)), .hand, .wake 0 true] rfl
  obtain ⟨-, hjustified, -, hslots⟩ := correlated hrun
  refine ⟨_, _, hrun, rfl, (hjustified _ (.wake 0 true) 0 (.ok [7]) [] rfl).append _, ?_⟩
  exact hslots 0 (.ok [7]) rfl

end Session

end Client
