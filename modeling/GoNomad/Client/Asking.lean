import GoNomad.Client.TearDown

/-!
# The life of one request

A request on a connection where every other is over: it is registered, it is sent, its
reply arrives, the reader hands it over, and the request returns with it.  Each of
these steps is possible when it is due, and no other is.

* `Leg` — how far a request has got, and what is on the way;
* `Leg.session_step` — **what a step makes of it**;
* `Inner.aside_step` — what other tasks do leaves the connection alone.
-/

namespace Client

open Proto

/-- What a request returns with a reply that can be decoded. -/
def Reply.outcome : Reply → Outcome
  | .ok result => .ok result
  | .error error => .remote error

/-- How far a request has got that is not lost. -/
inductive Leg
  | numbered
  | sending
  /-- It is on its way to the daemon. -/
  | asked
  /-- Its reply is on its way. -/
  | answered (reply : Reply)
  /-- The reader has the reply. -/
  | holding (reply : Reply)
  | told (reply : Reply)
  | returned (reply : Reply)

namespace Session

/-- A connection on which a request goes on; the other calls are `before`. -/
def asking (before : Nat → Call) (r : Nat) (id : UInt64) (stage : Stage) (channel : Channel)
    (slots : PendingMap) (reader : Reader) : Session where
  nextId := id + 1
  count := r + 1
  call := Function.update before r ⟨id, stage, channel⟩
  slots
  reader
  closed := false

/-- A step of the request or of the reader that needs nothing from the network. -/
def Event.answers : Event → Bool
  | .register _ | .hand | .wake _ true => true
  | _ => false

section Asking

variable {before : Nat → Call} {r q : Nat} {id : UInt64} {stage stage' : Stage}
  {channel channel' : Channel} {slots : PendingMap} {reader : Reader}

theorem asking_call :
    (asking before r id stage channel slots reader).call r = ⟨id, stage, channel⟩ :=
  Function.update_self ..

theorem asking_other (h : q ≠ r) :
    (asking before r id stage channel slots reader).call q = before q :=
  Function.update_of_ne h ..

theorem setStage_asking : (asking before r id stage channel slots reader).setStage r stage' =
    asking before r id stage' channel slots reader := by
  unfold setStage
  rw [asking_call]
  unfold asking
  simp

theorem setChannel_asking : (asking before r id stage channel slots reader).setChannel r channel' =
    asking before r id stage channel' slots reader := by
  unfold setChannel
  rw [asking_call]
  unfold asking
  simp

end Asking

end Session

namespace Leg

open Session

variable {before : Nat → Call} {r : Nat} {id : UInt64} {leg : Leg} {e : Session.Event} {s : Session}
  {out : Option (Nat × Outcome)}

/-- The connection at that point. -/
def session (before : Nat → Call) (r : Nat) (id : UInt64) : Leg → Session
  | .numbered => asking before r id .numbered .unused ∅ .reading
  | .sending => asking before r id .sending .unused ((∅ : PendingMap).insert id r) .reading
  | .asked | .answered _ =>
      asking before r id .waiting .unused ((∅ : PendingMap).insert id r) .reading
  | .holding reply => asking before r id .waiting .unused ∅ (.holding r reply)
  | .told reply => asking before r id .waiting (.sent reply) ∅ .reading
  | .returned reply => asking before r id (.returned reply.outcome) (.sent reply) ∅ .reading

/-- The stage of the request at that point. -/
def stage : Leg → Stage
  | .numbered => .numbered
  | .sending => .sending
  | .asked | .answered _ | .holding _ | .told _ => .waiting
  | .returned reply => .returned reply.outcome

theorem session_call (leg : Leg) : ((leg.session before r id).call r).stage = leg.stage := by
  cases leg <;> exact congrArg Call.stage asking_call

/-- A call that is over. -/
def Over (before : Nat → Call) (r : Nat) : Prop :=
  ∀ q ≠ r, (before q).stage = .unborn ∨ ∃ outcome, (before q).stage = .returned outcome

/-- Where a call goes on, it is this one. -/
theorem eq_of_stage (hover : Over before r) {q : Nat} {stage : Stage}
    (h : ((leg.session before r id).call q).stage = stage) (hborn : stage ≠ .unborn)
    (hopen : ∀ outcome, stage ≠ .returned outcome) : q = r ∧ leg.stage = stage := by
  by_cases hq : q = r
  · subst hq
    exact ⟨rfl, leg.session_call.symm.trans h⟩
  · have hbefore : (leg.session before r id).call q = before q := by
      cases leg <;> exact asking_other hq
    rw [hbefore] at h
    rcases hover q hq with hunborn | ⟨outcome, hreturned⟩
    · exact absurd (h.symm.trans hunborn) hborn
    · exact absurd (h.symm.trans hreturned) (hopen outcome)

/-- How many steps a request is from its end. -/
def left : Leg → Nat
  | .numbered => 6
  | .sending => 5
  | .asked => 4
  | .answered _ => 3
  | .holding _ => 2
  | .told _ => 1
  | .returned _ => 0

/-- The reply, where there is one. -/
def reply : Leg → Option Reply
  | .answered reply | .holding reply | .told reply | .returned reply => some reply
  | _ => none

/-- The calls before the next one. -/
theorem over_next (hover : Over before r) (reply : Reply) :
    Over (session before r id (.returned reply)).call (r + 1) := by
  intro q _
  by_cases hr : q = r
  · subst hr
    exact .inr ⟨_, session_call _⟩
  · change ((asking before r id _ _ _ _).call q).stage = _ ∨ ∃ outcome, ((asking before r id _ _ _
      _).call q).stage = _
    rw [asking_other hr]
    exact hover q hr

/-! ### The steps that are due -/

theorem step_number (reply : Reply) : (session before r id (.returned reply)).step .number =
    some (session (session before r id (.returned reply)).call (r + 1) (id + 1) .numbered, none) :=
  rfl

/-- A slot that is taken out leaves the map as it was. -/
theorem erase_insert_empty (id : UInt64) (r : Nat) :
    ((∅ : PendingMap).insert id r).erase id = ∅ := by
  rw [AList.insert_empty]
  exact AList.ext (List.kerase_cons_eq rfl)

theorem step_register :
    (session before r id .numbered).step (.register r) =
      some (session before r id .sending, none) := by
  have hstage : ((session before r id .numbered).call r).stage = .numbered := session_call _
  have hdrop : (session before r id .numbered).dropSlot id = session before r id .numbered := rfl
  have hid : ((session before r id .numbered).call r).id = id := congrArg Call.id asking_call
  dsimp only [Session.step]
  rw [if_pos hstage]
  unfold register
  rw [hid, hdrop]
  exact congrArg (fun s => some (s, none)) setStage_asking

theorem step_sent :
    (session before r id .sending).step (.sent r) = some (session before r id .asked, none) := by
  have hstage : ((session before r id .sending).call r).stage = .sending := session_call _
  dsimp only [Session.step]
  rw [if_pos ⟨hstage, rfl⟩]
  exact congrArg (fun s => some (s, none)) setStage_asking

theorem step_receive {reply : Reply} {response : Response} (hid : response.correlationId = id)
    (hbody : replyOf response.body = some reply) :
    (session before r id (.answered reply)).step (.receive (some (.response response))) =
      some (session before r id (.holding reply), none) := by
  subst hid
  change some ((session before r _ (.answered reply)).deliver response, none) = _
  unfold deliver
  rw [hbody]
  dsimp only [session, asking]
  rw [AList.lookup_insert]
  dsimp only
  rw [erase_insert_empty]

theorem step_hand {reply : Reply} :
    (session before r id (.holding reply)).step .hand =
      some (session before r id (.told reply), none) := by
  change some ({ (session before r id (.holding reply)).setChannel r (.sent reply) with
    reader := .reading }, none) = _
  dsimp only [session]
  rw [setChannel_asking]
  rfl

theorem step_wake {reply : Reply} :
    (session before r id (.told reply)).step (.wake r true) =
      some (session before r id (.returned reply), some (r, reply.outcome)) := by
  have hstage : ((session before r id (.told reply)).call r).stage = .waiting := session_call _
  have hchannel : ((session before r id (.told reply)).call r).channel = .sent reply :=
    congrArg Call.channel asking_call
  have houtcome : (Channel.sent reply).outcome true = some reply.outcome := by
    cases reply <;> rfl
  dsimp only [Session.step]
  rw [if_pos hstage, hchannel, houtcome]
  exact congrArg (fun s => some (s, some (r, reply.outcome))) setStage_asking

/-- **A step that needs nothing from the network** is the one that is due. -/
theorem session_step (hover : Over before r) (h : (leg.session before r id).step e = some (s, out))
    (he : e.answers = true) :
    (leg = .numbered ∧ e = .register r) ∨ (∃ reply, leg = .holding reply ∧ e = .hand) ∨
      ∃ reply, leg = .told reply ∧ e = .wake r true := by
  cases e with
  | register q =>
      have hstage : ((leg.session before r id).call q).stage = .numbered := by
        dsimp only [Session.step] at h
        split_ifs at h with hstage
        exact hstage
      obtain ⟨rfl, hleg⟩ := eq_of_stage hover hstage (by simp) (by simp)
      cases leg with
      | numbered => exact .inl ⟨rfl, rfl⟩
      | _ => cases hleg
  | hand =>
      cases leg with
      | holding reply => exact .inr (.inl ⟨reply, rfl, rfl⟩)
      | _ => cases h
  | wake q decoded =>
      cases decoded with
      | false => cases he
      | true =>
          have hstage : ((leg.session before r id).call q).stage = .waiting := by
            dsimp only [Session.step] at h
            split_ifs at h with hstage
            exact hstage
          obtain ⟨rfl, hleg⟩ := eq_of_stage hover hstage (by simp) (by simp)
          cases leg with
          | told reply => exact .inr (.inr ⟨reply, rfl, rfl⟩)
          | numbered => cases hleg
          | sending => cases hleg
          | returned reply => cases hleg
          | _ =>
              -- The request has no reply to wake up with.
              have hchannel : ∀ {slots reader}, (Session.call (asking before q id .waiting .unused
                  slots reader) q).channel.outcome true = none := by
                intro slots reader
                rw [asking_call]
                rfl
              dsimp only [Session.step] at h
              rw [if_pos hstage] at h
              dsimp only [session] at h
              rw [hchannel] at h
              cases h
  | _ => cases he

/-- A request that is sent was about to be. -/
theorem session_sent (hover : Over before r)
    (h : (leg.session before r id).step (.sent r) = some (s, out)) : leg = .sending := by
  have hstage : ((leg.session before r id).call r).stage = .sending := by
    dsimp only [Session.step] at h
    split_ifs at h with hstage
    exact hstage.1
  obtain ⟨-, hleg⟩ := eq_of_stage hover hstage (by simp) (by simp)
  cases leg with
  | sending => rfl
  | _ => cases hleg

/-- A request that returned has got to its end. -/
theorem session_returned {outcome : Outcome}
    (h : ((leg.session before r id).call r).stage = .returned outcome) :
    ∃ reply, leg = .returned reply ∧ outcome = reply.outcome := by
  rw [session_call] at h
  cases leg with
  | returned reply =>
      cases h
      exact ⟨reply, rfl, rfl⟩
  | _ => cases h

end Leg

/-- The connection that a task is about to use. -/
def Task.uses : Task → Option Nat
  | .checking _ live | .requesting _ live _ => some live
  | _ => none

@[grind =] theorem without_uses (caller : Caller) : caller.without.uses = none := by
  cases caller <;> rfl

@[grind =] theorem next_uses (next : Next) : next.task.uses = none := by
  cases next <;> rfl

namespace Inner

variable {s t : Inner} {e : Event} {out : Option Returned} {n p : Nat}

/-- A step of a connection, as one of the client. -/
theorem step_session {event : Session.Event} {session : Session} {out : Option (Nat × Outcome)}
    (hnumber : event ≠ .number) (hdrop : ∀ r, event ≠ .drop r)
    (h : (s.sessions n).step event = some (session, out)) :
    s.step (.session n event) = some (s.setSession n session, none) := by
  dsimp only [step]
  rw [h]
  cases event with
  | number => exact absurd rfl hnumber
  | drop r => exact absurd rfl (hdrop r)
  | _ => rfl

theorem session_of_step {event : Session.Event} (h : s.step (.session n event) = some (t, out)) :
    ∃ session out', (s.sessions n).step event = some (session, out') ∧
      t = s.setSession n session := by
  dsimp only [step] at h
  split at h
  · cases h
  · cases h
  · cases h
  · next session out' _ _ hstep =>
      cases h
      exact ⟨session, out', hstep, rfl⟩

/-- A connection that a task takes up is the live one. -/
theorem uses_step {q : Nat} (h : s.step e = some (t, out))
    (huses : (t.task q).uses = some n) : (s.task q).uses = some n ∨ s.live = some n := by
  unfold step at h
  split at h <;> grind [Task.uses]

/-! ### What other tasks do meanwhile -/

/-- A step of the other tasks that call, that keep a terminal, or that connect: none
starts, confirms or gives up a pairing, or writes a record. -/
def Event.aside (p : Nat) : Event → Bool
  | .startCall q _ | .startConnect q | .startDisconnect q | .closeTerminal q _ | .look q | .check q
  | .finish q _ _ | .drain q | .takeLive q | .dialed q _ | .dialFails q | .tick q | .vanish q =>
      q ≠ p
  | .attachPoller q poller => q ≠ p ∧ poller ≠ p
  | _ => false

/-- A connection that only the task of its pairing uses. -/
structure Reserved (s : Inner) (p n : Nat) : Prop where
  established : n < s.established
  live : s.live ≠ some n
  others : ∀ q ≠ p, (s.task q).uses ≠ some n

/-- What the task itself does takes up no connection. -/
theorem Reserved.own (h : s.Reserved p n) (hestablished : t.established = s.established)
    (hlive : t.live = s.live) (hothers : ∀ q ≠ p, t.task q = s.task q) : t.Reserved p n where
  established := hestablished ▸ h.established
  live := hlive ▸ h.live
  others q hq := hothers q hq ▸ h.others q hq

theorem aside_record (h : s.step e = some (t, out)) (he : e.aside p = true) :
    t.pairing = s.pairing ∧ t.stored = s.stored ∧ t.daemon = s.daemon ∧
      s.established ≤ t.established := by
  unfold step at h
  split at h <;> grind [Event.aside, goto, begin, abort, issue, setSession, establish]

theorem aside_task (h : s.step e = some (t, out)) (he : e.aside p = true) :
    t.task p = s.task p := by
  unfold step at h
  split at h <;> grind [Event.aside]

theorem aside_session (h : s.step e = some (t, out)) (he : e.aside p = true)
    (hreserved : s.Reserved p n) : t.sessions n = s.sessions n := by
  obtain ⟨hestablished, hlive, hothers⟩ := hreserved
  unfold step at h
  split at h <;> grind [Event.aside, Task.uses, issue]

/-- **What other tasks do** leaves a pairing, its connection and the record alone. -/
theorem aside_step (h : s.step e = some (t, out)) (he : e.aside p = true)
    (hreserved : s.Reserved p n) :
    t.task p = s.task p ∧ t.sessions n = s.sessions n ∧ t.pairing = s.pairing ∧
      t.stored = s.stored ∧ t.daemon = s.daemon ∧ t.Reserved p n := by
  obtain ⟨hpairing, hstored, hdaemon, hestablished⟩ := aside_record h he
  refine ⟨aside_task h he, aside_session h he hreserved, hpairing, hstored, hdaemon,
    hreserved.established.trans_le hestablished, fun hlive => ?_, fun q hq huses => ?_⟩
  · have hnew := hreserved.established
    obtain ⟨-, hsame | ⟨hnone, -⟩ | ⟨hfresh, -⟩⟩ := live_step h
    · exact hreserved.live (hsame.symm.trans hlive)
    · rw [hnone] at hlive
      cases hlive
    · rw [hfresh] at hlive
      cases hlive
      omega
  · rcases uses_step h huses with hbefore | hlive
    · exact hreserved.others q hq hbefore
    · exact hreserved.live hlive

end Inner

end Client
