import GoNomad.Lib.Run
import GoNomad.Server.PairingRun

/-!
# The loop over one connection

A connection whose messages all arrive: each frame is read, handled and answered
before the next.  The loop ends when a step is not possible: a frame holds no
message, a device is not recorded, or a reply cannot be sent.

* `reply_cases` — what a message is answered with;
* `greeting_iff` — when a greeting is answered before anything else;
* `Establish.unanswered` — the phone's side of it.
-/

namespace Server

open Proto Policy Store Transition

/-- A connection that is served. -/
structure Served (σ δ : Type) where
  session : Session
  world : World σ
  store : δ

section Loop

variable {σ δ : Type} (services : Services σ) (codec : Codec)
  (onRegister : PublicKey → String → Option String → δ → Except StoreError δ)
  (sends : ControlMessage → Bool)

/-- One frame, and the reply that was sent. -/
def Served.step (s : Served σ δ) : Option ControlMessage →
    Option (Served σ δ × Option ControlMessage)
  | none => none
  | some message =>
      let turn := serveMessage services codec onRegister s.session s.world s.store message
      let s' : Served σ δ := ⟨turn.session, turn.world, turn.store⟩
      match turn.outcome with
      | .error _ => none
      | .ok none => some (s', none)
      | .ok (some reply) => if sends reply then some (s', some reply) else none

end Loop

variable {σ δ : Type} {services : Services σ} {codec : Codec}
  {onRegister : PublicKey → String → Option String → δ → Except StoreError δ}
  {sends : ControlMessage → Bool}

/-- **What a message is answered with**: a request with a response, a ping with a
pong, and nothing else with anything. -/
theorem reply_cases {session : Session} {w : World σ} {store : δ} {message : ControlMessage}
    {reply : Option ControlMessage}
    (h : (serveMessage services codec onRegister session w store message).outcome = .ok reply) :
    (∃ request, message = .request request ∧ reply =
      some (.response (session.router.handle services codec request w).1.1)) ∨
    (∃ nonce, message = .ping nonce ∧ reply = some (.pong nonce)) ∨
    (∀ request, message ≠ .request request) ∧ (∀ nonce, message ≠ .ping nonce) ∧ reply = none := by
  cases message with
  | request request =>
      refine .inl ⟨request, rfl, ?_⟩
      simp only [serveMessage] at h
      split at h
      · next response r' w' hhandle =>
          rw [hhandle]
          exact (Except.ok.inj h).symm
      · next response key name model r' w' hhandle =>
          split at h
          · cases h
          · rw [hhandle]
            exact (Except.ok.inj h).symm
  | ping nonce => exact .inr (.inl ⟨nonce, rfl, (Except.ok.inj h).symm⟩)
  | _ => exact .inr (.inr ⟨by simp, by simp, (Except.ok.inj h).symm⟩)

/-- What a step sends is what the message is answered with. -/
theorem outcome_of_step {s s' : Served σ δ} {frame : Option ControlMessage}
    {reply : Option ControlMessage}
    (h : s.step services codec onRegister sends frame = some (s', reply)) :
    ∃ message, frame = some message ∧ (serveMessage services codec onRegister s.session s.world
      s.store message).outcome = .ok reply := by
  cases frame with
  | none => cases h
  | some message =>
      refine ⟨message, rfl, ?_⟩
      dsimp only [Served.step] at h
      split at h
      · cases h
      · next houtcome =>
          cases h
          exact houtcome
      · next sent houtcome =>
          split_ifs at h
          cases h
          exact houtcome

/-! ### The greeting -/

/-- Frames with what was sent in answer to each. -/
abbrev Conversation := List (Option ControlMessage × Option ControlMessage)

def isHello : Option ControlMessage → Bool
  | some (.hello _) => true
  | _ => false

def isRequest : Option ControlMessage → Bool
  | some (.request _) => true
  | _ => false

/-- The session is accepted. -/
def isHelloOk : ControlMessage → Bool
  | .helloOk _ => true
  | _ => false

/-- A greeting is answered, one way or the other. -/
def answersHello : ControlMessage → Bool
  | .helloOk _ | .helloReject _ => true
  | _ => false

def isResponse : ControlMessage → Bool
  | .response _ => true
  | _ => false

/-- What was sent. -/
def sent (conversation : Conversation) : List ControlMessage := conversation.filterMap Prod.snd

/-- The first greeting has exactly one answer, and that comes before any response. -/
def AnswersHello (conversation : Conversation) : Prop :=
  (∃ entry ∈ conversation, isHello entry.1 = true) →
    ∃ before answer after, sent conversation = before ++ answer :: after ∧
      answersHello answer = true ∧ (∀ message ∈ before, isResponse message = false) ∧
      ∀ message ∈ before ++ after, answersHello message = false

/-- No request is handled before a greeting was accepted. -/
def AcceptsFirst (conversation : Conversation) : Prop :=
  ∀ before after entry, conversation = before ++ entry :: after → isRequest entry.1 = true →
    ∃ message ∈ sent before, isHelloOk message = true

/-- Only requests and pings are answered. -/
theorem answers_of_run {s₀ s : Served σ δ} {conversation : Conversation}
    (hrun : Run (Served.step services codec onRegister sends) unguarded s₀ conversation s) :
    ∀ message ∈ sent conversation, answersHello message = false ∧ isHelloOk message = false := by
  refine hrun.invariant (fun conversation _ => ∀ message ∈ sent conversation,
    answersHello message = false ∧ isHelloOk message = false) (fun _ h => nomatch h) ?_
  intro conversation s frame s' reply h _ hstep message hmessage
  unfold sent at hmessage
  rw [List.filterMap_append, List.mem_append] at hmessage
  rcases hmessage with hmessage | hmessage
  · exact h message hmessage
  · obtain ⟨received, -, houtcome⟩ := outcome_of_step hstep
    rcases reply_cases houtcome with ⟨request, -, rfl⟩ | ⟨nonce, -, rfl⟩ | ⟨-, -, rfl⟩
    · obtain rfl := List.mem_singleton.mp hmessage
      exact ⟨rfl, rfl⟩
    · obtain rfl := List.mem_singleton.mp hmessage
      exact ⟨rfl, rfl⟩
    · cases hmessage

/-! ### The phone's side -/

/-- How long the hello exchange may take, in milliseconds. -/
def HELLO_TIMEOUT : Nat := 10000

/-- How the exchange ends for the phone. -/
inductive HelloOutcome
  | accepted (hello : HelloOk)
  | rejected (reason : RejectReason)
  | timedOut
  deriving DecidableEq

/-- A phone that has sent its greeting waits for the answer; nothing is lost in
between. -/
structure Establish (σ δ : Type) where
  now : Nat
  deadline : Nat
  toDaemon : List ControlMessage
  toPhone : List ControlMessage
  served : Served σ δ
  outcome : Option HelloOutcome

inductive EstablishEvent
  /-- The daemon takes a message. -/
  | serve
  /-- The phone takes a message. -/
  | read
  | tick (elapsed : Nat)
  | timeout

namespace Establish

/-- The phone has connected and sends its greeting. -/
def start (now : Nat) (hello : Hello) (served : Served σ δ) : Establish σ δ :=
  ⟨now, now + HELLO_TIMEOUT, [.hello hello], [], served, none⟩

/-- What the phone makes of a message while it waits. -/
def readHello : ControlMessage → Option HelloOutcome
  | .helloOk hello => some (.accepted hello)
  | .helloReject reject => some (.rejected reject.reason)
  -- Anything else is ignored.
  | _ => none

variable (services codec onRegister) in
def step (s : Establish σ δ) : EstablishEvent → Option (Establish σ δ × Unit)
  | .serve =>
      match s.toDaemon with
      | [] => none
      | message :: rest =>
          match s.served.step services codec onRegister (fun _ => true) (some message) with
          | none => none
          | some (served, reply) =>
              some ({ s with toDaemon := rest, served, toPhone := s.toPhone ++ reply.toList }, ())
  | .read =>
      match s.outcome, s.toPhone with
      | none, message :: rest =>
          some ({ s with toPhone := rest, outcome := readHello message }, ())
      | _, _ => none
  | .tick elapsed => some ({ s with now := s.now + elapsed }, ())
  | .timeout =>
      if s.outcome = none ∧ s.deadline ≤ s.now then
        some ({ s with outcome := some .timedOut }, ())
      else none

/-- The phone has nothing to read, and the daemon has nothing but the greeting. -/
structure Waiting (hello : Hello) (s : Establish σ δ) : Prop where
  toDaemon : s.toDaemon = [.hello hello] ∨ s.toDaemon = []
  toPhone : s.toPhone = []
  outcome : s.outcome = none ∨ s.outcome = some .timedOut

theorem Waiting.step {hello : Hello} {s s' : Establish σ δ} {e : EstablishEvent} {o : Unit}
    (h : Waiting hello s) (hstep : s.step services codec onRegister e = some (s', o)) :
    Waiting hello s' := by
  cases e with
  | serve =>
      dsimp only [Establish.step] at hstep
      rcases h.toDaemon with hqueue | hqueue
      · rw [hqueue] at hstep
        -- The greeting is ignored.
        cases hstep
        exact ⟨.inr rfl, by simp [h.toPhone], h.outcome⟩
      · rw [hqueue] at hstep
        cases hstep
  | read =>
      dsimp only [Establish.step] at hstep
      rw [h.toPhone] at hstep
      split at hstep
      · next heq => cases heq
      · cases hstep
  | tick elapsed =>
      cases hstep
      exact ⟨h.toDaemon, h.toPhone, h.outcome⟩
  | timeout =>
      dsimp only [Establish.step] at hstep
      split_ifs at hstep
      cases hstep
      exact ⟨h.toDaemon, h.toPhone, .inr rfl⟩

/-- **The phone is never answered**: it waits, and in time gives up. -/
theorem unanswered {now : Nat} {hello : Hello} {served : Served σ δ} {s : Establish σ δ}
    {trace : List (EstablishEvent × Unit)}
    (hrun : Run (step services codec onRegister) unguarded (start now hello served) trace s) :
    (s.outcome = none ∨ s.outcome = some .timedOut) ∧
      ∃ trace' s', Run (step services codec onRegister) unguarded s trace' s' ∧
        s'.outcome = some .timedOut := by
  have hwaiting : Waiting hello s := by
    refine hrun.invariant (fun _ => Waiting hello) ⟨.inl rfl, rfl, .inl rfl⟩ ?_
    intro trace s e s' o h _ hstep
    exact h.step hstep
  refine ⟨hwaiting.outcome, ?_⟩
  rcases hwaiting.outcome with hnone | htimedOut
  · have htick : s.step services codec onRegister (.tick s.deadline) =
        some ({ s with now := s.now + s.deadline }, ()) := rfl
    have htimeout : Establish.step services codec onRegister { s with now := s.now + s.deadline }
        .timeout = some ({ s with now := s.now + s.deadline, outcome := some .timedOut }, ()) := by
      dsimp only [Establish.step]
      rw [if_pos ⟨hnone, Nat.le_add_left _ _⟩]
    exact ⟨_, _, (Run.nil.snoc trivial htick).snoc trivial htimeout, rfl⟩
  · exact ⟨[], s, .nil, htimedOut⟩

end Establish

/-! ### Both sides -/

/-- **A greeting comes first and is answered** exactly where there is nothing to
answer and nothing to handle: the daemon ignores greetings and handles requests
without one.  And a phone that greets it is never answered. -/
theorem greeting_iff (services : Services σ) (codec : Codec)
    (onRegister : PublicKey → String → Option String → δ → Except StoreError δ) :
    (∀ s₀ conversation s,
      Run (Served.step services codec onRegister fun _ => true) unguarded s₀ conversation s →
      (AnswersHello conversation ∧ AcceptsFirst conversation ↔
        ∀ entry ∈ conversation, isHello entry.1 = false ∧ isRequest entry.1 = false)) ∧
    ∀ now hello served trace s, Run (Establish.step services codec onRegister) unguarded
        (Establish.start now hello served) trace s →
      (s.outcome = none ∨ s.outcome = some .timedOut) ∧
        ∃ trace' s', Run (Establish.step services codec onRegister) unguarded s trace' s' ∧
          s'.outcome = some .timedOut := by
  refine ⟨fun s₀ conversation s hrun => ?_, fun _ _ _ _ _ hrun => Establish.unanswered hrun⟩
  have hanswers := answers_of_run hrun
  constructor
  · rintro ⟨hanswered, hfirst⟩ entry hentry
    constructor
    · by_contra hhello
      rw [Bool.not_eq_false] at hhello
      obtain ⟨before, answer, after, hsent, hanswer, -, -⟩ := hanswered ⟨entry, hentry, hhello⟩
      have hnot := (hanswers answer (by rw [hsent]; simp)).1
      rw [hanswer] at hnot
      cases hnot
    · by_contra hrequest
      rw [Bool.not_eq_false] at hrequest
      obtain ⟨before, after, hsplit⟩ := List.append_of_mem hentry
      obtain ⟨message, hmessage, hok⟩ := hfirst before after entry hsplit hrequest
      have hsub : message ∈ sent conversation := by
        unfold sent at hmessage ⊢
        rw [hsplit, List.filterMap_append]
        exact List.mem_append_left _ hmessage
      have hnot := (hanswers message hsub).2
      rw [hok] at hnot
      cases hnot
  · intro hquiet
    refine ⟨?_, ?_⟩
    · rintro ⟨entry, hentry, hhello⟩
      rw [(hquiet entry hentry).1] at hhello
      cases hhello
    · rintro before after entry rfl hrequest
      rw [(hquiet entry (by simp)).2] at hrequest
      cases hrequest

/-- A known phone is connected; nobody registers. -/
def sampleServed : Served Unit Unit :=
  ⟨⟨.forDevice Router.sampleDaemon (.replicate 1) ⟨.replicate 7, .defaultGrant, false⟩, none⟩,
    ⟨(), []⟩, ()⟩

/-- Nothing is recorded for a known phone. -/
def noRegistration (_ : PublicKey) (_ : String) (_ : Option String) (store : Unit) :
    Except StoreError Unit :=
  .ok store

def sampleHello : Hello := ⟨1, 1, "phone", .replicate 1, .defaultGrant, [], [], none⟩

theorem greeting_iff_sample :
    ∃ conversation s, Run (Served.step Router.bareServices Router.sampleCodec noRegistration
        fun _ => true) unguarded sampleServed conversation s ∧
      sent conversation = [.pong 7] ∧ AnswersHello conversation ∧ AcceptsFirst conversation := by
  have hexec : (exec (Served.step Router.bareServices Router.sampleCodec noRegistration
      fun _ => true) unguarded [some (.ping 7)] [] sampleServed).map (fun r => r.1) =
        some [(some (.ping 7), some (.pong 7))] := by
    decide +kernel
  obtain ⟨⟨conversation, s⟩, hexec, hconversation⟩ := Option.map_eq_some_iff.mp hexec
  have hconversation : conversation = [(some (.ping 7), some (.pong 7))] := hconversation
  have hrun := run_of_exec _ hexec
  refine ⟨conversation, s, hrun, by rw [hconversation]; rfl, ?_⟩
  refine ((greeting_iff _ _ _).1 _ conversation s hrun).mpr fun entry hentry => ?_
  rw [hconversation] at hentry
  obtain rfl := List.mem_singleton.mp hentry
  exact ⟨rfl, rfl⟩

/-- **A greeting is ignored.** -/
theorem greeting_ignored :
    ¬ ∀ (s₀ : Served Unit Unit) (conversation : Conversation) (s : Served Unit Unit),
      Run (Served.step Router.bareServices Router.sampleCodec noRegistration fun _ => true)
        unguarded s₀ conversation s →
      AnswersHello conversation ∧ AcceptsFirst conversation := by
  intro hall
  have hexec : (exec (Served.step Router.bareServices Router.sampleCodec noRegistration
      fun _ => true) unguarded [some (.hello sampleHello)] [] sampleServed).map (fun r => r.1) =
        some [(some (.hello sampleHello), none)] := by
    decide +kernel
  obtain ⟨⟨conversation, s⟩, hexec, hconversation⟩ := Option.map_eq_some_iff.mp hexec
  have hconversation : conversation = [(some (.hello sampleHello), none)] := hconversation
  obtain ⟨before, answer, after, hsent, -⟩ :=
    (hall _ conversation s (run_of_exec _ hexec)).1 ⟨_, by rw [hconversation]; exact .head _, rfl⟩
  rw [hconversation] at hsent
  simp [sent] at hsent

end Server
