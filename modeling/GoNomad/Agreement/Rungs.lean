import GoNomad.Agreement.Pairing
import GoNomad.Client.Asking
import GoNomad.Server.PairingAdmits

/-!
# How far a pairing has got

A phone has handshaken with a daemon that serves its connection and can record it, and
one of its tasks confirms.  Until it has, one step at a time is due, on either side or
between them.

* `Rung`, `Stands` — how far the pairing has got, and what both sides are then;
* `works`, `smooth` — the steps that take it further, and those that do no harm;
* `due_of_step` — **nothing else than what is due** takes it further.
-/

namespace Agreement

open Proto Store Server Transition
open Core (Sas)
open Client (Inner Leg PairedDaemon Pairing)

/-! ### What a phone asks -/

/-- What a phone asks while it confirms: to be registered, and for the name of the
daemon that registered it with some result. -/
inductive Question
  | register
  | name (device : String) (result : List UInt8)

namespace Question

/-- The number of the request on its connection. -/
def number : Question → Nat
  | .register => 0
  | .name .. => 1

def id : Question → UInt64
  | .register => 1
  | .name .. => 2

/-- The calls before it. -/
def before : Question → Nat → Client.Call
  | .register => Client.Session.start.call
  | .name _ result => (Leg.session Client.Session.start.call 0 1 (.returned (.ok result))).call

/-- The connection, where the request has got this far. -/
def session (question : Question) (leg : Leg) : Client.Session :=
  leg.session question.before question.number question.id

/-- The reply to a registration is a result. -/
def Fits : Question → Leg → Prop
  | .register, leg => ∀ reply, leg.reply = some reply → ∃ result, reply = .ok result
  | .name .., _ => True

end Question

/-- How far a pairing has got. -/
inductive Rung
  /-- About to be confirmed. -/
  | ready
  | asking (question : Question) (leg : Leg)
  | saving (daemon : PairedDaemon)
  | caching (daemon : PairedDaemon)
  | confirmed (daemon : PairedDaemon)
  | paired (daemon : PairedDaemon)

namespace Rung

/-- How many steps are left. -/
def left : Rung → Nat
  | .ready => 18
  | .asking .register leg => leg.left + 11
  | .asking (.name ..) leg => leg.left + 4
  | .saving _ => 3
  | .caching _ => 2
  | .confirmed _ => 1
  | .paired _ => 0

/-- Whether the daemon has recorded the phone. -/
def recorded : Rung → Bool
  | .ready => false
  | .asking .register leg => leg.reply.isSome
  | _ => true

/-- What is on the way to the phone. -/
def hears : Rung → List Response
  | .asking question (.answered (.ok result)) => [⟨question.id, .ok result⟩]
  | .asking question (.answered (.error error)) => [⟨question.id, .error error⟩]
  | _ => []

end Rung

/-! ### What both sides are then -/

/-- An attempt to pair: the task that confirms it, the session of its handshake, what the
ticket names, the digits that both sides derived, and the name of the phone. -/
structure Attempt where
  task : Nat
  session : Nat
  nodeId : PublicKey
  addrHints : List String
  sas : Sas
  deviceName : String

namespace Attempt

variable (a : Attempt) (codec : Codec) (config : Daemon) (phoneKey daemonKey : PublicKey)

/-- What the phone knows of the pairing. -/
def pairing : Pairing := ⟨a.session, daemonKey, a.nodeId, a.addrHints⟩

/-- What the phone registers with. -/
def params : SysRegisterParams := ⟨a.deviceName, none, a.sas.digits⟩

/-- The encoding reads back what the phone registers with. -/
def Reads : Prop := codec.register (MethodCbor.registerParams a.params) = some a.params

/-- The device that the loop returns with. -/
def device : PairedDevice := ⟨a.deviceName, phoneKey⟩

def request : Question → Request
  | .register => ⟨1, Method.sysRegister, MethodCbor.registerParams a.params⟩
  | .name .. => ⟨2, Method.sysInfo, MethodCbor.struct []⟩

/-- What is on the way to the daemon. -/
def asks : Rung → List Request
  | .asking question .asked => [a.request question]
  | _ => []

/-- Where the task is that confirms. -/
def taskAt : Rung → Client.Task
  | .ready | .paired _ => .idle
  | .asking .register _ => .registering (a.pairing daemonKey) 0
  | .asking (.name device _) _ => .naming (a.pairing daemonKey) device 1
  | .saving daemon => .saving daemon
  | .caching daemon => .caching daemon
  | .confirmed daemon => .confirmed daemon

/-- A record of this pairing. -/
def Records (daemon : PairedDaemon) : Prop :=
  daemon.noiseKey = daemonKey ∧ daemon.nodeId = some a.nodeId ∧ daemon.addrHints = a.addrHints

/-- The last request of the pairing is over. -/
def Ended (phone : Inner) : Prop :=
  ∃ device result reply, phone.sessions a.session =
    (Question.name device result).session (.returned reply)

/-- What the phone is. -/
def Holds (phone : Inner) : Rung → Prop
  | .ready => phone.sessions a.session = .start ∧ phone.pairing = some (a.pairing daemonKey)
  | .asking question leg =>
      phone.sessions a.session = question.session leg ∧ question.Fits leg
  | .saving daemon => a.Ended phone ∧ a.Records daemonKey daemon
  | .caching daemon => a.Ended phone ∧ a.Records daemonKey daemon ∧ phone.stored = some daemon
  | .confirmed daemon => a.Ended phone ∧ a.Records daemonKey daemon ∧
      phone.stored = some daemon ∧ phone.daemon = some daemon
  | .paired daemon => a.Ended phone ∧ a.Records daemonKey daemon ∧
      phone.stored = some daemon ∧ phone.daemon = some daemon ∧ phone.pairing = none

/-- What the daemon is: it can record the phone, or it has. -/
def Serves {σ : Type} (loop : PairingLoop σ) : Bool → Prop
  | false => loop.phase = .serving ⟨.forPairing config phoneKey a.sas.digits, none⟩ true ∧
      loop.devices.Admits phoneKey
  | true => loop.phase = .serving ⟨.paired config phoneKey, some (a.device phoneKey)⟩ true ∧
      loop.devices.Active phoneKey

/-- **What both sides are** when the pairing has got this far. -/
structure Stands {σ : Type} (rung : Rung) (s : Both σ) : Prop where
  task : s.phone.task a.task = a.taskAt daemonKey rung
  reserved : s.phone.Reserved a.task a.session
  holds : a.Holds daemonKey s.phone rung
  shown : s.shown a.session = some a.sas
  serving : s.serving = some a.session
  serves : a.Serves config phoneKey s.loop rung.recorded
  asks : s.toDaemon a.session = a.asks rung
  hears : s.toPhone a.session = rung.hears

/-! ### What happens meanwhile -/

/-- A step that takes the pairing further. -/
def works : Event → Bool
  | .phone (.session n _) | .arrive n => n = a.session
  | .phone (.startConfirm _) | .phone (.registered ..) | .phone (.named ..) | .phone (.save _)
  | .phone (.cache _) | .phone (.confirm _) | .send .. | .serve .. => true
  | _ => false

/-- No fault: what the phone asks gets to the daemon and what it answers gets back, the
table is written, and the other tasks do something else than pairing. -/
def smooth : Event → Bool
  | .phone (.session n event) => n ≠ a.session ∨ event.answers
  | .phone (.startConfirm p) | .phone (.registered p _) | .phone (.named p _ _) | .phone (.save p)
  | .phone (.cache p) | .phone (.confirm p) => p = a.task
  | .phone event => event.aside a.task
  | .send p deviceName fails => p = a.task ∧ deviceName = a.deviceName ∧ fails = false
  | .arrive _ | .loop (.tick _) => true
  | .serve _ storeFails sendFails => storeFails = false ∧ sendFails = false
  | _ => false

/-- The steps that are due. -/
inductive Due : Rung → Event → Prop
  | start : Due .ready (.phone (.startConfirm a.task))
  | register (question : Question) :
      Due (.asking question .numbered) (.phone (.session a.session (.register question.number)))
  | send (question : Question) :
      Due (.asking question .sending) (.send a.task a.deviceName false)
  | serve (question : Question) (wallMs : Int) :
      Due (.asking question .asked) (.serve wallMs false false)
  | arrive (question : Question) (reply : Client.Reply) :
      Due (.asking question (.answered reply)) (.arrive a.session)
  | hand (question : Question) (reply : Client.Reply) :
      Due (.asking question (.holding reply)) (.phone (.session a.session .hand))
  | wake (question : Question) (reply : Client.Reply) :
      Due (.asking question (.told reply))
        (.phone (.session a.session (.wake question.number true)))
  | registered (reply : Client.Reply) (device : String) :
      Due (.asking .register (.returned reply)) (.phone (.registered a.task device))
  | named (device : String) (result : List UInt8) (reply : Client.Reply) (hostName : String)
      (now : Int) :
      Due (.asking (.name device result) (.returned reply)) (.phone (.named a.task hostName now))
  | save (daemon : PairedDaemon) : Due (.saving daemon) (.phone (.save a.task))
  | cache (daemon : PairedDaemon) : Due (.caching daemon) (.phone (.cache a.task))
  | confirm (daemon : PairedDaemon) : Due (.confirmed daemon) (.phone (.confirm a.task))

end Attempt

namespace Question

theorem over_start (r : Nat) : Leg.Over Client.Session.start.call r := fun _ _ => .inl rfl

/-- All other requests of the connection are over. -/
theorem over_before (question : Question) : Leg.Over question.before question.number := by
  cases question with
  | register => exact over_start 0
  | name device result => exact Leg.over_next (over_start 0) (.ok result)

end Question

namespace Attempt

variable {σ : Type} {services : Services σ} {codec : Codec} {config : Daemon}
  {phoneKey daemonKey : PublicKey} {a : Attempt} {rung : Rung} {question : Question} {leg : Leg}
  {s t : Both σ} {event : Event} {noted : Noted} {phone : Inner} {out : Option Client.Returned}

/-! ### What is due -/

/-- Nothing happens by itself on a connection without requests. -/
theorem start_answers {e : Client.Session.Event} {session : Client.Session}
    {outcome : Option (Nat × Client.Outcome)}
    (h : Client.Session.start.step e = some (session, outcome)) : e.answers = false := by
  cases e with
  | register r => cases h
  | hand => cases h
  | wake r decoded => cases h
  | _ => rfl

/-- The request whose turn it is, on the connection of the pairing. -/
theorem due_of_session {e : Client.Session.Event} {session : Client.Session}
    {outcome : Option (Nat × Client.Outcome)} (hholds : a.Holds daemonKey phone rung)
    (hstep : (phone.sessions a.session).step e = some (session, outcome))
    (he : e.answers = true) : a.Due rung (.phone (.session a.session e)) := by
  have hended : ¬ a.Ended phone := by
    rintro ⟨device, result, reply, hsession⟩
    rw [hsession] at hstep
    rcases Leg.session_step (Question.over_before _) hstep he with ⟨hleg, -⟩ | ⟨_, hleg, -⟩ | ⟨_, hleg, -⟩
    · cases hleg
    · cases hleg
    · cases hleg
  cases rung with
  | ready =>
      rw [hholds.1] at hstep
      rw [start_answers hstep] at he
      cases he
  | asking question leg =>
      rw [hholds.1] at hstep
      rcases Leg.session_step question.over_before hstep he with
        ⟨rfl, rfl⟩ | ⟨reply, rfl, rfl⟩ | ⟨reply, rfl, rfl⟩
      · exact .register question
      · exact .hand question reply
      · exact .wake question reply
  | _ => exact absurd hholds.1 hended

/-- The step of the task whose turn it is. -/
theorem due_of_phone {e : Inner.Event} (h : a.Stands config phoneKey daemonKey rung s)
    (hstep : s.phone.step e = some (phone, out)) (hsmooth : a.smooth (.phone e) = true)
    (hworks : a.works (.phone e) = true) : a.Due rung (.phone e) := by
  have htask := h.task
  have hholds := h.holds
  cases e with
  | session n e =>
      obtain rfl : n = a.session := of_decide_eq_true hworks
      obtain ⟨session, outcome, htaken, -⟩ := Inner.session_of_step hstep
      rcases of_decide_eq_true hsmooth with hne | hanswers
      · exact absurd rfl hne
      · exact due_of_session hholds htaken hanswers
  | startConfirm p =>
      obtain rfl : p = a.task := of_decide_eq_true hsmooth
      dsimp only [Inner.step] at hstep
      split at hstep
      · cases hstep
      · next hpairing =>
          obtain ⟨hidle, -⟩ := Inner.begin_some hstep
          rw [Inner.issue_task, htask] at hidle
          cases rung with
          | ready => exact .start
          | asking question leg => cases question <;> cases hidle
          | paired daemon =>
              rw [hholds.2.2.2.2] at hpairing
              cases hpairing
          | _ => cases hidle
  | registered p device =>
      obtain rfl : p = a.task := of_decide_eq_true hsmooth
      dsimp only [Inner.step] at hstep
      rw [htask] at hstep
      cases rung with
      | asking question leg =>
          cases question with
          | register =>
              have hstage : ∃ outcome, ((s.phone.sessions a.session).call 0).stage =
                  .returned outcome := by
                dsimp only [taskAt, pairing] at hstep
                split at hstep
                · next result hresult => exact ⟨_, hresult⟩
                · next outcome houtcome => exact ⟨_, houtcome⟩
                · cases hstep
              obtain ⟨outcome, houtcome⟩ := hstage
              rw [hholds.1] at houtcome
              obtain ⟨reply, rfl, -⟩ := Leg.session_returned houtcome
              exact .registered reply device
          | name => cases hstep
      | _ => cases hstep
  | named p hostName now =>
      obtain rfl : p = a.task := of_decide_eq_true hsmooth
      dsimp only [Inner.step] at hstep
      rw [htask] at hstep
      cases rung with
      | asking question leg =>
          cases question with
          | register => cases hstep
          | name device result =>
              have hstage : ∃ outcome, ((s.phone.sessions a.session).call 1).stage =
                  .returned outcome := by
                dsimp only [taskAt, pairing] at hstep
                split at hstep
                · next outcome houtcome => exact ⟨_, houtcome⟩
                · cases hstep
              obtain ⟨outcome, houtcome⟩ := hstage
              rw [hholds.1] at houtcome
              obtain ⟨reply, rfl, -⟩ := Leg.session_returned houtcome
              exact .named device result reply hostName now
      | _ => cases hstep
  | save p =>
      obtain rfl : p = a.task := of_decide_eq_true hsmooth
      dsimp only [Inner.step] at hstep
      rw [htask] at hstep
      cases rung with
      | asking question leg => cases question <;> cases hstep
      | saving daemon => exact .save daemon
      | _ => cases hstep
  | cache p =>
      obtain rfl : p = a.task := of_decide_eq_true hsmooth
      dsimp only [Inner.step] at hstep
      rw [htask] at hstep
      cases rung with
      | asking question leg => cases question <;> cases hstep
      | caching daemon => exact .cache daemon
      | _ => cases hstep
  | confirm p =>
      obtain rfl : p = a.task := of_decide_eq_true hsmooth
      dsimp only [Inner.step] at hstep
      rw [htask] at hstep
      cases rung with
      | asking question leg => cases question <;> cases hstep
      | confirmed daemon => exact .confirm daemon
      | _ => cases hstep
  | _ => cases hworks

/-- What a task asks for. -/
theorem requestOf_asking {shown : Nat → Option Sas} (hshown : shown a.session = some a.sas) :
    requestOf shown a.deviceName (a.taskAt daemonKey (.asking question leg)) =
      some (a.session, question.number, (a.request question).method,
        (a.request question).params) := by
  cases question with
  | register =>
      unfold requestOf taskAt pairing
      dsimp only
      rw [hshown]
      rfl
  | name device result => rfl

/-- **Nothing else than what is due** takes the pairing further. -/
theorem due_of_step (h : a.Stands config phoneKey daemonKey rung s)
    (hstep : s.step services codec config phoneKey daemonKey event = some (t, noted))
    (hsmooth : a.smooth event = true) (hworks : a.works event = true) : a.Due rung event := by
  cases event with
  | phone e =>
      obtain ⟨out, hphone⟩ := phone_of_stepPhone (stepPhone_of_step hstep)
      exact due_of_phone h hphone hsmooth hworks
  | send p deviceName fails =>
      obtain ⟨rfl, rfl, rfl⟩ := of_decide_eq_true hsmooth
      dsimp only [Both.step] at hstep
      rw [h.task] at hstep
      cases rung with
      | asking question leg =>
          rw [requestOf_asking h.shown] at hstep
          dsimp only at hstep
          rw [if_neg (by simp)] at hstep
          split at hstep
          · cases hstep
          · next phone out hphone =>
              obtain ⟨session, outcome, htaken, -⟩ := Inner.session_of_step hphone
              rw [h.holds.1] at htaken
              obtain rfl := Leg.session_sent question.over_before htaken
              exact .send question
      | _ => cases hstep
  | arrive n =>
      obtain rfl : n = a.session := of_decide_eq_true hworks
      dsimp only [Both.step] at hstep
      rw [h.hears] at hstep
      cases rung with
      | asking question leg =>
          cases leg with
          | answered reply => exact .arrive question reply
          | _ => cases hstep
      | _ => cases hstep
  | serve wallMs storeFails sendFails =>
      obtain ⟨rfl, rfl⟩ := of_decide_eq_true hsmooth
      dsimp only [Both.step] at hstep
      rw [h.serving] at hstep
      dsimp only at hstep
      rw [h.asks] at hstep
      cases rung with
      | asking question leg =>
          cases leg with
          | asked => exact .serve question wallMs
          | _ => cases hstep
      | _ => cases hstep
  | _ => cases hworks

end Attempt

end Agreement
