import GoNomad.Agreement.System

/-!
# What holds of a phone and a daemon that pair

The daemon answers a request of a phone with a result only where both derived the
same digits and it recorded the phone, and the phone stores a daemon only after
such a result.

* `PhoneSound.step`, `PhoneSound.handshake` — what a step of the phone keeps;
* `serve_cases` — what the daemon does with a request of the phone;
* `Sound.step`, `run_sound` — what a step of both keeps, and a run.
-/

namespace Agreement

open Proto Store Server Transition
open Core (Sas)
open Client (Inner PairedDaemon Heard Pairing Task)

/-! ### The phone -/

section Phone

variable {Agreed Agreed' : Nat → Prop} {daemonKey : PublicKey} {phone phone' : Inner}
  {shown shown' : Nat → Option Sas} {origin : Nat → Option Nat} {event : Inner.Event}
  {out : Option Client.Returned} {task : Task} {from' : Option Nat} {stored : Option PairedDaemon}

/-- A response that the daemon may send on a connection: a result needs agreement. -/
def Good (agreed : Prop) (response : Response) : Prop :=
  (∃ error, response.body = .error error) ∨ agreed

/-- The handshake of a pairing was with the daemon. -/
def Known (daemonKey : PublicKey) (shown : Nat → Option Sas) (pairing : Pairing) : Prop :=
  pairing.peer = daemonKey ∧ shown pairing.live ≠ none

/-- What a task knows that confirms a pairing. -/
def Confirming (Agreed : Nat → Prop) (daemonKey : PublicKey) (shown : Nat → Option Sas)
    (origin : Option Nat) : Task → Prop
  | .registering pairing _ => Known daemonKey shown pairing
  | .naming pairing _ _ =>
      Known daemonKey shown pairing ∧ origin = some pairing.live ∧ Agreed pairing.live
  | .saving daemon => daemon.noiseKey = daemonKey ∧ ∃ n, origin = some n ∧ Agreed n
  | _ => True

/-- A record is the one from the beginning, but for its time, or there is agreement. -/
def Recorded (Agreed : Nat → Prop) (stored : Option PairedDaemon) (daemonKey : PublicKey)
    (daemon : PairedDaemon) : Prop :=
  (∃ old, stored = some old ∧ old.untimed = daemon.untimed) ∨
    daemon.noiseKey = daemonKey ∧ ∃ n, Agreed n

/-- **What holds of the phone** in every state. -/
structure PhoneSound (Agreed : Nat → Prop) (stored : Option PairedDaemon) (daemonKey : PublicKey)
    (shown : Nat → Option Sas) (origin : Nat → Option Nat) (phone : Inner) : Prop where
  established : ∀ n, shown n ≠ none → n < phone.established
  pairing : ∀ pairing, phone.pairing = some pairing → Known daemonKey shown pairing
  confirming : ∀ p, Confirming Agreed daemonKey shown (origin p) (phone.task p)
  heard : ∀ n, shown n ≠ none → Heard (Good (Agreed n)) (phone.sessions n)
  records : ∀ daemon, phone.Holds daemon → Recorded Agreed stored daemonKey daemon

theorem Good.mono {agreed agreed' : Prop} {response : Response} (h : Good agreed response)
    (himp : agreed → agreed') : Good agreed' response :=
  h.imp id himp

theorem Known.mono {pairing : Pairing} (h : Known daemonKey shown pairing)
    (hshown : ∀ n, shown n ≠ none → shown' n ≠ none) : Known daemonKey shown' pairing :=
  ⟨h.1, hshown pairing.live h.2⟩

theorem Confirming.mono (h : Confirming Agreed daemonKey shown from' task)
    (hagreed : ∀ n, Agreed n → Agreed' n) (hshown : ∀ n, shown n ≠ none → shown' n ≠ none) :
    Confirming Agreed' daemonKey shown' from' task := by
  cases task with
  | registering pairing r => exact Known.mono h hshown
  | naming pairing device r => exact ⟨Known.mono h.1 hshown, h.2.1, hagreed pairing.live h.2.2⟩
  | saving daemon =>
      obtain ⟨hkey, n, hfrom, hn⟩ := h
      exact ⟨hkey, n, hfrom, hagreed n hn⟩
  | _ => trivial

theorem Recorded.mono {daemon : PairedDaemon} (h : Recorded Agreed stored daemonKey daemon)
    (hagreed : ∀ n, Agreed n → Agreed' n) : Recorded Agreed' stored daemonKey daemon := by
  rcases h with hold | ⟨hkey, n, hn⟩
  · exact .inl hold
  · exact .inr ⟨hkey, n, hagreed n hn⟩

/-- More agreement does no harm. -/
theorem PhoneSound.mono (h : PhoneSound Agreed stored daemonKey shown origin phone)
    (hagreed : ∀ n, Agreed n → Agreed' n) : PhoneSound Agreed' stored daemonKey shown origin phone where
  established := h.established
  pairing := h.pairing
  confirming p := (h.confirming p).mono hagreed fun _ hn => hn
  heard n hn := (h.heard n hn).mono fun _ hgood => hgood.mono (hagreed n)
  records daemon hholds := (h.records daemon hholds).mono hagreed

/-- A task that gives up. -/
theorem PhoneSound.goto_idle (h : PhoneSound Agreed stored daemonKey shown origin phone) (p : Nat) :
    PhoneSound Agreed stored daemonKey shown origin (phone.goto p .idle) where
  established := h.established
  pairing := h.pairing
  confirming q := by
    rw [Inner.goto_task]
    split_ifs
    · trivial
    · exact h.confirming q
  heard := h.heard
  records daemon hholds := by
    rcases hholds with hstored | hdaemon | ⟨q, hq⟩
    · exact h.records daemon (.inl hstored)
    · exact h.records daemon (.inr (.inl hdaemon))
    · rw [Inner.goto_task] at hq
      split_ifs at hq
      · cases hq
      · exact h.records daemon (.inr (.inr ⟨q, hq⟩))

/-- Only a task that registers gets another origin. -/
theorem registeredOn_eq {p : Nat} (hp : ∀ pairing r, phone.task p ≠ .registering pairing r) :
    registeredOn phone origin event p = origin p := by
  unfold registeredOn
  split
  · next pairing r htask => exact absurd htask (hp pairing r)
  · rfl

theorem registeredOn_session (n : Nat) (e : Client.Session.Event) :
    registeredOn phone origin (.session n e) = origin := by
  funext p
  unfold registeredOn
  split
  · next heq _ => cases heq
  · rfl

/-- Records that differ in their time only are of one daemon. -/
theorem noiseKey_of_untimed {a b : PairedDaemon} (h : a.untimed = b.untimed) :
    a.noiseKey = b.noiseKey := by
  have hkey : a.untimed.noiseKey = b.untimed.noiseKey := congrArg PairedDaemon.noiseKey h
  exact hkey

/-- **A record that a step leaves** was there, or there is agreement on it. -/
theorem PhoneSound.records_step (h : PhoneSound Agreed stored daemonKey shown origin phone)
    (hstep : phone.step event = some (phone', out)) (daemon : PairedDaemon)
    (hholds : phone'.Holds daemon) : Recorded Agreed stored daemonKey daemon := by
  rcases hholds with hstored | hdaemon | ⟨p, hp⟩
  · exact h.records daemon (Inner.holds_of_record hstep (.inl hstored))
  · exact h.records daemon (Inner.holds_of_record hstep (.inr hdaemon))
  · rcases Inner.holds_step hstep hp with ⟨daemon', hsame, hbefore⟩ |
      ⟨pairing, device, r, hnaming, hkey⟩
    · rcases h.records daemon' hbefore with ⟨old, hold, huntimed⟩ | ⟨hkey, hagreed⟩
      · exact .inl ⟨old, hold, huntimed.trans hsame⟩
      · exact .inr ⟨(noiseKey_of_untimed hsame).symm.trans hkey, hagreed⟩
    · have hconfirming := h.confirming p
      rw [hnaming] at hconfirming
      exact .inr ⟨hkey.trans hconfirming.1.1, pairing.live, hconfirming.2.2⟩

/-- **A step of the phone** that is no handshake, and hears what is good. -/
theorem PhoneSound.step (h : PhoneSound Agreed stored daemonKey shown origin phone)
    (hstep : phone.step event = some (phone', out))
    (hscan : ∀ p peer nodeId addrHints, event ≠ .scanned p peer nodeId addrHints)
    (hgood : ∀ n response, event = .session n (.receive (some (.response response))) →
      shown n ≠ none → Good (Agreed n) response) :
    PhoneSound Agreed stored daemonKey shown (registeredOn phone origin event) phone' where
  established n hn := (h.established n hn).trans_le (Inner.established_step hstep)
  pairing pairing hpairing := by
    rcases Inner.pairing_step hstep hpairing with hbefore | ⟨q, peer, nodeId, addrHints, hscanned⟩
    · exact h.pairing pairing hbefore
    · exact absurd hscanned (hscan q peer nodeId addrHints)
  confirming p := by
    have hbefore := h.confirming p
    cases htask : phone'.task p with
    | registering pairing r =>
        rcases Inner.registering_step hstep htask with hsame | hpairing
        · rw [hsame] at hbefore
          exact hbefore
        · exact h.pairing pairing hpairing
    | naming pairing device r =>
        rcases Inner.naming_step hstep htask with hsame | ⟨rfl, r', result, hregistering, hok⟩
        · rw [hsame] at hbefore
          rw [registeredOn_eq (hsame ▸ fun _ _ => nofun)]
          exact hbefore
        · rw [hregistering] at hbefore
          obtain ⟨response, hresponse, hbody⟩ := (h.heard pairing.live hbefore.2).ok hok
          refine ⟨hbefore, ?_, ?_⟩
          · simp [registeredOn, hregistering]
          · rcases hresponse with ⟨error, herror⟩ | hagreed
            · rw [herror] at hbody
              cases hbody
            · exact hagreed
    | saving daemon =>
        rcases Inner.saving_step hstep htask with hsame | ⟨pairing, device, r, hnaming, hkey⟩
        · rw [hsame] at hbefore
          rw [registeredOn_eq (hsame ▸ fun _ _ => nofun)]
          exact hbefore
        · rw [hnaming] at hbefore
          obtain ⟨hknown, horigin, hagreed⟩ := hbefore
          rw [registeredOn_eq (hnaming ▸ fun _ _ => nofun)]
          exact ⟨hkey.trans hknown.1, pairing.live, horigin, hagreed⟩
    | _ => trivial
  heard n hn := (h.heard n hn).step (h.established n hn) hstep
    fun response hevent => hgood n response hevent hn
  records daemon hholds := h.records_step hstep daemon hholds

/-- What is shown stays shown. -/
theorem shown_update {sas : Sas} {n m : Nat} (h : shown m ≠ none) :
    Function.update shown n (some sas) m ≠ none := by
  rw [Function.update_apply]
  split_ifs
  · exact Option.some_ne_none sas
  · exact h

/-- **A handshake** with the daemon. -/
theorem PhoneSound.handshake {p : Nat} {nodeId : PublicKey} {addrHints : List String} {sas : Sas}
    (h : PhoneSound Agreed stored daemonKey shown origin phone)
    (hstep : phone.step (.scanned p daemonKey nodeId addrHints) = some (phone', out)) :
    PhoneSound Agreed stored daemonKey (Function.update shown phone.established (some sas)) origin
      phone' := by
  have hrecords := h.records_step hstep
  dsimp only [Inner.step] at hstep
  split at hstep
  · cases hstep
    refine ⟨fun n hn => ?_, fun pairing hpairing => ?_, fun q => ?_, fun n hn => ?_, hrecords⟩
    · change n < phone.established + 1
      by_cases hnew : n = phone.established
      · omega
      · rw [Function.update_of_ne hnew] at hn
        have hold := h.established n hn
        omega
    · cases hpairing
      refine ⟨rfl, ?_⟩
      rw [Function.update_self]
      exact Option.some_ne_none sas
    · rw [Inner.goto_task]
      split_ifs
      · trivial
      · exact (h.confirming q).mono (fun _ hn => hn) fun _ hn => shown_update hn
    · rw [Inner.goto_sessions]
      change Heard _ (phone.establish.sessions n)
      rw [Inner.establish_sessions]
      split_ifs with hnew
      · exact Client.heard_start
      · rw [Function.update_of_ne hnew] at hn
        exact h.heard n hn
  · cases hstep

end Phone

/-! ### Both -/

section Both

variable {σ : Type} {services : Services σ} {codec : Codec} {config : Daemon}
  {phoneKey daemonKey : PublicKey} {s t : Both σ} {event : Event} {noted : Noted}
  {trace : List (Event × Noted)} {stored : Option PairedDaemon}

/-- **Agreement** on a connection: both sides derived the same digits, and the
daemon recorded the phone. -/
def Agreed (phoneKey : PublicKey) (trace : List (Event × Noted)) (s : Both σ) (n : Nat) : Prop :=
  (∃ sas, s.shown n = some sas ∧ s.expected n = some sas) ∧
    ∃ entry ∈ trace, Commits phoneKey entry.2.committed

/-- A registration that the phone asks for has the digits that it derived. -/
def Asks (shown : Option Sas) (request : Request) : Prop :=
  request.method = Method.sysRegister → ∃ name sas, shown = some sas ∧
    request.params = MethodCbor.registerParams ⟨name, none, sas.digits⟩

/-- A connection of the phone: it waits for the digits that the daemon derived, or
there is agreement. -/
def Serves (config : Daemon) (phoneKey : PublicKey) (expected : Option Sas) (agreed : Prop)
    (session : Server.Session) : Prop :=
  (∃ sas, expected = some sas ∧ session.router = .forPairing config phoneKey sas.digits) ∨
    session.router.state = .established ∧ agreed

/-- **What holds of both** in every state. -/
structure Sound (stored : Option PairedDaemon) (config : Daemon) (phoneKey daemonKey : PublicKey)
    (trace : List (Event × Noted)) (s : Both σ) : Prop where
  phone : PhoneSound (Agreed phoneKey trace s) stored daemonKey s.shown s.origin s.phone
  fresh : ∀ n, s.shown n = none → s.toDaemon n = [] ∧ s.toPhone n = []
  asks : ∀ n, ∀ request ∈ s.toDaemon n, Asks (s.shown n) request
  answers : ∀ n, ∀ response ∈ s.toPhone n, Good (Agreed phoneKey trace s n) response
  serves : ∀ n session keysMatch, s.serving = some n → s.loop.phase = .serving session keysMatch →
    Serves config phoneKey (s.expected n) (Agreed phoneKey trace s n) session

/-- Digits stay what they are. -/
def Keeps (f g : Nat → Option Sas) : Prop := ∀ n sas, f n = some sas → g n = some sas

theorem keeps_refl (f : Nat → Option Sas) : Keeps f f := fun _ _ h => h

theorem keeps_update {f : Nat → Option Sas} {n : Nat} (hn : f n = none) (sas : Sas) :
    Keeps f (Function.update f n (some sas)) := by
  intro m sas' hm
  have hne : m ≠ n := by
    intro hmn
    rw [hmn, hn] at hm
    cases hm
  rw [Function.update_of_ne hne]
  exact hm

theorem Agreed.append {n : Nat} (h : Agreed phoneKey trace s n) (entry : Event × Noted)
    (hshown : Keeps s.shown t.shown) (hexpected : Keeps s.expected t.expected) :
    Agreed phoneKey (trace ++ [entry]) t n := by
  obtain ⟨⟨sas, hphone, hdaemon⟩, before, hbefore, hcommits⟩ := h
  exact ⟨⟨sas, hshown n sas hphone, hexpected n sas hdaemon⟩, before,
    List.mem_append_left _ hbefore, hcommits⟩

theorem Asks.mono {shown shown' : Option Sas} {request : Request} (h : Asks shown request)
    (himp : ∀ sas, shown = some sas → shown' = some sas) : Asks shown' request := by
  intro hmethod
  obtain ⟨name, sas, hshown, hparams⟩ := h hmethod
  exact ⟨name, sas, himp sas hshown, hparams⟩

theorem Serves.mono {expected expected' : Option Sas} {agreed agreed' : Prop}
    {session : Server.Session} (h : Serves config phoneKey expected agreed session)
    (hexpected : ∀ sas, expected = some sas → expected' = some sas) (hagreed : agreed → agreed') :
    Serves config phoneKey expected' agreed' session := by
  rcases h with ⟨sas, hsas, hrouter⟩ | ⟨hstate, h⟩
  · exact .inl ⟨sas, hexpected sas hsas, hrouter⟩
  · exact .inr ⟨hstate, hagreed h⟩

/-- A step that changes the phone alone. -/
theorem Sound.setPhone (h : Sound stored config phoneKey daemonKey trace s) (entry : Event × Noted)
    {phone : Inner} {origin : Nat → Option Nat}
    (hphone : PhoneSound (Agreed phoneKey trace s) stored daemonKey s.shown origin phone) :
    Sound stored config phoneKey daemonKey (trace ++ [entry]) { s with phone, origin } where
  phone := hphone.mono fun _ hn => hn.append entry (keeps_refl _) (keeps_refl _)
  fresh := h.fresh
  asks := h.asks
  answers n response hmem := (h.answers n response hmem).mono fun hn => hn.append entry (keeps_refl _) (keeps_refl _)
  serves n session keysMatch hserving hphase :=
    (h.serves n session keysMatch hserving hphase).mono (fun _ hsas => hsas)
      fun hn => hn.append entry (keeps_refl _) (keeps_refl _)

/-- A step that changes the loop alone, or the connection that it serves. -/
theorem Sound.setLoop (h : Sound stored config phoneKey daemonKey trace s) (entry : Event × Noted)
    {loop : PairingLoop σ} {serving : Option Nat}
    (hserves : ∀ n session keysMatch, serving = some n →
      loop.phase = .serving session keysMatch →
        Serves config phoneKey (s.expected n) (Agreed phoneKey (trace ++ [entry]) s n) session) :
    Sound stored config phoneKey daemonKey (trace ++ [entry]) { s with loop, serving } where
  phone := h.phone.mono fun _ hn => hn.append entry (keeps_refl _) (keeps_refl _)
  fresh := h.fresh
  asks := h.asks
  answers n response hmem := (h.answers n response hmem).mono fun hn => hn.append entry (keeps_refl _) (keeps_refl _)
  serves := hserves

/-- What is on the way may be replaced, on the connections that have digits. -/
theorem Sound.setQueues (h : Sound stored config phoneKey daemonKey trace s)
    {toDaemon : Nat → List Request} {toPhone : Nat → List Response}
    (hdaemon : ∀ n, toDaemon n = s.toDaemon n ∨
      s.shown n ≠ none ∧ ∀ request ∈ toDaemon n, Asks (s.shown n) request)
    (hphone : ∀ n, toPhone n = s.toPhone n ∨
      s.shown n ≠ none ∧ ∀ response ∈ toPhone n, Good (Agreed phoneKey trace s n) response) :
    Sound stored config phoneKey daemonKey trace { s with toDaemon, toPhone } where
  phone := h.phone
  fresh n hn := by
    obtain ⟨hrequests, hresponses⟩ := h.fresh n hn
    rcases hdaemon n with hd | ⟨hshown, -⟩
    · rcases hphone n with hp | ⟨hshown, -⟩
      · exact ⟨hd.trans hrequests, hp.trans hresponses⟩
      · exact absurd hn hshown
    · exact absurd hn hshown
  asks n request hmem := by
    rcases hdaemon n with hsame | ⟨-, hasks⟩
    · exact h.asks n request (hsame ▸ hmem)
    · exact hasks request hmem
  answers n response hmem := by
    rcases hphone n with hsame | ⟨-, hgood⟩
    · exact h.answers n response (hsame ▸ hmem)
    · exact hgood response hmem
  serves := h.serves

/-- One queue changes, and what holds of it. -/
theorem update_or {α : Type} {P : Nat → α → Prop} {f : Nat → α} {n : Nat} {x : α} (hx : P n x)
    (m : Nat) : Function.update f n x m = f m ∨ P m (Function.update f n x m) := by
  by_cases hmn : m = n
  · subst hmn
    rw [Function.update_self]
    exact .inr hx
  · exact .inl (Function.update_of_ne hmn ..)

/-- Where something is on the way, there are digits. -/
theorem Sound.shown_of_toDaemon (h : Sound stored config phoneKey daemonKey trace s) {n : Nat}
    {request : Request} {rest : List Request} (hqueue : s.toDaemon n = request :: rest) :
    s.shown n ≠ none := by
  intro hn
  rw [(h.fresh n hn).1] at hqueue
  cases hqueue

theorem Sound.shown_of_toPhone (h : Sound stored config phoneKey daemonKey trace s) {n : Nat}
    {response : Response} {rest : List Response} (hqueue : s.toPhone n = response :: rest) :
    s.shown n ≠ none := by
  intro hn
  rw [(h.fresh n hn).2] at hqueue
  cases hqueue

/-- Requests that are asked for with other digits are none. -/
theorem asks_of_requestOf {shown : Nat → Option Sas} {deviceName : String} {task : Task}
    {n r : Nat} {method : String} {params : List UInt8} {id : UInt64}
    (h : requestOf shown deviceName task = some (n, r, method, params)) :
    Asks (shown n) ⟨id, method, params⟩ := by
  intro hmethod
  cases task with
  | registering pairing request =>
      obtain ⟨sas, hsas, heq⟩ := Option.map_eq_some_iff.mp h
      cases heq
      exact ⟨deviceName, sas, hsas, rfl⟩
  | naming pairing device request =>
      cases h
      have hother : Method.sysInfo ≠ Method.sysRegister := by decide
      exact absurd hmethod hother
  | _ => cases h

/-- The requests of a task that pairs go where there are digits. -/
theorem PhoneSound.shown_of_requestOf {Agreed : Nat → Prop} {shown : Nat → Option Sas}
    {origin : Nat → Option Nat} {phone : Inner} {deviceName : String} {p n r : Nat}
    {method : String} {params : List UInt8}
    (h : PhoneSound Agreed stored daemonKey shown origin phone)
    (hrequest : requestOf shown deviceName (phone.task p) = some (n, r, method, params)) :
    shown n ≠ none := by
  have hconfirming := h.confirming p
  cases htask : phone.task p with
  | registering pairing request =>
      rw [htask] at hrequest hconfirming
      obtain ⟨sas, -, heq⟩ := Option.map_eq_some_iff.mp hrequest
      cases heq
      exact hconfirming.2
  | naming pairing device request =>
      rw [htask] at hrequest hconfirming
      cases hrequest
      exact hconfirming.1.2
  | _ =>
      rw [htask] at hrequest
      cases hrequest

/-- A request is on its way. -/
theorem Sound.ask (h : Sound stored config phoneKey daemonKey trace s) {n : Nat} {request : Request}
    (hshown : s.shown n ≠ none) (hasks : Asks (s.shown n) request) :
    Sound stored config phoneKey daemonKey trace
      { s with toDaemon := Function.update s.toDaemon n (s.toDaemon n ++ [request]) } := by
  refine h.setQueues (fun m => update_or (P := fun m queue => s.shown m ≠ none ∧
    ∀ request ∈ queue, Asks (s.shown m) request) ⟨hshown, fun request' hmem => ?_⟩ m)
    fun _ => .inl rfl
  rcases List.mem_append.mp hmem with hmem | hmem
  · exact h.asks n request' hmem
  · rw [List.mem_singleton.mp hmem]
    exact hasks

/-- A response has arrived. -/
theorem Sound.arrived (h : Sound stored config phoneKey daemonKey trace s) {n : Nat} {response : Response}
    {rest : List Response} (hqueue : s.toPhone n = response :: rest) :
    Sound stored config phoneKey daemonKey trace
      { s with toPhone := Function.update s.toPhone n rest } := by
  refine h.setQueues (fun _ => .inl rfl) fun m => update_or (P := fun m queue =>
    s.shown m ≠ none ∧ ∀ response ∈ queue, Good (Agreed phoneKey trace s m) response)
    ⟨h.shown_of_toPhone hqueue, fun response' hmem => ?_⟩ m
  exact h.answers n response' (hqueue ▸ List.mem_cons_of_mem response hmem)

/-! ### Steps -/

/-- A step of the phone that hears nothing on connections with digits. -/
theorem Sound.stepPhone (h : Sound stored config phoneKey daemonKey trace s) (event : Event)
    {e : Inner.Event} (hstep : s.stepPhone e = some (t, noted))
    (hscan : ∀ p peer nodeId addrHints, e ≠ .scanned p peer nodeId addrHints)
    (hears : ∀ n response, e = .session n (.receive (some (.response response))) →
      s.shown n = none) :
    Sound stored config phoneKey daemonKey (trace ++ [(event, noted)]) t := by
  unfold Both.stepPhone at hstep
  split at hstep
  · cases hstep
  · next phone out htaken =>
      cases hstep
      exact h.setPhone _ (h.phone.step htaken hscan fun n response he hn =>
        absurd (hears n response he) hn)

/-- **A handshake**: nothing is on the way yet. -/
theorem Sound.handshake (h : Sound stored config phoneKey daemonKey trace s) (entry : Event × Noted)
    {p : Nat} {nodeId : PublicKey} {addrHints : List String} {sas : Sas} {phone : Inner}
    {out : Option Client.Returned}
    (hstep : s.phone.step (.scanned p daemonKey nodeId addrHints) = some (phone, out)) :
    Sound stored config phoneKey daemonKey (trace ++ [entry]) { s with
      phone
      shown := Function.update s.shown s.phone.established (some sas) } := by
  have hnew : s.shown s.phone.established = none := by
    by_contra hshown
    exact Nat.lt_irrefl _ (h.phone.established _ hshown)
  have hkeeps : Keeps s.shown (Function.update s.shown s.phone.established (some sas)) :=
    keeps_update hnew sas
  refine ⟨(h.phone.handshake hstep).mono fun n hn => hn.append entry hkeeps (keeps_refl _),
    fun n hn => ?_, fun n request hmem => (h.asks n request hmem).mono (hkeeps n),
    fun n response hmem => (h.answers n response hmem).mono fun hn =>
      hn.append entry hkeeps (keeps_refl _),
    fun n session keysMatch hserving hphase => (h.serves n session keysMatch hserving hphase).mono
      (fun _ hsas => hsas) fun hn => hn.append entry hkeeps (keeps_refl _)⟩
  refine h.fresh n ?_
  cases hshown : s.shown n with
  | none => rfl
  | some sas' =>
      have hkept := hkeeps n sas' hshown
      have hnone : Function.update s.shown s.phone.established (some sas) n = none := hn
      rw [hnone] at hkept
      cases hkept

/-- A connection of the phone is accepted. -/
theorem Sound.accept (h : Sound stored config phoneKey daemonKey trace s) (entry : Event × Noted)
    {n : Nat} {sas : Sas} (hexpected : s.expected n = none) {loop : PairingLoop σ}
    (hphase : ∀ session keysMatch, loop.phase = .serving session keysMatch →
      session.router = .forPairing config phoneKey sas.digits) :
    Sound stored config phoneKey daemonKey (trace ++ [entry]) { s with
      loop
      serving := some n
      expected := Function.update s.expected n (some sas) } := by
  have hkeeps := keeps_update hexpected sas
  refine ⟨h.phone.mono fun m hm => hm.append entry (keeps_refl _) hkeeps, h.fresh, h.asks,
    fun m response hmem => (h.answers m response hmem).mono fun hm =>
      hm.append entry (keeps_refl _) hkeeps, fun m session keysMatch hserving hserves => ?_⟩
  cases hserving
  exact .inl ⟨sas, Function.update_self .., hphase session keysMatch hserves⟩

/-- What is shown is all digits. -/
theorem asciiDigits_digits (sas : Sas) : asciiDigits sas.digits = sas.digits := by
  have hall : ∀ c ∈ sas.digits.toList, ('0' ≤ c && c ≤ '9') = true := by
    intro c hc
    obtain ⟨hlow, hhigh⟩ := sas.isDigit_of_mem c hc
    rw [Bool.and_eq_true]
    exact ⟨decide_eq_true hlow, decide_eq_true hhigh⟩
  rw [asciiDigits, List.filter_eq_self.mpr hall, String.ofList_toList]

/-- What a phone wrote about itself is what is read, if anything is. -/
def ReadsBack (codec : Codec) : Prop :=
  ∀ params decoded, codec.register (MethodCbor.registerParams params) = some decoded →
    decoded = params

/-- **A request of the phone**: refused, or the registration that there is
agreement on, or one that comes after it. -/
theorem serve_cases (hencode : Router.EncodesRegistration codec) (hreads : ReadsBack codec)
    {n : Nat} {session : Server.Session} {request : Request} {wallMs : Int}
    {storeFails sendFails : Bool}
    (hserves : Serves config phoneKey (s.expected n) (Agreed phoneKey trace s n) session)
    (hasks : Asks (s.shown n) request) (entry : Event × Noted) {loop : PairingLoop σ} {seen : Seen}
    (hreceive : s.loop.receive services codec session (.request request) wallMs storeFails
      sendFails = (loop, seen)) (hentry : entry.2.committed = committedIn loop.devices seen) :
    (∀ response, seen.sent = some (.response response) →
      Good (Agreed phoneKey (trace ++ [entry]) s n) response) ∧
    ∀ session' keysMatch, loop.phase = .serving session' keysMatch →
      Serves config phoneKey (s.expected n) (Agreed phoneKey (trace ++ [entry]) s n) session' := by
  rcases hserves with ⟨sas, hexpected, hrouter⟩ | ⟨hstate, hagreed⟩
  · have hpairing := @PairingLoop.receive_pairing σ services codec config s.loop phoneKey sas.digits
      hencode session hrouter request wallMs storeFails sendFails
    dsimp only at hpairing
    rw [hreceive] at hpairing
    rcases hpairing with ⟨hrefused, hsame⟩ | ⟨⟨hmethod, params, hparams, hdigits⟩, hcommits, hnext⟩
    · exact ⟨fun response hsent => .inl (hrefused response hsent), fun session' keysMatch hphase =>
        .inl ⟨sas, hexpected, hsame session' keysMatch hphase⟩⟩
    · obtain ⟨name, sas', hshown, hwritten⟩ := hasks hmethod
      rw [hwritten] at hparams
      -- The digits that were read are those that the phone derived.
      have hread : params = ⟨name, none, sas'.digits⟩ := hreads _ _ hparams
      have hsame : sas'.digits = sas.digits := by
        rw [hread, asciiDigits_digits] at hdigits
        exact hdigits
      obtain rfl := Sas.digits_injective hsame
      have hagreed : Agreed phoneKey (trace ++ [entry]) s n :=
        ⟨⟨sas', hshown, hexpected⟩, entry, List.mem_append_right _ (List.mem_singleton_self entry),
          hentry ▸ hcommits⟩
      exact ⟨fun response _ => .inr hagreed, fun session' keysMatch hphase =>
        .inr ⟨hnext session' keysMatch hphase, hagreed⟩⟩
  · have hagreed : Agreed phoneKey (trace ++ [entry]) s n :=
      hagreed.append entry (keeps_refl _) (keeps_refl _)
    refine ⟨fun response _ => .inr hagreed, fun session' keysMatch hphase => .inr ⟨?_, hagreed⟩⟩
    obtain ⟨rfl, -⟩ := Prod.ext_iff.mp hreceive
    exact PairingLoop.receive_established hstate hphase

theorem sent_of_answerOf {request : Request} {seen : Seen} {answer : Request × Response}
    (h : answerOf request seen = some answer) :
    seen.sent = some (.response answer.2) ∧ answer.1 = request := by
  unfold answerOf at h
  split at h
  · next response hsent =>
      cases h
      exact ⟨hsent, rfl⟩
  · cases h

/-- **The loop serves a request of the phone.** -/
theorem Sound.serve (hencode : Router.EncodesRegistration codec) (hreads : ReadsBack codec)
    (h : Sound stored config phoneKey daemonKey trace s) (event : Event) {n : Nat} {request : Request}
    {rest : List Request} {wallMs : Int} {storeFails sendFails : Bool} {loop : PairingLoop σ}
    {seen : Seen} (hserving : s.serving = some n) (hqueue : s.toDaemon n = request :: rest)
    (hstep : s.loop.step services codec config
      (.received (some (.request request)) wallMs storeFails sendFails) = some (loop, seen)) :
    Sound stored config phoneKey daemonKey
      (trace ++ [(event, ⟨committedIn loop.devices seen, answerOf request seen⟩)])
      { s with
        loop
        toDaemon := Function.update s.toDaemon n rest
        toPhone := Function.update s.toPhone n
          (s.toPhone n ++ (answerOf request seen).toList.map Prod.snd) } := by
  dsimp only [PairingLoop.step] at hstep
  split at hstep
  · next session hphase =>
      have hshown := h.shown_of_toDaemon hqueue
      have hasks := h.asks n request (hqueue ▸ List.mem_cons_self)
      obtain ⟨hgood, hnext⟩ := serve_cases hencode hreads (h.serves n session true hserving hphase)
        hasks (event, ⟨committedIn loop.devices seen, answerOf request seen⟩)
        (Option.some.inj hstep) rfl
      have hloop := h.setLoop (event, ⟨committedIn loop.devices seen, answerOf request seen⟩)
        (fun m session' keysMatch hm hserves => by
          have hsame : n = m := Option.some.inj (hserving.symm.trans hm)
          exact hsame ▸ hnext session' keysMatch hserves)
      refine hloop.setQueues
        (fun m => update_or (P := fun m queue => s.shown m ≠ none ∧
          ∀ request ∈ queue, Asks (s.shown m) request) ⟨hshown, fun request' hmem => ?_⟩ m)
        (fun m => update_or (P := fun m queue => s.shown m ≠ none ∧
          ∀ response ∈ queue, Good (Agreed phoneKey _ s m) response)
          ⟨hshown, fun response hmem => ?_⟩ m)
      · exact h.asks n request' (hqueue ▸ List.mem_cons_of_mem request hmem)
      · rcases List.mem_append.mp hmem with hmem | hmem
        · exact hloop.answers n response hmem
        · obtain ⟨answer, hanswer, rfl⟩ := List.mem_map.mp hmem
          exact hgood answer.2 (sent_of_answerOf (Option.mem_toList.mp hanswer)).1
  · cases hstep

theorem sound_start {now window : Nat} {devices : Devices}
    {w : World σ} :
    Sound stored config phoneKey daemonKey [] (Both.start stored now window devices w : Both σ) where
  phone := ⟨fun _ hn => absurd rfl hn, fun _ hpairing => (nomatch hpairing), fun _ => trivial,
    fun _ hn => absurd rfl hn, fun daemon hholds => by
      rcases hholds with hstored | hdaemon | ⟨p, hp⟩
      · exact .inl ⟨daemon, hstored, rfl⟩
      · exact .inl ⟨daemon, hdaemon, rfl⟩
      · cases hp⟩
  fresh _ _ := ⟨rfl, rfl⟩
  asks _ _ hmem := absurd hmem List.not_mem_nil
  answers _ _ hmem := absurd hmem List.not_mem_nil
  serves _ _ _ hserving := nomatch hserving

/-- A step of the loop that is none of the connection's of the phone. -/
theorem Sound.stepLoop (h : Sound stored config phoneKey daemonKey trace s) (entry : Event × Noted)
    {e : PairingEvent} {seen : Seen} (hstep : s.stepLoop services codec config e = some (t, seen))
    (haccepted : ∀ peer sas keysMatch, e ≠ .accepted peer sas keysMatch)
    (hreceived : ∀ request wallMs storeFails sendFails,
      e = .received (some (.request request)) wallMs storeFails sendFails → s.serving = none) :
    Sound stored config phoneKey daemonKey (trace ++ [entry]) t := by
  unfold Both.stepLoop at hstep
  split at hstep
  · cases hstep
  · next loop seen' htaken =>
      cases hstep
      refine h.setLoop entry fun n session keysMatch hserving hphase => ?_
      rcases PairingLoop.phase_step htaken hphase with hbefore | ⟨peer, sas, heq, -⟩ |
        ⟨request, wallMs, storeFails, sendFails, heq⟩
      · exact (h.serves n session keysMatch hserving hbefore).mono (fun _ hsas => hsas)
          fun hn => hn.append entry (keeps_refl _) (keeps_refl _)
      · exact absurd heq (haccepted peer sas keysMatch)
      · have hnone := hreceived request wallMs storeFails sendFails heq
        rw [hnone] at hserving
        cases hserving

/-- **Every step keeps what holds of both.** -/
theorem Sound.step (hencode : Router.EncodesRegistration codec) (hreads : ReadsBack codec)
    (h : Sound stored config phoneKey daemonKey trace s)
    (hstep : s.step services codec config phoneKey daemonKey event = some (t, noted)) :
    Sound stored config phoneKey daemonKey (trace ++ [(event, noted)]) t := by
  cases event with
  | phone e =>
      dsimp only [Both.step] at hstep
      split at hstep
      · cases hstep
      · split_ifs at hstep
        exact h.stepPhone _ hstep (fun _ _ _ _ => nofun) (fun _ _ => nofun)
      · split_ifs at hstep with hshown
        exact h.stepPhone _ hstep (fun _ _ _ _ => nofun) fun n response heq => by
          cases heq
          exact hshown
      · next hscanned hsent hheard =>
          exact h.stepPhone _ hstep hscanned fun n response heq => absurd heq (hheard n response)
  | handshake p nodeId addrHints sas =>
      dsimp only [Both.step] at hstep
      split at hstep
      · cases hstep
      · next phone out htaken =>
          cases hstep
          exact h.handshake _ htaken
  | send p deviceName fails =>
      dsimp only [Both.step] at hstep
      split at hstep
      · cases hstep
      · next n r method params hrequest =>
          split at hstep
          · cases hstep
          · next phone out htaken =>
              cases hstep
              have hphone := h.phone.step htaken (fun _ _ _ _ => nofun) fun m response heq => by
                cases fails <;> cases heq
              rw [registeredOn_session] at hphone
              exact (h.setPhone _ hphone).ask
                (h.phone.shown_of_requestOf hrequest) (asks_of_requestOf hrequest)
  | arrive n =>
      dsimp only [Both.step] at hstep
      split at hstep
      · cases hstep
      · next response rest hqueue =>
          split at hstep
          · cases hstep
          · next phone out htaken =>
              cases hstep
              have hphone := h.phone.step htaken (fun _ _ _ _ => nofun) fun m response' heq => by
                cases heq
                exact fun _ => h.answers n response (hqueue ▸ List.mem_cons_self)
              rw [registeredOn_session] at hphone
              exact (h.setPhone _ hphone).arrived hqueue
  | saveFails p =>
      dsimp only [Both.step] at hstep
      split at hstep
      · cases hstep
        exact h.setPhone _ (h.phone.goto_idle p)
      · cases hstep
  | touchFails p =>
      dsimp only [Both.step] at hstep
      split at hstep
      · cases hstep
        exact h.setPhone _ (h.phone.goto_idle p)
      · cases hstep
  | loop e =>
      dsimp only [Both.step] at hstep
      split at hstep
      · cases hstep
      · split_ifs at hstep with hserving
        obtain ⟨⟨loop, seen⟩, htaken, heq⟩ := Option.map_eq_some_iff.mp hstep
        cases heq
        exact h.stepLoop _ htaken (fun _ _ _ => nofun) fun _ _ _ _ _ => hserving
      · next haccepted hreceived =>
          obtain ⟨⟨loop, seen⟩, htaken, heq⟩ := Option.map_eq_some_iff.mp hstep
          cases heq
          exact h.stepLoop _ htaken haccepted fun request wallMs storeFails sendFails heq =>
            absurd heq (hreceived request wallMs storeFails sendFails)
  | accept peer sas keysMatch =>
      obtain ⟨⟨u, seen⟩, htaken, heq⟩ := Option.map_eq_some_iff.mp hstep
      cases heq
      unfold Both.stepLoop at htaken
      split at htaken
      · cases htaken
      · cases htaken
        exact h.setLoop _ fun _ _ _ hserving => nomatch hserving
  | acceptPhone n sas =>
      dsimp only [Both.step] at hstep
      split_ifs at hstep with hexpected
      obtain ⟨⟨u, seen⟩, htaken, heq⟩ := Option.map_eq_some_iff.mp hstep
      cases heq
      unfold Both.stepLoop at htaken
      split at htaken
      · cases htaken
      · next loop seen' hloop =>
          cases htaken
          refine h.accept _ hexpected fun session keysMatch hphase => ?_
          dsimp only [PairingLoop.step] at hloop
          split at hloop
          · cases hloop
            cases hphase
            rfl
          · cases hloop
  | serve wallMs storeFails sendFails =>
      dsimp only [Both.step] at hstep
      split at hstep
      · cases hstep
      · next n hserving =>
          split at hstep
          · cases hstep
          · next request rest hqueue =>
              obtain ⟨⟨u, seen⟩, htaken, heq⟩ := Option.map_eq_some_iff.mp hstep
              cases heq
              unfold Both.stepLoop at htaken
              split at htaken
              · cases htaken
              · next loop seen' hloop =>
                  cases htaken
                  exact h.serve hencode hreads _ hserving hqueue hloop

/-- **What holds of both in every run.** -/
theorem run_sound {now window : Nat} {devices : Devices} {w : World σ}
    (hencode : Router.EncodesRegistration codec) (hreads : ReadsBack codec)
    (hrun : Run (Both.step services codec config phoneKey daemonKey) unguarded
      (Both.start stored now window devices w) trace s) :
    Sound stored config phoneKey daemonKey trace s :=
  hrun.invariant (Sound stored config phoneKey daemonKey) sound_start
    fun _ _ _ _ _ h _ hstep => h.step hencode hreads hstep

end Both

end Agreement
