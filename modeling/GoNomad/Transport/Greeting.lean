import GoNomad.Transport.Handshake

/-!
# Both sides of a handshake

An initiator and a responder on the two directions of a stream, each of which carries
bytes in order and in any pieces.  Where nothing fails and the library's messages fit
each other, both sides finish, each with the other's key, and what either says next
is left to the session.

* `stops_at` — a read stops where the message that was sent does;
* `Met.step` — **the invariant**, and what each step leaves to be done;
* `Met.possible` — that something can be done until both sides have finished;
* `both_finish` — **how long a run without faults can be, and how it ends**.
-/

namespace Transport.Handshake

open Proto

/-- Two parties, and how much of what each sent has arrived. -/
structure Line (σ : Type) where
  initiator : Party σ
  responder : Party σ
  toInitiator : Nat
  toResponder : Nat

inductive LineEvent
  | initiator (e : Event)
  | responder (e : Event)
  | toInitiator (count : Nat)
  | toResponder (count : Nat)

/-- The next bytes on the way. -/
def inFlight (sent : Bytes) (arrived count : Nat) : Bytes := (sent.drop arrived).take count

section Steps

variable {σ : Type} (snow : Snow σ) (clientKey daemonKey : PublicKey)

def Line.start (i₀ r₀ : σ) : Line σ :=
  ⟨Handshake.start snow (.initiator daemonKey) i₀, Handshake.start snow .responder r₀, 0, 0⟩

def Line.step (s : Line σ) : LineEvent → Option (Line σ × Unit)
  | .initiator e =>
      (s.initiator.step snow (.initiator daemonKey) e).map fun t =>
        ({ s with initiator := t.1 }, ())
  | .responder e =>
      (s.responder.step snow .responder e).map fun t => ({ s with responder := t.1 }, ())
  | .toInitiator count =>
      let chunk := inFlight s.responder.sent s.toInitiator count
      if chunk = [] then none
      else
        some ({ s with
          initiator := { s.initiator with inbox := s.initiator.inbox ++ chunk }
          toInitiator := s.toInitiator + chunk.length }, ())
  | .toResponder count =>
      let chunk := inFlight s.initiator.sent s.toResponder count
      if chunk = [] then none
      else
        some ({ s with
          responder := { s.responder with inbox := s.responder.inbox ++ chunk }
          toResponder := s.toResponder + chunk.length }, ())

/-- What a party does that is no fault, under a policy that it may ask. -/
def Event.Smooth (ok : (PublicKey → Bool) → Prop) : Event → Prop
  | .arrive _ | .fail | .timeout => False
  | .read _ policy => ok policy
  | .write _ | .speak _ => True

instance (ok : (PublicKey → Bool) → Prop) [DecidablePred ok] : (e : Event) → Decidable (e.Smooth ok)
  | .arrive _ | .fail | .timeout => isFalse id
  | .read _ policy => inferInstanceAs (Decidable (ok policy))
  | .write _ | .speak _ => isTrue trivial

/-- Nothing fails, and the responder's policy says yes to the client. -/
def Faultless (_ : List (LineEvent × Unit)) (_ : Line σ) : LineEvent → Prop
  | .initiator e => e.Smooth fun _ => True
  | .responder e => e.Smooth fun policy => policy clientKey = true
  | _ => True

instance (trace : List (LineEvent × Unit)) (s : Line σ) :
    (e : LineEvent) → Decidable (Faultless clientKey trace s e)
  | .initiator e => inferInstanceAs (Decidable (e.Smooth fun _ => True))
  | .responder e => inferInstanceAs (Decidable (e.Smooth fun policy => policy clientKey = true))
  | .toInitiator _ | .toResponder _ => isTrue trivial

/-- Messages of the library that fit each other, behind their lengths. -/
structure Exchange (i₀ r₀ : σ) where
  (m₁ m₂ first second : Bytes)
  (i₁ i₂ r₁ r₂ : σ)
  greets : snow.writeMessage i₀ = some (m₁, i₁)
  first_eq : frame m₁ = some first
  m₁_ne : m₁ ≠ []
  hears : snow.readMessage r₀ m₁ = some r₁
  client : snow.remoteStatic r₁ = some clientKey
  replies : snow.writeMessage r₁ = some (m₂, r₂)
  second_eq : frame m₂ = some second
  m₂_ne : m₂ ≠ []
  finished : snow.isFinished r₂ = true
  learns : snow.readMessage i₁ m₂ = some i₂
  finishes : snow.isFinished i₂ = true
  daemon : snow.remoteStatic i₂ = some daemonKey

end Steps

/-! ### Reading what was sent -/

theorem frame_eq {message bytes : Bytes} (h : frame message = some bytes) :
    ∃ a b, bytes = a :: b :: message ∧ (BigEndian.toU16 a b).toNat = message.length := by
  unfold frame at h
  split_ifs at h with hlt
  cases h
  obtain ⟨a, b, hab, hlen⟩ := toU16_ofNat hlt
  exact ⟨a, b, by rw [hab]; rfl, hlen⟩

/-- **A read stops where the message does** that was sent. -/
theorem stops_at {message sent got taken : Bytes} (hsent : frame message = some sent)
    (hne : message ≠ []) (hshort : Short got) (hle : taken.length ≤ wanted got)
    (htail : ∃ tail, got ++ taken <+: sent ++ tail) : Short (got ++ taken) ∨ got ++ taken = sent := by
  obtain ⟨a, b, rfl, hlen⟩ := frame_eq hsent
  obtain ⟨tail, rest, hrest⟩ := htail
  rcases read_cases hshort hle with hmore | ⟨a', b', hgot, hzero⟩ | ⟨a', b', message', hgot, hlen', -⟩
  · exact .inl hmore
  · rw [hgot] at hrest
    simp only [List.cons_append, List.cons.injEq] at hrest
    obtain ⟨rfl, rfl, -⟩ := hrest
    have hpos := List.length_pos_iff.mpr hne
    omega
  · rw [hgot] at hrest ⊢
    simp only [List.cons_append, List.cons.injEq] at hrest
    obtain ⟨rfl, rfl, hrest⟩ := hrest
    obtain ⟨rfl, -⟩ := List.append_inj hrest (by omega)
    exact .inr rfl

/-- What is short of a message is shorter than it. -/
theorem Short.lt {message sent got : Bytes} (h : Short got) (hsent : frame message = some sent)
    (htail : ∃ tail, got <+: sent ++ tail) : got.length < sent.length := by
  obtain ⟨a, b, rfl, hlen⟩ := frame_eq hsent
  obtain ⟨tail, rest, hrest⟩ := htail
  match got with
  | [] => simp
  | [_] => simp
  | a' :: b' :: body =>
      simp only [List.cons_append, List.cons.injEq] at hrest
      obtain ⟨rfl, rfl, -⟩ := hrest
      have hlt := wanted_pos_cons.mp h
      simp only [List.length_cons]
      omega

/-! ### What each side does -/

section Exchange

variable {σ : Type} {snow : Snow σ} {clientKey daemonKey : PublicKey} {i₀ r₀ : σ}
  (x : Exchange snow clientKey daemonKey i₀ r₀)

/-- What has been read of a message, with the message once all of it was. -/
def heard (message : Bytes) : Stage σ → Bytes
  | .reading _ got => got
  | .replying _ _ _ | .done _ _ => message
  | .greeting _ _ | .failed _ => []

/-- Where an initiator is that has not failed. -/
def InitiatorAt (s : Party σ) : Prop :=
  match s.stage with
  | .greeting handshake left => handshake = x.i₁ ∧ left ≠ [] ∧ s.sent ++ left = x.first
  | .reading handshake got => handshake = x.i₁ ∧ s.sent = x.first ∧ Short got
  | .done handshake peer => handshake = x.i₂ ∧ peer = daemonKey ∧ ∃ session, s.sent = x.first ++ session
  | _ => False

/-- Where a responder is that has not failed. -/
def ResponderAt (s : Party σ) : Prop :=
  match s.stage with
  | .reading handshake got => handshake = r₀ ∧ s.sent = [] ∧ Short got
  | .replying handshake peer left =>
      handshake = x.r₂ ∧ peer = clientKey ∧ left ≠ [] ∧ s.sent ++ left = x.second
  | .done handshake peer => handshake = x.r₂ ∧ peer = clientKey ∧ ∃ session, s.sent = x.second ++ session
  | _ => False

/-- What an initiator still has to write, twice over, and to read. -/
def initiatorWork : Stage σ → Nat
  | .greeting _ left => 2 * left.length + x.second.length
  | .reading _ got => x.second.length - got.length
  | _ => 0

/-- What a responder still has to write, twice over, and to read. -/
def responderWork : Stage σ → Nat
  | .reading _ got => 2 * x.second.length + (x.first.length - got.length)
  | .replying _ _ left => 2 * left.length
  | _ => 0

/-- What the session says in an event. -/
def Event.speaks : Event → Bytes
  | .speak bytes => bytes
  | _ => []

/-- How many steps of a handshake an event is. -/
def Event.steps : Event → Nat
  | .speak _ => 0
  | _ => 1

/-- A step of a party: it reads and writes on, and unless the session speaks, less is
left to be done. -/
structure Progress (message : Bytes) (work : Stage σ → Nat) (s t : Party σ) (e : Event) : Prop where
  read : heard message t.stage ++ t.inbox = heard message s.stage ++ s.inbox
  sent : ∃ more, t.sent = s.sent ++ more ∧
    work t.stage + more.length + e.steps ≤ work s.stage + e.speaks.length

variable {x} {s t : Party σ} {e : Event}

theorem InitiatorAt.sent (h : InitiatorAt x s) : ∃ tail, s.sent <+: x.first ++ tail := by
  unfold InitiatorAt at h
  split at h
  · next handshake left _ =>
      refine ⟨[], left, ?_⟩
      rw [List.append_nil]
      exact h.2.2
  · exact ⟨[], by rw [List.append_nil, h.2.1]⟩
  · obtain ⟨-, -, session, hsent⟩ := h
    exact ⟨session, by rw [hsent]⟩
  · exact h.elim

theorem ResponderAt.sent (h : ResponderAt x s) : ∃ tail, s.sent <+: x.second ++ tail := by
  unfold ResponderAt at h
  split at h
  · exact ⟨[], by rw [h.2.1]; exact List.nil_prefix⟩
  · next handshake peer left _ =>
      refine ⟨[], left, ?_⟩
      rw [List.append_nil]
      exact h.2.2.2
  · obtain ⟨-, -, session, hsent⟩ := h
    exact ⟨session, by rw [hsent]⟩
  · exact h.elim

/-- What a read takes, from an inbox that is read on. -/
theorem taken_cases {message sent got inbox taken : Bytes} {count : Nat}
    (hsent : frame message = some sent) (hne : message ≠ []) (hshort : Short got)
    (hinbox : ∃ tail, got ++ inbox <+: sent ++ tail)
    (htaken : inbox.take (min count (wanted got)) = taken) :
    inbox = taken ++ inbox.drop taken.length ∧ (Short (got ++ taken) ∧
      (got ++ taken).length < sent.length ∨ got ++ taken = sent) := by
  have hfront : taken <+: inbox := by
    rw [← htaken]
    exact List.take_prefix ..
  have hle : taken.length ≤ wanted got := by
    rw [← htaken, List.length_take]
    omega
  obtain ⟨tail, htail⟩ := hinbox
  have hread : got ++ taken <+: sent ++ tail :=
    ((List.prefix_append_right_inj got).mpr hfront).trans htail
  refine ⟨(List.prefix_iff_eq_append.mp hfront).symm, ?_⟩
  rcases stops_at hsent hne hshort hle ⟨tail, hread⟩ with hmore | hall
  · exact .inl ⟨hmore, hmore.lt hsent ⟨tail, hread⟩⟩
  · exact .inr hall

/-- The first message, read whole. -/
theorem advance_first {policy : PublicKey → Bool} (hpolicy : policy clientKey = true) :
    advance snow .responder policy r₀ x.first = .replying x.r₂ clientKey x.second := by
  obtain ⟨a, b, hfirst, hlen⟩ := frame_eq x.first_eq
  rw [hfirst, advance_message hlen x.m₁_ne]
  unfold received writing
  simp only [x.hears, x.client, hpolicy, if_true, x.replies, x.second_eq]

/-- The second message, read whole. -/
theorem advance_second {policy : PublicKey → Bool} :
    advance snow (.initiator daemonKey) policy x.i₁ x.second = .done x.i₂ daemonKey := by
  obtain ⟨a, b, hsecond, hlen⟩ := frame_eq x.second_eq
  rw [hsecond, advance_message hlen x.m₂_ne]
  unfold received
  simp only [x.learns, x.finishes, x.daemon, if_true]

theorem frame_ne_nil {message bytes : Bytes} (h : frame message = some bytes) : bytes ≠ [] := by
  obtain ⟨a, b, rfl, -⟩ := frame_eq h
  exact List.cons_ne_nil _ _

/-- A write takes a byte at least. -/
theorem write_lengths {left : Bytes} {count : Nat} (hne : left ≠ []) (hcount : ¬ count = 0) :
    0 < (left.take count).length ∧
      (left.take count).length + (left.drop count).length = left.length := by
  have hpos := List.length_pos_iff.mpr hne
  rw [List.length_take, List.length_drop]
  omega

/-- **A step of the initiator.** -/
theorem InitiatorAt.step (h : InitiatorAt x s) (hsmooth : e.Smooth fun _ => True)
    (hinbox : ∃ tail, heard x.second s.stage ++ s.inbox <+: x.second ++ tail)
    (hstep : s.step snow (.initiator daemonKey) e = some (t, ())) :
    InitiatorAt x t ∧ Progress x.second (initiatorWork x) s t e := by
  unfold InitiatorAt at h
  cases e with
  | read count policy =>
      dsimp only [Party.step] at hstep
      split at hstep
      · next handshake got hstage =>
          rw [hstage] at h hinbox
          obtain ⟨rfl, hsent, hshort⟩ := h
          generalize htaken : s.inbox.take (min count (wanted got)) = taken at hstep
          split_ifs at hstep with hnone
          cases hstep
          have hpos := List.length_pos_iff.mpr hnone
          obtain ⟨hfront, ⟨hmore, hlt⟩ | hall⟩ :=
            taken_cases x.second_eq x.m₂_ne hshort hinbox htaken
          · rw [List.length_append] at hlt
            refine ⟨?_, ⟨?_, [], (List.append_nil _).symm, ?_⟩⟩
            · unfold InitiatorAt
              dsimp only
              rw [advance_short hmore]
              exact ⟨rfl, hsent, hmore⟩
            · dsimp only
              rw [advance_short hmore, hstage]
              unfold heard
              rw [List.append_assoc, ← hfront]
            · dsimp only
              rw [advance_short hmore, hstage]
              simp only [initiatorWork, List.length_append, List.length_nil, Event.steps,
                Event.speaks]
              omega
          · have hlen := congrArg List.length hall
            rw [List.length_append] at hlen
            refine ⟨?_, ⟨?_, [], (List.append_nil _).symm, ?_⟩⟩
            · unfold InitiatorAt
              dsimp only
              rw [hall, advance_second]
              exact ⟨rfl, rfl, [], by rw [hsent, List.append_nil]⟩
            · dsimp only
              rw [hall, advance_second, hstage]
              unfold heard
              rw [← hall, List.append_assoc, ← hfront]
            · dsimp only
              rw [hall, advance_second, hstage]
              simp only [initiatorWork, List.length_nil, Event.steps, Event.speaks]
              omega
      · cases hstep
  | write count =>
      dsimp only [Party.step] at hstep
      split at hstep
      · next handshake left hstage =>
          rw [hstage] at h
          obtain ⟨rfl, hne, hsent⟩ := h
          have hsplit := List.take_append_drop count left
          split_ifs at hstep with hzero hempty
          · cases hstep
            obtain ⟨hpos, hlength⟩ := write_lengths hne hzero
            rw [hempty, List.append_nil] at hsplit
            refine ⟨⟨rfl, ?_, Nat.zero_lt_two⟩, ⟨by rw [hstage]; rfl, _, rfl, ?_⟩⟩
            · rw [hsplit]
              exact hsent
            · rw [hstage]
              simp only [initiatorWork, List.length_nil, Event.steps, Event.speaks]
              omega
          · cases hstep
            obtain ⟨hpos, hlength⟩ := write_lengths hne hzero
            refine ⟨⟨rfl, hempty, ?_⟩, ⟨by rw [hstage]; rfl, _, rfl, ?_⟩⟩
            · rw [List.append_assoc, hsplit]
              exact hsent
            · rw [hstage]
              simp only [initiatorWork, List.length_nil, Event.steps, Event.speaks]
              omega
      · next handshake peer left hstage =>
          rw [hstage] at h
          exact h.elim
      · cases hstep
  | speak bytes =>
      dsimp only [Party.step] at hstep
      split at hstep
      · next handshake peer hstage =>
          cases hstep
          rw [hstage] at h
          obtain ⟨rfl, rfl, session, hsent⟩ := h
          refine ⟨?_, ⟨rfl, bytes, rfl, ?_⟩⟩
          · unfold InitiatorAt
            dsimp only
            rw [hstage]
            exact ⟨rfl, rfl, session ++ bytes, by rw [hsent, List.append_assoc]⟩
          · simp only [Event.steps, Event.speaks]
            omega
      · cases hstep
  | _ => exact hsmooth.elim

/-- **A step of the responder.** -/
theorem ResponderAt.step (h : ResponderAt x s)
    (hsmooth : e.Smooth fun policy => policy clientKey = true)
    (hinbox : ∃ tail, heard x.first s.stage ++ s.inbox <+: x.first ++ tail)
    (hstep : s.step snow .responder e = some (t, ())) :
    ResponderAt x t ∧ Progress x.first (responderWork x) s t e := by
  unfold ResponderAt at h
  cases e with
  | read count policy =>
      dsimp only [Party.step] at hstep
      split at hstep
      · next handshake got hstage =>
          rw [hstage] at h hinbox
          obtain ⟨rfl, hsent, hshort⟩ := h
          generalize htaken : s.inbox.take (min count (wanted got)) = taken at hstep
          split_ifs at hstep with hnone
          cases hstep
          have hpos := List.length_pos_iff.mpr hnone
          obtain ⟨hfront, ⟨hmore, hlt⟩ | hall⟩ :=
            taken_cases x.first_eq x.m₁_ne hshort hinbox htaken
          · rw [List.length_append] at hlt
            refine ⟨?_, ⟨?_, [], (List.append_nil _).symm, ?_⟩⟩
            · unfold ResponderAt
              dsimp only
              rw [advance_short hmore]
              exact ⟨rfl, hsent, hmore⟩
            · dsimp only
              rw [advance_short hmore, hstage]
              unfold heard
              rw [List.append_assoc, ← hfront]
            · dsimp only
              rw [advance_short hmore, hstage]
              simp only [responderWork, List.length_append, List.length_nil, Event.steps,
                Event.speaks]
              omega
          · have hlen := congrArg List.length hall
            rw [List.length_append] at hlen
            refine ⟨?_, ⟨?_, [], (List.append_nil _).symm, ?_⟩⟩
            · unfold ResponderAt
              dsimp only
              rw [hall, advance_first hsmooth]
              exact ⟨rfl, rfl, frame_ne_nil x.second_eq, by rw [hsent, List.nil_append]⟩
            · dsimp only
              rw [hall, advance_first hsmooth, hstage]
              unfold heard
              rw [← hall, List.append_assoc, ← hfront]
            · dsimp only
              rw [hall, advance_first hsmooth, hstage]
              simp only [responderWork, List.length_nil, Event.steps, Event.speaks]
              omega
      · cases hstep
  | write count =>
      dsimp only [Party.step] at hstep
      split at hstep
      · next handshake left hstage =>
          rw [hstage] at h
          exact h.elim
      · next handshake peer left hstage =>
          rw [hstage] at h
          obtain ⟨rfl, rfl, hne, hsent⟩ := h
          have hsplit := List.take_append_drop count left
          rw [x.finished, if_pos rfl] at hstep
          split_ifs at hstep with hzero hempty
          · cases hstep
            obtain ⟨hpos, hlength⟩ := write_lengths hne hzero
            rw [hempty, List.append_nil] at hsplit
            refine ⟨⟨rfl, rfl, [], ?_⟩, ⟨by rw [hstage]; rfl, _, rfl, ?_⟩⟩
            · rw [hsplit, List.append_nil]
              exact hsent
            · rw [hstage]
              simp only [responderWork, Event.steps, Event.speaks, List.length_nil]
              omega
          · cases hstep
            obtain ⟨hpos, hlength⟩ := write_lengths hne hzero
            refine ⟨⟨rfl, rfl, hempty, ?_⟩, ⟨by rw [hstage]; rfl, _, rfl, ?_⟩⟩
            · rw [List.append_assoc, hsplit]
              exact hsent
            · rw [hstage]
              simp only [responderWork, Event.steps, Event.speaks, List.length_nil]
              omega
      · cases hstep
  | speak bytes =>
      dsimp only [Party.step] at hstep
      split at hstep
      · next handshake peer hstage =>
          cases hstep
          rw [hstage] at h
          obtain ⟨rfl, rfl, session, hsent⟩ := h
          refine ⟨?_, ⟨rfl, bytes, rfl, ?_⟩⟩
          · unfold ResponderAt
            dsimp only
            rw [hstage]
            exact ⟨rfl, rfl, session ++ bytes, by rw [hsent, List.append_assoc]⟩
          · simp only [Event.steps, Event.speaks]
            omega
      · cases hstep
  | _ => exact hsmooth.elim

/-! ### Both sides -/

/-- What the session says in an event. -/
def LineEvent.speaks : LineEvent → Bytes
  | .initiator e | .responder e => e.speaks
  | _ => []

def LineEvent.steps : LineEvent → Nat
  | .initiator e | .responder e => e.steps
  | _ => 1

variable (x) in
/-- **What holds of both sides**: each is where it should be, and has read, or has yet to
read, what arrived of what the other sent. -/
structure Met (s : Line σ) : Prop where
  initiator : InitiatorAt x s.initiator
  responder : ResponderAt x s.responder
  arrived : heard x.first s.responder.stage ++ s.responder.inbox = s.initiator.sent.take s.toResponder
  answered : heard x.second s.initiator.stage ++ s.initiator.inbox = s.responder.sent.take s.toInitiator
  arrived_le : s.toResponder ≤ s.initiator.sent.length
  answered_le : s.toInitiator ≤ s.responder.sent.length

variable (x) in
/-- What is left to be done: what each side has to, and what is on the way. -/
def remaining (s : Line σ) : Nat :=
  initiatorWork x s.initiator.stage + responderWork x s.responder.stage +
    (s.initiator.sent.length - s.toResponder) + (s.responder.sent.length - s.toInitiator)

/-- What arrives next is the next of what was sent. -/
theorem take_inFlight (sent : Bytes) (arrived count : Nat) :
    sent.take (arrived + (inFlight sent arrived count).length) =
      sent.take arrived ++ inFlight sent arrived count := by
  rw [List.take_add]
  congr 1
  unfold inFlight
  rw [List.length_take, ← List.take_take, List.take_length]

theorem inFlight_le {sent : Bytes} {arrived : Nat} (count : Nat) (h : arrived ≤ sent.length) :
    arrived + (inFlight sent arrived count).length ≤ sent.length := by
  unfold inFlight
  rw [List.length_take, List.length_drop]
  omega

/-- What arrived is the front of what was sent, which is a message and what follows. -/
theorem arrived_front {sent message read : Bytes} {arrived : Nat} (hread : read = sent.take arrived)
    (hsent : ∃ tail, sent <+: message ++ tail) : ∃ tail, read <+: message ++ tail := by
  obtain ⟨tail, hsent⟩ := hsent
  rw [hread]
  exact ⟨tail, (List.take_prefix ..).trans hsent⟩

section Met

variable {s t : Line σ} {e : LineEvent} {trace : List (LineEvent × Unit)}

theorem Met.start : Met x (Line.start snow daemonKey i₀ r₀) := by
  have hstage : writing snow i₀ .greeting = .greeting x.i₁ x.first := by
    unfold writing
    simp only [x.greets, x.first_eq]
  refine ⟨?_, ⟨rfl, rfl, Nat.zero_lt_two⟩, rfl, ?_, Nat.le_refl _, Nat.le_refl _⟩
  · unfold InitiatorAt
    dsimp only [Line.start, Handshake.start]
    rw [hstage]
    exact ⟨rfl, frame_ne_nil x.first_eq, rfl⟩
  · dsimp only [Line.start, Handshake.start]
    rw [hstage]
    rfl

theorem remaining_start : remaining x (Line.start snow daemonKey i₀ r₀) =
    3 * (x.first.length + x.second.length) := by
  have hstage : writing snow i₀ .greeting = .greeting x.i₁ x.first := by
    unfold writing
    simp only [x.greets, x.first_eq]
  unfold remaining
  dsimp only [Line.start, Handshake.start]
  rw [hstage]
  simp only [initiatorWork, responderWork, List.length_nil]
  omega

/-- **One step** of either side, or of the stream, keeps what holds of both; and unless
the session speaks, less is left to be done. -/
theorem Met.step (h : Met x s) (hfaultless : Faultless clientKey trace s e)
    (hstep : s.step snow daemonKey e = some (t, ())) :
    Met x t ∧ remaining x t + e.steps ≤ remaining x s + e.speaks.length := by
  have harrived := h.arrived_le
  have hanswered := h.answered_le
  cases e with
  | initiator e =>
      dsimp only [Line.step] at hstep
      obtain ⟨⟨party, ⟨⟩⟩, hparty, heq⟩ := Option.map_eq_some_iff.mp hstep
      cases heq
      obtain ⟨hat, hread, more, hsent, hwork⟩ := h.initiator.step hfaultless
        (arrived_front h.answered h.responder.sent) hparty
      refine ⟨⟨hat, h.responder, ?_, hread.trans h.answered, ?_, hanswered⟩, ?_⟩
      · dsimp only
        rw [hsent, List.take_append_of_le_length harrived]
        exact h.arrived
      · dsimp only
        rw [hsent, List.length_append]
        omega
      · dsimp only [remaining, LineEvent.steps, LineEvent.speaks]
        rw [hsent, List.length_append]
        omega
  | responder e =>
      dsimp only [Line.step] at hstep
      obtain ⟨⟨party, ⟨⟩⟩, hparty, heq⟩ := Option.map_eq_some_iff.mp hstep
      cases heq
      obtain ⟨hat, hread, more, hsent, hwork⟩ := h.responder.step hfaultless
        (arrived_front h.arrived h.initiator.sent) hparty
      refine ⟨⟨h.initiator, hat, hread.trans h.arrived, ?_, harrived, ?_⟩, ?_⟩
      · dsimp only
        rw [hsent, List.take_append_of_le_length hanswered]
        exact h.answered
      · dsimp only
        rw [hsent, List.length_append]
        omega
      · dsimp only [remaining, LineEvent.steps, LineEvent.speaks]
        rw [hsent, List.length_append]
        omega
  | toInitiator count =>
      dsimp only [Line.step] at hstep
      split_ifs at hstep with hnone
      cases hstep
      have hpos := List.length_pos_iff.mpr hnone
      have hle := inFlight_le count hanswered
      refine ⟨⟨h.initiator, h.responder, h.arrived, ?_, harrived, hle⟩, ?_⟩
      · dsimp only
        rw [take_inFlight, ← h.answered, List.append_assoc]
      · simp only [remaining, LineEvent.steps, LineEvent.speaks, List.length_nil]
        omega
  | toResponder count =>
      dsimp only [Line.step] at hstep
      split_ifs at hstep with hnone
      cases hstep
      have hpos := List.length_pos_iff.mpr hnone
      have hle := inFlight_le count harrived
      refine ⟨⟨h.initiator, h.responder, ?_, h.answered, hle, hanswered⟩, ?_⟩
      · dsimp only
        rw [take_inFlight, ← h.arrived, List.append_assoc]
      · simp only [remaining, LineEvent.steps, LineEvent.speaks, List.length_nil]
        omega

/-! ### That something can be done -/

/-- A step without a fault that is not the session's is possible. -/
def Possible (snow : Snow σ) (clientKey daemonKey : PublicKey) (s : Line σ) : Prop :=
  ∃ e t, Faultless clientKey [] s e ∧ e.steps = 1 ∧ s.step snow daemonKey e = some (t, ())

/-- A party that reads, and has something to read. -/
theorem read_possible {side : Side} {policy : PublicKey → Bool} {p : Party σ} {handshake : σ}
    {got : Bytes} (hstage : p.stage = .reading handshake got) (hshort : Short got)
    (hinbox : p.inbox ≠ []) : ∃ p', p.step snow side (.read 1 policy) = some (p', ()) := by
  have hpos := List.length_pos_iff.mpr hinbox
  have htaken : p.inbox.take (min 1 (wanted got)) ≠ [] := by
    apply List.length_pos_iff.mp
    have hwanted : 0 < wanted got := hshort
    rw [List.length_take]
    omega
  dsimp only [Party.step]
  rw [hstage]
  dsimp only
  rw [if_neg htaken]
  exact ⟨_, rfl⟩

theorem initiator_possible (e : Event) (hsmooth : e.Smooth fun _ => True) (hquiet : e.steps = 1)
    (h : ∃ p, s.initiator.step snow (.initiator daemonKey) e = some (p, ())) :
    Possible snow clientKey daemonKey s := by
  obtain ⟨p, hp⟩ := h
  refine ⟨.initiator e, { s with initiator := p }, hsmooth, hquiet, ?_⟩
  dsimp only [Line.step]
  rw [hp]
  rfl

theorem responder_possible (e : Event) (hsmooth : e.Smooth fun policy => policy clientKey = true)
    (hquiet : e.steps = 1) (h : ∃ p, s.responder.step snow .responder e = some (p, ())) :
    Possible snow clientKey daemonKey s := by
  obtain ⟨p, hp⟩ := h
  refine ⟨.responder e, { s with responder := p }, hsmooth, hquiet, ?_⟩
  dsimp only [Line.step]
  rw [hp]
  rfl

/-- What was sent arrives, if it has not. -/
theorem inFlight_ne_nil {sent : Bytes} {arrived : Nat} (h : arrived < sent.length) :
    inFlight sent arrived 1 ≠ [] := by
  apply List.length_pos_iff.mp
  unfold inFlight
  rw [List.length_take, List.length_drop]
  omega

/-- A reader of a message that has arrived whole has something to read. -/
theorem inbox_ne_nil {message sent got inbox tail : Bytes} (hsent : frame message = some sent)
    (hshort : Short got) (hread : got ++ inbox = sent ++ tail) : inbox ≠ [] := by
  rintro rfl
  have hlt := hshort.lt hsent ⟨tail, by rw [← hread, List.append_nil]⟩
  have hlen := congrArg List.length hread
  simp only [List.length_append, List.length_nil] at hlen
  omega

/-- **Something can be done until both sides have finished** and all that they said has
arrived. -/
theorem Met.possible (h : Met x s) : Possible snow clientKey daemonKey s ∨
    ∃ toDaemon toApp, s.initiator = ⟨toApp, x.first ++ toDaemon, .done x.i₂ daemonKey⟩ ∧
      s.responder = ⟨toDaemon, x.second ++ toApp, .done x.r₂ clientKey⟩ := by
  obtain ⟨hinitiator, hresponder, harrived, hanswered, harrived_le, hanswered_le⟩ := h
  by_cases hall : s.toResponder < s.initiator.sent.length
  · exact .inl ⟨.toResponder 1, _, trivial, rfl, if_neg (inFlight_ne_nil hall)⟩
  by_cases hback : s.toInitiator < s.responder.sent.length
  · exact .inl ⟨.toInitiator 1, _, trivial, rfl, if_neg (inFlight_ne_nil hback)⟩
  rw [List.take_of_length_le (by omega)] at harrived hanswered
  obtain ⟨⟨inbox, sent, stage⟩, ⟨inbox', sent', stage'⟩, toInitiator, toResponder⟩ := s
  dsimp only at harrived hanswered
  unfold InitiatorAt at hinitiator
  unfold ResponderAt at hresponder
  dsimp only at hinitiator hresponder
  cases stage' with
  | greeting handshake left => exact hresponder.elim
  | failed err => exact hresponder.elim
  | replying handshake peer left =>
      exact .inl (responder_possible (.write 1) trivial rfl ⟨_, rfl⟩)
  | reading handshake' got' =>
      obtain ⟨rfl, rfl, hshort'⟩ := hresponder
      have hread : ∀ tail, sent = x.first ++ tail → Possible snow clientKey daemonKey
          ⟨⟨inbox, sent, stage⟩, ⟨inbox', [], .reading handshake' got'⟩, toInitiator, toResponder⟩ := by
        intro tail hsent
        apply responder_possible (.read 1 fun _ => true) rfl rfl
        exact read_possible rfl hshort' (inbox_ne_nil x.first_eq hshort' (harrived.trans hsent))
      cases stage with
      | greeting handshake left =>
          exact .inl (initiator_possible (.write 1) trivial rfl ⟨_, rfl⟩)
      | reading handshake got => exact .inl (hread [] (by rw [hinitiator.2.1, List.append_nil]))
      | done handshake peer =>
          obtain ⟨-, -, session, hsent⟩ := hinitiator
          exact .inl (hread session hsent)
      | replying handshake peer left => exact hinitiator.elim
      | failed err => exact hinitiator.elim
  | done handshake' peer' =>
      obtain ⟨rfl, rfl, session', rfl⟩ := hresponder
      cases stage with
      | greeting handshake left =>
          exact .inl (initiator_possible (.write 1) trivial rfl ⟨_, rfl⟩)
      | reading handshake got =>
          obtain ⟨-, -, hshort⟩ := hinitiator
          refine .inl (initiator_possible (.read 1 fun _ => true) trivial rfl ?_)
          exact read_possible rfl hshort (inbox_ne_nil x.second_eq hshort hanswered)
      | done handshake peer =>
          obtain ⟨rfl, rfl, session, rfl⟩ := hinitiator
          obtain rfl := List.append_cancel_left harrived
          obtain rfl := List.append_cancel_left hanswered
          exact .inr ⟨_, _, rfl, rfl⟩
      | replying handshake peer left => exact hinitiator.elim
      | failed err => exact hinitiator.elim

/-! ### Runs -/

/-- The steps that are not the session's. -/
def quiet (trace : List (LineEvent × Unit)) : Nat := (trace.map fun entry => entry.1.steps).sum

/-- What the session says. -/
def spoken (trace : List (LineEvent × Unit)) : Bytes := trace.flatMap fun entry => entry.1.speaks

/-- **What holds in every run without faults.** -/
theorem run_met (hrun : Transition.Run (Line.step snow daemonKey) (Faultless clientKey)
    (Line.start snow daemonKey i₀ r₀) trace s) :
    Met x s ∧ remaining x s + quiet trace ≤
      3 * (x.first.length + x.second.length) + (spoken trace).length := by
  refine hrun.invariant (fun trace s => Met x s ∧ remaining x s + quiet trace ≤
    3 * (x.first.length + x.second.length) + (spoken trace).length) ?_ ?_
  · exact ⟨Met.start, by rw [remaining_start]; exact Nat.le_refl _⟩
  · rintro trace s e t ⟨⟩ ⟨hmet, hle⟩ hfaultless hstep
    obtain ⟨hmet', hless⟩ := hmet.step hfaultless hstep
    have hquiet : quiet (trace ++ [(e, ())]) = quiet trace + e.steps := by simp [quiet]
    have hspoken : (spoken (trace ++ [(e, ())])).length = (spoken trace).length + e.speaks.length := by
      simp [spoken]
    refine ⟨hmet', ?_⟩
    rw [hquiet, hspoken]
    omega

/-- **A handshake without faults comes to its end.**  Whatever the order of reads, writes
and arrivals, and wherever they cut the bytes, its steps are bounded by its messages and
by what the session says; and where no step is left, each side has finished with the key
of the other and finds in its inbox exactly what the other's session has said. -/
theorem both_finish (x : Exchange snow clientKey daemonKey i₀ r₀)
    (hrun : Transition.Run (Line.step snow daemonKey) (Faultless clientKey)
      (Line.start snow daemonKey i₀ r₀) trace s) :
    quiet trace ≤ 3 * (x.first.length + x.second.length) + (spoken trace).length ∧
      (Possible snow clientKey daemonKey s ∨
        ∃ toDaemon toApp, s.initiator = ⟨toApp, x.first ++ toDaemon, .done x.i₂ daemonKey⟩ ∧
          s.responder = ⟨toDaemon, x.second ++ toApp, .done x.r₂ clientKey⟩) := by
  obtain ⟨hmet, hle⟩ := run_met (x := x) hrun
  exact ⟨by omega, hmet.possible⟩

end Met

end Exchange

/-- A library with one message either way. -/
def oneEach : Snow Nat where
  writeMessage handshake :=
    if handshake = 0 then some ([1, 2, 3], 1) else if handshake = 11 then some ([9], 12) else none
  readMessage handshake message :=
    if handshake = 10 ∧ message = [1, 2, 3] then some 11
    else if handshake = 1 ∧ message = [9] then some 2
    else none
  isFinished handshake := handshake == 2 || handshake == 12
  remoteStatic handshake :=
    if handshake = 11 then some (.replicate 7) else if handshake = 2 then some (.replicate 8) else none

def oneEach_exchange : Exchange oneEach (.replicate 7) (.replicate 8) 0 10 where
  m₁ := [1, 2, 3]
  m₂ := [9]
  first := [0, 3, 1, 2, 3]
  second := [0, 1, 9]
  i₁ := 1
  i₂ := 2
  r₁ := 11
  r₂ := 12
  greets := rfl
  first_eq := rfl
  m₁_ne := by decide
  hears := rfl
  client := rfl
  replies := rfl
  second_eq := rfl
  m₂_ne := by decide
  finished := rfl
  learns := rfl
  finishes := rfl
  daemon := rfl

/-- The first message comes in two pieces, and the daemon speaks before its own has arrived. -/
def twoSides : List LineEvent :=
  [.initiator (.write 4), .toResponder 3, .responder (.read 2 fun _ => true), .initiator (.write 4),
    .toResponder 9, .responder (.read 9 fun _ => true), .responder (.write 9),
    .responder (.speak [42]), .toInitiator 9, .initiator (.read 9 fun _ => true),
    .initiator (.read 9 fun _ => true)]

/-- What they end with: the daemon's byte is left to the app's session. -/
def bothFinished : Line Nat where
  initiator := ⟨[42], [0, 3, 1, 2, 3], .done 2 (.replicate 8)⟩
  responder := ⟨[], [0, 1, 9, 42], .done 12 (.replicate 7)⟩
  toInitiator := 4
  toResponder := 5

theorem both_finish_sample : ∃ trace : List (LineEvent × Unit), trace.map Prod.fst = twoSides ∧
    quiet trace ≤ 3 * (5 + 3) + (spoken trace).length ∧
      ∃ toDaemon toApp,
        bothFinished.initiator = ⟨toApp, [0, 3, 1, 2, 3] ++ toDaemon, .done 2 (.replicate 8)⟩ ∧
          bothFinished.responder = ⟨toDaemon, [0, 1, 9] ++ toApp, .done 12 (.replicate 7)⟩ := by
  have hexec : Transition.exec (Line.step oneEach (.replicate 8)) (Faultless (.replicate 7)) twoSides []
      (Line.start oneEach (.replicate 8) 0 10) = some (_, bothFinished) := rfl
  obtain ⟨hle, -⟩ := both_finish oneEach_exchange (Transition.run_of_exec twoSides hexec)
  exact ⟨_, Transition.events_of_exec hexec, hle, [], [42], rfl, rfl⟩

end Transport.Handshake
