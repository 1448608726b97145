import GoNomad.Lib.BigEndian
import GoNomad.Lib.Run
import GoNomad.Proto.Ids
import GoNomad.Transport.Error

/-!
# The handshake on a byte stream

Each handshake message goes behind its length in two bytes.  The initiator writes
one and reads one; the responder reads one, asks the policy about the key in it, and
only then writes one.  Bytes arrive in any pieces, and a read takes no byte that
belongs to what comes after.

* `advance_cases` — what a read makes of the stage;
* `Heard.step`, `run_heard` — **the invariant** of the responder;
* `silent_until_authorized` — what a peer has to send before it gets a byte, and what
  a finished handshake leaves to the session.
-/

namespace Transport.Handshake

open Proto

/-- What the Noise library does with a handshake state; payloads are empty. -/
structure Snow (σ : Type) where
  writeMessage : σ → Option (Bytes × σ)
  readMessage : σ → Bytes → Option σ
  isFinished : σ → Bool
  remoteStatic : σ → Option PublicKey

/-- Which side a party is, and whom an initiator dials. -/
inductive Side
  | initiator (remote : PublicKey)
  | responder

/-- How far a party has got. -/
inductive Stage (σ : Type)
  /-- Writes the first message. -/
  | greeting (handshake : σ) (left : Bytes)
  | reading (handshake : σ) (got : Bytes)
  /-- Writes the second message, to a peer that may have it. -/
  | replying (handshake : σ) (peer : PublicKey) (left : Bytes)
  | done (handshake : σ) (peer : PublicKey)
  | failed (err : TransportError)

/-- A party: what arrived and was not read, and all that it wrote. -/
structure Party (σ : Type) where
  inbox : Bytes
  sent : Bytes
  stage : Stage σ

inductive Event
  | arrive (chunk : Bytes)
  /-- Reads up to so many bytes; the policy is as it is then. -/
  | read (count : Nat) (policy : PublicKey → Bool)
  | write (count : Nat)
  /-- A read or a write fails, or the peer has ended the stream. -/
  | fail
  | timeout
  /-- What the session writes. -/
  | speak (bytes : Bytes)

/-- A message behind its length. -/
def frame (message : Bytes) : Option Bytes :=
  if message.length < 2 ^ 16 then
    some (BigEndian.ofU16 (UInt16.ofNat message.length) ++ message)
  else none

/-- How many bytes the next read asks for. -/
def wanted : Bytes → Nat
  | [] => 2
  | [_] => 1
  | a :: b :: body => (BigEndian.toU16 a b).toNat - body.length

section Steps

variable {σ : Type} (snow : Snow σ)

/-- Writes a message, if the library has one. -/
def writing (handshake : σ) (next : σ → Bytes → Stage σ) : Stage σ :=
  match snow.writeMessage handshake with
  | none => .failed .handshakeFailed
  | some (message, handshake) =>
      match frame message with
      | none => .failed .handshakeFailed
      | some bytes => next handshake bytes

/-- A message has been read. -/
def received (side : Side) (policy : PublicKey → Bool) (handshake : σ) (message : Bytes) :
    Stage σ :=
  match snow.readMessage handshake message with
  | none => .failed .handshakeFailed
  | some handshake =>
      match side with
      | .initiator remote =>
          if snow.isFinished handshake then
            match snow.remoteStatic handshake with
            | none => .failed .handshakeFailed
            | some peer => if peer = remote then .done handshake peer else .failed .wrongPeer
          else .failed .handshakeFailed
      | .responder =>
          match snow.remoteStatic handshake with
          | none => .failed .handshakeFailed
          | some peer =>
              if policy peer then
                writing snow handshake fun handshake bytes => .replying handshake peer bytes
              else .failed .peerNotAuthorized

/-- Some bytes have been read. -/
def advance (side : Side) (policy : PublicKey → Bool) (handshake : σ) (got : Bytes) : Stage σ :=
  match got with
  | a :: b :: body =>
      if (BigEndian.toU16 a b).toNat = 0 then .failed .handshakeFailed
      else if body.length < (BigEndian.toU16 a b).toNat then .reading handshake got
      else received snow side policy handshake body
  | _ => .reading handshake got

def start (side : Side) (handshake : σ) : Party σ :=
  match side with
  | .initiator _ => ⟨[], [], writing snow handshake .greeting⟩
  | .responder => ⟨[], [], .reading handshake []⟩

def Party.step (side : Side) (s : Party σ) : Event → Option (Party σ × Unit)
  | .arrive chunk => some ({ s with inbox := s.inbox ++ chunk }, ())
  | .read count policy =>
      match s.stage with
      | .reading handshake got =>
          let taken := s.inbox.take (min count (wanted got))
          if taken = [] then none
          else
            some ({ s with
              inbox := s.inbox.drop taken.length
              stage := advance snow side policy handshake (got ++ taken) }, ())
      | _ => none
  | .write count =>
      match s.stage with
      | .greeting handshake left =>
          if count = 0 then none
          else
            let stage := if left.drop count = [] then .reading handshake []
              else .greeting handshake (left.drop count)
            some ({ s with sent := s.sent ++ left.take count, stage }, ())
      | .replying handshake peer left =>
          if count = 0 then none
          else
            let stage := if left.drop count = [] then
                if snow.isFinished handshake then .done handshake peer
                else .failed .handshakeFailed
              else .replying handshake peer (left.drop count)
            some ({ s with sent := s.sent ++ left.take count, stage }, ())
      | _ => none
  | .fail =>
      match s.stage with
      | .done _ _ | .failed _ => none
      | _ => some ({ s with stage := .failed .handshakeFailed }, ())
  | .timeout =>
      match s.stage with
      | .done _ _ | .failed _ => none
      | _ => some ({ s with stage := .failed .timeout }, ())
  | .speak bytes =>
      match s.stage with
      | .done _ _ => some ({ s with sent := s.sent ++ bytes }, ())
      | _ => none

end Steps

/-! ### Reading a message -/

/-- No whole message has been read, and its length is not zero if it is known. -/
def Short (got : Bytes) : Prop := 0 < wanted got

theorem wanted_pos_cons {a b : UInt8} {body : Bytes} :
    Short (a :: b :: body) ↔ body.length < (BigEndian.toU16 a b).toNat := Nat.sub_pos_iff_lt

theorem toU16_ofNat {n : Nat} (h : n < 2 ^ 16) :
    ∃ a b, BigEndian.ofU16 (UInt16.ofNat n) = [a, b] ∧ (BigEndian.toU16 a b).toNat = n := by
  refine ⟨_, _, rfl, ?_⟩
  rw [BigEndian.toU16_ofU16, UInt16.toNat_ofNat']
  omega

/-- **A read that stops where its message does**: what was read is still short, has a
length of zero, or is a message behind its length. -/
theorem read_cases {got taken : Bytes} (h : Short got) (hle : taken.length ≤ wanted got) :
    Short (got ++ taken) ∨
      (∃ a b, got ++ taken = [a, b] ∧ (BigEndian.toU16 a b).toNat = 0) ∨
      ∃ a b message, got ++ taken = a :: b :: message ∧
        (BigEndian.toU16 a b).toNat = message.length ∧ message ≠ [] := by
  have hpair : ∀ a b : UInt8, Short [a, b] ∨ (BigEndian.toU16 a b).toNat = 0 := by
    intro a b
    rw [wanted_pos_cons]
    exact (Nat.eq_zero_or_pos _).symm
  match got with
  | [] =>
      match taken with
      | [] => exact .inl h
      | [a] => exact .inl (by simp [Short, wanted])
      | [a, b] =>
          rcases hpair a b with hshort | hzero
          · exact .inl hshort
          · exact .inr (.inl ⟨a, b, rfl, hzero⟩)
      | _ :: _ :: _ :: _ => simp [wanted] at hle
  | [a] =>
      match taken with
      | [] => exact .inl h
      | [b] =>
          rcases hpair a b with hshort | hzero
          · exact .inl hshort
          · exact .inr (.inl ⟨a, b, rfl, hzero⟩)
      | _ :: _ :: _ => simp [wanted] at hle
  | a :: b :: body =>
      have hbody := wanted_pos_cons.mp h
      have hlen : taken.length ≤ (BigEndian.toU16 a b).toNat - body.length := hle
      by_cases hmore : (body ++ taken).length < (BigEndian.toU16 a b).toNat
      · exact .inl (wanted_pos_cons.mpr hmore)
      · rw [List.length_append] at hmore
        refine .inr (.inr ⟨a, b, body ++ taken, rfl, ?_, ?_⟩)
        · rw [List.length_append]
          omega
        · intro hnil
          obtain ⟨rfl, rfl⟩ := List.append_eq_nil_iff.mp hnil
          simp at hbody hmore
          omega

/-- What was read as a message was written as one. -/
theorem frame_of_read {a b : UInt8} {message : Bytes}
    (h : (BigEndian.toU16 a b).toNat = message.length) :
    frame message = some (a :: b :: message) := by
  have hlt := (BigEndian.toU16 a b).toNat_lt
  have hlen : UInt16.ofNat message.length = BigEndian.toU16 a b := by
    apply UInt16.toNat_inj.mp
    rw [UInt16.toNat_ofNat']
    omega
  unfold frame
  rw [if_pos (by omega), hlen, BigEndian.ofU16_toU16]
  rfl

section Advance

variable {σ : Type} {snow : Snow σ} {side : Side} {policy : PublicKey → Bool} {handshake : σ}
  {got taken message : Bytes}

theorem advance_short (h : Short got) : advance snow side policy handshake got =
    .reading handshake got := by
  match got with
  | [] => rfl
  | [_] => rfl
  | a :: b :: body =>
      have hlt := wanted_pos_cons.mp h
      unfold advance
      dsimp only
      rw [if_neg (by omega), if_pos hlt]

theorem advance_message {a b : UInt8} (h : (BigEndian.toU16 a b).toNat = message.length)
    (hne : message ≠ []) : advance snow side policy handshake (a :: b :: message) =
      received snow side policy handshake message := by
  have hpos := List.length_pos_iff.mpr hne
  unfold advance
  dsimp only
  rw [if_neg (by omega), if_neg (by omega)]

/-- **What a read makes of the stage**: it goes on reading, has read a whole message,
or fails. -/
theorem advance_cases (h : Short got) (hle : taken.length ≤ wanted got) :
    (Short (got ++ taken) ∧
        advance snow side policy handshake (got ++ taken) = .reading handshake (got ++ taken)) ∨
      advance snow side policy handshake (got ++ taken) = .failed .handshakeFailed ∨
      ∃ message, frame message = some (got ++ taken) ∧ message ≠ [] ∧
        advance snow side policy handshake (got ++ taken) =
          received snow side policy handshake message := by
  rcases read_cases h hle with hshort | ⟨a, b, hgot, hzero⟩ | ⟨a, b, message, hgot, hlen, hne⟩
  · exact .inl ⟨hshort, advance_short hshort⟩
  · refine .inr (.inl ?_)
    rw [hgot]
    unfold advance
    dsimp only
    rw [if_pos hzero]
  · refine .inr (.inr ⟨message, ?_, hne, ?_⟩)
    · rw [hgot]
      exact frame_of_read hlen
    · rw [hgot]
      exact advance_message hlen hne

end Advance

/-! ### The responder -/

section Responder

variable {σ : Type} {snow : Snow σ} {first handshake : σ} {peer : PublicKey}
  {request reply arrived : Bytes} {s t : Party σ} {e : Event} {allowed allowed' : PublicKey → Prop}
  {trace : List (Event × Unit)}

/-- A request from a peer that may have a reply, both behind their lengths, and the
handshake after them. -/
def Accepted (snow : Snow σ) (first : σ) (allowed : PublicKey → Prop) (peer : PublicKey)
    (request reply : Bytes) (handshake : σ) : Prop :=
  ∃ message answer read, frame message = some request ∧ snow.readMessage first message = some read ∧
    snow.remoteStatic read = some peer ∧ allowed peer ∧
    snow.writeMessage read = some (answer, handshake) ∧ frame answer = some reply

theorem Accepted.mono (hallowed : ∀ key, allowed key → allowed' key)
    (h : Accepted snow first allowed peer request reply handshake) :
    Accepted snow first allowed' peer request reply handshake := by
  obtain ⟨message, answer, read, hrequest, hread, hpeer, hpermit, hwrite, hreply⟩ := h
  exact ⟨message, answer, read, hrequest, hread, hpeer, hallowed peer hpermit, hwrite, hreply⟩

/-- **What holds of a responder** that so much arrived at. -/
def Heard (snow : Snow σ) (first : σ) (allowed : PublicKey → Prop) (arrived : Bytes)
    (s : Party σ) : Prop :=
  match s.stage with
  | .greeting _ _ => False
  | .reading handshake got =>
      handshake = first ∧ s.sent = [] ∧ arrived = got ++ s.inbox ∧ Short got
  | .replying handshake peer left =>
      ∃ request reply, Accepted snow first allowed peer request reply handshake ∧
        arrived = request ++ s.inbox ∧ s.sent ++ left = reply
  | .done handshake peer =>
      ∃ request reply session, Accepted snow first allowed peer request reply handshake ∧
        arrived = request ++ s.inbox ∧ s.sent = reply ++ session
  | .failed _ =>
      s.sent = [] ∨ ∃ handshake peer request reply rest left,
        Accepted snow first allowed peer request reply handshake ∧ arrived = request ++ rest ∧
          s.sent ++ left = reply

/-- What arrives with an event. -/
def arrival : Event → Bytes
  | .arrive chunk => chunk
  | _ => []

/-- Whom the policy says yes to in an event. -/
def permits : Event → PublicKey → Prop
  | .read _ policy, peer => policy peer = true
  | _, _ => False

/-- Whom the policy has said yes to. -/
def Allowed (trace : List (Event × Unit)) (peer : PublicKey) : Prop :=
  ∃ entry ∈ trace, permits entry.1 peer

/-- What has arrived. -/
def arrivals (trace : List (Event × Unit)) : Bytes := trace.flatMap fun entry => arrival entry.1

/-- A message that was read: a peer that may have a reply gets one. -/
theorem received_responder (policy : PublicKey → Bool) (message : Bytes) :
    (∃ err, received snow .responder policy first message = .failed err) ∨
      ∃ handshake peer reply, received snow .responder policy first message =
          .replying handshake peer reply ∧ policy peer = true ∧
        ∀ request, frame message = some request →
          Accepted snow first (fun key => policy key = true) peer request reply handshake := by
  unfold received
  cases hread : snow.readMessage first message with
  | none => exact .inl ⟨_, rfl⟩
  | some read =>
      dsimp only
      cases hpeer : snow.remoteStatic read with
      | none => exact .inl ⟨_, rfl⟩
      | some peer =>
          dsimp only
          by_cases hpolicy : policy peer = true
          · rw [if_pos hpolicy]
            unfold writing
            cases hwrite : snow.writeMessage read with
            | none => exact .inl ⟨_, rfl⟩
            | some written =>
                obtain ⟨answer, handshake⟩ := written
                dsimp only
                cases hreply : frame answer with
                | none => exact .inl ⟨_, rfl⟩
                | some reply =>
                    refine .inr ⟨handshake, peer, reply, rfl, hpolicy, fun request hrequest => ?_⟩
                    exact ⟨message, answer, read, hrequest, hread, hpeer, hpolicy, hwrite, hreply⟩
          · rw [if_neg hpolicy]
            exact .inl ⟨_, rfl⟩

/-- A responder that gives up, before the end of its handshake. -/
theorem Heard.stop (h : Heard snow first allowed arrived s) (err : TransportError)
    (hopen : ∀ handshake peer, s.stage ≠ .done handshake peer) :
    Heard snow first allowed arrived { s with stage := .failed err } := by
  unfold Heard at h ⊢
  dsimp only
  cases hstage : s.stage with
  | greeting hs left =>
      rw [hstage] at h
      exact h.elim
  | reading hs got =>
      rw [hstage] at h
      exact .inl h.2.1
  | replying hs peer left =>
      rw [hstage] at h
      obtain ⟨request, reply, haccepted, harrived, hreply⟩ := h
      exact .inr ⟨hs, peer, request, reply, s.inbox, left, haccepted, harrived, hreply⟩
  | done hs peer => exact absurd hstage (hopen hs peer)
  | failed err' =>
      rw [hstage] at h
      exact h

theorem Heard.mono (hallowed : ∀ key, allowed key → allowed' key)
    (h : Heard snow first allowed arrived s) : Heard snow first allowed' arrived s := by
  unfold Heard at h ⊢
  split at h
  · exact h
  · exact h
  · obtain ⟨request, reply, haccepted, harrived, hreply⟩ := h
    exact ⟨request, reply, haccepted.mono hallowed, harrived, hreply⟩
  · obtain ⟨request, reply, session, haccepted, harrived, hreply⟩ := h
    exact ⟨request, reply, session, haccepted.mono hallowed, harrived, hreply⟩
  · refine h.imp_right ?_
    rintro ⟨hs, peer, request, reply, rest, left, haccepted, harrived, hreply⟩
    exact ⟨hs, peer, request, reply, rest, left, haccepted.mono hallowed, harrived, hreply⟩

/-- **One step** keeps what holds of a responder. -/
theorem Heard.step (h : Heard snow first allowed arrived s)
    (hstep : s.step snow .responder e = some (t, ())) :
    Heard snow first (fun peer => allowed peer ∨ permits e peer) (arrived ++ arrival e) t := by
  have hmono : ∀ key, allowed key → allowed key ∨ permits e key := fun key => Or.inl
  cases e with
  | arrive chunk =>
      cases hstep
      unfold Heard at h ⊢
      dsimp only [arrival]
      cases hstage : s.stage with
      | greeting hs left =>
          rw [hstage] at h
          exact h
      | reading hs got =>
          rw [hstage] at h
          obtain ⟨hhs, hsent, rfl, hshort⟩ := h
          exact ⟨hhs, hsent, List.append_assoc .., hshort⟩
      | replying hs peer left =>
          rw [hstage] at h
          obtain ⟨request, reply, haccepted, rfl, hreply⟩ := h
          exact ⟨request, reply, haccepted.mono hmono, List.append_assoc .., hreply⟩
      | done hs peer =>
          rw [hstage] at h
          obtain ⟨request, reply, session, haccepted, rfl, hreply⟩ := h
          exact ⟨request, reply, session, haccepted.mono hmono, List.append_assoc .., hreply⟩
      | failed err =>
          rw [hstage] at h
          refine h.imp_right ?_
          rintro ⟨hs, peer, request, reply, rest, left, haccepted, rfl, hreply⟩
          exact ⟨hs, peer, request, reply, rest ++ chunk, left, haccepted.mono hmono,
            List.append_assoc .., hreply⟩
  | read count policy =>
      unfold Heard at h ⊢
      dsimp only [Party.step] at hstep
      split at hstep
      · next hs got hstage =>
          rw [hstage] at h
          obtain ⟨rfl, hsent, rfl, hshort⟩ := h
          generalize htaken : s.inbox.take (min count (wanted got)) = taken at hstep
          split_ifs at hstep with hnone
          cases hstep
          dsimp only [arrival]
          have hle : taken.length ≤ wanted got := by
            rw [← htaken, List.length_take]
            omega
          -- The inbox begins with what was taken.
          have hinbox : s.inbox = taken ++ s.inbox.drop taken.length := by
            have hfront : taken <+: s.inbox := by
              rw [← htaken]
              exact List.take_prefix ..
            exact (List.prefix_iff_eq_append.mp hfront).symm
          have harrived : got ++ s.inbox ++ [] = (got ++ taken) ++ s.inbox.drop taken.length := by
            rw [List.append_nil, List.append_assoc, ← hinbox]
          rcases @advance_cases σ snow .responder policy hs got taken hshort hle with
            ⟨hmore, heq⟩ | heq | ⟨message, hmessage, -, heq⟩
          · rw [heq]
            exact ⟨rfl, hsent, harrived, hmore⟩
          · rw [heq]
            exact .inl hsent
          · rw [heq]
            rcases @received_responder σ snow hs policy message with
              ⟨err, hfailed⟩ | ⟨handshake, peer, reply, hreply, hpolicy, haccepted⟩
            · rw [hfailed]
              exact .inl hsent
            · rw [hreply]
              refine ⟨got ++ taken, reply, (haccepted _ hmessage).mono fun key => .inr, harrived, ?_⟩
              rw [hsent, List.nil_append]
      · cases hstep
  | write count =>
      unfold Heard at h ⊢
      dsimp only [Party.step] at hstep
      split at hstep
      · next hs left hstage =>
          rw [hstage] at h
          exact h.elim
      · next hs peer left hstage =>
          rw [hstage] at h
          obtain ⟨request, reply, haccepted, rfl, hreply⟩ := h
          split_ifs at hstep with hzero hempty hfinished
          · cases hstep
            refine ⟨request, reply, [], haccepted.mono hmono, by simp [arrival], ?_⟩
            rw [List.append_nil, ← hreply, ← List.take_append_drop count left, hempty,
              List.append_nil, List.take_take, Nat.min_self]
          · cases hstep
            refine .inr ⟨hs, peer, request, reply, s.inbox, [], haccepted.mono hmono,
              by simp [arrival], ?_⟩
            rw [List.append_nil, ← hreply, ← List.take_append_drop count left, hempty,
              List.append_nil, List.take_take, Nat.min_self]
          · cases hstep
            refine ⟨request, reply, haccepted.mono hmono, by simp [arrival], ?_⟩
            rw [List.append_assoc, List.take_append_drop, hreply]
      · cases hstep
  | fail =>
      rw [show arrival .fail = [] from rfl, List.append_nil]
      dsimp only [Party.step] at hstep
      split at hstep
      · cases hstep
      · cases hstep
      · next hdone _ =>
          cases hstep
          exact (h.stop .handshakeFailed hdone).mono hmono
  | timeout =>
      rw [show arrival .timeout = [] from rfl, List.append_nil]
      dsimp only [Party.step] at hstep
      split at hstep
      · cases hstep
      · cases hstep
      · next hdone _ =>
          cases hstep
          exact (h.stop .timeout hdone).mono hmono
  | speak bytes =>
      unfold Heard at h ⊢
      dsimp only [Party.step] at hstep
      split at hstep
      · next hs peer hstage =>
          cases hstep
          rw [hstage] at h
          obtain ⟨request, reply, session, haccepted, rfl, hreply⟩ := h
          dsimp only
          rw [hstage]
          refine ⟨request, reply, session ++ bytes, haccepted.mono hmono, by simp [arrival], ?_⟩
          rw [hreply, List.append_assoc]
      · cases hstep

/-- **What holds of a responder in every run.** -/
theorem run_heard (hrun : Transition.Run (Party.step snow .responder) Transition.unguarded
    (start snow .responder first) trace s) : Heard snow first (Allowed trace) (arrivals trace) s := by
  refine hrun.invariant (fun trace s => Heard snow first (Allowed trace) (arrivals trace) s) ?_ ?_
  · exact ⟨rfl, rfl, rfl, Nat.zero_lt_two⟩
  · intro trace s e t o h _ hstep
    have harrivals : arrivals (trace ++ [(e, o)]) = arrivals trace ++ arrival e := by
      simp [arrivals]
    rw [harrivals]
    refine (h.step hstep).mono ?_
    rintro key (⟨entry, hmem, hpermits⟩ | hpermits)
    · exact ⟨entry, List.mem_append_left _ hmem, hpermits⟩
    · exact ⟨(e, o), List.mem_append_right _ (List.mem_singleton_self _), hpermits⟩

/-- **The responder is silent until the policy says yes.**  Whatever arrives, cut
anywhere, a byte goes out only behind a whole message that the library reads, with a
key that the policy said yes to; what goes out is the reply to it, and once the
handshake is finished the session finds exactly what came behind that message. -/
theorem silent_until_authorized
    (hrun : Transition.Run (Party.step snow .responder) Transition.unguarded
      (start snow .responder first) trace s) :
    (s.sent ≠ [] → ∃ handshake peer request reply rest,
      Accepted snow first (Allowed trace) peer request reply handshake ∧
        arrivals trace = request ++ rest ∧ (s.sent <+: reply ∨ reply <+: s.sent)) ∧
    ∀ handshake peer, s.stage = .done handshake peer → ∃ request reply session,
      Accepted snow first (Allowed trace) peer request reply handshake ∧
        arrivals trace = request ++ s.inbox ∧ s.sent = reply ++ session := by
  have hheard := run_heard hrun
  unfold Heard at hheard
  constructor
  · intro hsent
    split at hheard
    · exact hheard.elim
    · exact absurd hheard.2.1 hsent
    · next hs peer left hstage =>
        obtain ⟨request, reply, haccepted, harrived, hreply⟩ := hheard
        exact ⟨hs, peer, request, reply, s.inbox, haccepted, harrived, .inl ⟨left, hreply⟩⟩
    · next hs peer hstage =>
        obtain ⟨request, reply, session, haccepted, harrived, hreply⟩ := hheard
        exact ⟨hs, peer, request, reply, s.inbox, haccepted, harrived, .inr ⟨session, hreply.symm⟩⟩
    · next err hstage =>
        rcases hheard with hnone | ⟨hs, peer, request, reply, rest, left, haccepted, harrived, hreply⟩
        · exact absurd hnone hsent
        · exact ⟨hs, peer, request, reply, rest, haccepted, harrived, .inl ⟨left, hreply⟩⟩
  · intro handshake peer hstage
    rw [hstage] at hheard
    exact hheard

end Responder

/-- A library that takes one message, from one peer. -/
def oneMessage : Snow Nat where
  readMessage handshake message := if handshake = 0 ∧ message = [1, 2, 3] then some 1 else none
  writeMessage handshake := if handshake = 1 then some ([9], 2) else none
  isFinished handshake := handshake == 2
  remoteStatic handshake := if handshake = 1 then some (.replicate 7) else none

/-- The message comes in two pieces, the second with a byte of the session. -/
def twoPieces : List Event :=
  [.arrive [0, 3, 1], .read 2 fun _ => false, .read 5 fun _ => false, .arrive [2, 3, 42],
    .read 5 fun _ => true, .write 1, .write 9]

theorem silent_until_authorized_sample : ∃ (trace : List (Event × Unit)) (s : Party Nat),
    ∃ handshake peer request reply, trace.map Prod.fst = twoPieces ∧ s.sent = [0, 1, 9] ∧ s.inbox = [42] ∧
      Accepted oneMessage 0 (Allowed trace) peer request reply handshake ∧
      arrivals trace = request ++ s.inbox := by
  have hexec : Transition.exec (Party.step oneMessage .responder) Transition.unguarded twoPieces []
      (start oneMessage .responder 0) = some (_, ⟨[42], [0, 1, 9], .done 2 (.replicate 7)⟩) := rfl
  have hrun := Transition.run_of_exec twoPieces hexec
  obtain ⟨request, reply, session, haccepted, harrived, -⟩ :=
    (silent_until_authorized hrun).2 2 (.replicate 7) rfl
  exact ⟨_, _, 2, .replicate 7, request, reply, Transition.events_of_exec hexec, rfl, rfl,
    haccepted, harrived⟩

end Transport.Handshake
