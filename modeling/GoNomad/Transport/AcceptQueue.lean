import GoNomad.Lib.BoundedQueue
import GoNomad.Lib.Run

/-!
# Accepted connections

Each inbound peer has a task that runs its handshake and then sends the
connection to a queue of `accept_queue` places, which `accept` reads.  Over TCP
a task holds one of `max_pending_handshakes` slots until its send is through;
over iroh nothing limits the tasks.

* `step_spec` — what a step does to the slots and to what is not returned;
* `accepted_bounded` — over TCP what is not returned is bounded in every run, over
  iroh exactly in the runs in which only so many connections wait for a place;
* `not_bounded` — no function of the configuration bounds what iroh buffers.
-/

namespace Transport.Accept

/-- What a TCP acceptor is configured with. -/
structure ServerConfig where
  acceptQueue : Nat
  maxPendingHandshakes : Nat

/-- What an iroh acceptor is configured with. -/
structure IrohConfig where
  acceptQueue : Nat

variable {Peer : Type}

/-- An acceptor: the slots that are free, where there are slots, the peer that
was accepted and has none yet, the handshakes that run, and the connections on
their way to the caller. -/
structure Acceptor (Peer : Type) where
  slots : Option Nat
  accepted : Option Peer
  handshaking : List Peer
  queue : BoundedQueue Peer

namespace Acceptor

/-- The acceptor of a TCP listener. -/
def tcp (config : ServerConfig) : Acceptor Peer :=
  ⟨some (max config.maxPendingHandshakes 1), none, [], .new (max config.acceptQueue 1)⟩

/-- The acceptor of an iroh endpoint. -/
def iroh (config : IrohConfig) : Acceptor Peer := ⟨none, none, [], .new (max config.acceptQueue 1)⟩

/-- Takes a slot, where there are slots. -/
def acquire : Option Nat → Option (Option Nat)
  | none => some none
  | some 0 => none
  | some (n + 1) => some (some n)

/-- Gives a slot back. -/
def release (slots : Option Nat) : Option Nat := slots.map (· + 1)

/-- What can happen next. -/
inductive Event (Peer : Type)
  /-- The loop accepts a peer. -/
  | accept (peer : Peer)
  /-- The loop has a slot for the peer and starts its task. -/
  | spawn
  /-- A handshake succeeds, and the task sends the connection. -/
  | greeted (task : Nat)
  /-- A handshake fails or runs out of time. -/
  | rejected (task : Nat)
  /-- A send that waited is through. -/
  | sent (task : Nat)
  /-- The caller takes a connection. -/
  | take
  deriving DecidableEq

/-- One step, and the connection that it returns. -/
def step (s : Acceptor Peer) : Event Peer → Option (Acceptor Peer × Option Peer)
  | .accept peer =>
      match s.accepted with
      | none => some ({ s with accepted := some peer }, none)
      | some _ => none
  | .spawn =>
      match s.accepted, acquire s.slots with
      | some peer, some slots =>
          some ({ s with slots, accepted := none, handshaking := s.handshaking ++ [peer] }, none)
      | _, _ => none
  | .greeted task =>
      match s.handshaking[task]? with
      | none => none
      | some peer =>
          let (queue, through) := s.queue.send peer
          some ({ s with
            slots := if through then release s.slots else s.slots
            handshaking := s.handshaking.eraseIdx task
            queue }, none)
  | .rejected task =>
      if task < s.handshaking.length then
        some ({ s with
          slots := release s.slots
          handshaking := s.handshaking.eraseIdx task }, none)
      else none
  | .sent task =>
      match s.queue.run task with
      | none => none
      | some queue => some ({ s with slots := release s.slots, queue }, none)
  | .take =>
      match s.queue.recv with
      | none => none
      | some (peer, queue) => some ({ s with queue }, some peer)

/-- The authenticated connections that `accept` did not return. -/
def unreturned (s : Acceptor Peer) : Nat := s.queue.held

/-- A handshake succeeds only where there is a place for the connection, or
fewer than so many connections wait for one. -/
def Roomy (limit : Nat) (_ : List (Event Peer × Option Peer)) (s : Acceptor Peer) :
    Event Peer → Prop
  | .greeted _ => s.queue.Roomy ∨ s.queue.parked.length < limit
  | _ => True

instance (limit : Nat) (trace : List (Event Peer × Option Peer)) (s : Acceptor Peer)
    (event : Event Peer) : Decidable (Roomy limit trace s event) :=
  match event with
  | .greeted _ => inferInstanceAs (Decidable (_ ∨ _))
  | .accept _ | .spawn | .rejected _ | .sent _ | .take => inferInstanceAs (Decidable True)

/-- A step that leaves so many connections unreturned. -/
def Within (bound : Nat) (_ : List (Event Peer × Option Peer)) (s : Acceptor Peer)
    (event : Event Peer) : Prop :=
  ∀ t out, step s event = some (t, out) → t.unreturned ≤ bound

variable {s t : Acceptor Peer} {event : Event Peer} {out : Option Peer}

/-- The tasks that hold a slot. -/
def tasks (s : Acceptor Peer) : Nat := s.handshaking.length + s.queue.waiting

/-- The slots, free and held, where there are slots. -/
def total (s : Acceptor Peer) : Option Nat := s.slots.map (· + s.tasks)

theorem map_acquire {slots slots' : Option Nat} (h : acquire slots = some slots') (n : Nat) :
    slots'.map (· + (n + 1)) = slots.map (· + n) := by
  match slots with
  | none =>
      cases h
      rfl
  | some 0 => cases h
  | some (k + 1) =>
      cases h
      exact congrArg some (Nat.succ_add_eq_add_succ k n).symm

theorem map_release (slots : Option Nat) (n : Nat) :
    (release slots).map (· + n) = slots.map (· + (n + 1)) := by
  match slots with
  | none => rfl
  | some k => exact congrArg some (Nat.succ_add_eq_add_succ k n)

/-- **What a step does**: slots are neither lost nor made, and only a handshake
that succeeds adds a connection. -/
theorem step_spec (h : step s event = some (t, out)) :
    t.total = s.total ∧ t.queue.capacity = s.queue.capacity ∧
      ((∃ task, event = .greeted task) ∧ t.unreturned = s.unreturned + 1 ∨
        (∀ task, event ≠ .greeted task) ∧ t.unreturned ≤ s.unreturned) := by
  cases event with
  | accept peer =>
      dsimp only [step] at h
      split at h
      · cases h
        exact ⟨rfl, rfl, .inr ⟨fun _ => (nomatch ·), Nat.le_refl _⟩⟩
      · cases h
  | spawn =>
      dsimp only [step] at h
      split at h
      · next slots _ hslots =>
          cases h
          refine ⟨?_, rfl, .inr ⟨fun _ => (nomatch ·), Nat.le_refl _⟩⟩
          unfold total tasks
          rw [← map_acquire hslots, List.length_append, List.length_singleton]
          dsimp only
          rw [Nat.add_right_comm]
      · cases h
  | greeted task =>
      dsimp only [step] at h
      split at h
      · cases h
      · next peer hpeer =>
          have hlt := (List.getElem?_eq_some_iff.mp hpeer).1
          cases h
          refine ⟨?_, BoundedQueue.capacity_send, .inl ⟨⟨task, rfl⟩, BoundedQueue.held_send⟩⟩
          unfold total tasks
          dsimp only
          rw [List.length_eraseIdx_of_lt hlt]
          by_cases hroom : s.queue.Roomy
          · obtain ⟨hthrough, -, hwaiting⟩ := BoundedQueue.send_of_roomy (a := peer) hroom
            rw [hthrough, hwaiting, if_pos rfl, map_release]
            congr 2
            funext n
            omega
          · obtain ⟨hthrough, hwaiting⟩ := BoundedQueue.send_of_not_roomy (a := peer) hroom
            rw [hthrough, hwaiting, if_neg Bool.false_ne_true]
            congr 2
            funext n
            omega
  | rejected task =>
      dsimp only [step] at h
      split_ifs at h with hlt
      cases h
      refine ⟨?_, rfl, .inr ⟨fun _ => (nomatch ·), Nat.le_refl _⟩⟩
      unfold total tasks
      dsimp only
      rw [List.length_eraseIdx_of_lt hlt, map_release]
      congr 2
      funext n
      omega
  | sent task =>
      dsimp only [step] at h
      split at h
      · cases h
      · next queue hrun =>
          obtain ⟨hheld, hwaiting, hcapacity⟩ := BoundedQueue.held_run hrun
          cases h
          refine ⟨?_, hcapacity, .inr ⟨fun _ => (nomatch ·), Nat.le_of_eq hheld⟩⟩
          unfold total tasks
          dsimp only
          rw [map_release, ← hwaiting, Nat.add_assoc]
  | take =>
      dsimp only [step] at h
      split at h
      · cases h
      · next peer queue hrecv =>
          obtain ⟨hheld, hwaiting, hcapacity⟩ := BoundedQueue.held_recv hrecv
          cases h
          refine ⟨?_, hcapacity, .inr ⟨fun _ => (nomatch ·), Nat.le_of_succ_le (Nat.le_of_eq hheld)⟩⟩
          unfold total tasks
          dsimp only
          rw [hwaiting]

variable {init : Acceptor Peer} {trace : List (Event Peer × Option Peer)}
variable {ok : List (Event Peer × Option Peer) → Acceptor Peer → Event Peer → Prop}

/-- **A whole run** neither loses nor makes slots. -/
theorem run_total (hrun : Transition.Run step ok init trace s) :
    s.total = init.total ∧ s.queue.capacity = init.queue.capacity := by
  apply hrun.invariant fun _ s => s.total = init.total ∧ s.queue.capacity = init.queue.capacity
  · exact ⟨rfl, rfl⟩
  · intro trace s event t out ih _ hstep
    obtain ⟨htotal, hcapacity, -⟩ := step_spec hstep
    exact ⟨htotal.trans ih.1, hcapacity.trans ih.2⟩

/-- A handshake that succeeds stays within a bound exactly where there is room. -/
theorem within_iff {limit : Nat} (hs : s.unreturned ≤ s.queue.capacity + limit)
    (hstep : step s event = some (t, out)) :
    Within (s.queue.capacity + limit) trace s event ↔ Roomy limit trace s event := by
  have hwithin : Within (s.queue.capacity + limit) trace s event ↔
      t.unreturned ≤ s.queue.capacity + limit := by
    constructor
    · intro h
      exact h t out hstep
    · intro h t' out' hstep'
      rw [hstep] at hstep'
      cases hstep'
      exact h
  rw [hwithin]
  obtain ⟨-, -, ⟨⟨task, rfl⟩, hadded⟩ | ⟨hother, hle⟩⟩ := step_spec hstep
  · show t.unreturned ≤ _ ↔ s.queue.Roomy ∨ s.queue.parked.length < limit
    unfold unreturned at hadded hs ⊢
    by_cases hroom : s.queue.Roomy
    · have hheld := BoundedQueue.held_of_roomy hroom
      exact ⟨fun _ => .inl hroom, fun _ => by omega⟩
    · have hheld := BoundedQueue.held_of_not_roomy hroom
      constructor
      · intro h
        right
        omega
      · intro h
        have hlt := h.resolve_left hroom
        omega
  · refine ⟨fun _ => ?_, fun _ => Nat.le_trans hle hs⟩
    cases event with
    | greeted task => exact absurd rfl (hother task)
    | _ => trivial

/-- A run with room stays within the bound. -/
theorem unreturned_le {limit : Nat} (hinit : init.unreturned = 0)
    (hrun : Transition.Run step (Roomy limit) init trace s) :
    s.unreturned ≤ s.queue.capacity + limit := by
  induction hrun with
  | nil => exact hinit ▸ Nat.zero_le _
  | snoc _ guard taken ih =>
      obtain ⟨-, hcapacity, -⟩ := step_spec taken
      have hwithin := (within_iff ih taken).mpr guard
      rw [hcapacity]
      exact hwithin _ _ taken

/-- **The runs that stay within a bound** are those with room. -/
theorem run_within_iff {limit : Nat} (hinit : init.unreturned = 0) :
    Transition.Run step (Within (init.queue.capacity + limit)) init trace s ↔
      Transition.Run step (Roomy limit) init trace s := by
  constructor
  · intro hrun
    induction hrun with
    | nil => exact .nil
    | snoc _ guard taken ih =>
        have hcapacity := (run_total ih).2
        have hle := unreturned_le hinit ih
        rw [← hcapacity] at guard
        exact ih.snoc ((within_iff hle taken).mp guard) taken
  · intro hrun
    induction hrun with
    | nil => exact .nil
    | snoc run guard taken ih =>
        have hcapacity := (run_total run).2
        have hle := unreturned_le hinit run
        refine ih.snoc ?_ taken
        rw [← hcapacity]
        exact (within_iff hle taken).mpr guard

/-- What is not returned is in the queue or held by a task. -/
theorem unreturned_le_tasks : s.unreturned ≤ s.queue.capacity + s.tasks := by
  have hfits := s.queue.fits
  unfold unreturned tasks BoundedQueue.held BoundedQueue.waiting
  omega

/-- **Over TCP** a task holds its slot until its connection has a place. -/
theorem tcp_bounded {config : ServerConfig}
    (hrun : Transition.Run step ok (tcp config) trace s) :
    s.unreturned ≤ max config.acceptQueue 1 + max config.maxPendingHandshakes 1 := by
  obtain ⟨htotal, hcapacity⟩ := run_total hrun
  obtain ⟨free, hslots, htasks⟩ := Option.map_eq_some_iff.mp (htotal : s.total = some _)
  have hle := @unreturned_le_tasks _ s
  have hcap : s.queue.capacity = max config.acceptQueue 1 := hcapacity
  have htasks : free + s.tasks = max config.maxPendingHandshakes 1 := htasks
  omega

/-- **What is accepted and not returned**: over TCP it is bounded by the queue
and the slots in every run.  Over iroh it stays within the queue and some limit
exactly in the runs in which a handshake succeeds only where there is a place, or
fewer connections than the limit wait for one. -/
theorem accepted_bounded :
    (∀ (config : ServerConfig) (trace : List (Event Peer × Option Peer)) (s : Acceptor Peer),
      Transition.Run step Transition.unguarded (tcp config) trace s →
      s.unreturned ≤ max config.acceptQueue 1 + max config.maxPendingHandshakes 1) ∧
    (∀ (config : IrohConfig) (limit : Nat) (trace : List (Event Peer × Option Peer))
      (s : Acceptor Peer),
      (Transition.Run step (Roomy limit) (iroh config) trace s →
        s.unreturned ≤ max config.acceptQueue 1 + limit) ∧
      (Transition.Run step (Within (max config.acceptQueue 1 + limit)) (iroh config) trace s ↔
        Transition.Run step (Roomy limit) (iroh config) trace s)) := by
  refine ⟨fun config trace s hrun => tcp_bounded hrun, fun config limit trace s => ⟨?_, ?_⟩⟩
  · intro hrun
    have hcapacity : s.queue.capacity = max config.acceptQueue 1 := (run_total hrun).2
    rw [← hcapacity]
    exact unreturned_le rfl hrun
  · have hnew : (iroh config : Acceptor Peer).unreturned = 0 := rfl
    exact run_within_iff hnew

/-- Over iroh the third of three peers waits, where two fit and nobody takes a connection. -/
theorem accepted_bounded_waiting :
    ∃ trace s, Transition.Run step (Roomy 1) (iroh ⟨2⟩ : Acceptor Nat) trace s ∧
      s.unreturned = 3 ∧ s.unreturned ≤ max 2 1 + 1 := by
  have hrun : Transition.Run step (Roomy 1) (iroh ⟨2⟩ : Acceptor Nat) _ _ :=
    Transition.run_of_exec
      [.accept 7, .spawn, .accept 8, .spawn, .accept 9, .spawn, .greeted 1, .greeted 0, .greeted 0]
      rfl
  exact ⟨_, _, hrun, rfl, (accepted_bounded.2 ⟨2⟩ 1 _ _).1 hrun⟩

/-- Peers that are greeted one after the other while nobody takes a connection. -/
theorem flooded (config : IrohConfig) (n : Nat) :
    ∃ trace s, Transition.Run step Transition.unguarded (iroh config : Acceptor Nat) trace s ∧
      s.slots = none ∧ s.accepted = none ∧ s.handshaking = [] ∧ s.unreturned = n := by
  induction n with
  | zero => exact ⟨[], _, .nil, rfl, rfl, rfl, rfl⟩
  | succ n ih =>
      obtain ⟨trace, ⟨slots, accepted, handshaking, queue⟩, hrun, rfl, rfl, rfl, hn⟩ := ih
      have haccept : step ⟨none, none, [], queue⟩ (.accept n) =
          some (⟨none, some n, [], queue⟩, none) := rfl
      have hspawn : step ⟨none, some n, [], queue⟩ .spawn =
          some (⟨none, none, [n], queue⟩, none) := rfl
      have hgreeted : step ⟨none, none, [n], queue⟩ (.greeted 0) =
          some (⟨if (queue.send n).2 then release none else none, none, [], (queue.send n).1⟩,
            none) := rfl
      refine ⟨_, _, ((hrun.snoc trivial haccept).snoc trivial hspawn).snoc trivial hgreeted, ?_, rfl,
        rfl, ?_⟩
      · dsimp only
        split_ifs
        · rfl
        · rfl
      · rw [← hn]
        exact BoundedQueue.held_send

/-- No function of the configuration bounds what iroh buffers. -/
theorem not_bounded : ¬∃ bound : IrohConfig → Nat, ∀ (config : IrohConfig)
    (trace : List (Event Nat × Option Nat)) (s : Acceptor Nat),
    Transition.Run step Transition.unguarded (iroh config) trace s →
      s.unreturned ≤ bound config := by
  rintro ⟨bound, hbound⟩
  obtain ⟨trace, s, hrun, -, -, -, hn⟩ := flooded ⟨16⟩ (bound ⟨16⟩ + 1)
  have := hbound _ _ _ hrun
  omega

end Acceptor

end Transport.Accept
