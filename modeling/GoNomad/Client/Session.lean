import GoNomad.Lib.Run
import GoNomad.Proto.Control
import Mathlib.Data.List.AList
import Mathlib.Logic.Function.Basic

/-!
# Requests and responses on one connection

Any number of tasks issue requests over one control stream while one task reads
it.  A request takes a correlation id, registers a slot for it, sends, and waits
for what comes through the slot until its deadline; the reader takes the slot
that a response names out of the map and sends the reply through it, and when
the stream ends it drops every slot that is left.
-/

namespace Client

open Proto

/-- A response body, as delivered to the request that waits for it. -/
abbrev Reply := Except ProtoError (List UInt8)

/-- What a response body is delivered as; a progress is not. -/
def replyOf : ResponseBody → Option Reply
  | .ok result => some (.ok result)
  | .error error => some (.error error)
  | .progress .. => none

/-- What a request returns. -/
inductive Outcome
  | ok (result : List UInt8)
  /-- The daemon's error. -/
  | remote (error : ProtoError)
  /-- The parameters could not be encoded, or the result not be decoded. -/
  | codec
  | transport
  | connectionLost
  | timeout
  deriving DecidableEq

/-- The channel from the reader to one request. -/
inductive Channel
  /-- Its sender is somewhere and has sent nothing. -/
  | unused
  | sent (reply : Reply)
  /-- Its sender was dropped. -/
  | closed

/-- The outcome of a request that has its reply, or none to come. -/
def Channel.outcome (decoded : Bool) : Channel → Option Outcome
  | .unused => none
  | .sent (.ok result) => some (if decoded then .ok result else .codec)
  | .sent (.error error) => some (.remote error)
  | .closed => some .connectionLost

/-- Where a request is. -/
inductive Stage
  | unborn
  /-- It has its id. -/
  | numbered
  /-- Its slot is registered, and its send not through. -/
  | sending
  /-- Its send failed. -/
  | refused
  /-- It waits for its reply. -/
  | waiting
  /-- It waited until its deadline. -/
  | expired
  /-- It tells the daemon that it gave up. -/
  | cancelling
  | returned (outcome : Outcome)
  /-- Its task was dropped. -/
  | dropped
  deriving DecidableEq

structure Call where
  id : UInt64
  stage : Stage
  channel : Channel

/-- Where the reader is. -/
inductive Reader
  /-- It waits for a frame. -/
  | reading
  /-- It took the slot of a request and has a reply for it. -/
  | holding (request : Nat) (reply : Reply)
  /-- It answers a heartbeat. -/
  | answering (nonce : UInt64)
  /-- It left its loop. -/
  | broken
  /-- It emptied the map and drops what was in it. -/
  | abandoning (requests : List Nat)
  | ended

/-- The slots of the requests that wait, by correlation id. -/
abbrev PendingMap := AList fun _ : UInt64 => Nat

/-- One live control stream; `closed` says that its connection is. -/
structure Session where
  nextId : UInt64
  count : Nat
  call : Nat → Call
  slots : PendingMap
  reader : Reader
  closed : Bool

namespace Session

def start : Session := ⟨1, 0, fun _ => ⟨0, .unborn, .unused⟩, ∅, .reading, false⟩

def setStage (s : Session) (r : Nat) (stage : Stage) : Session :=
  { s with call := Function.update s.call r { s.call r with stage } }

def setChannel (s : Session) (r : Nat) (channel : Channel) : Session :=
  { s with call := Function.update s.call r { s.call r with channel } }

/-- Removes a slot; its sender is dropped. -/
def dropSlot (s : Session) (id : UInt64) : Session :=
  match s.slots.lookup id with
  | none => s
  | some r => { s.setChannel r .closed with slots := s.slots.erase id }

/-- Registers a slot; one that is there for the same id is dropped. -/
def register (s : Session) (r : Nat) : Session :=
  { s.dropSlot (s.call r).id with slots := (s.dropSlot (s.call r).id).slots.insert (s.call r).id r }

/-- Routes one response to the request that waits for it. -/
def deliver (s : Session) (response : Response) : Session :=
  match replyOf response.body with
  | none => s
  | some reply =>
      match s.slots.lookup response.correlationId with
      | none => s
      | some r => { s with slots := s.slots.erase response.correlationId, reader := .holding r reply }

/-- What can happen next. -/
inductive Event
  /-- A request takes the next id. -/
  | number
  | encodingFails (r : Nat)
  | register (r : Nat)
  /-- The send of a request is through. -/
  | sent (r : Nat)
  | sendFails (r : Nat)
  /-- A request whose send failed, or whose deadline is over, removes its slot. -/
  | takeBack (r : Nat)
  /-- A request has its reply, or learns that there will be none. -/
  | wake (r : Nat) (decoded : Bool)
  /-- The deadline of a request is over. -/
  | expire (r : Nat)
  /-- The daemon was told, or could not be. -/
  | cancelled (r : Nat)
  /-- The task of a request is dropped. -/
  | drop (r : Nat)
  /-- The reader has a frame: what it says, if that can be decoded. -/
  | receive (message : Option ControlMessage)
  /-- The reader sends the reply through the slot it took. -/
  | hand
  | answered
  | answerFails
  /-- The stream ends, or nothing more can be read from it. -/
  | streamEnds
  | abandon
  /-- One of the slots that were in the map is dropped. -/
  | release (i : Nat)
  | leave
  /-- The connection is closed. -/
  | close

/-- One step, and the request that returns with its outcome. -/
def step (s : Session) : Event → Option (Session × Option (Nat × Outcome))
  | .number =>
      some ({ s with
        nextId := s.nextId + 1
        count := s.count + 1
        call := Function.update s.call s.count ⟨s.nextId, .numbered, .unused⟩ }, none)
  | .encodingFails r =>
      if (s.call r).stage = .numbered then
        some (s.setStage r (.returned .codec), some (r, .codec))
      else none
  | .register r =>
      if (s.call r).stage = .numbered then some ((s.register r).setStage r .sending, none) else none
  | .sent r =>
      -- Nothing is written to a connection that is closed.
      if (s.call r).stage = .sending ∧ s.closed = false then some (s.setStage r .waiting, none)
      else none
  | .sendFails r =>
      if (s.call r).stage = .sending then some (s.setStage r .refused, none) else none
  | .takeBack r =>
      match (s.call r).stage with
      | .refused =>
          some ((s.dropSlot (s.call r).id).setStage r (.returned .transport), some (r, .transport))
      | .expired => some ((s.dropSlot (s.call r).id).setStage r .cancelling, none)
      | _ => none
  | .wake r decoded =>
      if (s.call r).stage = .waiting then
        match (s.call r).channel.outcome decoded with
        | none => none
        | some outcome => some (s.setStage r (.returned outcome), some (r, outcome))
      else none
  | .expire r =>
      match (s.call r).stage, (s.call r).channel with
      | .waiting, .unused => some (s.setStage r .expired, none)
      | _, _ => none
  | .cancelled r =>
      if (s.call r).stage = .cancelling then
        some (s.setStage r (.returned .timeout), some (r, .timeout))
      else none
  | .drop r =>
      match (s.call r).stage with
      | .sending | .waiting | .cancelling => some (s.setStage r .dropped, none)
      | _ => none
  | .receive message =>
      match s.reader, message with
      | .reading, some (.response response) => some (s.deliver response, none)
      | .reading, some (.ping nonce) => some ({ s with reader := .answering nonce }, none)
      | .reading, _ => some (s, none)
      | _, _ => none
  | .hand =>
      match s.reader with
      | .holding r reply => some ({ s.setChannel r (.sent reply) with reader := .reading }, none)
      | _ => none
  | .answered =>
      match s.reader with
      | .answering _ => some ({ s with reader := .reading }, none)
      | _ => none
  | .answerFails =>
      match s.reader with
      | .answering _ => some ({ s with reader := .broken }, none)
      | _ => none
  | .streamEnds =>
      match s.reader with
      | .reading => some ({ s with reader := .broken }, none)
      | _ => none
  | .abandon =>
      match s.reader with
      | .broken =>
          some ({ s with
            slots := ∅
            reader := .abandoning (s.slots.entries.map Sigma.snd) }, none)
      | _ => none
  | .release i =>
      match s.reader with
      | .abandoning requests =>
          match requests[i]? with
          | none => none
          | some r =>
              some ({ s.setChannel r .closed with reader := .abandoning (requests.eraseIdx i) }, none)
      | _ => none
  | .leave =>
      match s.reader with
      | .abandoning [] => some ({ s with reader := .ended }, none)
      | _ => none
  | .close => some ({ s with closed := true }, none)

end Session

end Client
