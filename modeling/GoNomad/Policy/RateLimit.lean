import Mathlib.Logic.Function.Basic
import GoNomad.Lib.TokenBucket
import GoNomad.Proto.Error

/-!
# The rate limiter

One token bucket for each class of operation and, where the class is counted
per device, each device.  Every clock reading is an argument: a reading may be
anything, also earlier than the one before.
-/

namespace Policy

open Proto

/-! ### Time -/

/-- A span of time, or a point on a timeline as the span since its epoch, in
nanoseconds; seconds are a 64-bit word. -/
structure Duration where
  nanos : Nat
  bounded : nanos < 2 ^ 64 * 10 ^ 9
  deriving DecidableEq

namespace Duration

def ofNanos (n : Nat) (h : n < 2 ^ 64 * 10 ^ 9 := by decide) : Duration := ⟨n, h⟩

/-- The elapsed time since `earlier`, zero if the clock went backwards. -/
def saturatingSince (now earlier : Duration) : Duration :=
  ⟨now.nanos - earlier.nanos, (Nat.sub_le _ _).trans_lt now.bounded⟩

end Duration

/-! ### Classes and limits -/

/-- Fixed-point scale for token accounting. -/
def tokenScale : Nat := 1000000

/-- The total send-buffer ceiling. -/
def maxSendBufferBytes : Nat := 64 * 1024 * 1024

/-- Largest value of a 128-bit word. -/
def u128Max : Nat := 2 ^ 128 - 1

/-- Largest value of a 64-bit word. -/
def u64Max : Nat := 2 ^ 64 - 1

/-- Largest value of a 32-bit word. -/
def u32Max : Nat := 2 ^ 32 - 1

/-- Whether a limit is counted per device or across the whole daemon. -/
inductive LimitScope
  | perDevice
  | global
  deriving DecidableEq

/-- A refill rate: `tokens` tokens become available every `per`. -/
structure Refill where
  tokens : UInt32
  per : Duration
  deriving DecidableEq

/-- The limits of one class. -/
structure ClassLimits where
  burst : UInt32
  refill : Option Refill
  maxConcurrent : Option UInt32
  maxBytesInFlight : Option UInt64
  deriving DecidableEq

/-- A class with no limits at all. -/
def ClassLimits.none : ClassLimits := ⟨0, .none, .none, .none⟩

/-- A class of operation with its own rate budget. -/
inductive OperationClass
  | pairing
  | handshake
  | fsRead
  | fsWrite
  | search
  | ptySpawn
  | watcher
  | agentSpawn
  | sendBuffer
  | control
  deriving DecidableEq, Repr

namespace OperationClass

/-- The noun used when a ceiling of this class is reached. -/
def resourceName : OperationClass → String
  | pairing => "pairing attempts"
  | handshake => "handshakes"
  | fsRead => "reads"
  | fsWrite => "writes"
  | search => "searches"
  | ptySpawn => "ptys"
  | watcher => "watchers"
  | agentSpawn => "agent sessions"
  | sendBuffer => "buffered bytes"
  | control => "requests"

/-- Whether this class is budgeted per device or daemon-wide. -/
def scope : OperationClass → LimitScope
  | pairing | sendBuffer => .global
  | _ => .perDevice

/-- `tokens` every so many seconds. -/
def every (tokens : UInt32) (seconds : Nat) (h : seconds * 10 ^ 9 < 2 ^ 64 * 10 ^ 9) : Refill :=
  ⟨tokens, ⟨seconds * 10 ^ 9, h⟩⟩

/-- The limits for this class. -/
def limits : OperationClass → ClassLimits
  | pairing => { ClassLimits.none with burst := 3, maxConcurrent := some 1 }
  | handshake =>
      { ClassLimits.none with burst := 10, refill := some (every 10 60 (by decide)) }
  | fsRead =>
      { ClassLimits.none with burst := 100, refill := some (every 100 1 (by decide)) }
  | fsWrite =>
      { ClassLimits.none with burst := 20, refill := some (every 20 1 (by decide)) }
  | search =>
      { ClassLimits.none with
        burst := 2, refill := some (every 2 1 (by decide)), maxConcurrent := some 4 }
  | ptySpawn =>
      { ClassLimits.none with
        burst := 1, refill := some (every 1 1 (by decide)), maxConcurrent := some 16 }
  -- No rate, only a ceiling.
  | watcher => { ClassLimits.none with maxConcurrent := some 8 }
  | agentSpawn =>
      { ClassLimits.none with
        burst := 1, refill := some (every 1 5 (by decide)), maxConcurrent := some 8 }
  | sendBuffer =>
      { ClassLimits.none with maxBytesInFlight := some (UInt64.ofNat maxSendBufferBytes) }
  | control =>
      { ClassLimits.none with burst := 50, refill := some (every 50 1 (by decide)) }

end OperationClass

/-! ### Buckets -/

/-- The device (absent for daemon-wide classes) and the class. -/
abbrev Key := Option DeviceId × OperationClass

/-- Tokens in scaled units, the last refill, and what is held. -/
structure Bucket where
  tokens : Nat
  lastRefill : Duration
  inFlight : UInt32
  bytesInFlight : Nat
  deriving DecidableEq

/-- What a full bucket of a class holds, in scaled units. -/
def capacity (limits : ClassLimits) : Nat := limits.burst.toNat * tokenScale

namespace Bucket

/-- Buckets start full. -/
def new (limits : ClassLimits) (now : Duration) : Bucket := ⟨capacity limits, now, 0, 0⟩

/-- What accrued since the last refill, in scaled units; the products saturate
and the division truncates. -/
def accrued (b : Bucket) (now : Duration) (rate : Refill) : Nat :=
  let elapsed := (now.saturatingSince b.lastRefill).nanos
  let perNanos := max rate.per.nanos 1
  min (min (elapsed * rate.tokens.toNat) u128Max * tokenScale) u128Max / perNanos

def refill (b : Bucket) (now : Duration) (limits : ClassLimits) : Bucket :=
  match limits.refill with
  | .none => b
  | some rate =>
      if rate.tokens = 0 then
        b
      else
        let added := b.accrued now rate
        -- Truncated to nothing: the stamp stays, or the fraction would be lost.
        if added = 0 then
          b
        else
          let sum := min (b.tokens + added) u128Max
          { b with
            tokens := min (if sum ≤ u64Max then sum else u64Max) (capacity limits)
            lastRefill := now }

def tryTakeToken (b : Bucket) : Bucket × Bool :=
  if tokenScale ≤ b.tokens then ({ b with tokens := b.tokens - tokenScale }, true) else (b, false)

end Bucket

/-- How long until one whole token is available again, rounded up, never
zero. -/
def retryAfterMs (tokens : Nat) (rate : Refill) : UInt32 :=
  let deficit := tokenScale - tokens
  let denominator := min (rate.tokens.toNat * tokenScale) u128Max
  if denominator = 0 then
    UInt32.ofNat u32Max
  else
    let nanos := min (deficit * rate.per.nanos) u128Max / denominator
    let ms := max ((nanos + 999999) / 1000000) 1
    if ms ≤ u32Max then UInt32.ofNat ms else UInt32.ofNat u32Max

def exhausted (cls : OperationClass) (limit : Nat) : ProtoError :=
  .new (.resourceExhausted cls.resourceName
    (if limit ≤ u32Max then UInt32.ofNat limit else UInt32.ofNat u32Max))

/-! ### The limiter -/

/-- The buckets, by key. -/
abbrev RateLimiter := Key → Option Bucket

namespace RateLimiter

def new : RateLimiter := fun _ => none

def key (device : DeviceId) (cls : OperationClass) : Key :=
  match cls.scope with
  | .perDevice => (some device, cls)
  | .global => (none, cls)

/-- The bucket of a key, a full one if there is none yet. -/
def bucket (rl : RateLimiter) (k : Key) (now : Duration) : Bucket :=
  (rl k).getD (.new k.2.limits now)

def put (rl : RateLimiter) (k : Key) (b : Bucket) : RateLimiter := Function.update rl k (some b)

/-- Charges one token for an operation. -/
def tryAcquire (rl : RateLimiter) (device : DeviceId) (cls : OperationClass) (now : Duration) :
    RateLimiter × Except ProtoError Unit :=
  let limits := cls.limits
  if limits.refill = none ∧ limits.burst = 0 then
    -- No rate configured for this class, only ceilings apply.
    (rl, .ok ())
  else
    let k := key device cls
    match ((rl.bucket k now).refill now limits).tryTakeToken with
    | (b, true) => (rl.put k b, .ok ())
    | (b, false) =>
        (rl.put k b, .error (match limits.refill with
          | some rate => .rateLimited (retryAfterMs b.tokens rate)
          | none => exhausted cls limits.burst.toNat))

/-- A held concurrency slot. -/
structure Slot where
  key : Key
  deriving DecidableEq

/-- The part of `tryAcquireSlot` behind the ceiling: a token is charged, at a
second reading of the clock, and a slot taken. -/
def takeSlot (rl : RateLimiter) (device : DeviceId) (cls : OperationClass) (now now' : Duration) :
    RateLimiter × Except ProtoError Slot :=
  let k := key device cls
  match rl.tryAcquire device cls now' with
  | (rl, .error err) => (rl, .error err)
  | (rl, .ok ()) =>
      let b := rl.bucket k now
      (rl.put k { b with inFlight := b.inFlight + 1 }, .ok ⟨k⟩)

/-- Charges a token and takes a concurrency slot.  The ceiling is checked
before the token is spent. -/
def tryAcquireSlot (rl : RateLimiter) (device : DeviceId) (cls : OperationClass)
    (now now' : Duration) : RateLimiter × Except ProtoError Slot :=
  let k := key device cls
  match cls.limits.maxConcurrent with
  | none => rl.takeSlot device cls now now'
  | some ceiling =>
      let b := rl.bucket k now
      if ceiling ≤ b.inFlight then
        (rl.put k b, .error (exhausted cls ceiling.toNat))
      else
        (rl.put k b).takeSlot device cls now now'

/-- Returns a slot to its class. -/
def release (rl : RateLimiter) (slot : Slot) : RateLimiter :=
  match rl slot.key with
  | none => rl
  | some b => rl.put slot.key { b with inFlight := if b.inFlight = 0 then 0 else b.inFlight - 1 }

/-- A reservation against a byte ceiling. -/
structure ByteReservation where
  key : Key
  bytes : UInt64
  deriving DecidableEq

/-- Reserves bytes against a class's in-flight byte ceiling. -/
def reserveBytes (rl : RateLimiter) (device : DeviceId) (cls : OperationClass) (bytes : UInt64)
    (now : Duration) : RateLimiter × Except ProtoError ByteReservation :=
  let k := key device cls
  match cls.limits.maxBytesInFlight with
  | none => (rl, .ok ⟨k, 0⟩)
  | some ceiling =>
      let b := rl.bucket k now
      let after := min (b.bytesInFlight + bytes.toNat) u64Max
      if ceiling.toNat < after then
        (rl.put k b, .error (exhausted cls ceiling.toNat))
      else
        (rl.put k { b with bytesInFlight := after }, .ok ⟨k, bytes⟩)

/-- Returns a byte reservation to its class. -/
def releaseBytes (rl : RateLimiter) (reservation : ByteReservation) : RateLimiter :=
  match rl reservation.key with
  | none => rl
  | some b =>
      rl.put reservation.key { b with bytesInFlight := b.bytesInFlight - reservation.bytes.toNat }

/-- Refills one bucket to full, preserving anything currently held. -/
def reset (rl : RateLimiter) (device : DeviceId) (cls : OperationClass) (now : Duration) :
    RateLimiter :=
  let k := key device cls
  rl.put k { rl.bucket k now with tokens := capacity cls.limits, lastRefill := now }

/-- Drops every bucket belonging to a device. -/
def forgetDevice (rl : RateLimiter) (device : DeviceId) : RateLimiter :=
  fun k => if k.1 = some device then none else rl k

/-! ### Runs -/

/-- One call on the limiter, with the clock readings it makes. -/
inductive Op
  | tryAcquire (device : DeviceId) (cls : OperationClass) (now : Duration)
  /-- The second reading is the one at which the token is charged. -/
  | tryAcquireSlot (device : DeviceId) (cls : OperationClass) (now now' : Duration)
  | release (slot : Slot)
  | reserveBytes (device : DeviceId) (cls : OperationClass) (bytes : UInt64) (now : Duration)
  | releaseBytes (reservation : ByteReservation)
  | reset (device : DeviceId) (cls : OperationClass) (now : Duration)
  | forgetDevice (device : DeviceId)

/-- A call and whether it succeeded. -/
def apply (rl : RateLimiter) : Op → RateLimiter × Except ProtoError Unit
  | .tryAcquire device cls now => rl.tryAcquire device cls now
  | .tryAcquireSlot device cls now now' =>
      ((rl.tryAcquireSlot device cls now now').1,
        (rl.tryAcquireSlot device cls now now').2.map fun _ => ())
  | .release slot => (rl.release slot, .ok ())
  | .reserveBytes device cls bytes now =>
      ((rl.reserveBytes device cls bytes now).1,
        (rl.reserveBytes device cls bytes now).2.map fun _ => ())
  | .releaseBytes reservation => (rl.releaseBytes reservation, .ok ())
  | .reset device cls now => (rl.reset device cls now, .ok ())
  | .forgetDevice device => (rl.forgetDevice device, .ok ())

/-- The limiter after a sequence of calls. -/
def after (rl : RateLimiter) : List Op → RateLimiter
  | [] => rl
  | op :: ops => (rl.apply op).1.after ops

/-- The calls of a sequence with their results. -/
def results (rl : RateLimiter) : List Op → List (Op × Except ProtoError Unit)
  | [] => []
  | op :: ops => (op, (rl.apply op).2) :: (rl.apply op).1.results ops

namespace Op

/-- The readings a call makes, in order. -/
def readings : Op → List Nat
  | tryAcquire _ _ now => [now.nanos]
  | tryAcquireSlot _ _ now now' => [now.nanos, now'.nanos]
  | release _ => []
  | reserveBytes _ _ _ now => [now.nanos]
  | releaseBytes _ => []
  | reset _ _ now => [now.nanos]
  | forgetDevice _ => []

/-- Whether a call is about the bucket of `k`. -/
def touches (k : Key) : Op → Bool
  | tryAcquire device cls _ => key device cls = k
  | tryAcquireSlot device cls _ _ => key device cls = k
  | release slot => slot.key = k
  | reserveBytes device cls _ _ => key device cls = k
  | releaseBytes reservation => reservation.key = k
  | reset device cls _ => key device cls = k
  | forgetDevice device => k.1 = some device

/-- Whether a call resets or drops the bucket of `k`. -/
def renews (k : Key) : Op → Bool
  | reset device cls _ => key device cls = k
  | forgetDevice device => k.1 = some device
  | _ => false

/-- When a call asks for a token of `k`, if it does. -/
def acquires (k : Key) : Op → Option Nat
  | tryAcquire device cls now => if key device cls = k then some now.nanos else none
  | tryAcquireSlot device cls _ now' => if key device cls = k then some now'.nanos else none
  | _ => none

end Op

/-- The successful acquisitions for `k` at a time between `t₁` and `t₂`. -/
def grants (k : Key) (calls : List (Op × Except ProtoError Unit)) (t₁ t₂ : Nat) : Nat :=
  calls.countP fun call =>
    call.2.isOk && (call.1.acquires k).any fun t => decide (t₁ ≤ t) && decide (t ≤ t₂)

/-- The successful acquisitions for `k`, at any time. -/
def grantsEver (k : Key) (calls : List (Op × Except ProtoError Unit)) : Nat :=
  calls.countP fun call => call.2.isOk && (call.1.acquires k).isSome

end RateLimiter

end Policy
