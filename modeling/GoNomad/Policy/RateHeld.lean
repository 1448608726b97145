import Mathlib.Algebra.BigOperators.Group.List.Basic
import GoNomad.Lib.Run
import GoNomad.Policy.RateBound

/-!
# What the limiter has lent

Slots and byte reservations outlive the call that issued them: a caller holds
them until it gives them back, and can give back only what it holds.  A ledger
keeps what was issued and not yet returned beside the limiter.

* `Accounted.step` — an orderly call keeps every bucket equal to the ledger;
* `ceilings_kept` — along every orderly run no ceiling is exceeded;
* `ceiling_exceeded` — forgetting a device that holds slots breaks the ceiling.
-/

namespace Policy

open Proto

namespace RateLimiter

variable {rl rl' : RateLimiter} {k k' : Key} {device : DeviceId} {cls : OperationClass}
variable {now now' : Duration}

/-- The slots and the bytes that the bucket of a key counts as held. -/
def lent (rl : RateLimiter) (k : Key) : UInt32 × Nat :=
  match rl k with
  | none => (0, 0)
  | some b => (b.inFlight, b.bytesInFlight)

/-- How many operations of a class a device currently holds. -/
def inFlight (rl : RateLimiter) (device : DeviceId) (cls : OperationClass) : UInt32 :=
  (rl.lent (key device cls)).1

/-- Bytes currently reserved for a class. -/
def bytesInFlight (rl : RateLimiter) (device : DeviceId) (cls : OperationClass) : Nat :=
  (rl.lent (key device cls)).2

/-! ### What each call lends -/

@[simp] theorem lent_put_self (b : Bucket) :
    (rl.put k b).lent k = (b.inFlight, b.bytesInFlight) := by
  unfold lent
  rw [put_self]

theorem lent_put_of_ne (b : Bucket) (h : k' ≠ k) : (rl.put k' b).lent k = rl.lent k := by
  unfold lent
  rw [put_of_ne b h]

/-- A bucket that is made on demand counts nothing. -/
theorem bucket_lent (rl : RateLimiter) (k : Key) (now : Duration) :
    ((rl.bucket k now).inFlight, (rl.bucket k now).bytesInFlight) = rl.lent k := by
  unfold lent
  cases h : rl k with
  | none =>
      rw [bucket_of_none h]
      rfl
  | some b => rw [bucket_of_some h]

theorem lent_put_eq {b : Bucket} (hb : (b.inFlight, b.bytesInFlight) = rl.lent k) :
    (rl.put k b).lent = rl.lent := by
  funext k'
  by_cases h : k = k'
  · subst h
    rw [lent_put_self, hb]
  · exact lent_put_of_ne b h

theorem lent_put_bucket : (rl.put k (rl.bucket k now)).lent = rl.lent :=
  lent_put_eq (bucket_lent rl k now)

theorem refill_keeps (b : Bucket) (now : Duration) (limits : ClassLimits) :
    (b.refill now limits).inFlight = b.inFlight ∧
      (b.refill now limits).bytesInFlight = b.bytesInFlight := by
  unfold Bucket.refill
  cases limits.refill with
  | none => exact ⟨rfl, rfl⟩
  | some rate =>
      dsimp only
      split
      · exact ⟨rfl, rfl⟩
      · split
        · exact ⟨rfl, rfl⟩
        · exact ⟨rfl, rfl⟩

theorem tryTakeToken_keeps {b b' : Bucket} {ok : Bool} (h : b.tryTakeToken = (b', ok)) :
    b'.inFlight = b.inFlight ∧ b'.bytesInFlight = b.bytesInFlight := by
  unfold Bucket.tryTakeToken at h
  split_ifs at h
  · obtain ⟨rfl, -⟩ := Prod.mk.inj h
    exact ⟨rfl, rfl⟩
  · obtain ⟨rfl, -⟩ := Prod.mk.inj h
    exact ⟨rfl, rfl⟩

/-- Charging a token lends nothing. -/
theorem lent_tryAcquire : (rl.tryAcquire device cls now).1.lent = rl.lent := by
  unfold tryAcquire
  dsimp only
  split_ifs
  · rfl
  · rcases htake : ((rl.bucket (key device cls) now).refill now cls.limits).tryTakeToken with
      ⟨b, ok⟩
    obtain ⟨hslots, hbytes⟩ := tryTakeToken_keeps htake
    obtain ⟨hslots', hbytes'⟩ := refill_keeps (rl.bucket (key device cls) now) now cls.limits
    have hb : (b.inFlight, b.bytesInFlight) = rl.lent (key device cls) := by
      rw [hslots, hbytes, hslots', hbytes']
      exact bucket_lent rl _ now
    cases ok with
    | true => exact lent_put_eq hb
    | false => exact lent_put_eq hb

/-- One more slot of a key. -/
def lendSlot (lent : Key → UInt32 × Nat) (k : Key) : Key → UInt32 × Nat :=
  Function.update lent k ((lent k).1 + 1, (lent k).2)

theorem lent_takeSlot {result : Except ProtoError Slot}
    (h : rl.takeSlot device cls now now' = (rl', result)) :
    (∃ err, result = .error err ∧ rl'.lent = rl.lent) ∨
      result = .ok ⟨key device cls⟩ ∧ rl'.lent = lendSlot rl.lent (key device cls) := by
  have hlent := @lent_tryAcquire rl device cls now'
  unfold takeSlot at h
  rcases htry : rl.tryAcquire device cls now' with ⟨rl₁, err | ok⟩
  · rw [htry] at h hlent
    cases h
    exact .inl ⟨err, rfl, hlent⟩
  · rw [htry] at h hlent
    cases h
    refine .inr ⟨rfl, ?_⟩
    dsimp only at hlent ⊢
    have hb := bucket_lent rl₁ (key device cls) now
    rw [hlent] at hb
    funext k
    by_cases hk : key device cls = k
    · subst hk
      rw [lent_put_self, lendSlot, Function.update_self, ← hb]
    · rw [lent_put_of_ne _ hk, lendSlot, Function.update_of_ne (Ne.symm hk), hlent]

/-- **What `tryAcquireSlot` lends**: a slot below the ceiling, or nothing. -/
theorem lent_tryAcquireSlot {result : Except ProtoError Slot}
    (h : rl.tryAcquireSlot device cls now now' = (rl', result)) :
    (∃ err, result = .error err ∧ rl'.lent = rl.lent) ∨
      result = .ok ⟨key device cls⟩ ∧ rl'.lent = lendSlot rl.lent (key device cls) ∧
        ∀ ceiling, cls.limits.maxConcurrent = some ceiling →
          (rl.lent (key device cls)).1 < ceiling := by
  unfold tryAcquireSlot at h
  dsimp only at h
  cases hceiling : cls.limits.maxConcurrent with
  | none =>
      rw [hceiling] at h
      rcases lent_takeSlot h with herr | ⟨hok, hlent⟩
      · exact .inl herr
      · exact .inr ⟨hok, hlent, fun _ hsome => nomatch hsome⟩
  | some ceiling =>
      rw [hceiling] at h
      dsimp only at h
      have hb := bucket_lent rl (key device cls) now
      split_ifs at h with hfull
      · cases h
        exact .inl ⟨_, rfl, lent_put_bucket⟩
      · have htaken := lent_takeSlot h
        rw [lent_put_bucket] at htaken
        rcases htaken with herr | ⟨hok, hlent⟩
        · exact .inl herr
        · refine .inr ⟨hok, hlent, fun ceiling' hsome => ?_⟩
          cases hsome
          rw [← hb]
          exact UInt32.not_le.mp hfull

/-- One slot fewer of a key. -/
def returnSlot (lent : Key → UInt32 × Nat) (k : Key) : Key → UInt32 × Nat :=
  Function.update lent k (if (lent k).1 = 0 then 0 else (lent k).1 - 1, (lent k).2)

theorem lent_release (slot : Slot) : (rl.release slot).lent = returnSlot rl.lent slot.key := by
  unfold release returnSlot
  cases hslot : rl slot.key with
  | none =>
      have hnone : rl.lent slot.key = (0, 0) := by
        unfold lent
        rw [hslot]
      dsimp only
      rw [hnone]
      exact (Function.update_eq_self_iff.mpr hnone.symm).symm
  | some b =>
      have hsome : rl.lent slot.key = (b.inFlight, b.bytesInFlight) := by
        unfold lent
        rw [hslot]
      rw [hsome]
      funext k
      by_cases hk : slot.key = k
      · subst hk
        rw [lent_put_self, Function.update_self]
      · rw [lent_put_of_ne _ hk, Function.update_of_ne (Ne.symm hk)]

/-- A ceiling is below the largest count, so a sum that saturates exceeds it. -/
theorem maxBytes_lt {ceiling : UInt64} (h : cls.limits.maxBytesInFlight = some ceiling) :
    ceiling.toNat < u64Max := by
  revert h
  cases cls with
  | sendBuffer =>
      intro h
      cases h
      decide
  | _ =>
      intro h
      cases h

/-- **What `reserveBytes` lends**: bytes below the ceiling, or nothing. -/
theorem lent_reserveBytes {bytes : UInt64} {result : Except ProtoError ByteReservation}
    (h : rl.reserveBytes device cls bytes now = (rl', result)) :
    (∃ err, result = .error err ∧ rl'.lent = rl.lent) ∨
      ∃ granted : UInt64, result = .ok ⟨key device cls, granted⟩ ∧
        rl'.lent = Function.update rl.lent (key device cls)
          ((rl.lent (key device cls)).1, (rl.lent (key device cls)).2 + granted.toNat) ∧
        ∀ ceiling, cls.limits.maxBytesInFlight = some ceiling →
          (rl.lent (key device cls)).2 + granted.toNat ≤ ceiling.toNat := by
  unfold reserveBytes at h
  dsimp only at h
  cases hceiling : cls.limits.maxBytesInFlight with
  | none =>
      rw [hceiling] at h
      cases h
      refine .inr ⟨0, rfl, ?_, fun _ hsome => nomatch hsome⟩
      exact (Function.update_eq_self_iff.mpr rfl).symm
  | some ceiling =>
      rw [hceiling] at h
      dsimp only at h
      have hb := bucket_lent rl (key device cls) now
      have hlt := maxBytes_lt hceiling
      split_ifs at h with hover
      · cases h
        exact .inl ⟨_, rfl, lent_put_bucket⟩
      · have hsum : min ((rl.bucket (key device cls) now).bytesInFlight + bytes.toNat) u64Max =
            (rl.bucket (key device cls) now).bytesInFlight + bytes.toNat := by omega
        rw [hsum] at h hover
        cases h
        refine .inr ⟨bytes, rfl, ?_, fun ceiling' hsome => ?_⟩
        · funext k
          by_cases hk : key device cls = k
          · subst hk
            rw [lent_put_self, Function.update_self, ← hb]
          · rw [lent_put_of_ne _ hk, Function.update_of_ne (Ne.symm hk)]
        · cases hsome
          rw [← hb]
          dsimp only
          omega

/-- Only a class that is counted across the daemon has bytes to reserve. -/
theorem reserveBytes_global {bytes : UInt64} {r : ByteReservation}
    (h : rl.reserveBytes device cls bytes now = (rl', .ok r)) (hkey : r.key.1 ≠ none) :
    r.bytes = 0 := by
  unfold reserveBytes at h
  dsimp only at h
  cases hceiling : cls.limits.maxBytesInFlight with
  | none =>
      rw [hceiling] at h
      cases h
      rfl
  | some ceiling =>
      have hglobal : (key device cls).1 = none := by
        cases cls with
        | sendBuffer => rfl
        | _ => cases hceiling
      rw [hceiling] at h
      dsimp only at h
      split_ifs at h
      · cases h
      · obtain ⟨-, hr⟩ := Prod.mk.inj h
        rw [← Except.ok.inj hr] at hkey
        exact absurd hglobal hkey

theorem lent_releaseBytes (reservation : ByteReservation) :
    (rl.releaseBytes reservation).lent = Function.update rl.lent reservation.key
      ((rl.lent reservation.key).1,
        (rl.lent reservation.key).2 - reservation.bytes.toNat) := by
  unfold releaseBytes
  cases hbucket : rl reservation.key with
  | none =>
      have hnone : rl.lent reservation.key = (0, 0) := by
        unfold lent
        rw [hbucket]
      rw [hnone]
      refine (Function.update_eq_self_iff.mpr ?_).symm
      rw [hnone, Nat.zero_sub]
  | some b =>
      have hsome : rl.lent reservation.key = (b.inFlight, b.bytesInFlight) := by
        unfold lent
        rw [hbucket]
      rw [hsome]
      funext k
      by_cases hk : reservation.key = k
      · subst hk
        rw [lent_put_self, Function.update_self]
      · rw [lent_put_of_ne _ hk, Function.update_of_ne (Ne.symm hk)]

/-- A reset preserves what is held. -/
theorem lent_reset : (rl.reset device cls now).lent = rl.lent :=
  lent_put_eq (bucket_lent rl (key device cls) now)

theorem lent_forgetDevice :
    (rl.forgetDevice device).lent k = if k.1 = some device then (0, 0) else rl.lent k := by
  unfold lent forgetDevice
  split_ifs <;> rfl

/-! ### The ledger -/

/-- The limiter, and what its callers hold. -/
structure Ledger where
  limiter : RateLimiter
  slots : List Slot
  reservations : List ByteReservation

namespace Ledger

/-- Nothing is held yet. -/
def start : Ledger := ⟨.new, [], []⟩

/-- The slots of a key issued and not yet released. -/
def outstanding (s : Ledger) (k : Key) : Nat := s.slots.countP fun slot => slot.key = k

/-- The bytes of a key reserved and not yet released. -/
def reserved (s : Ledger) (k : Key) : Nat :=
  ((s.reservations.filter fun r => r.key = k).map fun r => r.bytes.toNat).sum

/-- One call.  A slot or a reservation is given up by the call that returns it. -/
def step (s : Ledger) : Op → Option (Ledger × Except ProtoError Unit)
  | .tryAcquireSlot device cls now now' =>
      match s.limiter.tryAcquireSlot device cls now now' with
      | (rl, .ok slot) => some ({ s with limiter := rl, slots := slot :: s.slots }, .ok ())
      | (rl, .error err) => some ({ s with limiter := rl }, .error err)
  | .release slot =>
      if slot ∈ s.slots then
        some ({ s with limiter := s.limiter.release slot, slots := s.slots.erase slot }, .ok ())
      else
        none
  | .reserveBytes device cls bytes now =>
      match s.limiter.reserveBytes device cls bytes now with
      | (rl, .ok r) => some ({ s with limiter := rl, reservations := r :: s.reservations }, .ok ())
      | (rl, .error err) => some ({ s with limiter := rl }, .error err)
  | .releaseBytes r =>
      if r ∈ s.reservations then
        some ({ s with
          limiter := s.limiter.releaseBytes r
          reservations := s.reservations.erase r }, .ok ())
      else
        none
  | op => some ({ s with limiter := (s.limiter.apply op).1 }, (s.limiter.apply op).2)

abbrev Trace := List (Op × Except ProtoError Unit)

/-- A device is forgotten when it holds no slot, and the slots of a key stay below
the largest count. -/
def Orderly (_ : Trace) (s : Ledger) : Op → Prop
  | .forgetDevice device => ∀ slot ∈ s.slots, slot.key.1 ≠ some device
  | .tryAcquireSlot device cls _ _ => s.outstanding (key device cls) < u32Max
  | _ => True

/-- The buckets count what is held, within the ceilings. -/
structure Accounted (s : Ledger) (k : Key) : Prop where
  slots_eq : (s.limiter.lent k).1.toNat = s.outstanding k
  bytes_eq : (s.limiter.lent k).2 = s.reserved k
  slots_le : ∀ ceiling, k.2.limits.maxConcurrent = some ceiling →
    s.outstanding k ≤ ceiling.toNat
  bytes_le : ∀ ceiling, k.2.limits.maxBytesInFlight = some ceiling →
    s.reserved k ≤ ceiling.toNat

variable {s s' : Ledger} {op : Op} {o : Except ProtoError Unit} {trace : Trace}

theorem accounted_start (k : Key) : start.Accounted k :=
  ⟨rfl, rfl, fun _ _ => Nat.zero_le _, fun _ _ => Nat.zero_le _⟩

/-- A call that changes no count changes no account. -/
theorem Accounted.of_lent (h : s.Accounted k) (hlent : s'.limiter.lent k = s.limiter.lent k)
    (hslots : s'.slots = s.slots) (hres : s'.reservations = s.reservations) : s'.Accounted k := by
  obtain ⟨hs, hb, hle, hble⟩ := h
  unfold outstanding at hs hle
  unfold reserved at hb hble
  refine ⟨?_, ?_, ?_, ?_⟩
  · unfold outstanding
    rw [hlent, hslots, hs]
  · unfold reserved
    rw [hlent, hres, hb]
  · unfold outstanding
    rw [hslots]
    exact hle
  · unfold reserved
    rw [hres]
    exact hble

theorem outstanding_cons (slot : Slot) (slots : List Slot) (k : Key) :
    (slot :: slots).countP (fun slot => slot.key = k) =
      slots.countP (fun slot => slot.key = k) + if slot.key = k then 1 else 0 := by
  rw [List.countP_cons]
  simp only [decide_eq_true_eq]

theorem reserved_cons (r : ByteReservation) (rs : List ByteReservation) (k : Key) :
    (((r :: rs).filter fun r => r.key = k).map fun r => r.bytes.toNat).sum =
      ((rs.filter fun r => r.key = k).map fun r => r.bytes.toNat).sum +
        if r.key = k then r.bytes.toNat else 0 := by
  by_cases h : r.key = k
  · rw [List.filter_cons_of_pos (by simpa using h), List.map_cons, List.sum_cons, if_pos h,
      Nat.add_comm]
  · rw [List.filter_cons_of_neg (by simpa using h), if_neg h, Nat.add_zero]

/-- What is held of a key, before and after one slot is given up. -/
theorem outstanding_erase {slot : Slot} (hmem : slot ∈ s.slots) (k : Key) :
    s.outstanding k = (s.slots.erase slot).countP (fun slot => slot.key = k) +
      if slot.key = k then 1 else 0 := by
  unfold outstanding
  rw [(List.perm_cons_erase hmem).countP_eq, outstanding_cons]

theorem reserved_erase {r : ByteReservation} (hmem : r ∈ s.reservations) (k : Key) :
    s.reserved k =
      (((s.reservations.erase r).filter fun r => r.key = k).map fun r => r.bytes.toNat).sum +
        if r.key = k then r.bytes.toNat else 0 := by
  unfold reserved
  rw [(((List.perm_cons_erase hmem).filter _).map _).sum_eq, reserved_cons]

theorem Accounted.tryAcquireSlot (h : s.Accounted k) {rl : RateLimiter} {slot : Slot}
    (hbelow : s.outstanding (key device cls) < u32Max)
    (hcall : s.limiter.tryAcquireSlot device cls now now' = (rl, .ok slot)) :
    Accounted { s with limiter := rl, slots := slot :: s.slots } k := by
  obtain ⟨_, herr, -⟩ | ⟨hok, hlent, hceiling⟩ := lent_tryAcquireSlot hcall
  · cases herr
  obtain rfl := Except.ok.inj hok
  obtain ⟨hs, hb, hle, hble⟩ := h
  have hout : Ledger.outstanding { s with limiter := rl, slots := ⟨key device cls⟩ :: s.slots } k =
      s.outstanding k + if key device cls = k then 1 else 0 := outstanding_cons _ s.slots k
  by_cases hk : key device cls = k
  · subst hk
    rw [if_pos rfl] at hout
    have hnext : ((s.limiter.lent (key device cls)).1 + 1).toNat =
        (s.limiter.lent (key device cls)).1.toNat + 1 := by
      rw [UInt32.toNat_add, Nat.mod_eq_of_lt]
      · rfl
      · unfold u32Max at hbelow
        change (s.limiter.lent (key device cls)).1.toNat + 1 < 2 ^ 32
        omega
    refine ⟨?_, ?_, fun ceiling hsome => ?_, hble⟩
    · show (rl.lent _).1.toNat = _
      rw [hlent, lendSlot, Function.update_self, hout, hnext, hs]
    · show (rl.lent _).2 = _
      rw [hlent, lendSlot, Function.update_self]
      exact hb
    · rw [key_snd] at hsome
      have hlt := UInt32.lt_iff_toNat_lt.mp (hceiling ceiling hsome)
      omega
  · rw [if_neg hk] at hout
    have hsame : rl.lent k = s.limiter.lent k := by
      rw [hlent, lendSlot, Function.update_of_ne (Ne.symm hk)]
    refine ⟨?_, ?_, fun ceiling hsome => ?_, hble⟩
    · show (rl.lent k).1.toNat = _
      rw [hsame, hout, hs, Nat.add_zero]
    · show (rl.lent k).2 = _
      rw [hsame]
      exact hb
    · rw [hout, Nat.add_zero]
      exact hle ceiling hsome

theorem Accounted.release (h : s.Accounted k) {slot : Slot} (hmem : slot ∈ s.slots) :
    Accounted { s with limiter := s.limiter.release slot, slots := s.slots.erase slot } k := by
  obtain ⟨hs, hb, hle, hble⟩ := h
  have hout : s.outstanding k = Ledger.outstanding
      { s with limiter := s.limiter.release slot, slots := s.slots.erase slot } k +
        if slot.key = k then 1 else 0 := outstanding_erase hmem k
  have hlent := @lent_release s.limiter slot
  by_cases hk : slot.key = k
  · subst hk
    rw [if_pos rfl] at hout
    have hne : (s.limiter.lent slot.key).1 ≠ 0 := by
      intro hzero
      rw [hzero] at hs
      change 0 = _ at hs
      omega
    have hprev : ((s.limiter.lent slot.key).1 - 1).toNat =
        (s.limiter.lent slot.key).1.toNat - 1 := by
      refine UInt32.toNat_sub_of_le _ _ (UInt32.le_iff_toNat_le.mpr ?_)
      change 1 ≤ _
      omega
    refine ⟨?_, ?_, fun ceiling hsome => ?_, hble⟩
    · show ((s.limiter.release slot).lent _).1.toNat = _
      rw [hlent, returnSlot, Function.update_self, if_neg hne, hprev]
      omega
    · show ((s.limiter.release slot).lent _).2 = _
      rw [hlent, returnSlot, Function.update_self]
      exact hb
    · have hle := hle ceiling hsome
      omega
  · rw [if_neg hk, Nat.add_zero] at hout
    have hsame : (s.limiter.release slot).lent k = s.limiter.lent k := by
      rw [hlent, returnSlot, Function.update_of_ne (Ne.symm hk)]
    refine ⟨?_, ?_, fun ceiling hsome => ?_, hble⟩
    · show ((s.limiter.release slot).lent k).1.toNat = _
      rw [hsame, hs, hout]
    · show ((s.limiter.release slot).lent k).2 = _
      rw [hsame]
      exact hb
    · rw [← hout]
      exact hle ceiling hsome

theorem Accounted.reserveBytes (h : s.Accounted k) {bytes : UInt64} {rl : RateLimiter}
    {r : ByteReservation} (hcall : s.limiter.reserveBytes device cls bytes now = (rl, .ok r)) :
    Accounted { s with limiter := rl, reservations := r :: s.reservations } k := by
  obtain ⟨_, herr, -⟩ | ⟨granted, hok, hlent, hceiling⟩ := lent_reserveBytes hcall
  · cases herr
  obtain rfl := Except.ok.inj hok
  obtain ⟨hs, hb, hle, hble⟩ := h
  have hout : Ledger.reserved
        { s with limiter := rl, reservations := ⟨key device cls, granted⟩ :: s.reservations } k =
      s.reserved k + if key device cls = k then granted.toNat else 0 :=
    reserved_cons _ s.reservations k
  by_cases hk : key device cls = k
  · subst hk
    rw [if_pos rfl] at hout
    refine ⟨?_, ?_, hle, fun ceiling hsome => ?_⟩
    · show (rl.lent _).1.toNat = _
      rw [hlent, Function.update_self]
      exact hs
    · show (rl.lent _).2 = _
      rw [hlent, Function.update_self, hout, hb]
    · rw [key_snd] at hsome
      have hle := hceiling ceiling hsome
      omega
  · rw [if_neg hk, Nat.add_zero] at hout
    have hsame : rl.lent k = s.limiter.lent k := by
      rw [hlent, Function.update_of_ne (Ne.symm hk)]
    refine ⟨?_, ?_, hle, fun ceiling hsome => ?_⟩
    · show (rl.lent k).1.toNat = _
      rw [hsame]
      exact hs
    · show (rl.lent k).2 = _
      rw [hsame, hout, hb]
    · rw [hout]
      exact hble ceiling hsome

theorem Accounted.releaseBytes (h : s.Accounted k) {r : ByteReservation}
    (hmem : r ∈ s.reservations) :
    Accounted { s with
      limiter := s.limiter.releaseBytes r
      reservations := s.reservations.erase r } k := by
  obtain ⟨hs, hb, hle, hble⟩ := h
  have hout : s.reserved k = Ledger.reserved { s with
      limiter := s.limiter.releaseBytes r
      reservations := s.reservations.erase r } k + if r.key = k then r.bytes.toNat else 0 :=
    reserved_erase hmem k
  have hlent := @lent_releaseBytes s.limiter r
  by_cases hk : r.key = k
  · subst hk
    rw [if_pos rfl] at hout
    refine ⟨?_, ?_, hle, fun ceiling hsome => ?_⟩
    · show ((s.limiter.releaseBytes r).lent _).1.toNat = _
      rw [hlent, Function.update_self]
      exact hs
    · show ((s.limiter.releaseBytes r).lent _).2 = _
      rw [hlent, Function.update_self, hb]
      dsimp only
      omega
    · have hle := hble ceiling hsome
      omega
  · rw [if_neg hk, Nat.add_zero] at hout
    have hsame : (s.limiter.releaseBytes r).lent k = s.limiter.lent k := by
      rw [hlent, Function.update_of_ne (Ne.symm hk)]
    refine ⟨?_, ?_, hle, fun ceiling hsome => ?_⟩
    · show ((s.limiter.releaseBytes r).lent k).1.toNat = _
      rw [hsame]
      exact hs
    · show ((s.limiter.releaseBytes r).lent k).2 = _
      rw [hsame, hb, hout]
    · rw [← hout]
      exact hble ceiling hsome

/-- The bytes that are reserved are reserved daemon-wide. -/
def ReservedGlobally (s : Ledger) : Prop := ∀ r ∈ s.reservations, r.key.1 ≠ none → r.bytes = 0

theorem ReservedGlobally.step (h : s.ReservedGlobally) (hstep : s.step op = some (s', o)) :
    s'.ReservedGlobally := by
  cases op with
  | tryAcquireSlot device cls now now' =>
      dsimp only [Ledger.step] at hstep
      split at hstep <;> cases hstep <;> exact h
  | release slot =>
      dsimp only [Ledger.step] at hstep
      split_ifs at hstep
      cases hstep
      exact h
  | reserveBytes device cls bytes now =>
      dsimp only [Ledger.step] at hstep
      rcases hcall : s.limiter.reserveBytes device cls bytes now with ⟨rl, err | r⟩
      · rw [hcall] at hstep
        cases hstep
        exact h
      · rw [hcall] at hstep
        cases hstep
        intro r' hr'
        rcases List.mem_cons.mp hr' with rfl | hr'
        · exact reserveBytes_global hcall
        · exact h r' hr'
  | releaseBytes r =>
      dsimp only [Ledger.step] at hstep
      split_ifs at hstep
      cases hstep
      exact fun r' hr' => h r' (List.mem_of_mem_erase hr')
  | tryAcquire device cls now =>
      cases hstep
      exact h
  | reset device cls now =>
      cases hstep
      exact h
  | forgetDevice device =>
      cases hstep
      exact h

/-- Forgetting a device that holds nothing loses no account. -/
theorem Accounted.forgetDevice (h : s.Accounted k) (hglobal : s.ReservedGlobally)
    (hslots : ∀ slot ∈ s.slots, slot.key.1 ≠ some device) :
    Accounted { s with limiter := s.limiter.forgetDevice device } k := by
  by_cases hk : k.1 = some device
  · have hnone : s.outstanding k = 0 := by
      refine List.countP_eq_zero.mpr fun slot hslot hkey => hslots slot hslot ?_
      rw [of_decide_eq_true hkey, hk]
    have hzero : s.reserved k = 0 := by
      refine List.sum_eq_zero fun n hn => ?_
      obtain ⟨r, hr, rfl⟩ := List.mem_map.mp hn
      obtain ⟨hr, hkey⟩ := List.mem_filter.mp hr
      have hdevice : r.key.1 ≠ none := by
        rw [of_decide_eq_true hkey, hk]
        exact Option.some_ne_none device
      rw [hglobal r hr hdevice]
      rfl
    have hlent : (s.limiter.forgetDevice device).lent k = (0, 0) := by
      rw [lent_forgetDevice, if_pos hk]
    refine ⟨?_, ?_, h.slots_le, h.bytes_le⟩
    · show ((s.limiter.forgetDevice device).lent k).1.toNat = s.outstanding k
      rw [hlent, hnone]
      rfl
    · show ((s.limiter.forgetDevice device).lent k).2 = s.reserved k
      rw [hlent, hzero]
  · refine h.of_lent ?_ rfl rfl
    show (s.limiter.forgetDevice device).lent k = _
    rw [lent_forgetDevice, if_neg hk]

/-- **An orderly call keeps every bucket equal to the ledger.** -/
theorem Accounted.step (h : s.Accounted k) (hglobal : s.ReservedGlobally)
    (horderly : Orderly trace s op) (hstep : s.step op = some (s', o)) : s'.Accounted k := by
  cases op with
  | tryAcquire device cls now =>
      cases hstep
      exact h.of_lent (congrFun lent_tryAcquire k) rfl rfl
  | tryAcquireSlot device cls now now' =>
      dsimp only [Ledger.step] at hstep
      rcases hcall : s.limiter.tryAcquireSlot device cls now now' with ⟨rl, err | slot⟩
      · rw [hcall] at hstep
        cases hstep
        obtain ⟨-, -, hlent⟩ | ⟨hok, -⟩ := lent_tryAcquireSlot hcall
        · exact h.of_lent (congrFun hlent k) rfl rfl
        · cases hok
      · rw [hcall] at hstep
        cases hstep
        exact h.tryAcquireSlot horderly hcall
  | release slot =>
      dsimp only [Ledger.step] at hstep
      split_ifs at hstep with hmem
      cases hstep
      exact h.release hmem
  | reserveBytes device cls bytes now =>
      dsimp only [Ledger.step] at hstep
      rcases hcall : s.limiter.reserveBytes device cls bytes now with ⟨rl, err | r⟩
      · rw [hcall] at hstep
        cases hstep
        obtain ⟨-, -, hlent⟩ | ⟨_, hok, -⟩ := lent_reserveBytes hcall
        · exact h.of_lent (congrFun hlent k) rfl rfl
        · cases hok
      · rw [hcall] at hstep
        cases hstep
        exact h.reserveBytes hcall
  | releaseBytes r =>
      dsimp only [Ledger.step] at hstep
      split_ifs at hstep with hmem
      cases hstep
      exact h.releaseBytes hmem
  | reset device cls now =>
      cases hstep
      exact h.of_lent (congrFun lent_reset k) rfl rfl
  | forgetDevice device =>
      cases hstep
      exact h.forgetDevice hglobal horderly

/-- **No ceiling is exceeded along an orderly run**, and every bucket counts what
is held. -/
theorem ceilings_kept (hrun : Transition.Run step Orderly start trace s) (k : Key) :
    (s.limiter.lent k).1.toNat = s.outstanding k ∧ (s.limiter.lent k).2 = s.reserved k ∧
      (∀ ceiling, k.2.limits.maxConcurrent = some ceiling → s.outstanding k ≤ ceiling.toNat) ∧
      ∀ ceiling, k.2.limits.maxBytesInFlight = some ceiling → s.reserved k ≤ ceiling.toNat := by
  have hheld : s.ReservedGlobally ∧ s.Accounted k :=
    hrun.invariant (fun _ s => s.ReservedGlobally ∧ s.Accounted k)
      ⟨fun _ hr => (nomatch hr), accounted_start k⟩
      fun _ _ _ _ _ h horderly hstep => ⟨h.1.step hstep, h.2.step h.1 horderly hstep⟩
  obtain ⟨-, haccounted⟩ := hheld
  exact ⟨haccounted.slots_eq, haccounted.bytes_eq, haccounted.slots_le, haccounted.bytes_le⟩

/-! ### A device forgotten while it holds its slots -/

instance (trace : Trace) (s : Ledger) : (op : Op) → Decidable (Orderly trace s op)
  | .forgetDevice _ => inferInstanceAs (Decidable (∀ slot ∈ s.slots, _))
  | .tryAcquireSlot _ _ _ _ => inferInstanceAs (Decidable (_ < _))
  | .tryAcquire _ _ _ | .release _ | .reserveBytes _ _ _ _ | .releaseBytes _ | .reset _ _ _ =>
      inferInstanceAs (Decidable True)

/-- Watches a file, from a device. -/
def watch (device : DeviceId) : Op :=
  .tryAcquireSlot device .watcher (.ofNanos 0) (.ofNanos 0)

/-- A device takes a slot, gives it back and is forgotten. -/
def politeCalls : List Op :=
  [watch (.replicate 1), .release ⟨key (.replicate 1) .watcher⟩, watch (.replicate 2),
    .forgetDevice (.replicate 1)]

theorem ceilings_kept_polite :
    ∃ trace s, s.outstanding (key (.replicate 2) .watcher) = 1 ∧
      Transition.Run step Orderly start trace s ∧
      (s.limiter.lent (key (.replicate 2) .watcher)).1.toNat = 1 := by
  have hfinal : (Transition.exec step Orderly politeCalls [] start).map
      (fun r => r.2.outstanding (key (.replicate 2) .watcher)) = some 1 := by
    decide +kernel
  obtain ⟨⟨trace, s⟩, hexec, hone⟩ := Option.map_eq_some_iff.mp hfinal
  have hrun := Transition.run_of_exec politeCalls hexec
  obtain ⟨hslots, -⟩ := ceilings_kept hrun (key (.replicate 2) .watcher)
  exact ⟨trace, s, hone, hrun, hslots.trans hone⟩

/-- A device that is forgotten while it holds every slot of a class, and comes
back for one more. -/
def greedyCalls : List Op :=
  List.replicate 8 (watch (.replicate 1)) ++ [.forgetDevice (.replicate 1), watch (.replicate 1)]

/-- **Forgetting a device that holds slots breaks the ceiling**: the new bucket
does not know what was issued before. -/
theorem ceiling_exceeded :
    ¬ ∀ trace s, Transition.Run step Transition.unguarded start trace s →
      ∀ k ceiling, k.2.limits.maxConcurrent = some ceiling → s.outstanding k ≤ ceiling.toNat := by
  intro hkept
  have hfinal : (Transition.exec step Transition.unguarded greedyCalls [] start).map
      (fun r => r.2.outstanding (key (.replicate 1) .watcher)) = some 9 := by
    decide +kernel
  obtain ⟨⟨trace, s⟩, hexec, hnine⟩ := Option.map_eq_some_iff.mp hfinal
  have hle := hkept trace s (Transition.run_of_exec greedyCalls hexec)
    (key (.replicate 1) .watcher) 8 rfl
  change s.outstanding _ = 9 at hnine
  rw [hnine] at hle
  exact absurd hle (by decide)

end Ledger

end RateLimiter

end Policy
