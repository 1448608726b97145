import GoNomad.Core.Ticket

/-!
# What the ticket reader accepts

The reader walks records of announced lengths inside a block of an announced
length.  With every index and slice checked it is the reader that checks none, and
what it accepts has exactly one layout.

* `Checked.decode_eq` — no index or slice is out of bounds, and the loop ends;
* `decodeBody_iff` — the bodies that are accepted, and what is read from them;
* `decode_robust` — what becomes of truncated, newer and extended payloads.
-/

namespace Core

open Proto

/-! ### The reader with every check written out -/

namespace Checked

/-- The bytes between two positions. -/
def slice (xs : List UInt8) (start stop : Nat) : Option (List UInt8) :=
  if start ≤ stop ∧ stop ≤ xs.length then some ((xs.drop start).take (stop - start)) else none

/-- Copies the bytes between two positions into an array of 32, which must be as
many. -/
def copyFrom (xs : List UInt8) (start stop : Nat) :
    Option { bytes : List UInt8 // bytes.length = 32 } := do
  let found ← slice xs start stop
  if h : found.length = 32 then some ⟨found, h⟩ else none

/-- Parses hint records; out of fuel the loop would not have ended. -/
def decodeRecords (hints : Hints) : Nat → List UInt8 → Option (Except PairingError Hints)
  | 0, _ => none
  | fuel + 1, rest =>
      if rest.isEmpty then some (.ok hints)
      else if rest.length < hintHeaderLen then some (.error .badLength)
      else do
        let kind ← rest[0]?
        let len ← rest[1]?
        let stop := hintHeaderLen + len.toNat
        if rest.length < stop then
          return .error .badLength
        else
          let payload ← slice rest hintHeaderLen stop
          decodeRecords (hints.read kind payload) fuel (← slice rest stop rest.length)

def decodeHints (rest : List UInt8) : Option (Except PairingError Hints) :=
  decodeRecords ⟨[], none⟩ (rest.length + 1) rest

/-- Decodes the bytes of a ticket. -/
def decodeBody (body : List UInt8) :
    Option (Except PairingError (PairingTicket × PairingSecret)) :=
  match body.head? with
  | none => some (.error .badLength)
  | some version =>
      if version ≠ ticketVersion then some (.error (.unsupportedVersion version))
      else if body.length < ticketFixedLen then some (.error .badLength)
      else do
        let key ← copyFrom body 1 nodeIdAt
        let nodeId ← copyFrom body nodeIdAt secretAt
        let secret ← copyFrom body secretAt (secretAt + pairingSecretLen)
        let hi ← body[ticketFixedLen - 2]?
        let lo ← body[ticketFixedLen - 1]?
        let hintLen := (BigEndian.toU16 hi lo).toNat
        if body.length ≠ ticketFixedLen + hintLen then
          return .error .badLength
        else
          match ← decodeHints (← slice body ticketFixedLen body.length) with
          | .error e => return .error e
          | .ok hints =>
              return .ok (⟨⟨key.1, key.2⟩, ⟨nodeId.1, nodeId.2⟩, hints.addrHints,
                hints.relayHint⟩, ⟨secret.1, secret.2⟩)

/-- Decodes a scanned payload. -/
def decode (base32 : Encoding) (payload : String) :
    Option (Except PairingError (PairingTicket × PairingSecret)) :=
  match stripPrefix ticketPrefix payload with
  | none => some (.error .wrongScheme)
  | some encoded =>
      match base32.decode (utf8 encoded) with
      | none => some (.error .notBase32)
      | some body => decodeBody body

theorem slice_eq {xs : List UInt8} {start stop : Nat} (h : start ≤ stop) (h' : stop ≤ xs.length) :
    slice xs start stop = some ((xs.drop start).take (stop - start)) :=
  if_pos ⟨h, h'⟩

/-- Every record takes two bytes at least, so there is fuel for all of them. -/
theorem decodeRecords_eq (hints : Hints) {fuel fuel' : Nat} {rest : List UInt8}
    (hfuel : rest.length < fuel) (hfuel' : rest.length ≤ fuel') :
    decodeRecords hints fuel rest = some (Core.decodeRecords hints fuel' rest) := by
  induction fuel generalizing hints fuel' rest with
  | zero => omega
  | succ fuel ih =>
      match rest, fuel' with
      | [], fuel' => cases fuel' <;> rfl
      | [b], fuel' => cases fuel' <;> rfl
      | kind :: len :: rest, 0 => simp at hfuel'
      | kind :: len :: rest, fuel' + 1 =>
          unfold decodeRecords Core.decodeRecords
          rw [if_neg (by simp), if_neg (by simp [hintHeaderLen])]
          have hlength : (kind :: len :: rest).length = hintHeaderLen + rest.length := by
            simp only [List.length_cons, hintHeaderLen]
            omega
          simp only [List.getElem?_cons_zero, List.getElem?_cons_succ, Option.bind_eq_bind,
            Option.bind_some]
          by_cases hshort : rest.length < len.toNat
          · rw [if_pos (by omega), if_pos hshort]
            rfl
          · rw [if_neg (by omega), if_neg hshort, slice_eq (by omega) (by omega),
              slice_eq (by omega) (Nat.le_refl _), Option.bind_some, Option.bind_some, hlength,
              Nat.add_sub_cancel_left, Nat.add_sub_add_left]
            have hdrop : (kind :: len :: rest).drop (hintHeaderLen + len.toNat) =
                rest.drop len.toNat := by
              rw [← List.drop_drop]
              rfl
            have hwhole : (rest.drop len.toNat).take (rest.length - len.toNat) =
                rest.drop len.toNat :=
              List.take_of_length_le (by rw [List.length_drop])
            rw [hdrop, hwhole]
            refine ih _ ?_ ?_
            · rw [List.length_drop]
              simp only [List.length_cons] at hfuel
              omega
            · rw [List.length_drop]
              simp only [List.length_cons] at hfuel'
              omega

/-- A field of 32 bytes is copied whole. -/
theorem copyFrom_eq {body : List UInt8} (h : ¬ body.length < ticketFixedLen) (start : Nat)
    (hstart : start ≤ secretAt) :
    copyFrom body start (start + 32) =
      some ⟨field body start, PairingTicket.length_field h hstart⟩ := by
  have hstop : start + 32 ≤ body.length := by
    unfold ticketFixedLen pairingSecretLen at h
    unfold secretAt nodeIdAt at hstart
    omega
  unfold copyFrom
  rw [slice_eq (Nat.le_add_right _ _) hstop, Nat.add_sub_cancel_left, Option.bind_eq_bind,
    Option.bind_some]
  exact dif_pos (PairingTicket.length_field h hstart)

/-- **Nothing is read out of bounds.** -/
theorem decodeBody_eq (body : List UInt8) :
    decodeBody body = some (PairingTicket.decodeBody body) := by
  unfold decodeBody PairingTicket.decodeBody
  cases body with
  | nil => rfl
  | cons version rest =>
      dsimp only [List.head?_cons]
      generalize hbody : version :: rest = body
      by_cases hversion : version = ticketVersion
      swap
      · rw [if_pos hversion, if_pos hversion]
      rw [if_neg (not_not.mpr hversion), if_neg (not_not.mpr hversion)]
      by_cases hshort : body.length < ticketFixedLen
      · rw [if_pos hshort, dif_pos hshort]
      rw [if_neg hshort, dif_neg hshort]
      have hget : ∀ i < ticketFixedLen, body[i]? = some (body.getD i 0) := by
        intro i hi
        rw [List.getD_eq_getElem?_getD, List.getElem?_eq_getElem (by omega)]
        rfl
      have hblock : slice body ticketFixedLen body.length = some (body.drop ticketFixedLen) := by
        rw [slice_eq (by omega) (Nat.le_refl _),
          List.take_of_length_le (by rw [List.length_drop])]
      have hhints : decodeHints (body.drop ticketFixedLen) =
          some (Core.decodeHints (body.drop ticketFixedLen)) :=
        decodeRecords_eq _ (Nat.lt_succ_self _) (Nat.le_refl _)
      have hkey := copyFrom_eq hshort 1 (by decide)
      have hnode := copyFrom_eq hshort nodeIdAt (by decide)
      have hsecret := copyFrom_eq hshort secretAt (by decide)
      rw [show 1 + 32 = nodeIdAt from rfl] at hkey
      rw [show nodeIdAt + 32 = secretAt from rfl] at hnode
      rw [show secretAt + 32 = secretAt + pairingSecretLen from rfl] at hsecret
      simp only [hkey, hnode, hsecret, hget _ (by decide : ticketFixedLen - 2 < ticketFixedLen),
        hget _ (by decide : ticketFixedLen - 1 < ticketFixedLen), Option.bind_eq_bind,
        Option.bind_some, hblock, hhints]
      split_ifs
      · rfl
      · cases Core.decodeHints (body.drop ticketFixedLen) <;> rfl

/-- **Nothing panics**, whatever is scanned. -/
theorem decode_eq (base32 : Encoding) (payload : String) :
    decode base32 payload = some (PairingTicket.decode base32 payload) := by
  unfold decode PairingTicket.decode
  cases stripPrefix ticketPrefix payload with
  | none => rfl
  | some encoded =>
      dsimp only
      cases base32.decode (utf8 encoded) with
      | none => rfl
      | some body => exact decodeBody_eq body

end Checked

/-! ### What is accepted -/

/-- A hint block is read only if it is records, one after the other. -/
theorem decodeRecords_eq_ok {hints found : Hints} {fuel : Nat} {block : List UInt8}
    (h : decodeRecords hints fuel block = .ok found) :
    ∃ records : List (UInt8 × List UInt8), (∀ r ∈ records, r.2.length ≤ 255) ∧
      block = records.flatMap record ∧
      records.foldl (fun hints r => hints.read r.1 r.2) hints = found := by
  revert h
  fun_induction decodeRecords hints fuel block with
  | case1 hints =>
      intro h
      exact ⟨[], by simp, rfl, Except.ok.inj h⟩
  | case2 => exact fun h => (nomatch h)
  | case3 => exact fun h => (nomatch h)
  | case4 => exact fun h => (nomatch h)
  | case5 hints fuel kind len rest hlong ih =>
      intro h
      obtain ⟨records, hshort, hrest, hfound⟩ := ih h
      have htake : (rest.take len.toNat).length = len.toNat := by
        rw [List.length_take]
        omega
      refine ⟨(kind, rest.take len.toNat) :: records, ?_, ?_, hfound⟩
      · intro r hr
        rcases List.mem_cons.mp hr with rfl | hr
        · have hlen := len.toNat_lt
          show (rest.take len.toNat).length ≤ 255
          omega
        · exact hshort r hr
      · rw [List.flatMap_cons, ← hrest, record, htake, UInt8.ofNat_toNat, List.cons_append,
          List.cons_append, List.take_append_drop]

namespace PairingTicket

/-- The bytes of a payload with these fields and hint records. -/
def layout (key node : PublicKey) (secret : PairingSecret) (records : List (UInt8 × List UInt8)) :
    List UInt8 :=
  [ticketVersion] ++ key.bytes ++ node.bytes ++ secret.bytes ++
    BigEndian.ofU16 (.ofNat (records.flatMap record).length) ++ records.flatMap record

/-- Records whose lengths can be announced, each its own and together. -/
structure Fits (records : List (UInt8 × List UInt8)) : Prop where
  short : ∀ r ∈ records, r.2.length ≤ 255
  total : (records.flatMap record).length < 2 ^ 16

/-- Without one of them, records fit as well. -/
theorem Fits.without {before after : List (UInt8 × List UInt8)} {r : UInt8 × List UInt8}
    (h : Fits (before ++ r :: after)) : Fits (before ++ after) := by
  refine ⟨fun r' hr' => h.short r' ?_, ?_⟩
  · rw [List.mem_append] at hr' ⊢
    exact hr'.imp id (List.mem_cons_of_mem _)
  · have htotal := h.total
    rw [List.flatMap_append, List.length_append] at htotal ⊢
    rw [List.flatMap_cons, List.length_append] at htotal
    omega

/-- What is read of some records. -/
def hintsOf (records : List (UInt8 × List UInt8)) : Hints :=
  records.foldl (fun hints r => hints.read r.1 r.2) ⟨[], none⟩

/-- What is laid out is read. -/
theorem decodeBody_layout {key node : PublicKey} {secret : PairingSecret}
    {records : List (UInt8 × List UInt8)} (h : Fits records) :
    decodeBody (layout key node secret records) =
      .ok (⟨key, node, (hintsOf records).addrHints, (hintsOf records).relayHint⟩, secret) := by
  refine decodeBody_append ?_ (decodeRecords_hints h.short _ (Nat.le_refl _))
  rw [UInt16.toNat_ofNat']
  exact (Nat.mod_eq_of_lt h.total).symm

/-- A body from the front: a field of 32 bytes and what is behind it. -/
theorem drop_eq_field_append (body : List UInt8) (start : Nat) :
    body.drop start = field body start ++ body.drop (start + 32) := by
  rw [field, ← List.drop_drop, List.take_append_drop]

/-- Everything that is checked and read of an accepted body. -/
structure Accepted (body : List UInt8) (x : PairingTicket × PairingSecret) : Prop where
  version : body.head? = some ticketVersion
  long : ticketFixedLen ≤ body.length
  length : body.length = ticketFixedLen + (BigEndian.toU16 (body.getD (ticketFixedLen - 2) 0)
    (body.getD (ticketFixedLen - 1) 0)).toNat
  key : x.1.daemonKey.bytes = field body 1
  node : x.1.nodeId.bytes = field body nodeIdAt
  secret : x.2.bytes = field body secretAt
  hints : decodeHints (body.drop ticketFixedLen) = .ok ⟨x.1.addrHints, x.1.relayHint⟩

theorem accepted_of_decodeBody {body : List UInt8} {x : PairingTicket × PairingSecret}
    (h : decodeBody body = .ok x) : Accepted body x := by
  unfold decodeBody at h
  split at h
  · cases h
  rename_i version rest
  by_cases hversion : version = ticketVersion
  swap
  · rw [if_pos hversion] at h
    cases h
  rw [if_neg (not_not.mpr hversion)] at h
  by_cases hshort : (version :: rest).length < ticketFixedLen
  · rw [dif_pos hshort] at h
    cases h
  rw [dif_neg hshort] at h
  dsimp only at h
  split_ifs at h with hlength
  split at h
  · cases h
  · rename_i hints hhints
    obtain rfl := Except.ok.inj h
    exact ⟨congrArg some hversion, Nat.le_of_not_lt hshort, not_not.mp hlength, rfl, rfl, rfl,
      hhints⟩

/-- An accepted body is taken apart at its fields. -/
theorem Accepted.eq {body : List UInt8} {x : PairingTicket × PairingSecret}
    (h : Accepted body x) :
    body = [ticketVersion] ++ x.1.daemonKey.bytes ++ x.1.nodeId.bytes ++ x.2.bytes ++
      BigEndian.ofU16 (.ofNat (body.drop ticketFixedLen).length) ++ body.drop ticketFixedLen := by
  have hword : body.drop (secretAt + 32) =
      BigEndian.ofU16 (.ofNat (body.drop ticketFixedLen).length) ++ body.drop ticketFixedLen := by
    have hlength := h.length
    have hlong := h.long
    have hblock : (body.drop ticketFixedLen).length = (BigEndian.toU16
        (body.getD (ticketFixedLen - 2) 0) (body.getD (ticketFixedLen - 1) 0)).toNat := by
      rw [List.length_drop]
      omega
    have hget : ∀ i < ticketFixedLen, body.drop i = body.getD i 0 :: body.drop (i + 1) := by
      intro i hi
      rw [List.drop_eq_getElem_cons (by omega), List.getD_eq_getElem]
    rw [hblock, UInt16.ofNat_toNat, BigEndian.ofU16_toU16]
    exact (hget 97 (by decide)).trans (congrArg _ (hget 98 (by decide)))
  have hhead : body = [ticketVersion] ++ body.drop 1 := by
    have hversion := h.version
    cases body with
    | nil => cases hversion
    | cons version rest => rw [Option.some.inj hversion]; rfl
  calc body = [ticketVersion] ++ body.drop 1 := hhead
    _ = [ticketVersion] ++ (field body 1 ++ (field body nodeIdAt ++
        (field body secretAt ++ body.drop (secretAt + 32)))) := by
      rw [drop_eq_field_append body 1]
      congr 2
      rw [show 1 + 32 = nodeIdAt from rfl, drop_eq_field_append body nodeIdAt]
      congr 1
      exact drop_eq_field_append body secretAt
    _ = _ := by
      rw [hword, h.key, h.node, h.secret]
      simp only [List.append_assoc]

/-- **What is accepted** is laid out, and read as laid out. -/
theorem decodeBody_iff {body : List UInt8} {ticket : PairingTicket} {secret : PairingSecret} :
    decodeBody body = .ok (ticket, secret) ↔
      ∃ records, Fits records ∧ body = layout ticket.daemonKey ticket.nodeId secret records ∧
        hintsOf records = ⟨ticket.addrHints, ticket.relayHint⟩ := by
  constructor
  · intro h
    have haccepted := accepted_of_decodeBody h
    obtain ⟨records, hshort, hblock, hhints⟩ := decodeRecords_eq_ok haccepted.hints
    have hbody := haccepted.eq
    rw [hblock] at hbody
    refine ⟨records, ⟨hshort, ?_⟩, hbody, hhints⟩
    have hlength := haccepted.length
    rw [← hblock, List.length_drop, hlength, Nat.add_sub_cancel_left]
    exact UInt16.toNat_lt _
  · rintro ⟨records, hfits, rfl, hhints⟩
    rw [decodeBody_layout hfits, hhints]

/-! ### Truncated, newer and extended payloads -/

/-- The front of an accepted body is not accepted. -/
theorem decodeBody_front {body more : List UInt8} {x : PairingTicket × PairingSecret}
    (h : decodeBody (body ++ more) = .ok x) (hmore : more ≠ []) :
    ∃ e, decodeBody body = .error e := by
  cases hbody : decodeBody body with
  | error e => exact ⟨e, rfl⟩
  | ok y =>
      have hwhole := (accepted_of_decodeBody h).length
      have hfront := accepted_of_decodeBody hbody
      have hget : ∀ i < ticketFixedLen, (body ++ more).getD i 0 = body.getD i 0 := by
        intro i hi
        have hlong := hfront.long
        rw [List.getD_append _ _ _ _ (by omega)]
      rw [hget _ (by decide), hget _ (by decide), ← hfront.length, List.length_append] at hwhole
      have hpos := List.length_pos_of_ne_nil hmore
      omega

/-- Kinds that no reader of this version knows. -/
def Unknown (kind : UInt8) : Prop :=
  kind ≠ hintIpv4 ∧ kind ≠ hintIpv6 ∧ kind ≠ hintText ∧ kind ≠ hintRelay

instance (kind : UInt8) : Decidable (Unknown kind) := inferInstanceAs (Decidable (_ ∧ _))

/-- A hint of an unknown kind is skipped, whatever is in it. -/
theorem read_unknown {kind : UInt8} (h : Unknown kind) (hints : Hints) (payload : List UInt8) :
    hints.read kind payload = hints := by
  obtain ⟨hv4, hv6, htext, hrelay⟩ := h
  unfold Hints.read
  rw [if_neg hv4, if_neg hv6, if_neg htext, if_neg hrelay]

/-- A hint of an unknown kind changes nothing of what is read, wherever it stands. -/
theorem hintsOf_insert {kind : UInt8} (h : Unknown kind) (payload : List UInt8)
    (before after : List (UInt8 × List UInt8)) :
    hintsOf (before ++ (kind, payload) :: after) = hintsOf (before ++ after) := by
  unfold hintsOf
  rw [List.foldl_append, List.foldl_append, List.foldl_cons, read_unknown h]

theorem stripPrefix_eq_some {start text rest : String} (h : stripPrefix start text = some rest) :
    text = start ++ rest := by
  unfold stripPrefix at h
  split_ifs at h with hstart
  obtain ⟨more, hmore⟩ := List.isPrefixOf_iff_prefix.mp hstart
  obtain rfl := Option.some.inj h
  apply String.toList_injective
  rw [String.toList_append, String.toList_ofList, ← hmore, List.drop_left]

/-- An accepted payload is the scheme and the text of an accepted body. -/
theorem decode_eq_ok {base32 : Encoding} {payload : String} {x : PairingTicket × PairingSecret}
    (h : decode base32 payload = .ok x) :
    ∃ encoded body, payload = ticketPrefix ++ encoded ∧
      base32.decode (utf8 encoded) = some body ∧ decodeBody body = .ok x := by
  unfold decode at h
  split at h
  · cases h
  · rename_i encoded hencoded
    split at h
    · cases h
    · rename_i body hbody
      exact ⟨encoded, body, stripPrefix_eq_some hencoded, hbody, h⟩

theorem decode_of_body {base32 : Encoding} {encoded : String} {body : List UInt8}
    (h : base32.decode (utf8 encoded) = some body) :
    decode base32 (ticketPrefix ++ encoded) = decodeBody body := by
  unfold decode
  rw [stripPrefix_append]
  dsimp only
  rw [h]

/-- The front of an accepted payload is not accepted. -/
theorem decode_front {payload more : String} {x : PairingTicket × PairingSecret}
    (h : decode crockford (payload ++ more) = .ok x) (hmore : more ≠ "") :
    ∃ e, decode crockford payload = .error e := by
  cases hpayload : decode crockford payload with
  | error e => exact ⟨e, rfl⟩
  | ok y =>
      obtain ⟨encoded, body, hwhole, hbody, hx⟩ := decode_eq_ok h
      obtain ⟨encoded', body', rfl, hbody', hy⟩ := decode_eq_ok hpayload
      obtain rfl : encoded' ++ more = encoded := by
        apply String.toList_injective
        have hlist := congrArg String.toList hwhole
        simp only [String.toList_append, List.append_assoc] at hlist
        rw [String.toList_append]
        exact List.append_cancel_left hlist
      have hbytes : utf8 more ≠ [] := by
        intro hnil
        exact hmore (utf8_injective hnil)
      rw [utf8_append] at hbody
      obtain ⟨⟨rest, rfl⟩, hshorter⟩ := crockfordAlphabet.decode_append hbytes hbody hbody'
      have hrest : rest ≠ [] := by
        rintro rfl
        rw [List.append_nil] at hshorter
        exact absurd hshorter (Nat.lt_irrefl _)
      obtain ⟨e, he⟩ := decodeBody_front hx hrest
      rw [hy] at he
      cases he

/-- **The reader is robust.**  On no text does it panic or read out of bounds.  No strict
front of a payload it accepts is accepted.  A body of another version is reported as
such, whatever follows the version.  What it accepts is a body of laid out hints; and
where one of an unknown kind is put between any two of them, the same is read. -/
theorem decode_robust :
    (∀ payload, Checked.decode crockford payload = some (decode crockford payload)) ∧
    (∀ payload more x, decode crockford (payload ++ more) = .ok x → more ≠ "" →
      ∃ e, decode crockford payload = .error e) ∧
    (∀ encoded version rest, crockford.decode (utf8 encoded) = some (version :: rest) →
      version ≠ ticketVersion →
      decode crockford (ticketPrefix ++ encoded) = .error (.unsupportedVersion version)) ∧
    (∀ payload ticket secret, decode crockford payload = .ok (ticket, secret) ↔
      ∃ encoded records, payload = ticketPrefix ++ encoded ∧ Fits records ∧
        crockford.decode (utf8 encoded) =
          some (layout ticket.daemonKey ticket.nodeId secret records) ∧
        hintsOf records = ⟨ticket.addrHints, ticket.relayHint⟩) ∧
    ∀ key node secret before after kind body encoded encoded', Unknown kind →
      Fits (before ++ (kind, body) :: after) →
      crockford.decode (utf8 encoded) = some (layout key node secret (before ++ after)) →
      crockford.decode (utf8 encoded') =
        some (layout key node secret (before ++ (kind, body) :: after)) →
      ∃ ticket, decode crockford (ticketPrefix ++ encoded) = .ok (ticket, secret) ∧
        decode crockford (ticketPrefix ++ encoded') = .ok (ticket, secret) := by
  refine ⟨Checked.decode_eq crockford, fun _ _ _ h hmore => decode_front h hmore,
    fun encoded version rest hbody hversion => ?_, fun payload ticket secret => ⟨fun h => ?_, ?_⟩,
    fun key node secret before after kind body encoded encoded' hunknown hfits hbody hbody' => ?_⟩
  · rw [decode_of_body hbody]
    unfold decodeBody
    dsimp only
    rw [if_pos hversion]
  · obtain ⟨encoded, body, rfl, hbody, hx⟩ := decode_eq_ok h
    obtain ⟨records, hfits, rfl, hhints⟩ := decodeBody_iff.mp hx
    exact ⟨encoded, records, rfl, hfits, hbody, hhints⟩
  · rintro ⟨encoded, records, rfl, hfits, hbody, hhints⟩
    rw [decode_of_body hbody, decodeBody_layout hfits, hhints]
  · refine ⟨⟨key, node, (hintsOf (before ++ after)).addrHints,
      (hintsOf (before ++ after)).relayHint⟩, ?_, ?_⟩
    · rw [decode_of_body hbody, decodeBody_layout hfits.without]
    · rw [decode_of_body hbody', decodeBody_layout hfits, hintsOf_insert hunknown]

/-- A hint of kind 9 between two others. -/
theorem decode_robust_extended :
    ∃ ticket,
      decode crockford (ticketPrefix ++ crockford.encode (layout (.replicate 1) (.replicate 2)
        sampleSecret [(hintText, utf8 "a"), (hintRelay, utf8 "b")])) =
          .ok (ticket, sampleSecret) ∧
      decode crockford (ticketPrefix ++ crockford.encode (layout (.replicate 1) (.replicate 2)
        sampleSecret [(hintText, utf8 "a"), (9, [1, 2, 3]), (hintRelay, utf8 "b")])) =
          .ok (ticket, sampleSecret) :=
  decode_robust.2.2.2.2 _ _ _ [(hintText, utf8 "a")] [(hintRelay, utf8 "b")] 9 [1, 2, 3] _ _
    (by decide) ⟨by decide, by decide⟩ (crockford.decode_encode _) (crockford.decode_encode _)

end PairingTicket

end Core
