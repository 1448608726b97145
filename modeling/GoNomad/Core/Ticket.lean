import GoNomad.Lib.Base32
import GoNomad.Lib.SocketAddr
import GoNomad.Proto.Ids

/-!
# The pairing ticket

What a QR code carries: both keys of the daemon, the pairing secret, and hints
where to reach it.  A hint that is the canonical spelling of a socket address is
carried as address and port, any other as it is.

* `decodeRecords_hints` — the hint records of a block are read back one by one;
* `decode_encode` — what becomes of a ticket that is encoded and decoded;
* `round_trip_iff` — which tickets come back as they were;
* `scope_lost` — one that does not.
-/

namespace Core

open Proto Net

/-- Length of a QR pairing secret, in bytes. -/
def pairingSecretLen : Nat := 32

/-- URI scheme of the QR payload. -/
def ticketPrefix : String := "gonomad1:"

/-- The symbols of Crockford base 32: no ambiguous letters, and what is easily
mistaken for a symbol is read as that symbol. -/
def crockfordAlphabet : Base32.Alphabet where
  symbols := utf8 "0123456789ABCDEFGHJKMNPQRSTVWXYZ"
  translate := (utf8 "OoIiLlabcdefghjkmnpqrstvwxyz").zip (utf8 "001111ABCDEFGHJKMNPQRSTVWXYZ")
  length_symbols := by decide
  nodup := by decide
  ascii := by decide +kernel

/-- Crockford base 32. -/
def crockford : Encoding := crockfordAlphabet.encoding

/-- Why pairing material could not be parsed. -/
inductive PairingError
  | wrongScheme
  | notBase32
  | badLength
  | unsupportedVersion (version : UInt8)
  | badCodeLength
  | expired
  deriving DecidableEq

/-- A single-use secret carried in the QR code. -/
structure PairingSecret where
  bytes : List UInt8
  length_eq : bytes.length = pairingSecretLen
  deriving DecidableEq

/-- Everything the phone needs to reach and authenticate the daemon. -/
structure PairingTicket where
  daemonKey : PublicKey
  nodeId : PublicKey
  addrHints : List String
  relayHint : Option String
  deriving DecidableEq

def ticketVersion : UInt8 := 2

/-- Version, both keys, secret and hint length. -/
def ticketFixedLen : Nat := 1 + 32 + 32 + pairingSecretLen + 2

def nodeIdAt : Nat := 1 + 32

def secretAt : Nat := nodeIdAt + 32

def hintIpv4 : UInt8 := 1

def hintIpv6 : UInt8 := 2

def hintText : UInt8 := 3

def hintRelay : UInt8 := 4

def hintHeaderLen : Nat := 2

/-! ### Encoding -/

/-- Appends one record, dropping anything too long to describe. -/
def pushHint (out : List UInt8) (kind : UInt8) (payload : List UInt8) : List UInt8 :=
  if payload.length ≤ 255 then out ++ kind :: UInt8.ofNat payload.length :: payload else out

/-- Kind and payload of the record of an address hint: compact where the address
renders back to exactly what was given. -/
def hintRecord (hint : String) : UInt8 × List UInt8 :=
  match parse hint with
  | some (.v4 v4) =>
      if v4.toString = hint then (hintIpv4, v4.ip.octets ++ BigEndian.ofU16 v4.port)
      else (hintText, utf8 hint)
  | some (.v6 v6) =>
      if v6.toString = hint then (hintIpv6, v6.ip.octets ++ BigEndian.ofU16 v6.port)
      else (hintText, utf8 hint)
  | none => (hintText, utf8 hint)

namespace PairingTicket

/-- Serialises the address and relay hints as length-tagged records. -/
def encodeHints (ticket : PairingTicket) : List UInt8 :=
  let out := ticket.addrHints.foldl
    (fun out hint => pushHint out (hintRecord hint).1 (hintRecord hint).2) []
  match ticket.relayHint with
  | some relay => pushHint out hintRelay (utf8 relay)
  | none => out

/-- The bytes of a ticket; a hint block too long for its length is dropped. -/
def encodeBody (ticket : PairingTicket) (secret : PairingSecret) : List UInt8 :=
  let hints := ticket.encodeHints
  let len := if hints.length < 2 ^ 16 then UInt16.ofNat hints.length else 0
  [ticketVersion] ++ ticket.daemonKey.bytes ++ ticket.nodeId.bytes ++ secret.bytes ++
    BigEndian.ofU16 len ++ hints.take len.toNat

/-- Encodes the ticket and the secret into the text of the QR code. -/
def encode (base32 : Encoding) (ticket : PairingTicket) (secret : PairingSecret) : String :=
  ticketPrefix ++ base32.encode (ticket.encodeBody secret)

end PairingTicket

/-! ### Decoding -/

/-- What has been read of the hints. -/
structure Hints where
  addrHints : List String
  relayHint : Option String

/-- Reads one record; one of an unknown kind, of a wrong size or that is no text
is skipped. -/
def Hints.read (hints : Hints) (kind : UInt8) (payload : List UInt8) : Hints :=
  if kind = hintIpv4 then
    match payload with
    | [a, b, c, d, p, q] =>
        { hints with addrHints := hints.addrHints ++
            [SocketAddrV4.toString ⟨⟨a, b, c, d⟩, BigEndian.toU16 p q⟩] }
    | _ => hints
  else if kind = hintIpv6 then
    match payload.drop 16 with
    | [p, q] =>
        { hints with addrHints := hints.addrHints ++
            [SocketAddrV6.toString
              ⟨.ofOctets (payload.take 16), BigEndian.toU16 p q, 0, 0⟩] }
    | _ => hints
  else if kind = hintText then
    match ofUtf8 payload with
    | some text => { hints with addrHints := hints.addrHints ++ [text] }
    | none => hints
  else if kind = hintRelay then
    match ofUtf8 payload with
    | some text => { hints with relayHint := some text }
    | none => hints
  else hints

/-- Reads the records that are left; `fuel` bounds how many. -/
def decodeRecords (hints : Hints) : Nat → List UInt8 → Except PairingError Hints
  | _, [] => .ok hints
  | _, [_] => .error .badLength
  | 0, _ => .error .badLength
  | fuel + 1, kind :: len :: rest =>
      -- A record that claims more bytes than are left: the block is corrupt.
      if rest.length < len.toNat then .error .badLength
      else decodeRecords (hints.read kind (rest.take len.toNat)) fuel (rest.drop len.toNat)

/-- Parses the hint records of a block, every one of which takes a byte at
least. -/
def decodeHints (block : List UInt8) : Except PairingError Hints :=
  decodeRecords ⟨[], none⟩ block.length block

def stripPrefix (start text : String) : Option String :=
  if start.toList.isPrefixOf text.toList then
    some (String.ofList (text.toList.drop start.toList.length))
  else none

/-- The 32 bytes of a body from a position on. -/
def field (body : List UInt8) (start : Nat) : List UInt8 := (body.drop start).take 32

namespace PairingTicket

theorem length_field {body : List UInt8} {start : Nat} (h : ¬ body.length < ticketFixedLen)
    (hstart : start ≤ secretAt) : (field body start).length = 32 := by
  rw [field, List.length_take, List.length_drop]
  unfold secretAt nodeIdAt at hstart
  unfold ticketFixedLen pairingSecretLen at h
  omega

/-- Decodes the bytes of a ticket. -/
def decodeBody (body : List UInt8) : Except PairingError (PairingTicket × PairingSecret) :=
  match body with
  | [] => .error .badLength
  | version :: _ =>
      -- The version is checked before the length.
      if version ≠ ticketVersion then .error (.unsupportedVersion version)
      else if h : body.length < ticketFixedLen then .error .badLength
      else
        let hintLen := (BigEndian.toU16 (body.getD (ticketFixedLen - 2) 0)
          (body.getD (ticketFixedLen - 1) 0)).toNat
        if body.length ≠ ticketFixedLen + hintLen then .error .badLength
        else
          match decodeHints (body.drop ticketFixedLen) with
          | .error e => .error e
          | .ok hints =>
              .ok (⟨⟨field body 1, length_field h (by decide)⟩,
                ⟨field body nodeIdAt, length_field h (by decide)⟩, hints.addrHints,
                hints.relayHint⟩, ⟨field body secretAt, length_field h (by decide)⟩)

/-- Decodes a scanned QR payload. -/
def decode (base32 : Encoding) (payload : String) :
    Except PairingError (PairingTicket × PairingSecret) :=
  match stripPrefix ticketPrefix payload with
  | none => .error .wrongScheme
  | some encoded =>
      match base32.decode (utf8 encoded) with
      | none => .error .notBase32
      | some body => decodeBody body

end PairingTicket

/-! ### Records -/

/-- The bytes of one record. -/
def record (r : UInt8 × List UInt8) : List UInt8 := r.1 :: UInt8.ofNat r.2.length :: r.2

theorem pushHint_of_short {out payload : List UInt8} {kind : UInt8} (h : payload.length ≤ 255) :
    pushHint out kind payload = out ++ record (kind, payload) := by
  rw [pushHint, if_pos h]
  rfl

/-- **Records are read back one by one.** -/
theorem decodeRecords_hints {records : List (UInt8 × List UInt8)}
    (hshort : ∀ r ∈ records, r.2.length ≤ 255) (hints : Hints) {fuel : Nat}
    (hfuel : (records.flatMap record).length ≤ fuel) :
    decodeRecords hints fuel (records.flatMap record) =
      .ok (records.foldl (fun hints r => hints.read r.1 r.2) hints) := by
  induction records generalizing hints fuel with
  | nil =>
      cases fuel <;> rfl
  | cons r records ih =>
      rw [List.flatMap_cons, List.length_append] at hfuel
      cases fuel with
      | zero => simp [record] at hfuel
      | succ fuel =>
          have hlen : (UInt8.ofNat r.2.length).toNat = r.2.length := by
            have hr := hshort r (.head _)
            rw [UInt8.toNat_ofNat']
            omega
          rw [List.flatMap_cons, record, List.cons_append, List.cons_append, decodeRecords, hlen,
            if_neg (by simp), List.take_left, List.drop_left]
          refine ih (fun r' hr' => hshort r' (.tail _ hr')) _ ?_
          simp only [record, List.length_cons] at hfuel
          omega

/-- What a hint has become when it is read back: a scope id does not survive the
compact form. -/
def carried (hint : String) : String :=
  match parse hint with
  | some (.v6 v6) =>
      if v6.toString = hint then
        SocketAddrV6.toString { v6 with flowinfo := 0, scopeId := 0 }
      else hint
  | _ => hint

theorem read_text (hints : Hints) (hint : String) :
    hints.read hintText (utf8 hint) = { hints with addrHints := hints.addrHints ++ [hint] } := by
  show (match ofUtf8 (utf8 hint) with | some text => _ | none => _) = _
  rw [ofUtf8_utf8]

/-- The record of a hint is read back as what the hint has become. -/
theorem read_hintRecord (hints : Hints) (hint : String) :
    hints.read (hintRecord hint).1 (hintRecord hint).2 =
      { hints with addrHints := hints.addrHints ++ [carried hint] } := by
  unfold hintRecord carried
  cases hparse : parse hint with
  | none => exact read_text hints hint
  | some addr =>
      cases addr with
      | v4 v4 =>
          dsimp only
          by_cases hcanonical : v4.toString = hint
          · rw [if_pos hcanonical]
            show ({ hints with addrHints := hints.addrHints ++ [SocketAddrV4.toString
              ⟨v4.ip, BigEndian.toU16 _ _⟩] } : Hints) = _
            rw [BigEndian.toU16_ofU16, ← hcanonical]
          · rw [if_neg hcanonical]
            exact read_text hints hint
      | v6 v6 =>
          dsimp only
          by_cases hcanonical : v6.toString = hint
          · rw [if_pos hcanonical, if_pos hcanonical]
            have hip := Ipv6Addr.ofOctets_octets v6.ip
            show ({ hints with addrHints := hints.addrHints ++ [SocketAddrV6.toString
              ⟨.ofOctets v6.ip.octets, BigEndian.toU16 _ _, 0, 0⟩] } : Hints) = _
            rw [hip, BigEndian.toU16_ofU16]
          · rw [if_neg hcanonical, if_neg hcanonical]
            exact read_text hints hint

theorem hintRecord_short {hint : String} (h : (utf8 hint).length ≤ 255) :
    (hintRecord hint).2.length ≤ 255 := by
  unfold hintRecord
  split
  · split
    · exact (by decide : 6 ≤ 255)
    · exact h
  · split
    · exact (by decide : 18 ≤ 255)
    · exact h
  · exact h

/-- Reading the records of some hints one after the other. -/
theorem foldl_hintRecord (hints : Hints) (texts : List String) :
    (texts.map hintRecord).foldl (fun hints r => hints.read r.1 r.2) hints =
      { hints with addrHints := hints.addrHints ++ texts.map carried } := by
  induction texts generalizing hints with
  | nil => simp
  | cons text texts ih =>
      rw [List.map_cons, List.foldl_cons, read_hintRecord, ih]
      simp

theorem stripPrefix_append (start text : String) : stripPrefix start (start ++ text) = some text := by
  unfold stripPrefix
  rw [String.toList_append, if_pos (by simp), List.drop_left, String.ofList_toList]

namespace PairingTicket

/-- Every text in a ticket can be described by the length of a record. -/
def ShortHints (ticket : PairingTicket) : Prop :=
  (∀ hint ∈ ticket.addrHints, (utf8 hint).length ≤ 255) ∧
    ∀ relay ∈ ticket.relayHint, (utf8 relay).length ≤ 255

/-- The records of a ticket. -/
def records (ticket : PairingTicket) : List (UInt8 × List UInt8) :=
  ticket.addrHints.map hintRecord ++ (ticket.relayHint.map fun r => (hintRelay, utf8 r)).toList

/-- A hint that its record can describe. -/
def Describable (hint : String) : Prop := (hintRecord hint).2.length ≤ 255

instance (hint : String) : Decidable (Describable hint) := inferInstanceAs (Decidable (_ ≤ _))

/-- What is written of a ticket: what a record can describe. -/
def written (ticket : PairingTicket) : PairingTicket :=
  { ticket with
    addrHints := ticket.addrHints.filter fun hint => Describable hint
    relayHint := ticket.relayHint.filter fun relay => (utf8 relay).length ≤ 255 }

theorem written_of_short {ticket : PairingTicket} (h : ticket.ShortHints) :
    ticket.written = ticket := by
  have hhints : ticket.addrHints.filter (fun hint => Describable hint) = ticket.addrHints := by
    apply List.filter_eq_self.mpr
    intro hint hhint
    exact decide_eq_true (hintRecord_short (h.1 hint hhint))
  have hrelay : ticket.relayHint.filter (fun relay => (utf8 relay).length ≤ 255) =
      ticket.relayHint := by
    cases hsome : ticket.relayHint with
    | none => rfl
    | some relay => exact Option.filter_some_pos (decide_eq_true (h.2 relay hsome))
  unfold written
  rw [hhints, hrelay]

theorem records_short (ticket : PairingTicket) :
    ∀ r ∈ ticket.written.records, r.2.length ≤ 255 := by
  intro r hr
  rcases List.mem_append.mp hr with hr | hr
  · obtain ⟨hint, hhint, rfl⟩ := List.mem_map.mp hr
    exact of_decide_eq_true (List.mem_filter.mp hhint).2
  · obtain ⟨relay, hrelay, rfl⟩ := Option.map_eq_some_iff.mp (Option.mem_toList.mp hr)
    exact of_decide_eq_true (Option.filter_eq_some_iff.mp hrelay).2

theorem pushHint_of_long {out payload : List UInt8} {kind : UInt8} (h : ¬ payload.length ≤ 255) :
    pushHint out kind payload = out := if_neg h

/-- The records of the hints that can be described, one behind the other. -/
theorem foldl_pushHint (texts : List String) (out : List UInt8) :
    texts.foldl (fun out hint => pushHint out (hintRecord hint).1 (hintRecord hint).2) out =
      out ++ ((texts.filter fun hint => Describable hint).map hintRecord).flatMap record := by
  induction texts generalizing out with
  | nil => simp
  | cons text texts ih =>
      rw [List.foldl_cons, ih]
      by_cases h : Describable text
      · rw [List.filter_cons_of_pos (by simpa using h), pushHint_of_short h, List.map_cons,
          List.flatMap_cons, List.append_assoc]
      · rw [List.filter_cons_of_neg (by simpa using h), pushHint_of_long h]

/-- **What is encoded of the hints** of a ticket. -/
theorem encodeHints_eq (ticket : PairingTicket) :
    ticket.encodeHints = ticket.written.records.flatMap record := by
  unfold encodeHints records written
  rw [foldl_pushHint, List.nil_append, List.flatMap_append]
  dsimp only
  cases ticket.relayHint with
  | none => simp
  | some relay =>
      dsimp only
      by_cases h : (utf8 relay).length ≤ 255
      · rw [pushHint_of_short h, Option.filter_some_pos (by simpa using h)]
        simp
      · rw [pushHint_of_long h, Option.filter_some_neg (by simpa using h)]
        simp

/-- The block of a ticket is read back as the hints it carries. -/
theorem decodeHints_encodeHints (ticket : PairingTicket) :
    decodeHints ticket.encodeHints =
      .ok ⟨ticket.written.addrHints.map carried, ticket.written.relayHint⟩ := by
  rw [encodeHints_eq, decodeHints, decodeRecords_hints (records_short ticket) _ (Nat.le_refl _),
    records, List.foldl_append, foldl_hintRecord]
  cases ticket.written.relayHint with
  | none => rfl
  | some relay =>
      show Except.ok (Hints.read _ hintRelay (utf8 relay)) = _
      congr 1
      show (match ofUtf8 (utf8 relay) with | some text => _ | none => _) = _
      rw [ofUtf8_utf8]
      rfl

theorem field_append {before found after : List UInt8} (h : found.length = 32) :
    field (before ++ (found ++ after)) before.length = found := by
  rw [field, List.drop_left, List.take_left' h]

/-- A body with a whole block is taken apart again. -/
theorem decodeBody_append {key node : PublicKey} {secret : PairingSecret} {len : UInt16}
    {block : List UInt8} {hints : Hints} (hlen : block.length = len.toNat)
    (hhints : decodeHints block = .ok hints) :
    decodeBody ([ticketVersion] ++ key.bytes ++ node.bytes ++ secret.bytes ++
        BigEndian.ofU16 len ++ block) =
      .ok (⟨key, node, hints.addrHints, hints.relayHint⟩, secret) := by
  have hkey : key.bytes.length = 32 := key.length_eq
  have hnode : node.bytes.length = 32 := node.length_eq
  have hsecret : secret.bytes.length = 32 := secret.length_eq
  have hfront : ([ticketVersion] ++ key.bytes ++ node.bytes ++ secret.bytes).length = 97 := by
    simp [hkey, hnode, hsecret]
  generalize hbody : [ticketVersion] ++ key.bytes ++ node.bytes ++ secret.bytes ++
    BigEndian.ofU16 len ++ block = body
  have hkeyField : field body 1 = key.bytes := by
    rw [← hbody, List.append_assoc, List.append_assoc, List.append_assoc, List.append_assoc]
    exact field_append hkey
  have hnodeField : field body nodeIdAt = node.bytes := by
    have hlength : ([ticketVersion] ++ key.bytes).length = nodeIdAt := by simp [hkey, nodeIdAt]
    rw [← hbody, List.append_assoc, List.append_assoc, List.append_assoc, ← hlength]
    exact field_append hnode
  have hsecretField : field body secretAt = secret.bytes := by
    have hlength : ([ticketVersion] ++ key.bytes ++ node.bytes).length = secretAt := by
      simp [hkey, hnode, secretAt, nodeIdAt]
    rw [← hbody, List.append_assoc, List.append_assoc, ← hlength]
    exact field_append hsecret
  have hrest : body.drop 97 = BigEndian.ofU16 len ++ block := by
    rw [← hbody, List.append_assoc, ← hfront, List.drop_left]
  have hblock : body.drop ticketFixedLen = block := by
    show body.drop (97 + 2) = block
    rw [← List.drop_drop, hrest]
    rfl
  have hword : BigEndian.toU16 (body.getD 97 0) (body.getD 98 0) = len := by
    have hget : ∀ i, body.getD (97 + i) 0 = (BigEndian.ofU16 len ++ block).getD i 0 := by
      intro i
      rw [← hrest, List.getD_eq_getElem?_getD, List.getD_eq_getElem?_getD, List.getElem?_drop]
    rw [hget 0, hget 1]
    exact BigEndian.toU16_ofU16 len
  have htotal : body.length = ticketFixedLen + len.toNat := by
    rw [← hbody, List.length_append, List.length_append, hfront, hlen, BigEndian.length_ofU16]
    rfl
  obtain ⟨rest, rfl⟩ : ∃ rest, body = ticketVersion :: rest := ⟨_, hbody.symm⟩
  unfold decodeBody
  dsimp only
  rw [if_neg (not_not.mpr rfl), dif_neg (by omega)]
  have hword' : BigEndian.toU16 ((ticketVersion :: rest).getD (ticketFixedLen - 2) 0)
      ((ticketVersion :: rest).getD (ticketFixedLen - 1) 0) = len := hword
  rw [hword', if_neg (not_not.mpr htotal)]
  simp only [hblock, hhints, hkeyField, hnodeField, hsecretField]

/-- What is left of a ticket that is encoded: a block whose length cannot be announced is
left out. -/
def scanned (ticket : PairingTicket) : PairingTicket :=
  if ticket.encodeHints.length < 2 ^ 16 then
    { ticket.written with addrHints := ticket.written.addrHints.map carried }
  else { ticket with addrHints := [], relayHint := none }

/-- **What becomes of a ticket** that is encoded and decoded. -/
theorem decode_encode (base32 : Encoding) (ticket : PairingTicket) (secret : PairingSecret) :
    decode base32 (encode base32 ticket secret) = .ok (ticket.scanned, secret) := by
  have hbody : decodeBody (ticket.encodeBody secret) = .ok (ticket.scanned, secret) := by
    unfold encodeBody scanned
    dsimp only
    split_ifs with hfits
    · have hlen : (UInt16.ofNat ticket.encodeHints.length).toNat = ticket.encodeHints.length := by
        rw [UInt16.toNat_ofNat']
        exact Nat.mod_eq_of_lt hfits
      rw [hlen, List.take_length]
      exact decodeBody_append hlen.symm (decodeHints_encodeHints ticket)
    · have hempty : decodeHints [] = .ok ⟨[], none⟩ := rfl
      exact @decodeBody_append ticket.daemonKey ticket.nodeId secret 0 [] _ rfl hempty
  unfold decode encode
  rw [stripPrefix_append]
  dsimp only
  rw [base32.decode_encode]
  exact hbody

/-- A ticket whose hints can be described is left as it is, but for their scopes. -/
theorem scanned_of_short {ticket : PairingTicket} (hshort : ticket.ShortHints)
    (hfits : ticket.encodeHints.length < 2 ^ 16) :
    ticket.scanned = { ticket with addrHints := ticket.addrHints.map carried } := by
  unfold scanned
  rw [if_pos hfits, written_of_short hshort]

/-- A hint is carried as it is unless it is the canonical spelling of an address
with a scope. -/
theorem carried_eq_iff {hint : String} :
    carried hint = hint ↔
      ∀ v6, parse hint = some (.v6 v6) → v6.toString = hint → v6.scopeId = 0 := by
  unfold carried
  cases hparse : parse hint with
  | none => simp
  | some addr =>
      cases addr with
      | v4 v4 => simp
      | v6 v6 =>
          dsimp only
          by_cases hcanonical : v6.toString = hint
          · rw [if_pos hcanonical]
            constructor
            · intro h v6' hv6' _
              obtain rfl : v6 = v6' := by simpa using hv6'
              by_contra hscope
              exact toString_scope_ne v6 hscope (h.trans hcanonical.symm)
            · intro h
              have hscope := h v6 rfl hcanonical
              rw [← hcanonical, SocketAddrV6.toString, SocketAddrV6.toString, if_pos rfl,
                if_pos hscope]
          · rw [if_neg hcanonical]
            refine ⟨fun _ v6' hv6' hcanonical' => ?_, fun _ => rfl⟩
            obtain rfl : v6 = v6' := by simpa using hv6'
            exact absurd hcanonical' hcanonical

/-- **Which tickets come back as they were**: those none of whose hints is the
canonical spelling of an IPv6 socket address with a scope. -/
theorem round_trip_iff (base32 : Encoding) (ticket : PairingTicket) (secret : PairingSecret)
    (hshort : ticket.ShortHints) (hfits : ticket.encodeHints.length < 2 ^ 16) :
    decode base32 (encode base32 ticket secret) = .ok (ticket, secret) ↔
      ∀ hint ∈ ticket.addrHints, ∀ v6, parse hint = some (.v6 v6) → v6.toString = hint →
        v6.scopeId = 0 := by
  rw [decode_encode, scanned_of_short hshort hfits]
  have hhints : Except.ok (ε := PairingError)
        (({ ticket with addrHints := ticket.addrHints.map carried } : PairingTicket), secret) =
      .ok (ticket, secret) ↔ ticket.addrHints.map carried = ticket.addrHints := by
    cases ticket
    simp
  have hsame := @List.map_inj_left _ _ ticket.addrHints carried id
  rw [List.map_id] at hsame
  rw [hhints, hsame]
  exact forall₂_congr fun hint _ => carried_eq_iff

/-- One address with a scope. -/
def sampleTicket : PairingTicket :=
  ⟨.replicate 1, .replicate 2, ["192.168.1.4:41234", "[fe80::1%3]:80"], some "https://relay"⟩

def sampleSecret : PairingSecret := ⟨List.replicate 32 3, by decide⟩

/-- Addresses without a scope come back, compact or not. -/
theorem plain_round_trip :
    decode crockford
        (encode crockford { sampleTicket with addrHints := ["[fe80::1]:80", "[::0001]:80"] }
          sampleSecret) =
      .ok ({ sampleTicket with addrHints := ["[fe80::1]:80", "[::0001]:80"] }, sampleSecret) := by
  have hscope : ∀ hint ∈ ["[fe80::1]:80", "[::0001]:80"],
      (match parse hint with
        | some (.v6 v6) => v6.scopeId == 0
        | _ => true) = true := by
    decide +kernel
  refine (round_trip_iff crockford _ _ ⟨by decide, by decide⟩ (by decide +kernel)).mpr ?_
  intro hint hhint v6 hparse _
  have hzero := hscope hint hhint
  rw [hparse] at hzero
  simpa using hzero

/-- **A scope is lost**: the phone is handed an address it cannot dial. -/
theorem scope_lost :
    ¬ ∀ (ticket : PairingTicket) (secret : PairingSecret), ticket.ShortHints →
      ticket.encodeHints.length < 2 ^ 16 →
      decode crockford (encode crockford ticket secret) = .ok (ticket, secret) := by
  intro h
  have hshort : sampleTicket.ShortHints := ⟨by decide, by decide⟩
  have hfits : sampleTicket.encodeHints.length < 2 ^ 16 := by decide +kernel
  have hback := h sampleTicket sampleSecret hshort hfits
  rw [decode_encode, scanned_of_short hshort hfits] at hback
  have hhints := congrArg PairingTicket.addrHints (congrArg Prod.fst (Except.ok.inj hback))
  have hlost : sampleTicket.addrHints.map carried =
      ["192.168.1.4:41234", "[fe80::1]:80"] := by
    decide +kernel
  rw [hlost] at hhints
  revert hhints
  decide

end PairingTicket

end Core
