import Mathlib.Data.List.Infix
import Mathlib.Tactic.Ring
import GoNomad.Lib.PrefixCode

/-!
# A credit-controlled channel between two ends

Two ends share one bidirectional channel over two lossless ordered pipes.  One
of them owns the right to open it; either may close it.  Each direction carries
a stream of frames, cut into chunks, under a credit window: pushing a chunk
spends credit, and the receiver hands credit back once a frame has been taken
by its reader, or was cut off the stream with no reader left.  Credit travels
on a pipe of its own and overtakes the stream.

An end may halt at any moment.  A halted end keeps nothing queued and ignores
what arrives; what it had already put on the pipe stays there.

`Act x y x' y'` says what the end `x` may do while its peer is `y`.  The facts
that survive every interleaving are

* `Shape`: an opening comes first, a closing last, data in between;
* `outstanding`: one window of credit is in hand, in flight, unacknowledged or on
  its way back, for as long as both ends have the channel;
* `Content`: the frames a reader has taken are the first frames written, and
  all of them once the writer's closing has arrived.

`Act.inv` in `GoNomad.Lib.CreditInvariant` proves all of them preserved.
-/

namespace CreditChannel

/-- Where one end stands with the channel. -/
inductive Phase
  | fresh
  | live
  | gone
  deriving DecidableEq, Repr

/-- What travels on the ordered pipe. -/
inductive Item (α : Type*)
  | opening
  | data (body : List α)
  | closing

/-- One end of the channel.  `flight` and `grants` are what this end has queued
or sent and the peer has not yet handled, `asm` and `ready` are received bytes
and frames.  `lost`, `sent`, `got`, `torn` and `left` record the past: what the
frames cost that a reader left behind unread, the frames whose first chunk was
pushed, the frames the reader took, whether a half-pushed frame was ever given
up, whether another frame was begun after that, and whether this end closed the
channel. -/
@[ext]
structure End (φ α : Type*) where
  owner : Bool
  halted : Bool
  phase : Phase
  avail : Nat
  pend : List α
  flight : List (Item α)
  grants : List Nat
  asm : List α
  unacked : Nat
  ready : List φ
  reading : Bool
  lost : Nat
  sent : List φ
  got : List φ
  torn : Bool
  spoiled : Bool
  left : Bool

variable {φ α : Type*}

/-- An end that has not heard of the channel. -/
def End.blank (owner : Bool) : End φ α where
  owner := owner
  halted := false
  phase := .fresh
  avail := 0
  pend := []
  flight := []
  grants := []
  asm := []
  unacked := 0
  ready := []
  reading := true
  lost := 0
  sent := []
  got := []
  torn := false
  spoiled := false
  left := false

/-- The stream bytes carried by items. -/
def dataBytes (items : List (Item α)) : List α :=
  items.flatMap fun
    | .data body => body
    | _ => []

/-- A stretch of pure data. -/
def datas (bodies : List (List α)) : List (Item α) := bodies.map .data

section dataBytes

@[simp] theorem dataBytes_nil : dataBytes ([] : List (Item α)) = [] := rfl

@[simp] theorem dataBytes_append (l l' : List (Item α)) :
    dataBytes (l ++ l') = dataBytes l ++ dataBytes l' := by
  simp [dataBytes]

@[simp] theorem dataBytes_opening (l : List (Item α)) :
    dataBytes (.opening :: l) = dataBytes l := by
  simp [dataBytes]

@[simp] theorem dataBytes_closing (l : List (Item α)) :
    dataBytes (.closing :: l) = dataBytes l := by
  simp [dataBytes]

@[simp] theorem dataBytes_data (b : List α) (l : List (Item α)) :
    dataBytes (.data b :: l) = b ++ dataBytes l := by
  simp [dataBytes]

theorem dataBytes_mono {l l' : List (Item α)} (h : l <+: l') :
    dataBytes l <+: dataBytes l' := by
  obtain ⟨t, rfl⟩ := h
  exact ⟨dataBytes t, (dataBytes_append l t).symm⟩

@[simp] theorem datas_nil : datas ([] : List (List α)) = [] := rfl

@[simp] theorem datas_append (bs bs' : List (List α)) :
    datas (bs ++ bs') = datas bs ++ datas bs' := by
  simp [datas]

@[simp] theorem datas_cons (b : List α) (bs : List (List α)) :
    datas (b :: bs) = .data b :: datas bs := rfl

theorem opening_notMem_datas (bs : List (List α)) : Item.opening ∉ datas bs := by
  simp [datas]

/-- A prefix of data followed by at most a closing has that form itself. -/
theorem prefix_datas_append {pre tl : List (Item α)} {bs : List (List α)}
    (htl : tl = [] ∨ tl = [.closing]) (h : pre <+: datas bs ++ tl) :
    ∃ bs' tl', (tl' = [] ∨ tl' = [.closing]) ∧ pre = datas bs' ++ tl' := by
  induction bs generalizing pre with
  | nil =>
      refine ⟨[], pre, ?_, rfl⟩
      simp only [datas_nil, List.nil_append] at h
      rcases htl with rfl | rfl
      · exact Or.inl (List.prefix_nil.mp h)
      · cases pre with
        | nil => exact Or.inl rfl
        | cons i pre =>
            obtain ⟨rfl, hpre⟩ := List.cons_prefix_cons.mp h
            rw [List.prefix_nil.mp hpre]
            exact Or.inr rfl
  | cons b bs ih =>
      cases pre with
      | nil => exact ⟨[], [], Or.inl rfl, rfl⟩
      | cons i pre =>
          obtain ⟨rfl, hpre⟩ := List.cons_prefix_cons.mp h
          obtain ⟨bs', tl', htl', rfl⟩ := ih hpre
          exact ⟨b :: bs', tl', htl', rfl⟩

end dataBytes

variable (K : PrefixCode φ α) (W : Nat)

/-- The end after it has stopped using the channel; `flight` is what is left of
what it had queued or sent. -/
def End.release (x : End φ α) (flight : List (Item α)) : End φ α :=
  { x with
    phase := .gone
    avail := 0
    asm := []
    unacked := 0
    flight := flight }

/-- The end after it halted, with `flight` and `grants` what had already been
put on the pipes. -/
def End.halt (x : End φ α) (flight : List (Item α)) (grants : List Nat) : End φ α :=
  { x with
    halted := true
    phase := if x.phase = .fresh then .fresh else .gone
    avail := 0
    asm := []
    unacked := 0
    flight := flight
    grants := grants }

/-- What cutting `fs` off the received bytes does to the receiving end: a
reader is handed the frames, and with no reader left their cost is granted back
at once. -/
def End.receive (x : End φ α) (body : List α) (fs : List φ) (rest : List α) : End φ α :=
  if x.reading then
    { x with asm := rest, unacked := x.unacked + body.length, ready := x.ready ++ fs }
  else
    { x with
      asm := rest
      unacked := x.unacked + body.length - (K.encAll fs).length
      grants := x.grants ++ if K.encAll fs = [] then [] else [(K.encAll fs).length] }

/-- What the reader taking one frame does: its cost is granted back as long as
the channel is there. -/
def End.consume (x : End φ α) (f : φ) (rest : List φ) : End φ α :=
  { x with
    ready := rest
    got := x.got ++ [f]
    unacked := x.unacked - if x.phase = .live then (K.enc f).length else 0
    grants := x.grants ++ if x.phase = .live then [(K.enc f).length] else [] }

/-- One action of the end `x` while its peer is `y`. -/
inductive Act : End φ α → End φ α → End φ α → End φ α → Prop
  /-- The owner opens the channel. -/
  | openHere {x y} (howner : x.owner = true) (hhalt : x.halted = false)
      (hphase : x.phase = .fresh) :
      Act x y { x with phase := .live, avail := W, flight := x.flight ++ [.opening] } y
  /-- An opening arrives. -/
  | accept {x y rest} (hhalt : x.halted = false) (hphase : x.phase = .fresh)
      (hflight : y.flight = .opening :: rest) :
      Act x y { x with phase := .live, avail := W } { y with flight := rest }
  /-- The first chunk of a frame is pushed. -/
  | begin {x y} {f : φ} {chunk rest : List α} (hphase : x.phase = .live)
      (hpend : x.pend = []) (henc : K.enc f = chunk ++ rest)
      (hcredit : chunk.length ≤ x.avail) :
      Act x y
        { x with
          avail := x.avail - chunk.length
          pend := rest
          flight := x.flight ++ [.data chunk]
          sent := x.sent ++ [f]
          spoiled := x.spoiled || x.torn } y
  /-- A later chunk of the frame is pushed. -/
  | push {x y} {chunk rest : List α} (hphase : x.phase = .live)
      (hpend : x.pend = chunk ++ rest) (hcredit : chunk.length ≤ x.avail) :
      Act x y
        { x with
          avail := x.avail - chunk.length
          pend := rest
          flight := x.flight ++ [.data chunk] } y
  /-- A half-pushed frame is given up. -/
  | tear {x y} : Act x y { x with pend := [], torn := true } y
  /-- The rest of a frame is dropped because the channel has gone. -/
  | fail {x y} (hphase : x.phase ≠ .live) : Act x y { x with pend := [] } y
  /-- The reader takes a frame. -/
  | take {x y f rest} (hready : x.ready = f :: rest) :
      Act x y (x.consume K f rest) y
  /-- The reader goes away. -/
  | dropReader {x y} :
      Act x y
        { x with
          reading := false
          ready := []
          lost := x.lost + (K.encAll x.ready).length } y
  /-- Data arrives and complete frames are cut off. -/
  | data {x y body rest} {fs : List φ} {asm : List α} (hhalt : x.halted = false)
      (hphase : x.phase = .live) (hflight : y.flight = .data body :: rest)
      (hcut : x.asm ++ body = K.encAll fs ++ asm) (hstuck : K.Stuck asm) :
      Act x y (x.receive K body fs asm) { y with flight := rest }
  /-- Data arrives that ends the link, after some frames were cut off. -/
  | badData {x y body rest} {fs : List φ} {asm : List α} {flight : List (Item α)}
      {grants : List Nat} (hhalt : x.halted = false)
      (hphase : x.phase = .live) (hflight : y.flight = .data body :: rest)
      (hcut : x.asm ++ body = K.encAll fs ++ asm)
      (hpre : flight <+: x.flight) (hgrants : grants <+: x.grants) :
      Act x y ({ x with ready := if x.reading then x.ready ++ fs else x.ready }.halt
        flight grants) { y with flight := rest }
  /-- An item arrives at an end that no longer cares. -/
  | skip {x y item rest} (hflight : y.flight = item :: rest)
      (hcare : x.halted = true ∨ x.phase = .gone ∧ item ≠ .closing) :
      Act x y x { y with flight := rest }
  /-- Credit arrives. -/
  | grant {x y n rest} (hphase : x.phase = .live) (hgrants : y.grants = n :: rest) :
      Act x y { x with avail := x.avail + n } { y with grants := rest }
  /-- Credit arrives at an end that no longer has the channel. -/
  | skipGrant {x y n rest} (hphase : x.phase ≠ .live) (hgrants : y.grants = n :: rest) :
      Act x y x { y with grants := rest }
  /-- A closing arrives. -/
  | closed {x y rest flight} (hhalt : x.halted = false) (hphase : x.phase ≠ .fresh)
      (hflight : y.flight = .closing :: rest) (hpre : flight <+: x.flight) :
      Act x y (x.release flight) { y with flight := rest }
  /-- This end closes the channel. -/
  | close {x y} (hphase : x.phase = .live) (hpend : x.pend = []) :
      Act x y { x.release (x.flight ++ [.closing]) with left := true } y
  /-- This end halts. -/
  | halt {x y flight grants} (hpre : flight <+: x.flight) (hgrants : grants <+: x.grants) :
      Act x y (x.halt flight grants) y

/-- What an end knows by itself. -/
structure Lone (x : End φ α) : Prop where
  halted_not_live : x.halted = true → x.phase ≠ .live
  fresh_blank : x.phase = .fresh →
    x.flight = [] ∧ x.grants = [] ∧ x.pend = [] ∧ x.sent = [] ∧ x.got = [] ∧ x.ready = [] ∧
      x.lost = 0
  off_blank : x.phase ≠ .live → x.avail = 0 ∧ x.asm = [] ∧ x.unacked = 0
  closing_left : .closing ∈ x.flight → x.left = true
  left_gone : x.left = true → x.phase = .gone ∧ x.pend = []
  unread : x.reading = false → x.ready = []
  stuck : K.Stuck x.asm
  unacked_eq : x.phase = .live →
    x.unacked = x.asm.length + (K.encAll x.ready).length + x.lost
  pend_frame : x.pend ≠ [] → ∃ l f, x.sent = l ++ [f] ∧ x.pend <:+ K.enc f
  torn_pend : x.torn = true → x.spoiled = false → x.pend = []
  opening_owner : .opening ∈ x.flight → x.owner = true

/-- The end of a stream is marked by a closing exactly when the writing end has
gone; a halted end may have lost the mark with the rest of its queue. -/
def Tail (x : End φ α) (tl : List (Item α)) : Prop :=
  (tl = [] ∨ tl = [.closing]) ∧ (x.halted = false → (tl = [.closing] ↔ x.phase = .gone))

/-- The items in flight from `x`, as the phase of `y` permits them. -/
def Shape (x y : End φ α) : Prop :=
  match y.phase with
  | .fresh => (x.flight = [] ∧ (x.phase = .fresh ∨ x.halted = true)) ∨
      (x.owner = true ∧ x.phase ≠ .fresh ∧
        ∃ bs tl, Tail x tl ∧ x.flight = .opening :: (datas bs ++ tl))
  | .live => (x.phase = .fresh ∧ y.owner = true) ∨
      (x.phase ≠ .fresh ∧ ∃ bs tl, Tail x tl ∧ x.flight = datas bs ++ tl)
  | .gone => .opening ∉ x.flight

/-- Credit of the direction from `x` to `y`: in hand, on the stream, received
but not acknowledged, and on its way back. -/
def outstanding (x y : End φ α) : Nat :=
  x.avail + (dataBytes x.flight).length + y.unacked + y.grants.sum

/-- The frames of one direction.  `past` are the frames cut off so far, `Q` the
stream pushed so far. -/
structure Content (x y : End φ α) (past : List φ) (Q : List α) : Prop where
  got_past : y.got <+: past
  reading : y.reading = true → past = y.got ++ y.ready
  pushed : Q <+: K.encAll x.sent
  pushed_live : x.torn = false → x.phase = .live ∨ x.left = true →
    Q ++ x.pend = K.encAll x.sent
  cut : K.encAll past <+: Q
  stream : y.halted = false → y.phase ≠ .gone →
    K.encAll past ++ y.asm ++ dataBytes x.flight <+: Q
  whole : y.halted = false → y.phase ≠ .gone → x.halted = false →
    K.encAll past ++ y.asm ++ dataBytes x.flight = Q
  final : y.halted = false → y.phase = .gone → y.left = false → x.halted = false →
    x.left = true ∧ (x.torn = false → past = x.sent)

/-- What holds of the direction from `x` to `y`. -/
structure Direction (x y : End φ α) : Prop where
  owners : x.owner = !y.owner
  owner_first : x.owner = true → x.phase = .fresh → y.phase = .fresh
  gone_left : x.phase = .gone → x.left = false → x.halted = false → y.left = true
  untouched : x.phase = .fresh →
    y.unacked = 0 ∧ y.grants = [] ∧ y.asm = [] ∧ y.ready = [] ∧ y.got = []
  shape : y.halted = false → Shape x y
  credit_le : outstanding x y ≤ W
  credit_eq : x.phase = .live → y.phase ≠ .gone → y.halted = false → outstanding x y = W
  content : x.spoiled = false → ∃ past Q, Content K x y past Q

/-- The invariant of the whole channel. -/
structure Inv (x y : End φ α) : Prop where
  here : Lone K x
  there : Lone K y
  out : Direction K W x y
  back : Direction K W y x

end CreditChannel
