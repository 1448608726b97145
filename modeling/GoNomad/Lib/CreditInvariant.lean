import Mathlib.Logic.Relation
import GoNomad.Lib.CreditChannel

/-!
# The channel invariant survives every action

`Act.inv` is the step lemma of the credit-controlled channel: whatever one end
does, the four parts of `Inv` hold afterwards.  The parts are proved in the
order in which they rest on each other.

* `Act.lone_here`, `Act.lone_there`: what an end knows by itself;
* `Act.shape_out`, `Act.shape_back`: an opening first, a closing last;
* `Act.credit_le`, `Act.credit_eq_out`, `Act.credit_eq_back`: one window of
  credit per direction, none lost while both ends have the channel;
* `Act.content_out`, `Act.content_back`: the frames taken are the first frames
  written.
-/

namespace CreditChannel

variable {φ α : Type*} (K : PrefixCode φ α) (W : Nat)

/-! ### What receiving does -/

section receive

variable {K : PrefixCode φ α} {x : End φ α} {body rest : List α} {fs : List φ}

theorem receive_read (h : x.reading = true) :
    x.receive K body fs rest =
      { x with asm := rest, unacked := x.unacked + body.length, ready := x.ready ++ fs } := by
  unfold End.receive
  rw [if_pos h]

theorem receive_unread (h : x.reading = false) :
    x.receive K body fs rest =
      { x with
        asm := rest
        unacked := x.unacked + body.length - (K.encAll fs).length
        grants := x.grants ++ if K.encAll fs = [] then [] else [(K.encAll fs).length] } := by
  unfold End.receive
  rw [if_neg (by simp [h])]

end receive

/-! ### What an end knows by itself -/

/-- Cutting frames off keeps the accounting of the receiving end. -/
theorem Lone.receive {K : PrefixCode φ α} {x : End φ α} (h : Lone K x) {body rest : List α}
    {fs : List φ} (hphase : x.phase = .live)
    (hcut : x.asm ++ body = K.encAll fs ++ rest) (hstuck : K.Stuck rest) :
    Lone K (x.receive K body fs rest) := by
  have hlen : x.asm.length + body.length = (K.encAll fs).length + rest.length := by
    simpa using congrArg List.length hcut
  have heq := h.unacked_eq hphase
  by_cases hreading : x.reading = true
  · constructor <;> simp only [End.receive, if_pos hreading]
    · exact h.halted_not_live
    · intro hf; simp [hphase] at hf
    · intro hn; exact absurd hphase hn
    · exact h.closing_left
    · exact h.left_gone
    · intro hu; simp [hu] at hreading
    · exact hstuck
    · intro _
      rw [K.encAll_append, List.length_append]
      omega
    · exact h.pend_frame
    · exact h.torn_pend
    · exact h.opening_owner
  · constructor <;> simp only [End.receive, if_neg hreading]
    · exact h.halted_not_live
    · intro hf; simp [hphase] at hf
    · intro hn; exact absurd hphase hn
    · exact h.closing_left
    · exact h.left_gone
    · exact h.unread
    · exact hstuck
    · intro _; omega
    · exact h.pend_frame
    · exact h.torn_pend
    · exact h.opening_owner

/-- A reader taking a frame keeps the accounting. -/
theorem Lone.consume {K : PrefixCode φ α} {x : End φ α} (h : Lone K x) {f : φ} {rest : List φ}
    (hready : x.ready = f :: rest) : Lone K (x.consume K f rest) := by
  have hreading : x.reading = true := by
    by_contra hr
    simp [h.unread (by simpa using hr)] at hready
  constructor <;> simp only [End.consume]
  · exact h.halted_not_live
  · intro hf
    simp [(h.fresh_blank hf).2.2.2.2.2.1] at hready
  · intro hn
    simpa [hn] using h.off_blank hn
  · exact h.closing_left
  · exact h.left_gone
  · intro hu; simp [hu] at hreading
  · exact h.stuck
  · intro hl
    have := h.unacked_eq hl
    simp only [hready, K.encAll_cons, List.length_append] at this
    simp only [hl, if_true]
    omega
  · exact h.pend_frame
  · exact h.torn_pend
  · exact h.opening_owner

/-- An end that lets go of the channel has nothing to account for. -/
theorem Lone.release {K : PrefixCode φ α} {x : End φ α} (h : Lone K x) {flight : List (Item α)}
    (hclosing : .closing ∈ flight → x.left = true)
    (hopening : .opening ∈ flight → .opening ∈ x.flight) : Lone K (x.release flight) := by
  constructor <;> simp only [End.release]
  · intro _ hl; cases hl
  · intro hf; cases hf
  · intro _; simp
  · exact hclosing
  · intro hleft; exact ⟨trivial, (h.left_gone hleft).2⟩
  · exact h.unread
  · exact K.stuck_nil
  · intro hl; cases hl
  · exact h.pend_frame
  · exact h.torn_pend
  · intro ho; exact h.opening_owner (hopening ho)

/-- A halted end has nothing to account for either. -/
theorem Lone.halt {K : PrefixCode φ α} {x : End φ α} (h : Lone K x) {flight : List (Item α)}
    {grants : List Nat} (hpre : flight <+: x.flight) (hgrants : grants <+: x.grants) :
    Lone K (x.halt flight grants) := by
  have hphase : (x.halt flight grants).phase ≠ .live := by
    simp only [End.halt]
    split <;> simp
  constructor
  · intro _; exact hphase
  · intro hf
    have hx : x.phase = .fresh := by
      by_contra hne
      simp [End.halt, hne] at hf
    obtain ⟨h1, h2, h3, h4, h5, h6, h7⟩ := h.fresh_blank hx
    rw [h1, List.prefix_nil] at hpre
    rw [h2, List.prefix_nil] at hgrants
    simp [End.halt, hpre, hgrants, h3, h4, h5, h6, h7]
  · intro _; simp [End.halt]
  · intro hc
    exact h.closing_left (hpre.subset hc)
  · intro hleft
    obtain ⟨hgone, hpend⟩ := h.left_gone hleft
    simp [End.halt, hgone, hpend]
  · exact h.unread
  · exact K.stuck_nil
  · intro hl; exact absurd hl hphase
  · exact h.pend_frame
  · exact h.torn_pend
  · intro ho; exact h.opening_owner (hpre.subset ho)

/-- Taking items or credit off the pipes of a peer keeps what it knows. -/
theorem Lone.popFlight {K : PrefixCode φ α} {x : End φ α} (h : Lone K x) {i : Item α}
    {rest : List (Item α)} (hflight : x.flight = i :: rest) :
    Lone K { x with flight := rest } := by
  have hnf : x.phase ≠ .fresh := by
    intro hf
    simp [(h.fresh_blank hf).1] at hflight
  exact { h with
    fresh_blank := fun hf => absurd hf hnf
    closing_left := fun hc => h.closing_left (by simp [hflight, show _ ∈ rest from hc])
    opening_owner := fun ho => h.opening_owner (by simp [hflight, show _ ∈ rest from ho]) }

theorem Lone.popGrants {K : PrefixCode φ α} {x : End φ α} (h : Lone K x) {n : Nat}
    {rest : List Nat} (hgrants : x.grants = n :: rest) :
    Lone K { x with grants := rest } := by
  have hnf : x.phase ≠ .fresh := by
    intro hf
    simp [(h.fresh_blank hf).2.1] at hgrants
  exact { h with fresh_blank := fun hf => absurd hf hnf }

/-- An action keeps what the acting end knows. -/
theorem Act.lone_here {x y x' y' : End φ α} (hact : Act K W x y x' y') (h : Lone K x) :
    Lone K x' := by
  cases hact with
  | openHere howner hhalt hphase =>
      obtain ⟨h1, h2, h3, h4, h5, h6, h7⟩ := h.fresh_blank hphase
      obtain ⟨-, hasm, hun⟩ := h.off_blank (by simp [hphase])
      exact { h with
        opening_owner := fun _ => howner
        halted_not_live := by simp [hhalt]
        fresh_blank := by simp
        off_blank := by simp
        closing_left := by simp [h1]
        left_gone := fun hl => absurd (h.left_gone hl).1 (by simp [hphase])
        unacked_eq := by simp [hasm, hun, h6, h7] }
  | accept hhalt hphase hflight =>
      obtain ⟨h1, h2, h3, h4, h5, h6, h7⟩ := h.fresh_blank hphase
      obtain ⟨-, hasm, hun⟩ := h.off_blank (by simp [hphase])
      exact { h with
        halted_not_live := by simp [hhalt]
        fresh_blank := by simp
        off_blank := by simp
        left_gone := fun hl => absurd (h.left_gone hl).1 (by simp [hphase])
        unacked_eq := by simp [hasm, hun, h6, h7] }
  | @begin f chunk rest hphase hpend henc hcredit =>
      exact { h with
        fresh_blank := by simp [hphase]
        off_blank := fun hn => absurd hphase hn
        closing_left := by simpa using h.closing_left
        opening_owner := by simpa using h.opening_owner
        left_gone := fun hl => absurd (h.left_gone hl).1 (by simp [hphase])
        pend_frame := fun _ => ⟨x.sent, f, rfl, chunk, henc.symm⟩
        torn_pend := fun ht hs => by simp [show x.torn = true from ht] at hs }
  | @push chunk rest hphase hpend hcredit =>
      exact { h with
        fresh_blank := by simp [hphase]
        off_blank := fun hn => absurd hphase hn
        closing_left := by simpa using h.closing_left
        opening_owner := by simpa using h.opening_owner
        left_gone := fun hl => absurd (h.left_gone hl).1 (by simp [hphase])
        pend_frame := by
          intro hne
          obtain ⟨l, f, hsent, hsuf⟩ := h.pend_frame (by simp_all)
          exact ⟨l, f, hsent, List.IsSuffix.trans ⟨chunk, hpend.symm⟩ hsuf⟩
        torn_pend := by
          intro ht hs
          have hnil := h.torn_pend ht hs
          rw [hpend] at hnil
          exact (List.append_eq_nil_iff.mp hnil).2 }
  | tear =>
      exact { h with
        fresh_blank := fun hf => by simp [h.fresh_blank hf]
        left_gone := fun hl => ⟨(h.left_gone hl).1, rfl⟩
        pend_frame := by simp
        torn_pend := fun _ _ => rfl }
  | fail _ =>
      exact { h with
        fresh_blank := fun hf => by simp [h.fresh_blank hf]
        left_gone := fun hl => ⟨(h.left_gone hl).1, rfl⟩
        pend_frame := by simp
        torn_pend := fun _ _ => rfl }
  | take hready => exact h.consume hready
  | dropReader =>
      exact { h with
        fresh_blank := fun hf => by simp [h.fresh_blank hf]
        unread := fun _ => rfl
        unacked_eq := fun hl => by
          have heq := h.unacked_eq hl
          dsimp only
          rw [heq, K.encAll_nil, List.length_nil]
          omega }
  | data _ hphase _ hcut hstuck => exact h.receive hphase hcut hstuck
  | @badData body rest fs asm flight grants _ hphase _ hcut hpre hgrants =>
      have hl := h.halt hpre hgrants
      exact { hl with
        fresh_blank := fun hf => by simp [End.halt, hphase] at hf
        unread := fun hr => by
          have hr' : x.reading = false := hr
          simpa [End.halt, hr'] using h.unread hr'
        unacked_eq := fun hl' => by simp [End.halt, hphase] at hl' }
  | skip _ _ => exact h
  | grant hphase _ =>
      exact { h with
        fresh_blank := by simp [hphase]
        off_blank := fun hn => absurd hphase hn }
  | skipGrant _ _ => exact h
  | closed _ _ _ hpre =>
      exact h.release (fun hc => h.closing_left (hpre.subset hc)) fun ho => hpre.subset ho
  | close hphase hpend =>
      constructor <;> simp only [End.release]
      · intro _ hl; cases hl
      · intro hf; cases hf
      · intro _; simp
      · intro _; trivial
      · intro _; exact ⟨trivial, hpend⟩
      · exact h.unread
      · exact K.stuck_nil
      · intro hl; cases hl
      · exact h.pend_frame
      · exact h.torn_pend
      · intro ho; exact h.opening_owner (by simpa using ho)
  | halt hpre hgrants => exact h.halt hpre hgrants

/-- An action keeps what the peer knows. -/
theorem Act.lone_there {x y x' y' : End φ α} (hact : Act K W x y x' y') (h : Lone K y) :
    Lone K y' := by
  cases hact with
  | accept _ _ hflight => exact h.popFlight hflight
  | data _ _ hflight _ _ => exact h.popFlight hflight
  | badData _ _ hflight _ _ _ => exact h.popFlight hflight
  | skip hflight _ => exact h.popFlight hflight
  | closed _ _ hflight _ => exact h.popFlight hflight
  | grant _ hgrants => exact h.popGrants hgrants
  | skipGrant _ hgrants => exact h.popGrants hgrants
  | _ => exact h


/-! ### Shape -/

section shape

variable {x y x' y' : End φ α}

@[simp] theorem receive_phase (x : End φ α) (b : List α) (fs : List φ) (r : List α) :
    (x.receive K b fs r).phase = x.phase := by
  unfold End.receive; split <;> rfl

@[simp] theorem receive_halted (x : End φ α) (b : List α) (fs : List φ) (r : List α) :
    (x.receive K b fs r).halted = x.halted := by
  unfold End.receive; split <;> rfl

@[simp] theorem receive_flight (x : End φ α) (b : List α) (fs : List φ) (r : List α) :
    (x.receive K b fs r).flight = x.flight := by
  unfold End.receive; split <;> rfl

@[simp] theorem receive_torn (x : End φ α) (b : List α) (fs : List φ) (r : List α) :
    (x.receive K b fs r).torn = x.torn := by
  unfold End.receive; split <;> rfl

@[simp] theorem receive_spoiled (x : End φ α) (b : List α) (fs : List φ) (r : List α) :
    (x.receive K b fs r).spoiled = x.spoiled := by
  unfold End.receive; split <;> rfl

@[simp] theorem receive_left (x : End φ α) (b : List α) (fs : List φ) (r : List α) :
    (x.receive K b fs r).left = x.left := by
  unfold End.receive; split <;> rfl

@[simp] theorem receive_owner (x : End φ α) (b : List α) (fs : List φ) (r : List α) :
    (x.receive K b fs r).owner = x.owner := by
  unfold End.receive; split <;> rfl

/-- Shape only reads flight, phase, owner and halting of the two ends. -/
theorem Shape.congr (h : Shape x y) (hf : x'.flight = x.flight) (hp : x'.phase = x.phase)
    (ho : x'.owner = x.owner) (hh : x'.halted = x.halted) (hp' : y'.phase = y.phase)
    (ho' : y'.owner = y.owner) : Shape x' y' := by
  simpa only [Shape, Tail, hf, hp, ho, hh, hp', ho'] using h

theorem Tail.of_live {tl : List (Item α)} (h : Tail x tl) (hlone : Lone K x)
    (hphase : x.phase = .live) : tl = [] := by
  have hhalt : x.halted = false := by
    by_contra hh
    exact hlone.halted_not_live (by simpa using hh) hphase
  rcases h.1 with rfl | rfl
  · rfl
  · simpa [hphase] using h.2 hhalt

/-- While the receiving end has the channel, what arrives first is data unless
the writer closed. -/
theorem Shape.live_cons (h : Shape x y) (hlone : Lone K x) (hy : y.phase = .live)
    {i : Item α} {rest : List (Item α)} (hflight : x.flight = i :: rest) :
    x.phase ≠ .fresh ∧
      ((∃ b bs tl, i = .data b ∧ Tail x tl ∧ rest = datas bs ++ tl) ∨
        (i = .closing ∧ rest = [])) := by
  simp only [Shape, hy] at h
  rcases h with ⟨hf, -⟩ | ⟨hf, bs, tl, htail, heq⟩
  · simp [(hlone.fresh_blank hf).1] at hflight
  · refine ⟨hf, ?_⟩
    rw [hflight] at heq
    cases bs with
    | nil =>
        rcases htail.1 with rfl | rfl
        · simp at heq
        · right; simpa using heq
    | cons b bs =>
        left
        simp only [datas_cons, List.cons_append, List.cons.injEq] at heq
        exact ⟨b, bs, tl, heq.1, htail, heq.2⟩

/-- Pushing a chunk adds data at the end of the flight. -/
theorem Shape.push (h : Shape x y) (hlone : Lone K x) (hphase : x.phase = .live)
    {chunk : List α} (hp : x'.phase = .live) (ho : x'.owner = x.owner)
    (hf : x'.flight = x.flight ++ [.data chunk]) : Shape x' y := by
  have hhalt : x.halted = false := by
    by_contra hh
    exact hlone.halted_not_live (by simpa using hh) hphase
  have htail : Tail x' ([] : List (Item α)) := ⟨Or.inl rfl, by simp [hp]⟩
  unfold Shape at h ⊢
  cases hy : y.phase with
  | fresh =>
      simp only [hy, hphase, hhalt] at h
      rcases h with ⟨-, h | h⟩ | ⟨howner, -, bs, tl, ht, heq⟩
      · cases h
      · cases h
      · obtain rfl := ht.of_live K hlone hphase
        refine Or.inr ⟨by rw [ho, howner], by simp [hp], bs ++ [chunk], [], htail, ?_⟩
        simp [hf, heq]
  | live =>
      simp only [hy] at h
      rcases h with ⟨h, -⟩ | ⟨-, bs, tl, ht, heq⟩
      · simp [hphase] at h
      · obtain rfl := ht.of_live K hlone hphase
        refine Or.inr ⟨by simp [hp], bs ++ [chunk], [], htail, ?_⟩
        simp [hf, heq]
  | gone =>
      simp only [hy] at h
      simpa [hf] using h

/-- A halted end keeps the shape of what it had put on the pipe. -/
theorem Shape.halt (h : Shape x y) {flight : List (Item α)} {grants : List Nat}
    (hpre : flight <+: x.flight) : Shape (x.halt flight grants) y := by
  have htail : ∀ tl : List (Item α), tl = [] ∨ tl = [.closing] →
      Tail (x.halt flight grants) tl := fun tl htl => ⟨htl, by simp [End.halt]⟩
  have hne : x.phase ≠ .fresh → (x.halt flight grants).phase ≠ .fresh := by
    intro hf
    simp [End.halt, hf]
  unfold Shape at h ⊢
  cases hy : y.phase with
  | fresh =>
      simp only [hy] at h
      rcases h with ⟨hnil, -⟩ | ⟨howner, hf, bs, tl, ht, heq⟩
      · rw [hnil, List.prefix_nil] at hpre
        exact Or.inl ⟨hpre, Or.inr rfl⟩
      · rw [heq] at hpre
        cases flight with
        | nil => exact Or.inl ⟨rfl, Or.inr rfl⟩
        | cons i pre =>
            obtain ⟨rfl, hpre'⟩ := List.cons_prefix_cons.mp hpre
            obtain ⟨bs', tl', htl', rfl⟩ := prefix_datas_append ht.1 hpre'
            exact Or.inr ⟨howner, hne hf, bs', tl', htail tl' htl', rfl⟩
  | live =>
      simp only [hy] at h
      rcases h with ⟨hf, ho⟩ | ⟨hf, bs, tl, ht, heq⟩
      · exact Or.inl ⟨by simp [End.halt, hf], ho⟩
      · rw [heq] at hpre
        obtain ⟨bs', tl', htl', rfl⟩ := prefix_datas_append ht.1 hpre
        exact Or.inr ⟨hne hf, bs', tl', htail tl' htl', rfl⟩
  | gone =>
      simp only [hy] at h
      exact fun hmem => h (hpre.subset hmem)

/-- An action keeps the shape of what the acting end sends. -/
theorem Act.shape_out (hact : Act K W x y x' y') (h : Inv K W x y)
    (hhalt' : y'.halted = false) : Shape x' y' := by
  have hy' : y'.halted = y.halted ∧ y'.phase = y.phase ∧ y'.owner = y.owner := by
    cases hact <;> exact ⟨rfl, rfl, rfl⟩
  have hshape := h.out.shape (hy'.1 ▸ hhalt')
  cases hact with
  | openHere howner _ hphase =>
      have hyf := h.out.owner_first howner hphase
      simp only [Shape, hyf]
      refine Or.inr ⟨howner, by simp, [], [], ⟨Or.inl rfl, by simp⟩, ?_⟩
      simp [(h.here.fresh_blank hphase).1]
  | @accept rest _ hphase hflight =>
      have hnf : y.phase ≠ .fresh := fun hf => by simp [(h.there.fresh_blank hf).1] at hflight
      have hnil := (h.here.fresh_blank hphase).1
      simp only [Shape]
      cases hy : y.phase with
      | fresh => exact absurd hy hnf
      | live => exact Or.inr ⟨by simp, [], [], ⟨Or.inl rfl, by simp⟩, by simp [hnil]⟩
      | gone => simp [hnil]
  | begin hphase _ _ _ => exact hshape.push K h.here hphase hphase rfl rfl
  | push hphase _ _ => exact hshape.push K h.here hphase hphase rfl rfl
  | data _ _ _ _ _ => exact hshape.congr (by simp) (by simp) (by simp) (by simp) rfl rfl
  | @badData _ _ _ _ flight grants _ _ _ _ hpre _ =>
      have hhalted : Shape (x.halt flight grants) y := hshape.halt hpre
      exact hhalted.congr rfl rfl rfl rfl rfl rfl
  | closed _ _ hflight hpre =>
      have hgone := (h.there.left_gone (h.there.closing_left (by simp [hflight]))).1
      simp only [Shape, hgone] at hshape ⊢
      exact fun hmem => hshape (hpre.subset hmem)
  | close hphase _ =>
      have hhalt : x.halted = false := by
        by_contra hh
        exact h.here.halted_not_live (by simpa using hh) hphase
      unfold Shape at hshape ⊢
      simp only [End.release]
      cases hy : y.phase with
      | fresh =>
          simp only [hy, hphase, hhalt] at hshape
          rcases hshape with ⟨-, hp | hp⟩ | ⟨howner, -, bs, tl, ht, heq⟩
          · cases hp
          · cases hp
          · obtain rfl := ht.of_live K h.here hphase
            refine Or.inr ⟨howner, by simp, bs, [.closing], ⟨Or.inr rfl, by simp⟩, ?_⟩
            simp [heq]
      | live =>
          simp only [hy] at hshape
          rcases hshape with ⟨hp, -⟩ | ⟨-, bs, tl, ht, heq⟩
          · simp [hphase] at hp
          · obtain rfl := ht.of_live K h.here hphase
            refine Or.inr ⟨by simp, bs, [.closing], ⟨Or.inr rfl, by simp⟩, ?_⟩
            simp [heq]
      | gone =>
          simp only [hy] at hshape
          simpa using hshape
  | halt hpre _ => exact hshape.halt hpre
  | _ => exact hshape.congr rfl rfl rfl rfl rfl rfl

/-- An action keeps the shape of what the peer sends. -/
theorem Act.shape_back (hact : Act K W x y x' y') (h : Inv K W x y)
    (hhalt' : x'.halted = false) : Shape y' x' := by
  cases hact with
  | openHere howner _ hphase =>
      have hyf := h.out.owner_first howner hphase
      simp only [Shape]
      exact Or.inl ⟨hyf, howner⟩
  | @accept rest hhalt hphase hflight =>
      have hshape := h.back.shape hhalt
      simp only [Shape, hphase, hflight] at hshape
      rcases hshape with ⟨hnil, -⟩ | ⟨-, hf, bs, tl, ht, heq⟩
      · cases hnil
      · simp only [Shape]
        exact Or.inr ⟨hf, bs, tl, ht, by simpa using heq⟩
  | data hhalt hphase hflight _ _ =>
      obtain ⟨hf, ⟨b, bs, tl, -, ht, rfl⟩ | ⟨hi, -⟩⟩ :=
        (h.back.shape hhalt).live_cons K h.there hphase hflight
      · simp only [Shape, receive_phase, hphase]
        exact Or.inr ⟨hf, bs, tl, ht, rfl⟩
      · cases hi
  | badData _ _ _ _ _ _ => simp [End.halt] at hhalt'
  | skip hflight hcare =>
      rcases hcare with hh | ⟨hgone, -⟩
      · simp [hh] at hhalt'
      · have hshape := h.back.shape hhalt'
        simp only [Shape, hgone, hflight] at hshape ⊢
        exact fun hmem => hshape (List.mem_cons_of_mem _ hmem)
  | closed hhalt hphase hflight _ =>
      have hshape := h.back.shape hhalt
      simp only [Shape, End.release]
      cases hx : x.phase with
      | fresh => exact absurd hx hphase
      | live =>
          obtain ⟨-, ⟨b, bs, tl, hi, -, -⟩ | ⟨-, rfl⟩⟩ := hshape.live_cons K h.there hx hflight
          · cases hi
          · simp
      | gone =>
          simp only [Shape, hx, hflight] at hshape
          exact fun hmem => hshape (List.mem_cons_of_mem _ hmem)
  | close hphase _ =>
      have hhalt : x.halted = false := hhalt'
      have hshape := h.back.shape hhalt
      simp only [Shape, hphase, End.release] at hshape ⊢
      rcases hshape with ⟨hf, -⟩ | ⟨-, bs, tl, ht, heq⟩
      · simp [(h.there.fresh_blank hf).1]
      · have htl : Item.opening ∉ tl := by rcases ht.1 with rfl | rfl <;> simp
        simp [heq, opening_notMem_datas, htl]
  | halt _ _ => simp [End.halt] at hhalt'
  | _ => exact (h.back.shape hhalt').congr rfl rfl rfl rfl rfl rfl

end shape


/-! ### Credit -/

section credit

variable {x y x' y' : End φ α}

theorem sum_prefix_le {l l' : List Nat} (h : l <+: l') : l.sum ≤ l'.sum := by
  obtain ⟨t, rfl⟩ := h
  simp

theorem dataBytes_length_le {l l' : List (Item α)} (h : l <+: l') :
    (dataBytes l).length ≤ (dataBytes l').length :=
  (dataBytes_mono h).length_le

/-- Receiving moves a chunk from the stream into what is unacknowledged or on
its way back. -/
theorem receive_credit {K : PrefixCode φ α} (hlone : Lone K x) (hphase : x.phase = .live)
    {b r : List α} {fs : List φ} (hcut : x.asm ++ b = K.encAll fs ++ r) :
    (x.receive K b fs r).unacked + (x.receive K b fs r).grants.sum =
      x.unacked + x.grants.sum + b.length := by
  have hlen : x.asm.length + b.length = (K.encAll fs).length + r.length := by
    simpa using congrArg List.length hcut
  have heq := hlone.unacked_eq hphase
  unfold End.receive
  split
  · show x.unacked + b.length + x.grants.sum = _
    omega
  · show x.unacked + b.length - (K.encAll fs).length +
      (x.grants ++ if K.encAll fs = [] then [] else [(K.encAll fs).length]).sum = _
    split
    · next hnil => simp only [hnil, List.append_nil, List.length_nil]; omega
    · simp only [List.sum_append, List.sum_cons, List.sum_nil]
      omega

/-- A reader taking a frame moves its cost from unacknowledged to on its way
back. -/
theorem consume_credit {K : PrefixCode φ α} (hlone : Lone K x) {f : φ} {rest : List φ}
    (hready : x.ready = f :: rest) :
    (x.consume K f rest).unacked + (x.consume K f rest).grants.sum =
      x.unacked + x.grants.sum := by
  by_cases hl : x.phase = .live
  · have := hlone.unacked_eq hl
    simp only [hready, K.encAll_cons, List.length_append] at this
    simp only [End.consume, hl, if_true, List.sum_append, List.sum_cons, List.sum_nil]
    omega
  · simp [End.consume, hl]

/-- No action takes the credit of either direction above the window. -/
theorem Act.credit_le (hact : Act K W x y x' y') (h : Inv K W x y) :
    outstanding x' y' ≤ W ∧ outstanding y' x' ≤ W := by
  have hout := h.out.credit_le
  have hback := h.back.credit_le
  unfold outstanding at *
  cases hact with
  | openHere howner _ hphase =>
      have hyf := h.out.owner_first howner hphase
      have hflight := (h.here.fresh_blank hphase).1
      have hgrants := (h.there.fresh_blank hyf).2.1
      have hun := (h.there.off_blank (by simp [hyf])).2.2
      simp [hflight, hgrants, hun] at hback ⊢
      exact hback
  | accept _ hphase hflight =>
      obtain ⟨hun, hgrants, -⟩ := h.out.untouched hphase
      have hnil := (h.here.fresh_blank hphase).1
      simp only [hflight, dataBytes_opening] at hback
      simp [hun, hgrants, hnil]
      exact hback
  | begin _ _ _ hcredit => simp at hout ⊢; omega
  | push _ _ hcredit => simp at hout ⊢; omega
  | take hready =>
      have := consume_credit h.here hready
      exact ⟨hout, by simp only [End.consume] at this ⊢; omega⟩
  | data _ hphase hflight hcut _ =>
      have := receive_credit h.here hphase hcut
      simp only [hflight, dataBytes_data, List.length_append] at hback
      refine ⟨?_, by dsimp only; omega⟩
      rw [receive_flight]
      have hav : ∀ b fs r, (x.receive K b fs r).avail = x.avail := by
        intro b fs r; unfold End.receive; split <;> rfl
      rw [hav]
      exact hout
  | badData _ _ hflight _ hpre hgrants =>
      have h1 := dataBytes_length_le hpre
      have h2 := sum_prefix_le hgrants
      simp only [hflight, dataBytes_data, List.length_append] at hback
      simp only [End.halt]
      constructor <;> omega
  | skip hflight _ =>
      rename_i item rest _
      have : (dataBytes rest).length ≤ (dataBytes y.flight).length := by
        rw [hflight, ← List.singleton_append, dataBytes_append, List.length_append]
        omega
      exact ⟨hout, by dsimp only; omega⟩
  | grant _ hgrants =>
      simp only [hgrants, List.sum_cons] at hout
      exact ⟨by dsimp only; omega, hback⟩
  | skipGrant _ hgrants =>
      simp only [hgrants, List.sum_cons] at hout
      exact ⟨by dsimp only; omega, hback⟩
  | closed _ _ hflight hpre =>
      have h1 := dataBytes_length_le hpre
      simp only [hflight, dataBytes_closing] at hback
      simp only [End.release]
      constructor <;> omega
  | close _ _ =>
      simp only [End.release, dataBytes_append, dataBytes_closing, dataBytes_nil, List.append_nil]
      constructor <;> omega
  | halt hpre hgrants =>
      have h1 := dataBytes_length_le hpre
      have h2 := sum_prefix_le hgrants
      simp only [End.halt]
      constructor <;> omega
  | _ => exact ⟨hout, hback⟩

/-- As long as both ends have the channel, no action loses credit of the
direction the acting end writes to. -/
theorem Act.credit_eq_out (hact : Act K W x y x' y') (h : Inv K W x y)
    (hlive : x'.phase = .live) (hgone : y'.phase ≠ .gone) (hhalt : y'.halted = false) :
    outstanding x' y' = W := by
  have hy' : y'.halted = y.halted ∧ y'.phase = y.phase := by
    cases hact <;> exact ⟨rfl, rfl⟩
  rw [hy'.1] at hhalt
  rw [hy'.2] at hgone
  have heq := fun hl => h.out.credit_eq hl hgone hhalt
  unfold outstanding at *
  cases hact with
  | openHere howner _ hphase =>
      have hyf := h.out.owner_first howner hphase
      have hflight := (h.here.fresh_blank hphase).1
      have hgrants := (h.there.fresh_blank hyf).2.1
      have hun := (h.there.off_blank (by simp [hyf])).2.2
      simp [hflight, hgrants, hun]
  | accept _ hphase hflight =>
      obtain ⟨hun, hgrants, -⟩ := h.out.untouched hphase
      have hnil := (h.here.fresh_blank hphase).1
      simp [hun, hgrants, hnil]
  | begin hphase _ _ hcredit => have := heq hphase; simp at this ⊢; omega
  | push hphase _ hcredit => have := heq hphase; simp at this ⊢; omega
  | data _ hphase _ _ _ =>
      have hav : ∀ b fs r, (x.receive K b fs r).avail = x.avail := by
        intro b fs r; unfold End.receive; split <;> rfl
      rw [receive_flight, hav]
      exact heq hphase
  | badData _ hphase _ _ _ _ => simp [End.halt, hphase] at hlive
  | grant hphase hgrants =>
      have := heq hphase
      simp only [hgrants, List.sum_cons] at this
      dsimp only
      omega
  | skipGrant hphase _ => exact absurd hlive hphase
  | closed _ _ _ _ => cases hlive
  | close _ _ => cases hlive
  | halt _ _ =>
      simp only [End.halt] at hlive
      split at hlive <;> cases hlive
  | _ => exact heq hlive

/-- Nor of the direction it reads from. -/
theorem Act.credit_eq_back (hact : Act K W x y x' y') (h : Inv K W x y)
    (hlive : y'.phase = .live) (hgone : x'.phase ≠ .gone) (hhalt : x'.halted = false) :
    outstanding y' x' = W := by
  have hyl : y.phase = .live := by
    have : y'.phase = y.phase := by cases hact <;> rfl
    rw [← this, hlive]
  have heq := h.back.credit_eq hyl
  unfold outstanding at *
  cases hact with
  | openHere howner _ hphase =>
      have hyf := h.out.owner_first howner hphase
      simp [hyf] at hyl
  | accept hh hphase hflight =>
      have := heq (by simp [hphase]) hh
      simp only [hflight, dataBytes_opening] at this
      exact this
  | take hready =>
      have hc := consume_credit h.here hready
      have := heq hgone hhalt
      simp only [End.consume] at hc ⊢
      omega
  | data hh hphase hflight hcut _ =>
      have hc := receive_credit h.here hphase hcut
      have := heq (by simp [hphase]) hh
      simp only [hflight, dataBytes_data, List.length_append] at this
      dsimp only
      omega
  | badData _ hphase _ _ _ _ => simp [End.halt] at hhalt
  | skip hflight hcare =>
      rcases hcare with hh | ⟨hg, -⟩
      · simp [hh] at hhalt
      · exact absurd hg hgone
  | closed _ _ _ _ => exact absurd rfl hgone
  | close _ _ => exact absurd rfl hgone
  | halt _ _ => simp [End.halt] at hhalt
  | begin => exact heq hgone hhalt
  | push => exact heq hgone hhalt
  | _ => exact heq hgone hhalt

end credit


/-! ### Content -/

section content

variable {x y x' y' : End φ α}

/-- An action of the writing end keeps the account of its frames. -/
theorem Act.content_out (hact : Act K W x y x' y') (h : Inv K W x y)
    (hspoiled : x'.spoiled = false) : ∃ past Q, Content K x' y' past Q := by
  have hold : x.spoiled = false := by
    cases hact with
    | begin _ _ _ _ => exact (Bool.or_eq_false_iff.mp hspoiled).1
    | data _ _ _ _ _ => simpa using hspoiled
    | _ => exact hspoiled
  obtain ⟨past, Q, hc⟩ := h.out.content hold
  -- A prefix of the flight carries a prefix of the stream.
  have hcutFlight : ∀ flight : List (Item α), flight <+: x.flight → y.halted = false →
      y.phase ≠ .gone → K.encAll past ++ y.asm ++ dataBytes flight <+: Q := by
    intro flight hpre hh hg
    refine List.IsPrefix.trans ?_ (hc.stream hh hg)
    exact (List.prefix_append_right_inj _).mpr (dataBytes_mono hpre)
  -- A chunk pushed by a live end extends the stream and what is in flight alike.
  have hextend : ∀ chunk : List α, x.phase = .live → y.halted = false → y.phase ≠ .gone →
      K.encAll past ++ y.asm ++ dataBytes (x.flight ++ [.data chunk]) = Q ++ chunk := by
    intro chunk hphase hh hg
    have hhalt : x.halted = false := by
      by_contra hh
      exact h.here.halted_not_live (by simpa using hh) hphase
    rw [← hc.whole hh hg hhalt]
    simp
  cases hact with
  | openHere howner _ hphase =>
      have hyf := h.out.owner_first howner hphase
      obtain ⟨hflight, -, hpend, hsent, -, -, -⟩ := h.here.fresh_blank hphase
      have hQ : Q = [] := by simpa [hsent] using hc.pushed
      exact ⟨past, Q, { hc with
        pushed_live := fun _ _ => by simp [hQ, hpend, hsent]
        stream := fun hh hg => by simpa using hc.stream hh hg
        whole := fun hh hg hx => by simpa using hc.whole hh hg hx
        final := fun _ hg => by simp [hyf] at hg }⟩
  | @accept rest hhalt hphase _ =>
      obtain ⟨-, -, hpend, hsent, -, -, -⟩ := h.here.fresh_blank hphase
      have hQ : Q = [] := by simpa [hsent] using hc.pushed
      exact ⟨past, Q, { hc with
        pushed_live := fun _ _ => by simp [hQ, hpend, hsent] }⟩
  | @begin f chunk rest hphase hpend henc _ =>
      have htorn : x.torn = false := (Bool.or_eq_false_iff.mp hspoiled).2
      have hfull : Q = K.encAll x.sent := by
        simpa [hpend] using hc.pushed_live htorn (Or.inl hphase)
      refine ⟨past, Q ++ chunk, { hc with
        pushed := ⟨rest, by simp [hfull, henc]⟩
        pushed_live := fun _ _ => by simp [hfull, henc]
        cut := hc.cut.trans (List.prefix_append _ _)
        stream := fun hh hg => by
          simp only [hextend chunk hphase hh hg]
          exact List.prefix_refl _
        whole := fun hh hg _ => hextend chunk hphase hh hg
        final := ?_ }⟩
      intro hh hg hl hx
      have hleft := (hc.final hh hg hl hx).1
      exact absurd (h.here.left_gone hleft).1 (by simp [hphase])
  | @push chunk rest hphase hpend _ =>
      have hpushed : Q ++ chunk <+: K.encAll x.sent := by
        by_cases htorn : x.torn = true
        · have hnil := h.here.torn_pend htorn hold
          rw [hpend] at hnil
          rw [(List.append_eq_nil_iff.mp hnil).1, List.append_nil]
          exact hc.pushed
        · have hfull := hc.pushed_live (by simpa using htorn) (Or.inl hphase)
          exact ⟨rest, by rw [← hfull, hpend]; simp⟩
      exact ⟨past, Q ++ chunk, { hc with
        pushed := hpushed
        pushed_live := fun ht _ => by
          rw [← hc.pushed_live ht (Or.inl hphase), hpend]
          simp
        cut := hc.cut.trans (List.prefix_append _ _)
        stream := fun hh hg => by
          simp only [hextend chunk hphase hh hg]
          exact List.prefix_refl _
        whole := fun hh hg _ => hextend chunk hphase hh hg }⟩
  | tear =>
      exact ⟨past, Q, { hc with
        pushed_live := fun ht => by cases ht
        final := fun hh hg hl hx => ⟨(hc.final hh hg hl hx).1, fun ht => by cases ht⟩ }⟩
  | fail hphase =>
      refine ⟨past, Q, { hc with
        pushed_live := ?_ }⟩
      rintro ht (hl | hleft)
      · exact absurd hl hphase
      · have hpend := (h.here.left_gone hleft).2
        simpa [hpend] using hc.pushed_live ht (Or.inr hleft)
  | data hhalt hphase _ _ _ =>
      have hsame : ∀ b fs r, (x.receive K b fs r).sent = x.sent ∧
          (x.receive K b fs r).pend = x.pend := by
        intro b fs r
        unfold End.receive
        split <;> exact ⟨rfl, rfl⟩
      exact ⟨past, Q, {
        got_past := hc.got_past
        reading := hc.reading
        pushed := by rw [(hsame _ _ _).1]; exact hc.pushed
        pushed_live := by
          rw [(hsame _ _ _).1, (hsame _ _ _).2, receive_left, receive_torn, receive_phase]
          exact hc.pushed_live
        cut := hc.cut
        stream := by rw [receive_flight]; exact hc.stream
        whole := by rw [receive_flight, receive_halted]; exact hc.whole
        final := by
          rw [receive_halted, (hsame _ _ _).1, receive_left, receive_torn]
          exact hc.final }⟩
  | badData _ hphase _ _ hpre _ =>
      refine ⟨past, Q, { hc with
        pushed_live := ?_
        stream := hcutFlight _ hpre
        whole := fun _ _ hx => by simp [End.halt] at hx
        final := fun _ _ _ hx => by simp [End.halt] at hx }⟩
      rintro ht (hl | hleft)
      · simp [End.halt, hphase] at hl
      · exact absurd (h.here.left_gone hleft).1 (by simp [hphase])
  | closed hhalt hphase hflight hpre =>
      have hgone := (h.there.left_gone (h.there.closing_left (by simp [hflight]))).1
      refine ⟨past, Q, { hc with
        pushed_live := ?_
        stream := fun _ hg => absurd hgone hg
        whole := fun _ hg => absurd hgone hg }⟩
      rintro ht (hl | hleft)
      · cases hl
      · exact hc.pushed_live ht (Or.inr hleft)
  | close hphase hpend =>
      exact ⟨past, Q, { hc with
        pushed_live := fun ht _ => hc.pushed_live ht (Or.inl hphase)
        stream := fun hh hg => by simpa [End.release] using hc.stream hh hg
        whole := fun hh hg hx => by simpa [End.release] using hc.whole hh hg hx
        final := fun hh hg hl hx => ⟨rfl, (hc.final hh hg hl hx).2⟩ }⟩
  | halt hpre _ =>
      refine ⟨past, Q, { hc with
        pushed_live := ?_
        stream := hcutFlight _ hpre
        whole := fun _ _ hx => by simp [End.halt] at hx
        final := fun _ _ _ hx => by simp [End.halt] at hx }⟩
      rintro ht (hl | hleft)
      · simp only [End.halt] at hl
        split at hl <;> cases hl
      · exact hc.pushed_live ht (Or.inr hleft)
  | _ => exact ⟨past, Q, { hc with }⟩

/-- Receiving data cuts the next frames off the stream. -/
theorem Content.cut_more {K : PrefixCode φ α} {past fs : List φ} {Q body asm rest : List α}
    {items : List (Item α)}
    (hstream : K.encAll past ++ asm ++ dataBytes (.data body :: items) <+: Q)
    (hcut : asm ++ body = K.encAll fs ++ rest) :
    K.encAll (past ++ fs) ++ rest ++ dataBytes items <+: Q := by
  have heq : K.encAll past ++ asm ++ dataBytes (.data body :: items) =
      K.encAll (past ++ fs) ++ rest ++ dataBytes items := by
    calc K.encAll past ++ asm ++ dataBytes (.data body :: items)
        = K.encAll past ++ (asm ++ body) ++ dataBytes items := by simp
      _ = K.encAll (past ++ fs) ++ rest ++ dataBytes items := by rw [hcut]; simp
  rwa [← heq]

/-- An action of the reading end keeps the account of the frames it reads. -/
theorem Act.content_back (hact : Act K W x y x' y') (h : Inv K W x y)
    (hspoiled : y'.spoiled = false) : ∃ past Q, Content K y' x' past Q := by
  have hold : y.spoiled = false := by cases hact <;> exact hspoiled
  obtain ⟨past, Q, hc⟩ := h.back.content hold
  cases hact with
  | openHere howner _ hphase =>
      exact ⟨past, Q, { hc with
        stream := fun hh _ => hc.stream hh (by simp [hphase])
        whole := fun hh _ => hc.whole hh (by simp [hphase])
        final := fun _ hg => by cases hg }⟩
  | @accept rest hhalt hphase hflight =>
      exact ⟨past, Q, { hc with
        stream := fun hh _ => by
          simpa [hflight] using hc.stream hh (by simp [hphase])
        whole := fun hh _ hx => by
          simpa [hflight] using hc.whole hh (by simp [hphase]) hx
        final := fun _ hg => by cases hg }⟩
  | @take f rest hready =>
      have hreading : x.reading = true := by
        by_contra hr
        simp [h.here.unread (by simpa using hr)] at hready
      have hpast := hc.reading hreading
      refine ⟨past, Q, { hc with
        got_past := ⟨rest, by simp [End.consume, hpast, hready]⟩
        reading := fun _ => by simp [End.consume, hpast, hready] }⟩
  | dropReader =>
      exact ⟨past, Q, { hc with reading := fun hr => by cases hr }⟩
  | @data body rest fs asm hhalt hphase hflight hcut _ =>
      have hlive : x.phase ≠ .gone := by simp [hphase]
      have hstream := hc.stream hhalt hlive
      rw [hflight] at hstream
      have hmore := Content.cut_more hstream hcut
      refine ⟨past ++ fs, Q, ?_⟩
      have hasm : (x.receive K body fs asm).asm = asm := by
        unfold End.receive; split <;> rfl
      have hgot : (x.receive K body fs asm).got = x.got := by
        unfold End.receive; split <;> rfl
      constructor
      · rw [hgot]; exact hc.got_past.trans (List.prefix_append _ _)
      · intro hr
        have hreading : x.reading = true := by
          by_contra hne
          simp [End.receive, hne] at hr
        simp [End.receive, hreading, hc.reading hreading]
      · exact hc.pushed
      · exact hc.pushed_live
      · refine List.IsPrefix.trans ⟨asm ++ dataBytes rest, ?_⟩ hmore
        simp
      · intro _ _
        rw [hasm]
        exact hmore
      · intro _ _ hx
        rw [hasm]
        have hwhole := hc.whole hhalt hlive hx
        rw [← hwhole, hflight]
        calc K.encAll (past ++ fs) ++ asm ++ dataBytes rest
            = K.encAll past ++ (K.encAll fs ++ asm) ++ dataBytes rest := by simp
          _ = K.encAll past ++ x.asm ++ dataBytes (.data body :: rest) := by
              rw [← hcut]; simp
      · intro _ hg
        simp [hphase] at hg
  | @badData body rest fs asm flight grants hhalt hphase hflight hcut _ _ =>
      have hstream := hc.stream hhalt (by simp [hphase])
      rw [hflight] at hstream
      have hmore := Content.cut_more hstream hcut
      have hcutQ : K.encAll (past ++ fs) <+: Q := by
        refine List.IsPrefix.trans ⟨asm ++ dataBytes rest, ?_⟩ hmore
        simp
      refine ⟨past ++ fs, Q, {
        got_past := hc.got_past.trans (List.prefix_append _ _)
        reading := ?_
        pushed := hc.pushed
        pushed_live := hc.pushed_live
        cut := hcutQ
        stream := fun hh => by simp [End.halt] at hh
        whole := fun hh => by simp [End.halt] at hh
        final := fun hh => by simp [End.halt] at hh }⟩
      intro hr
      have hreading : x.reading = true := hr
      simp [End.halt, hreading, hc.reading hreading]
  | skip hflight hcare =>
      have hvac : x.halted = false → x.phase ≠ .gone → False := by
        intro hh hg
        rcases hcare with hc' | ⟨hc', -⟩
        · simp [hh] at hc'
        · exact hg hc'
      exact ⟨past, Q, { hc with
        stream := fun hh hg => (hvac hh hg).elim
        whole := fun hh hg => (hvac hh hg).elim }⟩
  | @closed rest flight hhalt hphase hflight _ =>
      have hleft : y.left = true := h.there.closing_left (by simp [hflight])
      refine ⟨past, Q, { hc with
        stream := fun _ hg => absurd rfl hg
        whole := fun _ hg => absurd rfl hg
        final := ?_ }⟩
      intro _ _ hxl hyh
      refine ⟨hleft, fun htorn => ?_⟩
      cases hx : x.phase with
      | fresh => exact absurd hx hphase
      | gone => exact (hc.final hhalt hx hxl hyh).2 htorn
      | live =>
          have hshape := h.back.shape hhalt
          obtain ⟨-, ⟨b, bs, tl, hi, -, -⟩ | ⟨-, rfl⟩⟩ := hshape.live_cons K h.there hx hflight
          · cases hi
          -- The whole stream has been cut, and what is left over holds no frame.
          · have hwhole := hc.whole hhalt (by simp [hx]) hyh
            have hpushed := hc.pushed_live htorn (Or.inr hleft)
            rw [(h.there.left_gone hleft).2, List.append_nil] at hpushed
            rw [hflight, dataBytes_closing, dataBytes_nil, List.append_nil, hpushed] at hwhole
            obtain ⟨hs, hsent, hasm⟩ := K.encAll_append_eq hwhole
            have hnil := h.here.stuck.eq_nil hasm
            rw [hsent, hnil, List.append_nil]
  | close hphase _ =>
      exact ⟨past, Q, { hc with
        stream := fun _ hg => absurd rfl hg
        whole := fun _ hg => absurd rfl hg
        final := fun _ _ hl => by cases hl }⟩
  | halt _ _ =>
      exact ⟨past, Q, { hc with
        stream := fun hh => by simp [End.halt] at hh
        whole := fun hh => by simp [End.halt] at hh
        final := fun hh => by simp [End.halt] at hh }⟩
  | _ => exact ⟨past, Q, { hc with }⟩

end content

/-! ### The invariant -/

section invariant

variable {x y x' y' : End φ α}

/-- The facts about the direction the acting end writes to that are neither
shape, credit nor content. -/
theorem Act.direction_out (hact : Act K W x y x' y') (h : Inv K W x y) :
    Direction K W x' y' where
  owners := by
    have howners := h.out.owners
    cases hact with
    | data _ _ _ _ _ => simpa using howners
    | _ => exact howners
  owner_first := by
    have hfirst := h.out.owner_first
    cases hact with
    | openHere _ _ _ => intro _ hf; cases hf
    | accept _ _ _ => intro _ hf; cases hf
    | data _ _ _ _ _ => simpa using hfirst
    | @badData _ _ _ _ _ _ _ hphase _ _ _ _ => intro _ hf; simp [End.halt, hphase] at hf
    | closed _ _ _ _ => intro _ hf; cases hf
    | close _ _ => intro _ hf; cases hf
    | halt _ _ =>
        intro ho hf
        refine hfirst ho ?_
        by_contra hne
        simp [End.halt, hne] at hf
    | _ => exact hfirst
  gone_left := by
    have hgone := h.out.gone_left
    cases hact with
    | openHere _ _ _ => intro hg; cases hg
    | accept _ _ _ => intro hg; cases hg
    | data _ _ _ _ _ => simpa using hgone
    | badData _ _ _ _ _ _ => intro _ _ hh; simp [End.halt] at hh
    | closed _ _ hflight _ =>
        intro _ _ _
        exact h.there.closing_left (by simp [hflight])
    | close _ _ => intro _ hl; cases hl
    | halt _ _ => intro _ _ hh; simp [End.halt] at hh
    | _ => exact hgone
  untouched := by
    have hun := h.out.untouched
    cases hact with
    | openHere _ _ _ => intro hf; cases hf
    | accept _ _ _ => intro hf; cases hf
    | data _ _ _ _ _ => simpa using hun
    | @badData _ _ _ _ _ _ _ hphase _ _ _ _ => intro hf; simp [End.halt, hphase] at hf
    | closed _ _ _ _ => intro hf; cases hf
    | close _ _ => intro hf; cases hf
    | grant hphase _ => intro hf; simp [hphase] at hf
    | skipGrant _ hgrants =>
        intro hf
        simp [(hun hf).2.1] at hgrants
    | halt _ _ =>
        intro hf
        refine hun ?_
        by_contra hne
        simp [End.halt, hne] at hf
    | _ => exact hun
  shape := hact.shape_out K W h
  credit_le := (hact.credit_le K W h).1
  credit_eq := hact.credit_eq_out K W h
  content := hact.content_out K W h

/-- And about the direction it reads from. -/
theorem Act.direction_back (hact : Act K W x y x' y') (h : Inv K W x y) :
    Direction K W y' x' where
  owners := by
    have howners := h.back.owners
    cases hact with
    | data _ _ _ _ _ => simpa using howners
    | _ => exact howners
  owner_first := by
    have hfirst := h.back.owner_first
    have howners := h.back.owners
    -- A fresh peer has sent nothing.
    have hquiet : y.phase = .fresh → y.flight = [] := fun hf => (h.there.fresh_blank hf).1
    cases hact with
    | openHere howner _ _ => intro ho; simp [howners, howner] at ho
    | accept _ _ hflight => intro _ hf; simp [hquiet hf] at hflight
    | data _ _ _ _ _ => simpa using hfirst
    | badData _ _ hflight _ _ _ => intro _ hf; simp [hquiet hf] at hflight
    | closed _ _ hflight _ => intro _ hf; simp [hquiet hf] at hflight
    | close hphase _ => intro ho hf; simp [hfirst ho hf] at hphase
    | halt _ _ => intro ho hf; simp [End.halt, hfirst ho hf]
    | _ => exact hfirst
  gone_left := by
    have hgone := h.back.gone_left
    cases hact with
    | data _ _ _ _ _ => simpa using hgone
    | close _ _ => intro _ _ _; rfl
    | _ => exact hgone
  untouched := by
    have hun := h.back.untouched
    have hquiet : y.phase = .fresh → y.flight = [] := fun hf => (h.there.fresh_blank hf).1
    cases hact with
    | take hready => intro hf; simp [(hun hf).2.2.2.1] at hready
    | data _ _ hflight _ _ => intro hf; simp [hquiet hf] at hflight
    | badData _ _ hflight _ _ _ => intro hf; simp [hquiet hf] at hflight
    | dropReader =>
        intro hf
        obtain ⟨hun0, hnil, hasm, -, hgot⟩ := hun hf
        exact ⟨hun0, hnil, hasm, rfl, hgot⟩
    | closed _ _ _ _ =>
        intro hf
        obtain ⟨-, hnil, -, hready, hgot⟩ := hun hf
        exact ⟨rfl, hnil, rfl, hready, hgot⟩
    | close _ _ =>
        intro hf
        obtain ⟨-, hnil, -, hready, hgot⟩ := hun hf
        exact ⟨rfl, hnil, rfl, hready, hgot⟩
    | halt _ hgrants =>
        intro hf
        obtain ⟨-, hnil, -, hready, hgot⟩ := hun hf
        rw [hnil, List.prefix_nil] at hgrants
        simp [End.halt, hgrants, hready, hgot]
    | _ => exact hun
  shape := hact.shape_back K W h
  credit_le := (hact.credit_le K W h).2
  credit_eq := hact.credit_eq_back K W h
  content := hact.content_back K W h

/-- **The channel invariant.**  Every action of either end preserves it. -/
theorem Act.inv (hact : Act K W x y x' y') (h : Inv K W x y) : Inv K W x' y' where
  here := hact.lone_here K W h.here
  there := hact.lone_there K W h.there
  out := hact.direction_out K W h
  back := hact.direction_back K W h

/-- The invariant does not care which end is named first. -/
theorem Inv.symm (h : Inv K W x y) : Inv K W y x where
  here := h.there
  there := h.here
  out := h.back
  back := h.out

theorem Lone.blank (owner : Bool) : Lone K (.blank owner : End φ α) where
  halted_not_live := by simp [End.blank]
  fresh_blank := by simp [End.blank]
  off_blank := by simp [End.blank]
  closing_left := by simp [End.blank]
  left_gone := by simp [End.blank]
  unread := by simp [End.blank]
  stuck := K.stuck_nil
  unacked_eq := by simp [End.blank]
  pend_frame := by simp [End.blank]
  torn_pend := by simp [End.blank]
  opening_owner := by simp [End.blank]

theorem Direction.blank (owner : Bool) :
    Direction K W (.blank owner : End φ α) (.blank !owner) where
  owners := by simp [End.blank]
  owner_first := by simp [End.blank]
  gone_left := by simp [End.blank]
  untouched := by simp [End.blank]
  shape := by simp [End.blank, Shape]
  credit_le := by simp [End.blank, outstanding]
  credit_eq := by simp [End.blank]
  content := fun _ => ⟨[], [], by constructor <;> simp [End.blank]⟩

/-- Two ends that have not heard of the channel satisfy the invariant. -/
theorem Inv.blank (owner : Bool) : Inv K W (.blank owner : End φ α) (.blank !owner) where
  here := .blank K owner
  there := .blank K !owner
  out := .blank K W owner
  back := by simpa using Direction.blank K W (!owner)

/-- Any number of actions of the first end. -/
def Steps (x y x' y' : End φ α) : Prop :=
  Relation.ReflTransGen (fun p q : End φ α × End φ α => Act K W p.1 p.2 q.1 q.2) (x, y) (x', y')

theorem Steps.refl : Steps K W x y x y := Relation.ReflTransGen.refl

theorem Steps.of_eq (hx : x' = x) (hy : y' = y) : Steps K W x y x' y' := by
  subst hx hy
  exact .refl K W

variable {K W}

theorem Act.steps (h : Act K W x y x' y') : Steps K W x y x' y' := Relation.ReflTransGen.single h

theorem Steps.tail {x'' y'' : End φ α} (h : Steps K W x y x' y') (hact : Act K W x' y' x'' y'') :
    Steps K W x y x'' y'' :=
  Relation.ReflTransGen.tail h hact

theorem Steps.trans {x'' y'' : End φ α} (h : Steps K W x y x' y')
    (h' : Steps K W x' y' x'' y'') : Steps K W x y x'' y'' :=
  Relation.ReflTransGen.trans h h'

/-- An end that halted stays halted. -/
theorem Act.halted_mono (h : Act K W x y x' y') (hx : x.halted = true) : x'.halted = true := by
  cases h with
  | data hhalt =>
      unfold End.receive
      split
      · exact hx
      · exact hx
  | badData hhalt => rfl
  | halt => rfl
  | _ => exact hx

theorem Steps.halted_mono (h : Steps K W x y x' y') (hx : x.halted = true) :
    x'.halted = true := by
  unfold Steps at h
  generalize hp : ((x, y) : End φ α × End φ α) = p at h
  generalize hq : ((x', y') : End φ α × End φ α) = q at h
  induction h generalizing x' y' with
  | refl =>
      rw [← hp] at hq
      cases hq
      exact hx
  | @tail b c _ hact ih =>
      subst hq
      exact Act.halted_mono hact (ih rfl)

/-- A halted end receives nothing more: what its reader has taken and what
waits for it are together what they were. -/
theorem Act.unread (h : Act K W x y x' y') (hx : x.halted = true) (hreading : x'.reading = true) :
    x.reading = true ∧ x'.got ++ x'.ready = x.got ++ x.ready := by
  cases h with
  | openHere _ hhalt _ => rw [hx] at hhalt; cases hhalt
  | accept hhalt _ _ => rw [hx] at hhalt; cases hhalt
  | data hhalt _ _ _ _ => rw [hx] at hhalt; cases hhalt
  | badData hhalt _ _ _ _ _ => rw [hx] at hhalt; cases hhalt
  | closed hhalt _ _ _ => rw [hx] at hhalt; cases hhalt
  | take hready =>
      refine ⟨hreading, ?_⟩
      rw [hready]
      exact List.append_assoc _ _ _
  | dropReader => cases hreading
  | _ => exact ⟨hreading, rfl⟩

theorem Steps.unread (h : Steps K W x y x' y') (hx : x.halted = true)
    (hreading : x'.reading = true) :
    x.reading = true ∧ x'.got ++ x'.ready = x.got ++ x.ready := by
  unfold Steps at h
  generalize hp : ((x, y) : End φ α × End φ α) = p at h
  generalize hq : ((x', y') : End φ α × End φ α) = q at h
  induction h generalizing x' y' with
  | refl =>
      rw [← hp] at hq
      cases hq
      exact ⟨hreading, rfl⟩
  | @tail b c hfirst hact ih =>
      subst hq hp
      have hhalted : b.1.halted = true := Steps.halted_mono hfirst hx
      obtain ⟨hreading', hsame⟩ := Act.unread hact hhalted hreading
      obtain ⟨hreading'', hsame'⟩ := ih hreading' rfl
      exact ⟨hreading'', hsame.trans hsame'⟩

/-- Any number of actions preserves the channel invariant. -/
theorem Steps.inv (h : Steps K W x y x' y') (hinv : Inv K W x y) : Inv K W x' y' := by
  unfold Steps at h
  generalize hp : ((x, y) : End φ α × End φ α) = p at h
  generalize hq : ((x', y') : End φ α × End φ α) = q at h
  induction h generalizing x' y' with
  | refl =>
      rw [← hp] at hq
      cases hq
      exact hinv
  | tail _ hact ih =>
      cases hq
      exact hact.inv K W (ih rfl)

end invariant

/-! ### What the invariant says -/

section results

variable {x y : End φ α}

/-- An opening arrives only at an end that has not heard of the channel. -/
theorem Inv.opening_fresh {K : PrefixCode φ α} {W : Nat} (h : Inv K W x y)
    (hx : x.halted = false) {rest : List (Item α)} (hflight : y.flight = .opening :: rest) :
    x.phase = .fresh := by
  have hshape := h.back.shape hx
  unfold Shape at hshape
  cases hphase : x.phase with
  | fresh => rfl
  | live =>
      obtain ⟨-, ⟨b, bs, tl, hi, -⟩ | ⟨hi, -⟩⟩ :=
        (h.back.shape hx).live_cons K h.there hphase hflight
      · cases hi
      · cases hi
  | gone =>
      simp only [hphase, hflight] at hshape
      exact absurd (List.mem_cons_self ..) hshape

/-- An opening in flight comes from the owner, whatever the receiving end has
become. -/
theorem Inv.opening_owner {K : PrefixCode φ α} {W : Nat} (h : Inv K W x y)
    {rest : List (Item α)} (hflight : y.flight = .opening :: rest) : y.owner = true :=
  h.there.opening_owner (by simp [hflight])

/-- Anything else arrives only at an end that has heard of it. -/
theorem Inv.item_not_fresh {K : PrefixCode φ α} {W : Nat} (h : Inv K W x y)
    (hx : x.halted = false) {i : Item α} {rest : List (Item α)} (hflight : y.flight = i :: rest)
    (hi : i ≠ .opening) : x.phase ≠ .fresh := by
  intro hphase
  have hshape := h.back.shape hx
  unfold Shape at hshape
  simp only [hphase, hflight] at hshape
  rcases hshape with ⟨hnil, -⟩ | ⟨-, -, bs, tl, -, heq⟩
  · cases hnil
  · exact hi (List.cons.inj heq).1

/-- What has arrived and not been acknowledged fits into the window with the
chunk that arrives next. -/
theorem Inv.chunk_fits {K : PrefixCode φ α} {W : Nat} (h : Inv K W x y) {body : List α}
    {rest : List (Item α)} (hflight : y.flight = .data body :: rest) :
    x.unacked + body.length ≤ W := by
  have hcredit := h.back.credit_le
  unfold outstanding at hcredit
  rw [hflight, dataBytes_data, List.length_append] at hcredit
  omega

/-- Credit that arrives fits into the window with the credit in hand. -/
theorem Inv.grant_fits {K : PrefixCode φ α} {W : Nat} (h : Inv K W x y) {n : Nat}
    {rest : List Nat} (hgrants : y.grants = n :: rest) : x.avail + n ≤ W := by
  have hcredit := h.out.credit_le
  unfold outstanding at hcredit
  rw [hgrants, List.sum_cons] at hcredit
  omega

/-- What a live end has left over and the chunk that arrives next are the start
of a stream of frames. -/
theorem Inv.chunk_stream {K : PrefixCode φ α} {W : Nat} (h : Inv K W x y) {body : List α}
    {rest : List (Item α)} (hx : x.phase = .live) (hflight : y.flight = .data body :: rest)
    (hspoiled : y.spoiled = false) :
    ∃ fs, (∀ f ∈ fs, f ∈ y.sent) ∧ x.asm ++ body <+: K.encAll fs := by
  have hxh : x.halted = false := by
    by_contra hh
    exact h.here.halted_not_live (by simpa using hh) hx
  obtain ⟨past, Q, hc⟩ := h.back.content hspoiled
  have hstream := (hc.stream hxh (by simp [hx])).trans hc.pushed
  rw [hflight, dataBytes_data, List.append_assoc] at hstream
  obtain ⟨fs, hsent, hpre⟩ := K.encAll_append_cut hstream
  refine ⟨fs, fun f hf => by rw [hsent]; exact List.mem_append_right _ hf, ?_⟩
  rw [← List.append_assoc] at hpre
  exact (List.prefix_append _ _).trans hpre

/-- **Ordered delivery.**  The frames a reader took are the first frames
written. -/
theorem Inv.got_sent {K : PrefixCode φ α} {W : Nat} (h : Inv K W x y)
    (hspoiled : x.spoiled = false) : y.got <+: x.sent := by
  obtain ⟨past, Q, hc⟩ := h.out.content hspoiled
  have hpast : K.encAll past ++ [] <+: K.encAll x.sent := by
    rw [List.append_nil]
    exact hc.cut.trans hc.pushed
  obtain ⟨hs, hsent, -⟩ := K.encAll_append_cut hpast
  exact hc.got_past.trans ⟨hs, hsent.symm⟩

/-- **Complete delivery.**  Once the writer's closing has arrived at a reader
that had not closed itself, an empty queue means that every frame written has
been taken. -/
theorem Inv.got_all {K : PrefixCode φ α} {W : Nat} (h : Inv K W x y)
    (hspoiled : x.spoiled = false) (htorn : x.torn = false) (hx : x.halted = false)
    (hy : y.halted = false) (hgone : y.phase = .gone) (hleft : y.left = false)
    (hreading : y.reading = true) (hready : y.ready = []) : y.got = x.sent := by
  obtain ⟨past, Q, hc⟩ := h.out.content hspoiled
  have hpast := hc.reading hreading
  rw [hready, List.append_nil] at hpast
  rw [← hpast]
  exact (hc.final hy hgone hleft hx).2 htorn

/-- With nothing in flight, what a live reading end has left over and what a
live writing end has still to push are the frames not cut off yet. -/
theorem Inv.in_transit {K : PrefixCode φ α} {W : Nat} (h : Inv K W x y)
    (hspoiled : x.spoiled = false) (htorn : x.torn = false) (hx : x.phase = .live)
    (hy : y.phase = .live) (hflight : x.flight = []) :
    ∃ past fs, (y.reading = true → past = y.got ++ y.ready) ∧ x.sent = past ++ fs ∧
      y.asm ++ x.pend = K.encAll fs := by
  obtain ⟨past, Q, hc⟩ := h.out.content hspoiled
  have hxh : x.halted = false := by
    by_contra hh
    exact h.here.halted_not_live (by simpa using hh) hx
  have hyh : y.halted = false := by
    by_contra hh
    exact h.there.halted_not_live (by simpa using hh) hy
  have hwhole := hc.whole hyh (by simp [hy]) hxh
  rw [hflight, dataBytes_nil, List.append_nil] at hwhole
  have hall := hc.pushed_live htorn (Or.inl hx)
  rw [← hwhole, List.append_assoc] at hall
  obtain ⟨fs, hsent, hrest⟩ := K.encAll_append_eq hall
  exact ⟨past, fs, hc.reading, hsent, hrest⟩

/-- **Delivery.**  With nothing in flight, no frame under way and every frame
that arrived taken, every frame written has been taken. -/
theorem Inv.delivered {K : PrefixCode φ α} {W : Nat} (h : Inv K W x y)
    (hspoiled : x.spoiled = false) (htorn : x.torn = false) (hx : x.phase = .live)
    (hy : y.phase = .live) (hflight : x.flight = []) (hpend : x.pend = [])
    (hreading : y.reading = true) (hready : y.ready = []) : y.got = x.sent := by
  obtain ⟨past, fs, hpast, hsent, hrest⟩ := h.in_transit hspoiled htorn hx hy hflight
  rw [hpend, List.append_nil] at hrest
  rw [hsent, hpast hreading, hready, h.there.stuck.eq_nil hrest, List.append_nil, List.append_nil]

/-- The frames not yet cut off end with the one that is being pushed, so that
one is all there is. -/
theorem Inv.last_begun {K : PrefixCode φ α} {W : Nat} (h : Inv K W x y) {past fs l : List φ}
    {f : φ} (hsent : x.sent = past ++ fs) (hrest : y.asm ++ x.pend = K.encAll fs)
    (hl : x.sent = l ++ [f]) (hpend : x.pend ≠ []) : l = past ∧ y.asm ++ x.pend = K.enc f := by
  obtain ⟨l', f', hl', hsuf⟩ := h.here.pend_frame hpend
  obtain ⟨-, hf⟩ := List.append_inj' (hl.symm.trans hl') rfl
  obtain rfl := List.singleton_inj.mp hf
  rcases List.eq_nil_or_concat fs with rfl | ⟨gs, g, rfl⟩
  · exact absurd (List.append_eq_nil_iff.mp hrest).2 hpend
  · rw [List.concat_eq_append] at hsent hrest
    rw [hsent, ← List.append_assoc] at hl
    obtain ⟨hpast, hg⟩ := List.append_inj' hl rfl
    obtain rfl := List.singleton_inj.mp hg
    obtain ⟨hgs, henc⟩ := K.stuck_tail h.there.stuck hsuf hrest
    rw [hgs, List.append_nil] at hpast
    exact ⟨hpast.symm, henc⟩

/-- With nothing in flight, what a live reading end has left over and what a
live writing end has still to push are one frame, or nothing. -/
theorem Inv.frame_in_transit {K : PrefixCode φ α} {W : Nat} (h : Inv K W x y)
    (hspoiled : x.spoiled = false) (htorn : x.torn = false) (hx : x.phase = .live)
    (hy : y.phase = .live) (hflight : x.flight = []) :
    (x.pend = [] → y.asm = []) ∧
      ∀ l f, x.sent = l ++ [f] → x.pend ≠ [] → y.asm ++ x.pend = K.enc f := by
  obtain ⟨past, fs, -, hsent, hrest⟩ := h.in_transit hspoiled htorn hx hy hflight
  constructor
  · intro hpend
    rw [hpend, List.append_nil] at hrest
    rw [hrest, h.there.stuck.eq_nil hrest]
    rfl
  · intro l f hl hpend
    exact (h.last_begun hsent hrest hl hpend).2

/-- With no data in flight, what a reading end that has not closed the channel
has left over and what the writing end has still to push are the frames that
have not been cut off. -/
theorem Inv.left_over {K : PrefixCode φ α} {W : Nat} (h : Inv K W x y)
    (hspoiled : x.spoiled = false) (htorn : x.torn = false)
    (hx : x.halted = false) (hy : y.halted = false) (hleft : y.left = false)
    (hreading : y.reading = true) (hflight : dataBytes x.flight = []) :
    ∃ fs, x.sent = y.got ++ y.ready ++ fs ∧ y.asm ++ x.pend = K.encAll fs := by
  obtain ⟨past, Q, hc⟩ := h.out.content hspoiled
  have hpast := hc.reading hreading
  by_cases hgone : y.phase = .gone
  · obtain ⟨hxleft, hall⟩ := hc.final hy hgone hleft hx
    refine ⟨[], ?_, ?_⟩
    · rw [← hall htorn, hpast, List.append_nil]
    · rw [(h.there.off_blank (by simp [hgone])).2.1, (h.here.left_gone hxleft).2]
      rfl
  by_cases hfresh : x.phase = .fresh
  · obtain ⟨-, -, hpend, hsent, -⟩ := h.here.fresh_blank hfresh
    obtain ⟨-, -, hasm, hready, hgot⟩ := h.out.untouched hfresh
    exact ⟨[], by rw [hsent, hgot, hready]; rfl, by rw [hasm, hpend]; rfl⟩
  have hup : x.phase = .live ∨ x.left = true := by
    cases hphase : x.phase with
    | fresh => exact absurd hphase hfresh
    | live => exact .inl rfl
    | gone =>
        right
        by_contra hxleft
        rw [h.out.gone_left hphase (by simpa using hxleft) hx] at hleft
        cases hleft
  have hwhole := hc.whole hy hgone hx
  have hall := hc.pushed_live htorn hup
  rw [← hwhole, hflight, List.append_nil, List.append_assoc] at hall
  obtain ⟨fs, hsent, hrest⟩ := K.encAll_append_eq hall
  exact ⟨fs, by rw [hsent, hpast], hrest⟩

/-- **Everything has arrived.**  With no data in flight, a reading end that has
not closed the channel has been handed every frame written, but for one that
the writing end has still to push the rest of. -/
theorem Inv.drained {K : PrefixCode φ α} {W : Nat} (h : Inv K W x y)
    (hspoiled : x.spoiled = false) (htorn : x.torn = false)
    (hx : x.halted = false) (hy : y.halted = false) (hleft : y.left = false)
    (hreading : y.reading = true) (hflight : dataBytes x.flight = []) :
    (x.pend = [] → x.sent = y.got ++ y.ready) ∧
      ∀ l f, x.sent = l ++ [f] → x.pend ≠ [] → l = y.got ++ y.ready := by
  obtain ⟨fs, hsent, hrest⟩ := h.left_over hspoiled htorn hx hy hleft hreading hflight
  constructor
  · intro hpend
    rw [hpend, List.append_nil] at hrest
    rw [hsent, h.there.stuck.eq_nil hrest, List.append_nil]
  · intro l f hl hpend
    exact (h.last_begun hsent hrest hl hpend).1

/-- **No stall.**  With nothing in flight or unread, the writing end has the
credit for what it still has to push of `f` exactly when the frame and what a
reader left behind fit into the window together. -/
theorem Inv.credit_suffices {K : PrefixCode φ α} {W : Nat} (h : Inv K W x y)
    (hspoiled : x.spoiled = false) (htorn : x.torn = false) (hx : x.phase = .live)
    (hy : y.phase = .live) (hflight : x.flight = []) (hgrants : y.grants = [])
    (hready : y.ready = []) {f : φ} {todo : List α}
    (htodo : (x.pend = [] ∧ todo = K.enc f) ∨
      (x.pend ≠ [] ∧ todo = x.pend ∧ ∃ l, x.sent = l ++ [f])) :
    todo.length ≤ x.avail ↔ (K.enc f).length + y.lost ≤ W := by
  have hyh : y.halted = false := by
    by_contra hh
    exact h.there.halted_not_live (by simpa using hh) hy
  have hcredit := h.out.credit_eq hx (by simp [hy]) hyh
  unfold outstanding at hcredit
  rw [hflight, hgrants, dataBytes_nil, List.length_nil, List.sum_nil] at hcredit
  have hunacked := h.there.unacked_eq hy
  rw [hready, K.encAll_nil, List.length_nil] at hunacked
  obtain ⟨hidle, hbusy⟩ := h.frame_in_transit hspoiled htorn hx hy hflight
  rcases htodo with ⟨hpend, rfl⟩ | ⟨hpend, rfl, l, hl⟩
  · rw [hidle hpend, List.length_nil] at hunacked
    omega
  · have hlen := congrArg List.length (hbusy l f hl hpend)
    rw [List.length_append] at hlen
    omega

end results

end CreditChannel
