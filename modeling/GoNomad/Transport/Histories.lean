import GoNomad.Transport.Invariant

/-!
# The past of a channel is its history

The invariant of the link speaks of `pastOf`, the results of the histories the
trace shows.  `pastOf_eq` and `bookOf_eq` say they are the same thing, and
`runs_tallied` is the run invariant of the bookkeeping of sends.
-/

namespace Mux

open Proto Transport CreditChannel

/-- The book of channel `c` at side `s`. -/
def bookOf (s : Role) (c : ChannelId) (trace : Link.Trace) : Book :=
  trace.foldl (fun b entry => if entry.1.side = s then b.after c entry.2 else b) .blank

theorem bookOf_snoc (s : Role) (c : ChannelId) (trace : Link.Trace) (ev : Link.Event)
    (obs : Endpoint.Obs) :
    bookOf s c (trace ++ [(ev, obs)]) =
      if ev.side = s then (bookOf s c trace).after c obs else bookOf s c trace := by
  unfold bookOf
  rw [List.foldl_append]
  rfl

namespace Link

variable {cfg : MuxConfig} {l l' l₀ : Link} {trace : Trace} {ev : Event} {obs : Endpoint.Obs}
variable {s : Role} {c : ChannelId}

/-! ### Reading the past off the trace -/

theorem pastOf_eq :
    pastOf s c trace =
      { sent := began s c trace
        got := received s c trace
        lost := (Frame.code.encAll (abandoned s c trace)).length
        torn := torn s c trace
        spoiled := (pastOf s c trace).spoiled
        left := left s c trace } := by
  induction trace using List.reverseRecOn with
  | nil => rfl
  | append_singleton trace entry ih =>
      obtain ⟨ev, obs⟩ := entry
      unfold began received abandoned torn cancelled left at ih ⊢
      simp only [pastOf_snoc, history_snoc]
      by_cases hs : ev.side = s
      · simp only [if_pos hs]
        rw [ih]
        cases obs with
        | pushed id f first last => cases first <;> by_cases hc : id = c <;> simp [Past.after, hc]
        | received id f => by_cases hc : id = c <;> simp [Past.after, hc]
        | sendCancelled id f torn => by_cases hc : id = c <;> simp [Past.after, hc]
        | sendDropped id closed => by_cases hc : id = c <;> simp [Past.after, hc]
        | recvDropped id unread closed => by_cases hc : id = c <;> simp [Past.after, hc]
        | _ => simp [Past.after]
      · simp only [if_neg hs, List.append_nil]
        exact ih

theorem bookOf_eq :
    bookOf s c trace =
      { started := started s c trace
        began := began s c trace
        completed := completed s c trace
        cancelled := !(cancelled s c trace).isEmpty } := by
  induction trace using List.reverseRecOn with
  | nil => rfl
  | append_singleton trace entry ih =>
      obtain ⟨ev, obs⟩ := entry
      unfold started began completed cancelled at ih ⊢
      simp only [bookOf_snoc, history_snoc]
      by_cases hs : ev.side = s
      · simp only [if_pos hs]
        rw [ih]
        cases obs with
        | sendStarted id f => by_cases hc : id = c <;> simp [Book.after, hc]
        | pushed id f first last =>
            by_cases hc : id = c <;> cases first <;> cases last <;> simp [Book.after, hc]
        | sendCancelled id f torn => by_cases hc : id = c <;> simp [Book.after, hc]
        | _ => simp [Book.after]
      · simp only [if_neg hs, List.append_nil]
        exact ih

/-! ### The end of a channel, in terms of histories -/

@[simp] theorem absEnd_sent (l : Link) : (absEnd s c l trace).sent = began s c trace :=
  congrArg Past.sent pastOf_eq

@[simp] theorem absEnd_got (l : Link) : (absEnd s c l trace).got = received s c trace :=
  congrArg Past.got pastOf_eq

@[simp] theorem absEnd_lost (l : Link) :
    (absEnd s c l trace).lost = (Frame.code.encAll (abandoned s c trace)).length :=
  congrArg Past.lost pastOf_eq

@[simp] theorem absEnd_torn (l : Link) : (absEnd s c l trace).torn = torn s c trace :=
  congrArg Past.torn pastOf_eq

@[simp] theorem absEnd_left (l : Link) : (absEnd s c l trace).left = left s c trace :=
  congrArg Past.left pastOf_eq

/-! ### Torn streams -/

theorem spoiled_torn : (pastOf s c trace).spoiled = true → (pastOf s c trace).torn = true := by
  induction trace using List.reverseRecOn with
  | nil => exact fun h => nomatch h
  | append_singleton trace entry ih =>
      obtain ⟨ev, obs⟩ := entry
      rw [pastOf_snoc]
      by_cases hs : ev.side = s
      · rw [if_pos hs]
        unfold Past.after
        split
        · split_ifs
          · intro h
            rcases Bool.or_eq_true_iff.mp h with h | h
            · exact ih h
            · exact h
          · exact ih
        · split_ifs <;> exact ih
        · split_ifs
          · intro h
            exact Bool.or_eq_true_iff.mpr (Or.inl (ih h))
          · exact ih
        · split_ifs <;> exact ih
        · split_ifs <;> exact ih
        · exact ih
      · rw [if_neg hs]
        exact ih

/-- The step begins no frame on a stream that an abandoned frame has torn. -/
def wholeFrames (trace : Trace) (l : Link) (ev : Event) : Bool :=
  match ev with
  | .op s (.sendStep i) =>
      match (l.ends.get s).streams[i]? with
      | none => true
      | some stream =>
          match stream.send with
          | some (.sending .acquired f chunks) =>
              chunks.flatten != f.encode || !torn s stream.id trace
          | _ => true
  | _ => true

/-- A step that begins no frame on a torn stream spoils no stream. -/
theorem not_spoiled_op {o : Endpoint.LocalOp} {r : Endpoint × Endpoint.Obs}
    (hr : (l.ends.get s).perform o = some r) (hwhole : wholeFrames trace l (.op s o))
    (h : (pastOf s c trace).spoiled = false) :
    ((pastOf s c trace).after c r.2).spoiled = false := by
  obtain ⟨e', obs⟩ := r
  dsimp only
  cases obs with
  | pushed id f first last =>
      cases first with
      | false => exact h
      | true =>
          by_cases hc : id = c
          · subst hc
            obtain ⟨i, stream, chunks, rfl, hi, rfl, hsend, hfirst⟩ := Endpoint.perform_pushed hr
            have hclean : torn s stream.id trace = false := by
              unfold wholeFrames at hwhole
              dsimp only at hwhole
              rw [hi] at hwhole
              dsimp only at hwhole
              rw [hsend] at hwhole
              simpa [bne, ← hfirst] using hwhole
            have htorn : (pastOf s stream.id trace).torn = false := by
              rw [pastOf_eq]
              exact hclean
            rw [Past.after_begun]
            dsimp only
            rw [h, htorn]
            rfl
          · rw [Past.after_other hc]
            exact h
  | received id f => dsimp only [Past.after]; split_ifs <;> exact h
  | sendCancelled id f torn => dsimp only [Past.after]; split_ifs <;> exact h
  | sendDropped id closed => dsimp only [Past.after]; split_ifs <;> exact h
  | recvDropped id unread closed => dsimp only [Past.after]; split_ifs <;> exact h
  | _ => exact h

/-- A stream nobody tore is not spoiled. -/
theorem not_spoiled (h : torn s c trace = false) : (pastOf s c trace).spoiled = false := by
  by_contra hspoiled
  have htorn := spoiled_torn (by simpa using hspoiled)
  rw [pastOf_eq] at htorn
  change torn s c trace = true at htorn
  rw [h] at htorn
  cases htorn

/-! ### The bookkeeping along runs -/

section books

variable {P : Book → View → Prop}

/-- The books of the side that moved and those of the other one. -/
theorem books_moved (h : ∀ s c, P (bookOf s c trace) ((l.ends.get s).view c)) (hside : ev.side = s)
    {e' : Endpoint} (hends : l'.ends = l.ends.set s e')
    (hself : ∀ c, P (bookOf s c trace) ((l.ends.get s).view c) →
      P ((bookOf s c trace).after c obs) (e'.view c)) :
    ∀ s c, P (bookOf s c (trace ++ [(ev, obs)])) ((l'.ends.get s).view c) := by
  refine sides_cases s h ?_ ?_
  · intro c
    rw [hends, Sides.get_set_self, bookOf_snoc, if_pos hside]
    exact hself c (h s c)
  · intro hother c
    have hne : ¬ ev.side = s.other := by
      rw [hside]
      exact (Role.other_ne s).symm
    rw [hends, Sides.get_set_other, bookOf_snoc, if_neg hne]
    exact hother c

/-- A step that moves no send of its side. -/
theorem books_kept (hP : Book.Stable P)
    (h : ∀ s c, P (bookOf s c trace) ((l.ends.get s).view c)) (hside : ev.side = s)
    {e' : Endpoint} (hends : l'.ends = l.ends.set s e')
    (hkept : ∀ c, Endpoint.SendKept c (l.ends.get s) e') (hobs : ∀ c, Endpoint.Unrelated c obs) :
    ∀ s c, P (bookOf s c (trace ++ [(ev, obs)])) ((l'.ends.get s).view c) := by
  refine books_moved h hside hends fun c hc => ?_
  rw [Book.after_unrelated (hobs c)]
  exact hP.kept (hkept c) hc

/-- Every step of the link keeps what no operation of an endpoint breaks. -/
theorem books_step (hP : Book.Stable P)
    (h : ∀ s c, P (bookOf s c trace) ((l.ends.get s).view c)) (hsafe : Safe cfg trace l)
    (hfresh : freshIds trace l ev) (hstep : Link.step l ev = some (l', obs)) :
    ∀ s c, P (bookOf s c (trace ++ [(ev, obs)])) ((l'.ends.get s).view c) := by
  rcases step_cases hstep with ⟨s, o, r, rfl, hr, rfl, rfl⟩ | ⟨s, seg, e', rfl, ht, rfl, rfl⟩ |
    ⟨s, seg, rest, rfl, hwire, -, rfl, rfl⟩ | ⟨s, err, rfl, rfl, rfl⟩
  · refine books_moved h rfl rfl fun c => ?_
    exact hP.step (hsafe.wf s) (Endpoint.sends_perform (hsafe.wf s) (hsafe.fresh hfresh rfl) hr)
  · obtain ⟨-, -, hview⟩ := (hsafe.wf s).takeNext ht
    refine books_kept hP h rfl rfl (fun c => Or.inl ⟨?_, ?_⟩) fun _ => trivial
    · change _ = ((l.ends.get s).view c).stream.map Stream.send
      rw [hview c]
    · change _ → ((l.ends.get s).view c).entry.isSome = true
      rw [hview c]
      exact fun hentry => hentry
  · exact books_kept hP h rfl rfl (hsafe.outcome hwire).sends fun _ => trivial
  · refine books_kept hP h rfl rfl (fun c => ?_) fun _ => trivial
    exact Endpoint.SendKept.shutdown (.of_view rfl) (hsafe.wf s).unique

theorem books_spawn (hP : Book.Stable P) (h : spawn cfg = .ok l₀) :
    ∀ s c, P (bookOf s c []) ((l₀.ends.get s).view c) := by
  refine fun s c => hP.blank _ ?_
  have hids : c ∉ (l₀.ends.get s).ids := by
    rw [ids_spawn ((spawn_ends h).1 s)]
    exact List.not_mem_nil
  by_contra hsome
  exact hids (Endpoint.mem_ids.mpr hsome)

/-- **What no operation of an endpoint breaks** holds of every book in every
reachable state. -/
theorem runs_books (hP : Book.Stable P) (hinit : spawn cfg = .ok l₀)
    {ok : Trace → Link → Event → Prop} (hok : ∀ trace l ev, ok trace l ev → freshIds trace l ev)
    (hrun : Runs ok l₀ trace l) :
    ∀ s c, P (bookOf s c trace) ((l.ends.get s).view c) := by
  have hall := hrun.invariant (fun trace l => Safe cfg trace l ∧
    ∀ s c, P (bookOf s c trace) ((l.ends.get s).view c)) ⟨safe_spawn hinit, books_spawn hP hinit⟩
    fun trace l ev _ _ h hguard hstep =>
      ⟨h.1.step (hok trace l ev hguard) hstep,
        books_step hP h.2 h.1 (hok trace l ev hguard) hstep⟩
  exact hall.2

end books

/-- Every book of the link keeps track of the frame under way and, cancelled
sends apart, is balanced. -/
def Tallied (trace : Trace) (l : Link) : Prop :=
  ∀ s c, (bookOf s c trace).Underway ((l.ends.get s).view c) ∧
    ((bookOf s c trace).cancelled = false →
      (bookOf s c trace).Balanced ((l.ends.get s).view c))

theorem Tallied.step (h : Tallied trace l) (hsafe : Safe cfg trace l)
    (hfresh : freshIds trace l ev) (hstep : Link.step l ev = some (l', obs)) :
    Tallied (trace ++ [(ev, obs)]) l' :=
  books_step (Book.stable_underway.and Book.stable_balanced) h hsafe hfresh hstep

theorem tallied_spawn (h : spawn cfg = .ok l₀) : Tallied [] l₀ :=
  books_spawn (Book.stable_underway.and Book.stable_balanced) h

/-- **The books balance in every reachable state.** -/
theorem runs_tallied (hinit : spawn cfg = .ok l₀) {ok : Trace → Link → Event → Prop}
    (hok : ∀ trace l ev, ok trace l ev → freshIds trace l ev) (hrun : Runs ok l₀ trace l) :
    Safe cfg trace l ∧ Tallied trace l :=
  ⟨runs_safe hinit hok hrun,
    runs_books (Book.stable_underway.and Book.stable_balanced) hinit hok hrun⟩

end Link

end Mux
