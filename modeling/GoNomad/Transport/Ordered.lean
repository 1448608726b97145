import GoNomad.Transport.Wrap

/-!
# Frames arrive in order, and all of them

On a direction on which no send was cancelled, the frames `recv` returned are
always the first frames whose send was started.  When `recv` reports the end of
a channel its own side has not closed, over a link that is still up, every
frame whose send completed has been returned.
-/

namespace Mux

open Proto Transport CreditChannel

namespace Link

variable {cfg : MuxConfig} {l l' l₀ : Link} {trace : Trace} {ev : Event} {obs : Endpoint.Obs}
variable {s : Role} {c : ChannelId}

/-! ### Once gone, always gone -/

/-- An end that is closed stays closed. -/
theorem Safe.closed_mono (h : Safe cfg trace l) (hfresh : freshIds trace l ev)
    (hstep : Link.step l ev = some (l', obs)) (s : Role) (hs : (l.ends.get s).closed = true) :
    (l'.ends.get s).closed = true := by
  rcases step_cases hstep with ⟨s', o, r, rfl, hr, rfl, rfl⟩ | ⟨s', seg, e', rfl, ht, rfl, rfl⟩ |
    ⟨s', seg, rest, rfl, hwire, -, rfl, rfl⟩ | ⟨s', err, rfl, rfl, rfl⟩
  all_goals
    rcases Sides.eq_or_other s' s with rfl | rfl
    swap
    · simpa using hs
    dsimp only
    rw [Sides.get_set_self]
  · have hsteps := Endpoint.sim_perform (c := controlChannel) (h.wf s) (h.fresh hfresh rfl) hr
      [] [] .blank (.blank true)
    exact hsteps.halted_mono hs
  · obtain ⟨-, -, hview⟩ := (h.wf s).takeNext ht
    have hclosed := congrArg View.closed (hview controlChannel)
    exact hclosed.symm.trans hs
  · exact ((h.outcome hwire).simulates controlChannel).halted_mono hs
  · exact Arrival.closed_shutdown

/-- After a side has left a channel no send on it completes any more. -/
theorem Safe.completed_left (h : Safe cfg trace l) (hfresh : freshIds trace l ev)
    (hstep : Link.step l ev = some (l', obs)) (hleft : left s c trace = true) :
    completed s c (trace ++ [(ev, obs)]) = completed s c trace := by
  unfold completed
  rw [history_snoc]
  by_cases hs : ev.side = s
  · rw [if_pos hs]
    cases obs with
    | pushed id f first last =>
        by_cases hc : id = c
        · -- A push finds the channel in the map, so its side has not left it.
          subst hc
          exfalso
          rcases step_cases hstep with ⟨s', o, r, rfl, hr, hobs, -⟩ | ⟨_, _, _, -, -, hobs, -⟩ |
            ⟨_, _, _, -, -, -, hobs, -⟩ | ⟨_, _, -, hobs, -⟩
          · cases hs
            have heff := Endpoint.sends_perform (c := id) (h.wf s') (h.fresh hfresh rfl) hr
            obtain ⟨e', obs'⟩ := r
            cases hobs
            have hentry := heff.pushed_live
            have hlive := (Endpoint.live_iff (v := (l.ends.get s').view id)).mpr hentry
            have hgone := ((h.channel s' id).here.left_gone (by rw [absEnd_left]; exact hleft)).1
            change View.phase _ = _ at hgone
            rw [hlive] at hgone
            cases hgone
          all_goals cases hobs
        · cases last <;> simp [hc]
    | _ => exact List.append_nil _
  · rw [if_neg hs, List.append_nil]

/-! ### The end of a channel -/

/-- What `recv` saw when it reports the end of a channel. -/
theorem recvEnd_ended {e e' : Endpoint} {i : Nat} (h : e.Wf cfg s) (hopen : e.closed = false)
    (hr : e.perform (.recvEnd i) = some (e', .ended c)) :
    ∃ stream, (e.view c).stream = some stream ∧ stream.recv = some .idle ∧ stream.rx = [] ∧
      (e.view c).entry = none := by
  obtain ⟨stream, hi, hr⟩ := Option.bind_eq_some_iff.mp hr
  have hi := Endpoint.stream?_some hi
  unfold Endpoint.recvEnd at hr
  split at hr
  · next hrecv hrx =>
      by_cases hin : e.inboundOpen i stream = true
      · rw [if_pos hin] at hr
        cases hr
      · rw [if_neg hin, if_neg (by simp [hopen])] at hr
        cases hr
        refine ⟨stream, Endpoint.view_stream h hi, hrecv, hrx, ?_⟩
        change e.channels[stream.id]? = none
        cases hstate : e.channels[stream.id]? with
        | none => rfl
        | some state =>
            exfalso
            apply hin
            obtain ⟨stream', hi', hid, -, -, hinbound⟩ := h.entry_stream hstate
            have hinst := h.entry_inst hstate hi
            rw [hinst, hi] at hi'
            cases hi'
            unfold Endpoint.inboundOpen
            rw [hstate]
            dsimp only
            rw [hinst, hinbound (by rw [hrecv]; rfl)]
            simp
  · cases hr

/-- A reader in use with nothing to take. -/
theorem absEnd_idle {stream : Stream} (hs : ((l.ends.get s).view c).stream = some stream)
    (hrecv : stream.recv = some .idle) (hrx : stream.rx = []) :
    (absEnd s c l trace).reading = true ∧ (absEnd s c l trace).ready = [] := by
  constructor
  · change ((l.ends.get s).view c).stream.elim _ _ = true
    rw [hs]
    change stream.recv.isSome = true
    rw [hrecv]
    rfl
  · change ((l.ends.get s).view c).stream.elim _ _ = []
    rw [hs]
    change readyOf stream = []
    unfold readyOf
    rw [hrecv]
    exact hrx

/-- When `recv` reports the end of a channel that its side has not closed, over
a link that is up, the sender has left and every frame it began has been
returned. -/
theorem Safe.ended (h : Safe cfg trace l) {e' : Endpoint} {i : Nat}
    (hr : (l.ends.get s.other).perform (.recvEnd i) = some (e', .ended c))
    (hhere : (l.ends.get s).closed = false) (hthere : (l.ends.get s.other).closed = false)
    (hleft : left s.other c trace = false) (htorn : torn s c trace = false) :
    left s c trace = true ∧ received s.other c trace = began s c trace := by
  obtain ⟨stream, hs, hrecv, hrx, hentry⟩ := recvEnd_ended (h.wf s.other) hthere hr
  have hinv := h.channel s c
  have hspoiled : (absEnd s c l trace).spoiled = false := not_spoiled htorn
  have hgone : (absEnd s.other c l trace).phase = .gone := by
    change View.phase _ = _
    unfold View.phase
    rw [hs, hentry]
  have hnotleft : (absEnd s.other c l trace).left = false := by rw [absEnd_left]; exact hleft
  obtain ⟨hreading, hready⟩ := absEnd_idle hs hrecv hrx
  constructor
  · obtain ⟨past, Q, hcontent⟩ := hinv.out.content hspoiled
    have hfinal := hcontent.final hthere hgone hnotleft hhere
    rw [← absEnd_left (l := l)]
    exact hfinal.1
  · have hall := hinv.got_all hspoiled (by rw [absEnd_torn]; exact htorn) hhere hthere hgone
      hnotleft hreading hready
    rwa [absEnd_got, absEnd_sent] at hall

/-! ### Runs -/

theorem torn_of_cancelled (h : cancelled s c trace = []) : torn s c trace = false := by
  unfold torn
  rw [h]
  rfl

theorem cancelled_snoc (h : cancelled s c (trace ++ [(ev, obs)]) = []) :
    cancelled s c trace = [] := by
  unfold cancelled at h ⊢
  rw [history_snoc] at h
  exact (List.append_eq_nil_iff.mp h).1

/-- The books of a direction without cancelled sends. -/
theorem Tallied.balanced (h : Tallied trace l) (hclean : cancelled s c trace = []) :
    completed s c trace <+: began s c trace ∧ began s c trace <+: started s c trace := by
  have hbal := (h s c).2 (by rw [bookOf_eq]; dsimp only; rw [hclean]; rfl)
  have hcompleted := hbal.completed
  have hbegan := hbal.began
  rw [bookOf_eq] at hcompleted hbegan
  exact ⟨hcompleted, hbegan⟩

/-- What was received on a direction is the beginning of what was started. -/
theorem Safe.received_started (h : Safe cfg trace l) (htally : Tallied trace l)
    (hclean : cancelled s c trace = []) : received s.other c trace <+: started s c trace := by
  have hgot := (h.channel s c).got_sent (not_spoiled (torn_of_cancelled hclean))
  rw [absEnd_got, absEnd_sent] at hgot
  exact hgot.trans (htally.balanced hclean).2

/-- Every end of a channel that `recv` reported was a true end. -/
def Concluded (trace : Trace) (l : Link) : Prop :=
  ∀ s c, cancelled s c trace = [] → (l.ends.get s).closed = false →
    (l.ends.get s.other).closed = false → ∀ before i after,
      trace = before ++ (.op s.other (.recvEnd i), .ended c) :: after →
      left s.other c before = false →
        left s c trace = true ∧ completed s c trace <+: received s.other c before

theorem left_mono (h : left s c trace = true) : left s c (trace ++ [(ev, obs)]) = true := by
  unfold left at h ⊢
  rw [history_snoc, List.any_append, h]
  rfl

theorem Concluded.step (h : Concluded trace l) (hsafe : Safe cfg trace l) (htally : Tallied trace l)
    (hfresh : freshIds trace l ev) (hstep : Link.step l ev = some (l', obs)) :
    Concluded (trace ++ [(ev, obs)]) l' := by
  intro s c hclean hhere hthere before i after htrace hleft
  have hclean' := cancelled_snoc hclean
  have hopen : ∀ s, (l'.ends.get s).closed = false → (l.ends.get s).closed = false := by
    intro s hs
    by_contra hclosed
    rw [hsafe.closed_mono hfresh hstep s (by simpa using hclosed)] at hs
    cases hs
  rcases List.eq_nil_or_concat after with rfl | ⟨after, last, rfl⟩
  · -- The end was reported just now.
    obtain ⟨rfl, hentry⟩ := List.append_inj' htrace rfl
    cases hentry
    obtain ⟨r, hr, hnext⟩ := Option.bind_eq_some_iff.mp hstep
    obtain ⟨e', obs'⟩ := r
    cases hnext
    obtain ⟨hgone, hgot⟩ := hsafe.ended hr (hopen s hhere) (hopen _ hthere) hleft
      (torn_of_cancelled hclean')
    refine ⟨left_mono hgone, ?_⟩
    rw [hsafe.completed_left hfresh hstep hgone, hgot]
    exact (htally.balanced hclean').1
  · rw [List.concat_eq_append, ← List.cons_append, ← List.append_assoc] at htrace
    obtain ⟨hpast, -⟩ := List.append_inj' htrace rfl
    obtain ⟨hgone, hall⟩ :=
      h s c hclean' (hopen s hhere) (hopen _ hthere) before i after hpast hleft
    refine ⟨left_mono hgone, ?_⟩
    rw [hsafe.completed_left hfresh hstep hgone]
    exact hall

/-- **Ordered and complete delivery over the link.** -/
theorem runs_ordered (hinit : spawn cfg = .ok l₀)
    (hrun : Runs (fun trace l ev => freshIds trace l ev) l₀ trace l) :
    (∀ s c, cancelled s c trace = [] → received s.other c trace <+: started s c trace) ∧
      Concluded trace l := by
  have hall := hrun.invariant (fun trace l => (Safe cfg trace l ∧ Tallied trace l) ∧
    Concluded trace l) ⟨⟨safe_spawn hinit, tallied_spawn hinit⟩, ?_⟩ ?_
  · exact ⟨fun s c => hall.1.1.received_started hall.1.2, hall.2⟩
  · intro s c _ _ _ before i after htrace
    exact absurd htrace.symm (by simp)
  · rintro trace l ev l' obs ⟨⟨hsafe, htally⟩, hconcluded⟩ hok hstep
    exact ⟨⟨hsafe.step hok hstep, htally.step hsafe hok hstep⟩,
      hconcluded.step hsafe htally hok hstep⟩

end Link

end Mux
