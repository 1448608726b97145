import GoNomad.Lib.Fallible
import GoNomad.Lib.RoundRobin
import GoNomad.Transport.WriterQueue

/-!
# The order of the writer

Urgent segments go first and the control channel next; the other channels are
served in a round.  The cursor is put behind the channel that was served, and no
channel is behind the last one: after it the cursor stays, and the round goes
nowhere else until that channel has nothing left.

* `serves_next` — the channel that is served is the next one of the round;
* `turn_between` — on its way to a channel that waits, the round does not come back;
* `fair_below` — between two turns of a channel that is not the last, every channel
  that waits has its turn;
* `writer_fair_iff` — the order of the writer, over every run;
* `writer_starves` — the last channel before all others.
-/

namespace Mux

open Proto Transport RoundRobin

/-- Channel ids in their order. -/
instance : LinearOrder ChannelId where
  le_refl c := Nat.le_refl c.toNat
  le_trans _ _ _ h h' := Nat.le_trans h h'
  le_antisymm _ _ h h' := UInt32.toNat_inj.mp (Nat.le_antisymm h h')
  le_total c d := Nat.le_total c.toNat d.toNat
  lt_iff_le_not_ge _ _ := Nat.lt_iff_le_and_not_ge
  toDecidableLE := inferInstance
  toDecidableEq := inferInstance
  compare_eq_compareOfLessAndEq _ _ := rfl

namespace Writer

open Endpoint Hostile

/-- The last channel id there is. -/
def topChannel : ChannelId := 0xFFFFFFFF

theorem le_topChannel (c : ChannelId) : c ≤ topChannel := by
  have hlt := c.toNat_lt
  show c.toNat ≤ 2 ^ 32 - 1
  omega

variable {e e' : Endpoint} {c d x : ChannelId} {entry : Entry} {trace mid : Trace}

/-- The step takes a segment of the channel. -/
def Serves (c : ChannelId) (entry : Entry) : Prop :=
  entry.1 = .takeNext ∧ source entry.2.1 = some (.channel c)

/-- Something waits on the channel. -/
def Waits (e : Endpoint) (c : ChannelId) : Prop := e.queue c ≠ []

/-! ### Whose turn it is -/

/-- What is found first in a map is the least of what is asked for. -/
theorem find?_least {m : Std.ExtTreeMap ChannelId (List Segment)}
    {p : ChannelId × List Segment → Bool} {found : ChannelId × List Segment}
    (h : m.toList.find? p = some found) {segs : List Segment} (hd : m[d]? = some segs)
    (hp : p (d, segs) = true) : found.1 ≤ d := by
  have hmem := Std.ExtTreeMap.mem_toList_iff_getElem?_eq_some.mpr hd
  have hordered := @Std.ExtTreeMap.ordered_keys_toList _ _ _ m _
  obtain ⟨-, front, back, hlist, hfront⟩ := List.find?_eq_some_iff_append.mp h
  rw [hlist] at hmem hordered
  rcases List.mem_append.mp hmem with hmem | hmem
  · have hno := hfront _ hmem
    rw [hp] at hno
    cases hno
  · rcases List.mem_cons.mp hmem with heq | hmem
    · rw [← heq]
    · have hpairs := (List.pairwise_append.mp hordered).2.1
      have hlt := (List.pairwise_cons.mp hpairs).1 _ hmem
      exact le_of_lt (compare_lt_iff_lt.mp hlt)

/-- What is found waits. -/
theorem waits_of_find? {p : ChannelId × List Segment → Bool} {found : ChannelId × List Segment}
    (h : e.out.toList.find? p = some found) (hp : p found = true → found.2.isEmpty = false) :
    Waits e found.1 := by
  have hmem := List.mem_of_find?_eq_some h
  have hfound := Std.ExtTreeMap.mem_toList_iff_getElem?_eq_some.mp hmem
  unfold Waits queue
  rw [hfound]
  exact List.isEmpty_eq_false_iff.mp (hp (List.find?_some h))

/-- What waits is in the map. -/
theorem lookup_of_waits (h : Waits e c) :
    ∃ segs, e.out[c]? = some segs ∧ segs.isEmpty = false := by
  unfold Waits queue at h
  cases hc : e.out[c]? with
  | none =>
      rw [hc] at h
      exact absurd rfl h
  | some segs =>
      rw [hc] at h
      exact ⟨segs, rfl, List.isEmpty_eq_false_iff.mpr h⟩

theorem pick_control (h : Waits e controlChannel) : e.pick = some controlChannel := if_pos h

theorem pick_round (h : ¬ Waits e controlChannel) : e.pick =
    match e.out.toList.find? fun entry => e.cursor ≤ entry.1 && !entry.2.isEmpty with
    | some entry => some entry.1
    | none => (e.out.toList.find? fun entry => !entry.2.isEmpty).map (·.1) :=
  if_neg h

/-- Where nothing waits on the control channel, the next of the round is picked. -/
theorem pick_next (hpick : e.pick = some x) (hcontrol : ¬ Waits e controlChannel) :
    Next (Waits e) e.cursor x := by
  rw [pick_round hcontrol] at hpick
  split at hpick
  · next found hfind =>
      cases hpick
      have hcursor := List.find?_some hfind
      rw [Bool.and_eq_true, decide_eq_true_eq] at hcursor
      refine ⟨waits_of_find? hfind fun hp => ?_, .inl ⟨hcursor.1, fun d hd hle => ?_⟩⟩
      · simpa using (Bool.and_eq_true_iff.mp hp).2
      · obtain ⟨segs, hsegs, hne⟩ := lookup_of_waits hd
        exact find?_least hfind hsegs (by simp [hne, hle])
  · next hnone =>
      obtain ⟨found, hfind, hx⟩ := Option.map_eq_some_iff.mp hpick
      subst hx
      refine ⟨waits_of_find? hfind fun hp => by simpa using hp, .inr ⟨fun d hd => ?_, fun d hd => ?_⟩⟩
      · obtain ⟨segs, hsegs, hne⟩ := lookup_of_waits hd
        have hno := List.find?_eq_none.mp hnone _
          (Std.ExtTreeMap.mem_toList_iff_getElem?_eq_some.mpr hsegs)
        rw [hne, Bool.not_false, Bool.and_true, decide_eq_true_eq] at hno
        exact not_le.mp hno
      · obtain ⟨segs, hsegs, hne⟩ := lookup_of_waits hd
        exact find?_least hfind hsegs (by simp [hne])

/-- Where something waits, something is picked. -/
theorem pick_isSome (h : Waits e c) : ∃ x, e.pick = some x := by
  obtain ⟨segs, hsegs, hne⟩ := lookup_of_waits h
  unfold pick
  split_ifs
  · exact ⟨_, rfl⟩
  · split
    · exact ⟨_, rfl⟩
    · cases hfind : e.out.toList.find? fun entry => !entry.2.isEmpty with
      | some found => exact ⟨found.1, rfl⟩
      | none =>
          have hno := List.find?_eq_none.mp hfind _
            (Std.ExtTreeMap.mem_toList_iff_getElem?_eq_some.mpr hsegs)
          rw [hne] at hno
          exact absurd rfl hno

/-- The writer is asked for a segment of the round: nothing is urgent and nothing
waits on the control channel. -/
def Idle (e : Endpoint) : Prop := e.urgent = [] ∧ ¬ Waits e controlChannel

theorem source_of_idle (h : Idle e) : source e = e.pick.map .channel := by
  unfold source
  rw [if_neg (by simp [h.1])]

/-- **Whose turn it is**: a channel other than the control channel is served where it
is the next of the round. -/
theorem serves_next (h : Serves x entry) (hx : x ≠ controlChannel) :
    Idle entry.2.1 ∧ Next (Waits entry.2.1) entry.2.1.cursor x := by
  obtain ⟨-, hsource⟩ := h
  unfold source at hsource
  split_ifs at hsource with hurgent
  · cases hsource
  · obtain ⟨y, hpick, hy⟩ := Option.map_eq_some_iff.mp hsource
    obtain rfl := Lane.channel.inj hy
    have hcontrol : ¬ Waits entry.2.1 controlChannel := by
      intro hwaits
      exact hx (Option.some.inj ((pick_control hwaits).symm.trans hpick)).symm
    exact ⟨⟨by simpa using hurgent, hcontrol⟩, pick_next hpick hcontrol⟩

/-- The writer puts the cursor behind the channel it serves. -/
theorem behind_advance (cursor : ChannelId) (hx : x ≠ controlChannel) :
    Behind x (advance cursor x) := by
  unfold advance
  rw [if_neg hx]
  split_ifs with htop
  · exact .inr ⟨fun y => htop ▸ le_topChannel y, rfl⟩
  · have hlt := x.toNat_lt
    have hne : x.toNat ≠ 2 ^ 32 - 1 := fun heq => htop (UInt32.toNat_inj.mp heq)
    have hsucc : (x + 1).toNat = x.toNat + 1 := by
      rw [UInt32.toNat_add, UInt32.toNat_one, Nat.mod_eq_of_lt (by omega)]
    refine .inl ⟨?_, fun y hy => ?_⟩
    · show x.toNat < (x + 1).toNat
      omega
    · have hy : x.toNat < y.toNat := hy
      show (x + 1).toNat ≤ y.toNat
      omega

theorem cursor_of_takeNext {seg : Segment} (h : e.takeNext = some (seg, e')) :
    e'.cursor = e.cursor ∧ source e = some .urgent ∨
      ∃ x, source e = some (.channel x) ∧ e'.cursor = advance e.cursor x := by
  unfold Endpoint.takeNext at h
  unfold source
  split at h
  · next seg' rest hurgent =>
      cases h
      rw [hurgent, if_pos (List.cons_ne_nil _ _)]
      exact .inl ⟨rfl, rfl⟩
  · next hurgent =>
      rw [hurgent, if_neg (by simp)]
      split at h
      · cases h
      · next id hpick =>
          split at h
          · cases h
            exact .inr ⟨id, by rw [hpick]; rfl, rfl⟩
          · cases h

/-- **Where the cursor goes**: behind the channel of the round that was served, and
nowhere where none was. -/
theorem cursor_of_turn {event : Event} {o : Endpoint × Endpoint}
    (hstep : step e event = some (e', o)) :
    o.1 = e ∧ ((∃ x, x ≠ controlChannel ∧ Serves x (event, o) ∧ Behind x e'.cursor) ∨
      (e'.cursor = e.cursor ∧ ∀ x, x ≠ controlChannel → ¬ Serves x (event, o))) := by
  obtain ⟨⟨t, n⟩, hr, hres⟩ := Option.map_eq_some_iff.mp hstep
  cases hres
  refine ⟨rfl, ?_⟩
  by_cases htake : event = .takeNext
  · subst htake
    obtain ⟨⟨seg, t⟩, ht, hres⟩ := Option.map_eq_some_iff.mp hr
    cases hres
    rcases cursor_of_takeNext ht with ⟨hcursor, hsource⟩ | ⟨x, hsource, hcursor⟩
    · refine .inr ⟨hcursor, fun x _ hserves => ?_⟩
      cases hsource.symm.trans hserves.2
    · by_cases hx : x = controlChannel
      · refine .inr ⟨?_, fun y hy hserves => hy ?_⟩
        · show t.cursor = e.cursor
          rw [hcursor, advance, if_pos hx]
        · rw [← Lane.channel.inj (Option.some.inj (hsource.symm.trans hserves.2)), hx]
      · exact .inl ⟨x, hx, ⟨rfl, hsource⟩, hcursor ▸ behind_advance _ hx⟩
  · exact .inr ⟨cursor_of_step hr htake, fun x _ hserves => htake hserves.1⟩

/-- At most one channel is served in a step. -/
theorem Serves.unique (h : Serves c entry) (h' : Serves d entry) : c = d :=
  Lane.channel.inj (Option.some.inj (h.2.symm.trans h'.2))

/-! ### The round -/

/-- A channel that waits has its turn, or the cursor is still on its way to it and
the round has not come back. -/
theorem turn_between (hrun : Transition.Run step Transition.unguarded e mid e')
    (hbetween : Between c e.cursor d) (hwaits : ∀ entry ∈ mid, Waits entry.2.1 d) :
    (∃ entry ∈ mid, Serves d entry) ∨ Between c e'.cursor d := by
  induction mid generalizing e with
  | nil =>
      rw [hrun.eq_init]
      exact .inr hbetween
  | cons entry mid ih =>
      obtain ⟨t, hstep, hrest⟩ := hrun.uncons
      obtain ⟨hbefore, hturn⟩ := cursor_of_turn hstep
      have hwait : Waits e d := hbefore ▸ hwaits entry List.mem_cons_self
      have hnext : Between c t.cursor d → (∃ entry' ∈ entry :: mid, Serves d entry') ∨
          Between c e'.cursor d := by
        intro hbetween
        rcases ih hrest hbetween fun x hx => hwaits x (List.mem_cons_of_mem _ hx) with
          ⟨x, hx, hserves⟩ | hbetween
        · exact .inl ⟨x, List.mem_cons_of_mem _ hx, hserves⟩
        · exact .inr hbetween
      rcases hturn with ⟨x, hx, hserves, hbehind⟩ | ⟨hcursor, -⟩
      · by_cases hxd : x = d
        · exact .inl ⟨entry, List.mem_cons_self, hxd ▸ hserves⟩
        · obtain ⟨-, hround⟩ := serves_next hserves hx
          rw [hbefore] at hround
          exact hnext (between_next hbetween hwait hround hxd hbehind).2
      · exact hnext (hcursor ▸ hbetween)

/-- The round does not come back to `c` while it is on its way to a channel that
waits. -/
theorem not_serves_of_between {entry : Entry} (hbetween : Between c entry.2.1.cursor d)
    (hwait : Waits entry.2.1 d) (hc : c ≠ controlChannel) (hdc : d ≠ c) : ¬ Serves c entry := by
  intro hserves
  obtain ⟨-, hround⟩ := serves_next hserves hc
  by_cases hcursor : ∃ cursor, Behind c cursor
  · obtain ⟨cursor, hbehind⟩ := hcursor
    exact (between_next hbetween hwait hround (Ne.symm hdc) hbehind).1 rfl
  · exact hcursor ⟨_, behind_advance entry.2.1.cursor hc⟩

/-- After the last channel the cursor stays, until another one has its turn because the
last has nothing left; from then on the round is on its way. -/
theorem turn_top (hrun : Transition.Run step Transition.unguarded e mid e')
    (hcursor : e.cursor = topChannel) (hnone : ∀ entry ∈ mid, ¬ Serves topChannel entry)
    (hwaits : ∀ entry ∈ mid, Waits entry.2.1 d) :
    (∀ entry ∈ mid, ∀ x, x ≠ controlChannel → ¬ Serves x entry) ∨
      (∃ entry ∈ mid, entry.1 = .takeNext ∧ Idle entry.2.1 ∧ ¬ Waits entry.2.1 topChannel) ∧
        ((∃ entry ∈ mid, Serves d entry) ∨ Between topChannel e'.cursor d) := by
  induction mid generalizing e with
  | nil => exact .inl fun entry hmem => by cases hmem
  | cons entry mid ih =>
      obtain ⟨t, hstep, hrest⟩ := hrun.uncons
      obtain ⟨hbefore, hturn⟩ := cursor_of_turn hstep
      have hwait := hwaits entry List.mem_cons_self
      have hwaits' : ∀ entry' ∈ mid, Waits entry'.2.1 d :=
        fun x hx => hwaits x (List.mem_cons_of_mem _ hx)
      rcases hturn with ⟨x, hx, hserves, hbehind⟩ | ⟨hstays, hnever⟩
      · -- Another channel has its turn, so the last one has nothing left.
        obtain ⟨hidle, hround⟩ := serves_next hserves hx
        rw [show entry.2.1.cursor = topChannel by rw [hbefore, hcursor]] at hround
        have hempty : ¬ Waits entry.2.1 topChannel := fun htop =>
          hnone entry List.mem_cons_self (next_of_top le_topChannel htop hround ▸ hserves)
        refine .inr ⟨⟨entry, List.mem_cons_self, hserves.1, hidle, hempty⟩, ?_⟩
        by_cases hxd : x = d
        · exact .inl ⟨entry, List.mem_cons_self, hxd ▸ hserves⟩
        · have hbetween := between_of_top le_topChannel hempty hwait hround hxd hbehind
          rcases turn_between hrest hbetween hwaits' with ⟨y, hy, hserves'⟩ | hbetween'
          · exact .inl ⟨y, List.mem_cons_of_mem _ hy, hserves'⟩
          · exact .inr hbetween'
      · rcases ih hrest (hstays.trans hcursor) (fun x hx => hnone x (List.mem_cons_of_mem _ hx))
          hwaits' with hquiet | ⟨⟨y, hy, hyield⟩, hround⟩
        · refine .inl fun entry' hmem x hx => ?_
          rcases List.mem_cons.mp hmem with rfl | hmem
          · exact hnever x hx
          · exact hquiet entry' hmem x hx
        · refine .inr ⟨⟨y, List.mem_cons_of_mem _ hy, hyield⟩, ?_⟩
          rcases hround with ⟨z, hz, hserves⟩ | hbetween
          · exact .inl ⟨z, List.mem_cons_of_mem _ hz, hserves⟩
          · exact .inr hbetween

/-- Asked for a segment of the round while something waits, the writer serves. -/
theorem serves_of_idle {entry : Entry} (htake : entry.1 = .takeNext) (hidle : Idle entry.2.1)
    (hwait : Waits entry.2.1 d) : ∃ x, x ≠ controlChannel ∧ Serves x entry := by
  obtain ⟨x, hpick⟩ := pick_isSome hwait
  have hround := pick_next hpick hidle.2
  refine ⟨x, fun heq => hidle.2 (heq ▸ hround.1), htake, ?_⟩
  rw [source_of_idle hidle, hpick]
  rfl

/-! ### Two turns of a channel -/

/-- Between two turns of a channel every other one that waits throughout has its
turn; the control channel is neither. -/
def FairTo (c : ChannelId) (trace : Trace) : Prop :=
  ∀ before first mid second after, trace = before ++ first :: (mid ++ second :: after) →
    Serves c first → Serves c second → (∀ entry ∈ mid, ¬ Serves c entry) →
    ∀ d, d ≠ controlChannel → d ≠ c → (∀ entry ∈ mid ++ [second], Waits entry.2.1 d) →
      ∃ entry ∈ mid, Serves d entry

/-- Between two turns of the last channel, while another one waits throughout, the
writer was asked for a segment of the round when the last channel had none. -/
def TopYields (trace : Trace) : Prop :=
  ∀ before first mid second after, trace = before ++ first :: (mid ++ second :: after) →
    Serves topChannel first → Serves topChannel second →
    (∀ entry ∈ mid, ¬ Serves topChannel entry) →
    ∀ d, d ≠ controlChannel → d ≠ topChannel →
      (∀ entry ∈ mid ++ [second], Waits entry.2.1 d) →
      ∃ entry ∈ mid, entry.1 = .takeNext ∧ Idle entry.2.1 ∧ ¬ Waits entry.2.1 topChannel

/-- The part of a run between two turns. -/
theorem run_between {before after : Trace} {first second : Entry} {init s : Endpoint}
    (hrun : Transition.Run step Transition.unguarded init
      (before ++ first :: (mid ++ second :: after)) s)
    (hserves : Serves c first) (hc : c ≠ controlChannel) :
    ∃ e e', Transition.Run step Transition.unguarded e mid e' ∧ second.2.1 = e' ∧
      Behind c e.cursor := by
  obtain ⟨t, -, hrun⟩ := hrun.parts
  obtain ⟨e, hfirst, hrun⟩ := hrun.uncons
  obtain ⟨e', hmid, hrun⟩ := hrun.parts
  obtain ⟨_, hsecond, -⟩ := hrun.uncons
  refine ⟨e, e', hmid, (cursor_of_turn hsecond).1, ?_⟩
  rcases (cursor_of_turn hfirst).2 with ⟨x, -, hserves', hbehind⟩ | ⟨-, hnever⟩
  · rwa [hserves.unique hserves']
  · exact absurd hserves (hnever c hc)

/-- **A channel that is not the last** lets every other one have its turn. -/
theorem fair_below {init s : Endpoint} (hc : c ≠ controlChannel) (hlast : c ≠ topChannel)
    (hrun : Transition.Run step Transition.unguarded init trace s) : FairTo c trace := by
  rintro before first mid second after rfl hfirst hsecond - d - hdc hwaits
  obtain ⟨e, e', hmid, hbefore, hbehind⟩ := run_between hrun hfirst hc
  have hbelow : c < topChannel := lt_of_le_of_ne (le_topChannel c) hlast
  rcases turn_between hmid (between_of_behind hdc hbelow hbehind)
    (fun entry hmem => hwaits entry (List.mem_append_left _ hmem)) with hserved | hbetween
  · exact hserved
  · exact absurd hsecond (not_serves_of_between (hbefore ▸ hbetween)
      (hwaits second (List.mem_append_right _ List.mem_cons_self)) hc hdc)

/-- **The last channel** lets every other one have its turn exactly where it yields. -/
theorem fair_top_iff {init s : Endpoint}
    (hrun : Transition.Run step Transition.unguarded init trace s) :
    FairTo topChannel trace ↔ TopYields trace := by
  have hc : topChannel ≠ controlChannel := by decide
  constructor
  · rintro hfair before first mid second after rfl hfirst hsecond hnone d hd hdc hwaits
    obtain ⟨e, e', hmid, hbefore, hbehind⟩ := run_between hrun hfirst hc
    have hcursor : e.cursor = topChannel := le_antisymm (le_topChannel _) (le_of_behind hbehind)
    have hserved := hfair before first mid second after rfl hfirst hsecond hnone d hd hdc hwaits
    rcases turn_top hmid hcursor hnone
      (fun entry hmem => hwaits entry (List.mem_append_left _ hmem)) with hquiet | ⟨hyield, -⟩
    · obtain ⟨entry, hmem, hserves⟩ := hserved
      exact absurd hserves (hquiet entry hmem d hd)
    · exact hyield
  · rintro hyields before first mid second after rfl hfirst hsecond hnone d hd hdc hwaits
    obtain ⟨e, e', hmid, hbefore, hbehind⟩ := run_between hrun hfirst hc
    have hcursor : e.cursor = topChannel := le_antisymm (le_topChannel _) (le_of_behind hbehind)
    rcases turn_top hmid hcursor hnone
      (fun entry hmem => hwaits entry (List.mem_append_left _ hmem)) with
      hquiet | ⟨-, hserved | hbetween⟩
    · obtain ⟨entry, hmem, htake, hidle, -⟩ :=
        hyields before first mid second after rfl hfirst hsecond hnone d hd hdc hwaits
      obtain ⟨x, hx, hserves⟩ :=
        serves_of_idle htake hidle (hwaits entry (List.mem_append_left _ hmem))
      exact absurd hserves (hquiet entry hmem x hx)
    · exact hserved
    · exact absurd hsecond (not_serves_of_between (hbefore ▸ hbetween)
        (hwaits second (List.mem_append_right _ List.mem_cons_self)) hc hdc)

/-! ### The order of the writer -/

/-- The writer loses nothing and keeps its priorities, over a run: every segment that
waited in a lane or was put behind is written or thrown away or still waits, in this
order; only a RESET of its channel and a shutdown throw away; what is taken is the
first of the urgent segments, or where there is none of the control channel; and
where something waits, something is taken. -/
structure Orderly (init : Endpoint) (trace : Trace) (e : Endpoint) : Prop where
  account : ∀ lane, waiting init lane ++ trace.flatMap (added lane) =
    (trace.flatMap (gone lane)).map Prod.fst ++ waiting e lane
  lost : ∀ lane, ∀ entry ∈ trace, ∀ seg, (seg, false) ∈ gone lane entry →
    drops lane entry.1 = true
  taken : ∀ entry ∈ trace, entry.1 = .takeNext → ∃ lane seg rest,
    entry.2.1.takeNext = some (seg, entry.2.2) ∧ source entry.2.1 = some lane ∧
      waiting entry.2.1 lane = seg :: rest
  urgent : ∀ entry ∈ trace, entry.1 = .takeNext → entry.2.1.urgent ≠ [] →
    source entry.2.1 = some .urgent
  control : ∀ entry ∈ trace, entry.1 = .takeNext → entry.2.1.urgent = [] →
    Waits entry.2.1 controlChannel → source entry.2.1 = some (.channel controlChannel)
  busy : ∀ lane, waiting e lane ≠ [] → ∃ r, e.takeNext = some r

/-- Where something waits, something is taken. -/
theorem takeNext_isSome {lane : Lane} (h : waiting e lane ≠ []) : ∃ r, e.takeNext = some r := by
  unfold Endpoint.takeNext
  split
  · exact ⟨_, rfl⟩
  · next hurgent =>
      cases lane with
      | urgent => exact absurd hurgent h
      | channel c =>
          obtain ⟨x, hpick⟩ := pick_isSome h
          have hx : Waits e x := by
            by_cases hcontrol : Waits e controlChannel
            · rw [pick_control hcontrol] at hpick
              exact Option.some.inj hpick ▸ hcontrol
            · exact (pick_next hpick hcontrol).1
          obtain ⟨segs, hsegs, hne⟩ := lookup_of_waits hx
          rw [hpick]
          dsimp only
          rw [hsegs]
          cases segs with
          | nil => cases hne
          | cons seg rest => exact ⟨_, rfl⟩

/-- What one step shows of the priorities. -/
theorem taken_of_step {o : Endpoint × Endpoint} (hstep : step e .takeNext = some (e', o)) :
    ∃ lane seg rest, o.1.takeNext = some (seg, o.2) ∧ source o.1 = some lane ∧
      waiting o.1 lane = seg :: rest := by
  obtain ⟨⟨t, n⟩, hr, hres⟩ := Option.map_eq_some_iff.mp hstep
  obtain ⟨⟨seg, t'⟩, ht, hres'⟩ := Option.map_eq_some_iff.mp hr
  cases hres'
  cases hres
  obtain ⟨lane, hsource, hwaiting, -⟩ := takeNext_spec ht
  exact ⟨lane, seg, _, ht, hsource, hwaiting⟩

/-- What a step loses, it drops. -/
theorem drops_of_gone {lane : Lane} {seg : Segment} (h : (seg, false) ∈ gone lane entry) :
    drops lane entry.1 = true := by
  obtain ⟨event, e, e'⟩ := entry
  cases event with
  | takeNext =>
      change _ ∈ if _ then _ else _ at h
      split_ifs at h
      · simp at h
      · cases h
  | op o =>
      change _ ∈ if _ then _ else _ at h
      split_ifs at h with hdrops
      · exact (Bool.and_eq_true_iff.mp hdrops).1
      · cases h
  | segment bytes =>
      change _ ∈ if _ then _ else _ at h
      split_ifs at h with hdrops
      · exact (Bool.and_eq_true_iff.mp hdrops).1
      · cases h
  | shutdown err => rfl

/-- **The writer is orderly** in every run. -/
theorem orderly_of_run {init : Endpoint}
    (hrun : Transition.Run step Transition.unguarded init trace e) : Orderly init trace e where
  account := account_of_run hrun
  lost _ _ _ _ := drops_of_gone
  taken entry hmem htake := by
    obtain ⟨before, after, rfl⟩ := List.append_of_mem hmem
    obtain ⟨t, t', -, -, hstep⟩ := hrun.split
    rw [htake] at hstep
    exact taken_of_step hstep
  urgent _ _ _ hurgent := if_pos hurgent
  control entry _ _ hurgent hcontrol := by
    unfold source
    rw [if_neg (by simp [hurgent]), pick_control hcontrol]
    rfl
  busy _ := takeNext_isSome

/-- **The order of the writer.**  From any state and in every run the writer loses
nothing and keeps its priorities, and between two turns of a channel every other one
that waits throughout has its turn, if and only if the last channel yields. -/
theorem writer_fair_iff {init : Endpoint}
    (hrun : Transition.Run step Transition.unguarded init trace e) :
    (Orderly init trace e ∧ ∀ c, c ≠ controlChannel → FairTo c trace) ↔ TopYields trace := by
  constructor
  · rintro ⟨-, hfair⟩
    exact (fair_top_iff hrun).mp (hfair topChannel (by decide))
  · intro hyields
    refine ⟨orderly_of_run hrun, fun c hc => ?_⟩
    by_cases hlast : c = topChannel
    · exact hlast ▸ (fair_top_iff hrun).mpr hyields
    · exact fair_below hc hlast hrun

/-! ### The last channel before all others -/

/-- Windows for a few empty frames. -/
def fewFrames : MuxConfig := ⟨64, 4, 4⟩

/-- An empty frame is sent on a stream. -/
def sendEmpty (i : Nat) : List Event :=
  [.op (.sendStart i ⟨.none, [], Nat.zero_le _⟩), .op (.sendStep i), .op (.sendStep i)]

/-- The peer opens the last channel and channel 3, and two frames are sent on each of
them; the writer serves channel 3. -/
def bothWait : List Event :=
  [.segment (Segment.open topChannel).encode, .segment (Segment.open 3).encode, .op .acceptBi,
    .op .acceptBi] ++ sendEmpty 0 ++ sendEmpty 0 ++ sendEmpty 1 ++ sendEmpty 1 ++ [.takeNext]

/-- What the writer serves in two more turns, and what waits on channel 3 in between. -/
def twoTurns (e : Endpoint) : Option (Option Lane × Option Lane × Bool) := do
  let (_, e₁) ← e.takeNext
  let _ ← e₁.takeNext
  return (source e, source e₁, (e₁.queue 3).isEmpty)

theorem step_takeNext {r : Segment × Endpoint} (h : e.takeNext = some r) :
    step e .takeNext = some (r.2, e, r.2) := by
  unfold step Hostile.step
  rw [h]
  rfl

/-- **The last channel goes before all others**: it is served twice in a row while
channel 3 waits. -/
theorem writer_starves :
    ¬ ∀ (cfg : MuxConfig) (role : Role) (init e : Endpoint) (trace : Trace),
      spawn cfg role = .ok init → Transition.Run step Transition.unguarded init trace e →
      Orderly init trace e ∧ ∀ c, c ≠ controlChannel → FairTo c trace := by
  intro hall
  have hprobe : (spawn fewFrames .initiator).toOption.bind (fun init =>
      (Transition.exec step Transition.unguarded bothWait [] init).bind fun r => twoTurns r.2) =
      some (some (.channel topChannel), some (.channel topChannel), false) := by decide +kernel
  obtain ⟨init, hspawn, hprobe⟩ := Option.bind_eq_some_iff.mp hprobe
  obtain ⟨⟨trace, e₁⟩, hexec, hturns⟩ := Option.bind_eq_some_iff.mp hprobe
  unfold twoTurns at hturns
  obtain ⟨⟨_, e₂⟩, hfirst, hturns⟩ := Option.bind_eq_some_iff.mp hturns
  obtain ⟨⟨_, e₃⟩, hsecond, hturns⟩ := Option.bind_eq_some_iff.mp hturns
  simp only [pure, Option.some.injEq, Prod.mk.injEq] at hturns
  obtain ⟨hsource, hsource', hempty⟩ := hturns
  have hwhole := ((Transition.run_of_exec bothWait hexec).snoc trivial
    (step_takeNext hfirst)).snoc trivial (step_takeNext hsecond)
  obtain ⟨-, hfair⟩ := hall _ _ _ _ _ (Except.toOption_eq_some.mp hspawn) hwhole
  have hwaits : ∀ entry ∈ [] ++ [((.takeNext, e₂, e₃) : Entry)], Waits entry.2.1 3 := by
    intro entry hmem
    rw [List.mem_singleton.mp hmem]
    exact List.isEmpty_eq_false_iff.mp hempty
  have htop : topChannel ≠ controlChannel := by decide
  have hthree : (3 : ChannelId) ≠ controlChannel ∧ (3 : ChannelId) ≠ topChannel := by decide
  have hnone : ∀ entry ∈ ([] : Trace), ¬ Serves topChannel entry :=
    fun entry hmem => absurd hmem List.not_mem_nil
  have hserved := hfair topChannel htop trace (.takeNext, e₁, e₂) [] (.takeNext, e₂, e₃) []
    (by rw [List.append_assoc]; rfl) ⟨rfl, hsource⟩ ⟨rfl, hsource'⟩ hnone 3 hthree.1 hthree.2 hwaits
  obtain ⟨entry, hmem, -⟩ := hserved
  exact List.not_mem_nil hmem

/-- Two channels of this side, where the last one is not used. -/
theorem writer_fair_opened :
    ∃ init trace e, spawn fewFrames .initiator = .ok init ∧
      Transition.Run step Transition.unguarded init trace e ∧
      trace.map Prod.fst = [.op .openBi, .op .openBi, .takeNext, .takeNext] ∧
      Orderly init trace e ∧ ∀ c, c ≠ controlChannel → FairTo c trace := by
  obtain ⟨init, hspawn⟩ : ∃ init, spawn fewFrames .initiator = .ok init := ⟨_, rfl⟩
  obtain ⟨trace, e, hrun, hevents, hquiet⟩ : ∃ trace e,
      Transition.Run step Transition.unguarded init trace e ∧
        trace.map Prod.fst = [.op .openBi, .op .openBi, .takeNext, .takeNext] ∧
        ∀ entry ∈ trace, source entry.2.1 ≠ some (.channel topChannel) := by
    cases hspawn
    refine ⟨_, _, Transition.run_of_exec [.op .openBi, .op .openBi, .takeNext, .takeNext] rfl, rfl,
      ?_⟩
    intro entry hmem
    simp only [List.mem_append, List.mem_singleton, List.not_mem_nil, false_or] at hmem
    rcases hmem with ((rfl | rfl) | rfl) | rfl <;> decide
  refine ⟨init, trace, e, hspawn, hrun, hevents, (writer_fair_iff hrun).mpr ?_⟩
  rintro before first mid second after rfl hserves - - - - - -
  exact absurd hserves.2 (hquiet first (by simp))

end Writer

end Mux
