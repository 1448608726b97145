import GoNomad.Transport.Conforming

/-!
# The id space wraps

An id is used up by every open, also by one that is refused, and a closed id is
remembered only while fewer than `retiredMemory` ids were closed after it.  An
application that keeps opening at the channel limit therefore gets an id of its
own back while the peer still has the old channel: `Cycled.wrap` drives an
endpoint there, and `link_wraps` a link in which the peer holds on to the old
channel.
-/

namespace Mux

open Proto Transport CreditChannel

/-! ### One endpoint by itself -/

namespace Endpoint

/-- Operations of one endpoint, and what they showed. -/
abbrev Performs (e : Endpoint) (shown : List (LocalOp × Obs)) (e' : Endpoint) : Prop :=
  Transition.Run perform Transition.unguarded e shown e'

/-- What an application shows that only opens and finishes channels. -/
def Idle (shown : List (LocalOp × Obs)) : Prop :=
  ∀ entry ∈ shown, match entry.2 with
    | .opened _ => True
    | .openFailed _ => True
    | .sendDropped .. => True
    | _ => False

theorem Idle.nil : Idle [] := by
  intro entry hmem
  cases hmem

theorem Idle.append {shown shown' : List (LocalOp × Obs)} (h : Idle shown) (h' : Idle shown') :
    Idle (shown ++ shown') := by
  intro entry hmem
  rcases List.mem_append.mp hmem with hmem | hmem
  · exact h entry hmem
  · exact h' entry hmem

theorem Idle.single {o : LocalOp} {obs : Obs}
    (h : match obs with
      | .opened _ => True
      | .openFailed _ => True
      | .sendDropped .. => True
      | _ => False) : Idle [(o, obs)] := by
  intro entry hmem
  rw [List.mem_singleton.mp hmem]
  exact h

variable {e e' e₀ : Endpoint} {n : Nat} {id c : ChannelId}

/-! #### Opens that are refused -/

/-- At the channel limit an open does nothing but use up an id. -/
theorem openBi_full (hopen : e.closed = false) (hfull : e.cfg.maxChannels ≤ e.channels.size) :
    e.perform .openBi = some ({ e with nextLocal := e.nextLocal + 2 },
      .openFailed (.tooManyChannels e.cfg.maxChannels)) := by
  unfold perform openBi openLocal
  simp [hopen, hfull]

/-- Any number of opens at the limit. -/
theorem performs_full {k : Nat} (hopen : e.closed = false)
    (hfull : e.cfg.maxChannels ≤ e.channels.size) (hnext : e.nextLocal = UInt32.ofNat k)
    (n : Nat) :
    ∃ shown, Idle shown ∧
      Performs e shown { e with nextLocal := UInt32.ofNat (k + 2 * n) } := by
  induction n with
  | zero =>
      refine ⟨[], .nil, ?_⟩
      rw [Nat.mul_zero, Nat.add_zero, ← hnext]
      exact .nil
  | succ n ih =>
      obtain ⟨shown, hidle, hrun⟩ := ih
      have hstep := @openBi_full { e with nextLocal := UInt32.ofNat (k + 2 * n) } hopen hfull
      have hsum : UInt32.ofNat (k + 2 * n) + 2 = UInt32.ofNat (k + 2 * (n + 1)) := by
        rw [show (2 : UInt32) = UInt32.ofNat 2 from rfl, ← UInt32.ofNat_add]
        congr 1
      dsimp only at hstep
      rw [hsum] at hstep
      exact ⟨_, hidle.append (.single trivial), hrun.snoc trivial hstep⟩

/-! #### Opening and finishing a channel -/

/-- What an open that succeeds leaves behind. -/
theorem openBi_state (hopens : e.opens = true) :
    ∃ e', e.perform .openBi = some (e', .opened e.nextLocal) ∧
      e'.cfg = e.cfg ∧ e'.closed = e.closed ∧ e'.urgent = e.urgent ∧
      e'.acceptRx = e.acceptRx ∧ e'.retired = e.retired ∧ e'.retiredOrder = e.retiredOrder ∧
      e'.nextLocal = e.nextLocal + 2 ∧
      e'.channels = e.channels.insert e.nextLocal ⟨e.streams.length, true, [], 0⟩ ∧
      e'.streams[e.streams.length]? = some (e.newStream e.nextLocal) ∧
      ∀ c, e'.queue c =
        if e.nextLocal = c then e.queue c ++ [.open e.nextLocal] else e.queue c := by
  rcases openLocal_cases (e := e) with ⟨-, inst, hres⟩ | ⟨hnot, -⟩
  · have hopened : e.perform .openBi = some (e.openLocal.1, .opened e.nextLocal) := by
      unfold perform openBi
      dsimp only
      rw [hres]
    rw [hres] at hopened
    refine ⟨_, hopened, rfl, rfl, rfl, rfl, rfl, rfl, rfl, rfl, ?_, ?_⟩
    · unfold enqueue insertChannel newStream
      simp
    · intro c
      rw [queue_enqueue]
      have hqueue : (({ e with nextLocal := e.nextLocal + 2 } : Endpoint).insertChannel
          e.nextLocal).1.queue c = e.queue c := by
        unfold insertChannel queue
        dsimp only
        rw [queue_insertIfNew]
      rw [hqueue]
      rfl
  · rw [hopens] at hnot
    cases hnot

/-- Remembering one more id. -/
theorem retire_state (id : ChannelId) (hnew : e.retired.contains id = false) :
    (e.retire id).retiredOrder = (trimRetired (e.retiredOrder ++ [id]) (e.retired.insert id)).1 ∧
      (e.retire id).retired = (trimRetired (e.retiredOrder ++ [id]) (e.retired.insert id)).2 := by
  unfold retire
  rw [hnew]
  exact ⟨rfl, rfl⟩

theorem trimRetired_short {order : List ChannelId} {retired : Std.ExtTreeSet ChannelId}
    (h : order.length ≤ retiredMemory) : trimRetired order retired = (order, retired) := by
  cases order with
  | nil => rfl
  | cons old order =>
      unfold trimRetired
      rw [if_neg (by omega)]

theorem trimRetired_one {old : ChannelId} {order : List ChannelId}
    {retired : Std.ExtTreeSet ChannelId} (h : order.length = retiredMemory) :
    trimRetired (old :: order) retired = (order, retired.erase old) := by
  unfold trimRetired
  rw [if_pos (by rw [List.length_cons]; omega)]
  exact trimRetired_short (by omega)

/-- What finishing the channel of an idle stream leaves behind. -/
theorem finish_state {i : Nat} {stream : Stream} (hopen : e.closed = false)
    (hwait : e.acceptRx = []) (hi : e.streams[i]? = some stream)
    (hsend : stream.send = some .idle) (hrecv : stream.recv = some .idle)
    (hmap : e.channels.contains stream.id = true)
    (hnew : e.retired.contains stream.id = false) :
    ∃ e' closed, e.perform (.finish i) = some (e', .sendDropped stream.id closed) ∧
      e'.cfg = e.cfg ∧ e'.closed = e.closed ∧ e'.urgent = e.urgent ∧
      e'.acceptRx = e.acceptRx ∧ e'.nextLocal = e.nextLocal ∧
      e'.channels = e.channels.erase stream.id ∧
      e'.retiredOrder =
        (trimRetired (e.retiredOrder ++ [stream.id]) (e.retired.insert stream.id)).1 ∧
      e'.retired = (trimRetired (e.retiredOrder ++ [stream.id]) (e.retired.insert stream.id)).2 ∧
      ∀ c, e'.queue c =
        if stream.id = c then e.queue c ++ [.reset stream.id] else e.queue c := by
  have hfinish : e.perform (.finish i) =
      some ((e.setStream i { stream with send := none }).closeChannel stream.id,
        .sendDropped stream.id (e.holds stream.id)) := by
    unfold perform stream?
    dsimp only
    rw [hwait, if_neg List.not_mem_nil, hi]
    change e.finish i stream = _
    unfold finish
    rw [hsend]
    simp [hrecv]
  have hholds : (e.setStream i { stream with send := none }).holds stream.id = true := by
    unfold holds
    change (!e.closed && e.channels.contains stream.id) = true
    rw [hopen, hmap]
    rfl
  have hclose : (e.setStream i { stream with send := none }).closeChannel stream.id =
      (({ e.setStream i { stream with send := none } with
        channels := e.channels.erase stream.id } : Endpoint).retire stream.id).enqueue
          (.reset stream.id) := by
    unfold closeChannel
    rw [if_pos hholds]
    rfl
  set e₁ : Endpoint := { e.setStream i { stream with send := none } with
    channels := e.channels.erase stream.id } with he₁
  obtain ⟨horder, hretired⟩ := retire_state (e := e₁) stream.id hnew
  have hretire : ∀ {γ : Type} (part : Endpoint → γ),
      (∀ e retired order, part { e with retired := retired, retiredOrder := order } = part e) →
      part (e₁.retire stream.id) = part e₁ := by
    intro γ part hpart
    unfold retire
    split
    · rfl
    · exact hpart _ _ _
  refine ⟨_, _, hfinish, ?_⟩
  rw [hclose]
  refine ⟨hretire Endpoint.cfg fun _ _ _ => rfl, hretire Endpoint.closed fun _ _ _ => rfl,
    hretire Endpoint.urgent fun _ _ _ => rfl, hretire Endpoint.acceptRx fun _ _ _ => rfl,
    hretire Endpoint.nextLocal fun _ _ _ => rfl, hretire Endpoint.channels fun _ _ _ => rfl,
    horder, hretired, ?_⟩
  intro c
  rw [queue_enqueue, hretire (fun e => e.queue c) fun _ _ _ => rfl]
  rfl

/-! #### A frame for the reader -/

theorem perform_recvPop {i : Nat} {stream : Stream} {f : Frame} {rest : List Frame}
    (hwait : e.acceptRx = []) (hi : e.streams[i]? = some stream) (hrecv : stream.recv = some .idle)
    (hrx : stream.rx = f :: rest) :
    e.perform (.recvPop i) =
      some (e.setStream i { stream with recv := some (.popped f), rx := rest }, .silent) := by
  unfold perform stream?
  dsimp only
  rw [hwait, if_neg List.not_mem_nil, hi]
  change e.recvPop i stream = _
  unfold recvPop
  rw [hrecv, hrx]

theorem perform_recvCredit {i : Nat} (stream : Stream) {f : Frame} (hwait : e.acceptRx = [])
    (hi : e.streams[i]? = some stream) (hrecv : stream.recv = some (.popped f)) :
    e.perform (.recvCredit i) =
      some ((e.setStream i { stream with recv := some .idle }).returnCredit stream.id f.wireLen,
        .received stream.id f) := by
  unfold perform stream?
  dsimp only
  rw [hwait, if_neg List.not_mem_nil, hi]
  change e.recvCredit i stream = _
  unfold recvCredit
  rw [hrecv]

/-! #### A cycle of channels -/

/-- The first `n` ids an initiator allocates. -/
def firstIds (n : Nat) : List ChannelId := (List.range n).map fun k => UInt32.ofNat (2 * k)

theorem firstIds_succ (n : Nat) : firstIds (n + 1) = firstIds n ++ [UInt32.ofNat (2 * n)] := by
  unfold firstIds
  rw [List.range_succ, List.map_append]
  rfl

theorem length_firstIds (n : Nat) : (firstIds n).length = n := by
  unfold firstIds
  rw [List.length_map, List.length_range]

/-- Within one turn of the id space the next id is a new one. -/
theorem next_not_mem {n : Nat} (h : 2 * n < 2 ^ 32) : UInt32.ofNat (2 * n) ∉ firstIds n := by
  unfold firstIds
  intro hmem
  obtain ⟨k, hk, heq⟩ := List.mem_map.mp hmem
  have hlt := List.mem_range.mp hk
  have hnat := congrArg UInt32.toNat heq
  rw [UInt32.toNat_ofNat', UInt32.toNat_ofNat'] at hnat
  omega

/-- What the cycle keeps: one channel at a time is allowed, `n` ids were used
and closed, and the control channel's queue and the grants are untouched. -/
structure Cycled (cfg : MuxConfig) (urgent queue : List Segment) (n : Nat) (e : Endpoint) :
    Prop where
  cfg_eq : e.cfg = cfg
  running : e.closed = false
  accept : e.acceptRx = []
  order : e.retiredOrder = firstIds n
  retired : ∀ c, e.retired.contains c = true → c ∈ firstIds n
  urgent_eq : e.urgent = urgent
  queue_eq : e.queue controlChannel = queue

/-- Between two channels. -/
def Between (n : Nat) (e : Endpoint) : Prop :=
  e.channels.size = 0 ∧ e.nextLocal = UInt32.ofNat (2 * n)

/-- Holding the channel opened last, whose stream is idle. -/
def Holding (n : Nat) (e : Endpoint) : Prop :=
  e.channels.size = 1 ∧ e.channels.contains (UInt32.ofNat (2 * n)) = true ∧
    ∃ (i : Nat) (stream : Stream), e.streams[i]? = some stream ∧
      stream.id = UInt32.ofNat (2 * n) ∧ stream.send = some .idle ∧ stream.recv = some .idle

variable {cfg : MuxConfig} {urgent queue : List Segment}

theorem Cycled.fresh (h : Cycled cfg urgent queue n e) (hn : 2 * n < 2 ^ 32) :
    e.retired.contains (UInt32.ofNat (2 * n)) = false := by
  by_contra hold
  exact next_not_mem hn (h.retired _ (by simpa using hold))

/-- Opening the next channel of the cycle. -/
theorem Cycled.open (h : Cycled cfg urgent queue n e) (hbetween : Between n e)
    (hone : cfg.maxChannels = 1) (hn : 0 < n) (hlt : 2 * n < 2 ^ 32) :
    ∃ e', e.perform .openBi = some (e', .opened (UInt32.ofNat (2 * n))) ∧
      Cycled cfg urgent queue n e' ∧ Holding n e' ∧
      e'.nextLocal = UInt32.ofNat (2 * n + 2) := by
  obtain ⟨hsize, hnext⟩ := hbetween
  have hmap : e.channels.contains e.nextLocal = false := by
    rw [Std.ExtTreeMap.eq_empty_iff_size_eq_zero.mpr hsize]
    rfl
  have hopens : e.opens = true := by
    unfold opens
    rw [h.running, h.cfg_eq, hone, hsize, hmap, hnext, h.fresh hlt]
    rfl
  obtain ⟨e', hperform, hcfg, hclosed, hurgent, haccept, hretired, horder, hnext', hchannels,
    hstream, hqueue⟩ := openBi_state hopens
  rw [hnext] at hperform hchannels hstream hqueue hnext'
  refine ⟨e', hperform, ⟨?_, ?_, ?_, ?_, ?_, ?_, ?_⟩, ⟨?_, ?_, ?_⟩, ?_⟩
  · rw [hcfg, h.cfg_eq]
  · rw [hclosed, h.running]
  · rw [haccept, h.accept]
  · rw [horder, h.order]
  · rw [hretired]
    exact h.retired
  · rw [hurgent, h.urgent_eq]
  · have hne : UInt32.ofNat (2 * n) ≠ controlChannel := by
      intro heq
      have hnat := congrArg UInt32.toNat heq
      rw [UInt32.toNat_ofNat'] at hnat
      change _ = 0 at hnat
      omega
    rw [hqueue, if_neg hne, h.queue_eq]
  · rw [hchannels, Std.ExtTreeMap.size_insert, if_neg, hsize]
    rw [← hnext, hmap]
    exact Bool.false_ne_true
  · rw [hchannels]
    exact Std.ExtTreeMap.contains_insert_self
  · exact ⟨_, _, hstream, rfl, rfl, rfl⟩
  · rw [hnext', show (2 : UInt32) = UInt32.ofNat 2 from rfl, ← UInt32.ofNat_add]

/-- Finishing the channel held, as far as the ids go. -/
theorem Cycled.finish (h : Cycled cfg urgent queue n e) (hholding : Holding n e)
    (hlt : 2 * n < 2 ^ 32) :
    ∃ e' i closed, e.perform (.finish i) = some (e', .sendDropped (UInt32.ofNat (2 * n)) closed) ∧
      e'.cfg = cfg ∧ e'.closed = false ∧ e'.acceptRx = [] ∧ e'.urgent = urgent ∧
      e'.channels.size = 0 ∧ e'.nextLocal = e.nextLocal ∧
      e'.retiredOrder = (trimRetired (firstIds (n + 1))
        (e.retired.insert (UInt32.ofNat (2 * n)))).1 ∧
      e'.retired = (trimRetired (firstIds (n + 1))
        (e.retired.insert (UInt32.ofNat (2 * n)))).2 ∧
      e'.queue controlChannel = if n = 0 then queue ++ [.reset controlChannel] else queue := by
  obtain ⟨hsize, hmap, i, stream, hi, hid, hsend, hrecv⟩ := hholding
  rw [← hid] at hmap
  obtain ⟨e', closed, hperform, hcfg, hclosed, hurgent, haccept, hnext, hchannels, horder,
    hretired, hqueue⟩ := finish_state h.running h.accept hi hsend hrecv hmap
      (by rw [hid]; exact h.fresh hlt)
  rw [hid] at hperform hchannels horder hretired hqueue
  rw [h.order, ← firstIds_succ] at horder hretired
  refine ⟨e', i, closed, hperform, ?_, ?_, ?_, ?_, ?_, hnext, horder, hretired, ?_⟩
  · rw [hcfg, h.cfg_eq]
  · rw [hclosed, h.running]
  · rw [haccept, h.accept]
  · rw [hurgent, h.urgent_eq]
  · rw [hid] at hmap
    rw [hchannels, Std.ExtTreeMap.size_erase, if_pos hmap, hsize]
  · rw [hqueue, h.queue_eq]
    by_cases hn : n = 0
    · subst hn
      rfl
    · have hne : UInt32.ofNat (2 * n) ≠ controlChannel := by
        intro heq
        have hnat := congrArg UInt32.toNat heq
        rw [UInt32.toNat_ofNat'] at hnat
        change _ = 0 at hnat
        omega
      rw [if_neg hne, if_neg hn]

/-- Finishing the channel of the cycle while the memory of closed ids has room. -/
theorem Cycled.next (h : Cycled cfg urgent queue n e) (hholding : Holding n e)
    (hnext : e.nextLocal = UInt32.ofNat (2 * (n + 1))) (hn : n < retiredMemory) :
    ∃ e' i closed, e.perform (.finish i) = some (e', .sendDropped (UInt32.ofNat (2 * n)) closed) ∧
      Cycled cfg urgent (if n = 0 then queue ++ [.reset controlChannel] else queue) (n + 1) e' ∧
      Between (n + 1) e' := by
  have hbound : n < 4096 := hn
  obtain ⟨e', i, closed, hperform, hcfg, hclosed, haccept, hurgent, hsize, hnext', horder, hretired,
    hqueue⟩ := h.finish hholding (by omega)
  rw [trimRetired_short (by rw [length_firstIds]; exact hn)] at horder hretired
  refine ⟨e', i, closed, hperform, ⟨hcfg, hclosed, haccept, horder, ?_, hurgent, hqueue⟩, hsize, ?_⟩
  · intro c hc
    rw [hretired, Std.ExtTreeSet.contains_insert, Bool.or_eq_true] at hc
    rw [firstIds_succ, List.mem_append]
    rcases hc with hc | hc
    · rw [beq_iff_eq, Std.compare_eq_iff_eq] at hc
      exact Or.inr (List.mem_singleton.mpr hc.symm)
    · exact Or.inl (h.retired c hc)
  · rw [hnext', hnext]

/-- One channel after the other, until the memory of closed ids is full. -/
theorem Cycled.fill (h : Cycled cfg urgent queue 1 e) (hbetween : Between 1 e)
    (hone : cfg.maxChannels = 1) (n : Nat) (hn : n < retiredMemory) :
    ∃ shown e', Idle shown ∧ Performs e shown e' ∧ Cycled cfg urgent queue (n + 1) e' ∧
      Between (n + 1) e' := by
  induction n with
  | zero => exact ⟨[], e, .nil, .nil, h, hbetween⟩
  | succ n ih =>
      have hbound : n + 1 < 4096 := hn
      obtain ⟨shown, e₁, hidle, hrun, hcycled, hbetween₁⟩ := ih (by omega)
      obtain ⟨e₂, hopen, hcycled₂, hholding, hnext⟩ :=
        hcycled.open hbetween₁ hone (by omega) (by omega)
      obtain ⟨e₃, i, closed, hfinish, hcycled₃, hbetween₃⟩ := hcycled₂.next hholding hnext hn
      rw [if_neg (by omega)] at hcycled₃
      exact ⟨_, e₃, (hidle.append (.single trivial)).append (.single trivial),
        (hrun.snoc trivial hopen).snoc trivial hfinish, hcycled₃, hbetween₃⟩

/-! #### Once around -/

/-- Opens refused after the memory is full until the allocator is back at the
first id. -/
def refusals : Nat := 2147479551

theorem refusals_wrap : UInt32.ofNat (2 * 4096 + 2 + 2 * refusals) = 0 := by
  decide

/-- An endpoint whose first id was closed and forgotten gets it once more. -/
structure Wrapped (cfg : MuxConfig) (urgent queue : List Segment) (e : Endpoint) : Prop where
  cfg_eq : e.cfg = cfg
  running : e.closed = false
  accept : e.acceptRx = []
  urgent_eq : e.urgent = urgent
  queue_eq : e.queue controlChannel = queue ++ [.open controlChannel]
  forgotten : e.retired.contains controlChannel = false
  entry : ∃ i : Nat, e.channels[controlChannel]? = some ⟨i, true, [], 0⟩ ∧
    e.streams[i]? =
      some ⟨controlChannel, .new cfg.window, [], some .idle, some .idle⟩

/-- **The first id comes back.** -/
theorem Cycled.wrap (h : Cycled cfg urgent queue 1 e) (hbetween : Between 1 e)
    (hone : cfg.maxChannels = 1) :
    ∃ shown e' e'', Idle shown ∧ Performs e shown e' ∧
      e'.perform .openBi = some (e'', .opened controlChannel) ∧ Wrapped cfg urgent queue e'' := by
  obtain ⟨shown, e₁, hidle, hrun, hcycled, hbetween₁⟩ := h.fill hbetween hone 4095 (by decide)
  obtain ⟨e₂, hopen, hcycled₂, hholding, hnext⟩ :=
    hcycled.open hbetween₁ hone (by decide) (by decide)
  -- At the limit the allocator is driven around.
  obtain ⟨shown', hidle', hrun'⟩ := performs_full hcycled₂.running
    (by rw [hcycled₂.cfg_eq, hone, hholding.1]) hnext refusals
  rw [show (4095 + 1 : Nat) = 4096 from rfl, refusals_wrap] at hrun'
  set e₃ : Endpoint := { e₂ with nextLocal := 0 } with he₃
  have hcycled₃ : Cycled cfg urgent queue 4096 e₃ :=
    ⟨hcycled₂.cfg_eq, hcycled₂.running, hcycled₂.accept, hcycled₂.order, hcycled₂.retired,
      hcycled₂.urgent_eq, hcycled₂.queue_eq⟩
  obtain ⟨e₄, i, closed, hfinish, hcfg, hclosed, haccept, hurgent, hsize, hnext', -, hretired,
    hqueue⟩ := hcycled₃.finish hholding (by decide)
  rw [if_neg (by decide)] at hqueue
  -- The last id closed pushes the first one out of the memory.
  have hforgotten : e₄.retired.contains controlChannel = false := by
    rw [hretired, show firstIds (4096 + 1) =
      controlChannel :: ((List.range 4096).map fun k => UInt32.ofNat (2 * (k + 1))) from ?_,
      trimRetired_one]
    · rw [Std.ExtTreeSet.contains_erase, Std.compare_self]
      rfl
    · rw [List.length_map, List.length_range]
      rfl
    · unfold firstIds
      rw [List.range_succ_eq_map, List.map_cons, List.map_map]
      rfl
  have hzero : e₄.nextLocal = controlChannel := hnext'
  have hmap : e₄.channels.contains e₄.nextLocal = false := by
    rw [Std.ExtTreeMap.eq_empty_iff_size_eq_zero.mpr hsize]
    rfl
  have hopens : e₄.opens = true := by
    unfold opens
    rw [hclosed, hcfg, hone, hsize, hmap, hzero, hforgotten]
    rfl
  obtain ⟨e₅, hperform, hcfg₅, hclosed₅, hurgent₅, haccept₅, hretired₅, -, -, hchannels₅, hstream₅,
    hqueue₅⟩ := openBi_state hopens
  rw [hzero] at hperform hchannels₅ hstream₅ hqueue₅
  refine ⟨_, e₄, e₅, ((hidle.append (.single trivial)).append hidle').append (.single trivial),
    ((hrun.snoc trivial hopen).trans hrun').snoc trivial hfinish, hperform, ⟨?_, ?_, ?_, ?_, ?_, ?_, ?_⟩⟩
  · rw [hcfg₅, hcfg]
  · rw [hclosed₅, hclosed]
  · rw [haccept₅, haccept]
  · rw [hurgent₅, hurgent]
  · rw [hqueue₅, if_pos rfl, hqueue]
  · rw [hretired₅]
    exact hforgotten
  · refine ⟨e₄.streams.length, ?_, ?_⟩
    · rw [hchannels₅, lookup_insert, if_pos rfl]
    · rw [hstream₅]
      unfold newStream
      rw [hcfg]

end Endpoint

namespace Link

open Endpoint

variable {cfg : MuxConfig} {l l₀ : Link} {trace : Trace} {s : Role} {c : ChannelId}

/-! ### A link whose initiator has been around -/

/-- What one end did by itself, as a part of the trace. -/
def alone (s : Role) (shown : List (LocalOp × Obs)) : Trace :=
  shown.map fun entry => (.op s entry.1, entry.2)

/-- An end may go on by itself. -/
theorem runs_performs (hrun : Runs Transition.unguarded l₀ trace l)
    {shown : List (LocalOp × Obs)} {e : Endpoint} (h : Performs (l.ends.get s) shown e) :
    Runs Transition.unguarded l₀ (trace ++ alone s shown) { l with ends := l.ends.set s e } := by
  have hembed : Runs Transition.unguarded { l with ends := l.ends.set s (l.ends.get s) }
      (alone s shown) { l with ends := l.ends.set s e } := by
    refine h.embed (fun e => { l with ends := l.ends.set s e }) (Event.op s) ?_
    intro e o e' obs hr
    unfold step
    dsimp only
    rw [Sides.get_set_self, hr]
    dsimp only [Option.bind_eq_bind, Option.bind_some, pure]
    rw [Sides.set_set]
  rw [Sides.set_get] at hembed
  exact hrun.trans hembed

/-- Opens and finishes leave no mark in a history that selects neither. -/
theorem history_alone (s s' : Role) {β : Type*} {sel : Obs → Option β}
    {shown : List (LocalOp × Obs)} (hidle : Idle shown)
    (hsel : ∀ id, sel (.opened id) = none) (hsel' : ∀ err, sel (.openFailed err) = none)
    (hsel'' : ∀ id closed, sel (.sendDropped id closed) = none) :
    history sel s' (alone s shown) = [] := by
  unfold history alone
  rw [List.filterMap_eq_nil_iff]
  intro entry hmem
  obtain ⟨⟨o, obs⟩, hshown, rfl⟩ := List.mem_map.mp hmem
  have hobs := hidle _ hshown
  dsimp only at hobs ⊢
  split at hobs
  · rw [hsel, ite_self]
  · rw [hsel', ite_self]
  · rw [hsel'', ite_self]
  · cases hobs

theorem history_append {β : Type*} {sel : Obs → Option β} {s' : Role} {trace trace' : Trace} :
    history sel s' (trace ++ trace') = history sel s' trace ++ history sel s' trace' := by
  unfold history
  exact List.filterMap_append

/-- A window for two frames of a byte each, and one channel at a time. -/
def lone : MuxConfig where
  initialWindow := 12
  maxFrameLen := 1
  maxChannels := 1

/-- Another frame of a byte. -/
def dash : Frame := ⟨.none, [9], by decide⟩

/-- Both sides send a frame on the first channel; nobody reads. -/
def greeting : List Event :=
  [.op .initiator .openBi, .take .initiator, .deliver .responder, .op .responder .acceptBi,
    .op .responder (.sendStart 0 dash), .op .responder (.sendStep 0), .op .responder (.sendStep 0),
    .take .responder, .deliver .initiator, .op .initiator (.sendStart 0 dot),
    .op .initiator (.sendStep 0), .op .initiator (.sendStep 0), .take .initiator,
    .deliver .responder]

/-- The responder still has the channel of the greeting, and nothing is on its
way. -/
structure Waiting (l : Link) : Prop where
  entry : (l.ends.get .responder).channels[controlChannel]? = some ⟨0, true, [], 6⟩
  urgent : (l.ends.get .responder).urgent = []
  wire : l.wire = ⟨[], []⟩

theorem greeted :
    ∃ l₀ trace l, spawn lone = .ok l₀ ∧ Runs Transition.unguarded l₀ trace l ∧ Waiting l ∧
      Cycled lone [] [] 0 (l.ends.get .initiator) ∧ Holding 0 (l.ends.get .initiator) ∧
      (l.ends.get .initiator).nextLocal = UInt32.ofNat (2 * (0 + 1)) := by
  obtain ⟨l₀, hspawn, hrun⟩ := @runs_of_exec Transition.unguarded _ lone greeting _ _ rfl
  refine ⟨l₀, _, _, hspawn, hrun, ⟨rfl, rfl, rfl⟩, ⟨rfl, rfl, rfl, rfl, ?_, rfl, rfl⟩,
    ⟨rfl, rfl, 0, _, rfl, rfl, rfl, rfl⟩, rfl⟩
  intro c hc
  change (∅ : Std.ExtTreeSet ChannelId).contains c = true at hc
  rw [Std.ExtTreeSet.contains_empty] at hc
  cases hc

/-- **The id space wraps under a channel that is in use.**  The initiator has a
new first channel while the responder still has the old one. -/
theorem link_wraps :
    ∃ l₀ trace l, spawn lone = .ok l₀ ∧ Runs Transition.unguarded l₀ trace l ∧ Waiting l ∧
      Wrapped lone [] [.reset controlChannel] (l.ends.get .initiator) := by
  obtain ⟨l₀, trace, l, hspawn, hrun, hwaiting, hcycled, hholding, hnext⟩ := greeted
  obtain ⟨e₁, i, closed, hfinish, hcycled₁, hbetween⟩ := hcycled.next hholding hnext (by decide)
  obtain ⟨shown, e₂, e₃, -, hperforms, hopen, hwrapped⟩ := hcycled₁.wrap hbetween rfl
  have hall := (Transition.Run.nil.snoc trivial hfinish).trans (hperforms.snoc trivial hopen)
  refine ⟨l₀, _, _, hspawn, runs_performs hrun hall, ⟨?_, ?_, hwaiting.wire⟩, hwrapped⟩
  · exact hwaiting.entry
  · exact hwaiting.urgent

/-- The new channel takes what the peer sends on the old one. -/
theorem wrapped_takes {e : Endpoint} {queue : List Segment} (h : Wrapped lone [] queue e) :
    ∃ e₁ e₂ e₃ i, receive e (.data controlChannel dot.encode) = (e₁, .ok ()) ∧
      e₁.perform (.recvPop i) = some (e₂, .silent) ∧
      e₂.perform (.recvCredit i) = some (e₃, .received controlChannel dot) := by
  obtain ⟨i, hentry, hstream⟩ := h.entry
  have hlt : i < e.streams.length := (List.getElem?_eq_some_iff.mp hstream).1
  have hforgotten := h.forgotten
  have hcfg := h.cfg_eq
  have hrunning := h.running
  have haccept := h.accept
  clear h
  obtain ⟨cfg, role, next, urgent, out, cursor, channels, retired, order, acceptTx, acceptRx, closed,
    closeErr, streams⟩ := e
  dsimp only at hentry hstream hlt hforgotten hcfg hrunning haccept
  subst hcfg hrunning haccept
  have hreceive : receive ⟨lone, role, next, urgent, out, cursor, channels, retired, order, acceptTx,
      [], false, closeErr, streams⟩ (.data controlChannel dot.encode) =
        (⟨lone, role, next, urgent, out, cursor,
          (channels.insert controlChannel ⟨i, true, [], 6⟩), retired, order,
          acceptTx, [], false, closeErr,
          streams.set i ⟨controlChannel, .new lone.window, [dot], some .idle, some .idle⟩⟩,
          .ok ()) := by
    unfold receive
    rw [handle_data]
    unfold peerData
    dsimp only
    rw [hforgotten, hentry]
    dsimp only
    rw [hstream]
    rfl
  have hpop := perform_recvPop (e := ⟨lone, role, next, urgent, out, cursor,
    (channels.insert controlChannel ⟨i, true, [], 6⟩), retired, order, acceptTx, [], false, closeErr,
    streams.set i ⟨controlChannel, .new lone.window, [dot], some .idle, some .idle⟩⟩) rfl
    (List.getElem?_set_self hlt) rfl rfl
  refine ⟨_, _, _, i, hreceive, hpop, perform_recvCredit
    ⟨controlChannel, .new lone.window, [], some .idle, some (.popped dot)⟩ rfl ?_ rfl⟩
  unfold setStream
  dsimp only
  rw [List.set_set, List.getElem?_set_self hlt]

end Link

end Mux
