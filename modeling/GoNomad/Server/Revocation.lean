import GoNomad.Lib.Run
import GoNomad.Server.Serve

/-!
# Revocation and the serve loop

A connection only ever goes forward, and what is open and being served is
registered.  From the two follows when a revocation is felt.

* `later_of_run` — a connection only goes forward;
* `watched_of_run` — what is open and being served is registered;
* `refused_after_revoke` — no connection checked after a revocation is taken;
* `swept` — what becomes of a connection registered before a sweep;
* `sweep_spares` — a sweep leaves active devices alone;
* `revocation` — all of it.
-/

namespace Server

open Proto Policy Store Transition

/-- A run of the daemon: the events, and the grants requests were handled under. -/
abbrev Trace := List (Event × Option DeviceGrant)

/-- Runs in which everyone takes its steps in any order. -/
abbrev Runs (s : State) (trace : Trace) (s' : State) : Prop :=
  Run State.step unguarded s trace s'

/-! ### Going forward -/

/-- How far a stage is; a refused connection is nowhere. -/
def Stage.rank : Stage → Nat
  | .refused => 0
  | .handshaking => 1
  | .authorised => 2
  | .queued => 3
  | .accepted => 4
  | .granted _ => 5
  | .registered _ => 6
  | .serving _ => 7
  | .ended => 8
  | .deregistered => 9
  | .dropped => 10

theorem Stage.last_of_rank {stage : Stage} (h : 8 < stage.rank) :
    stage = .deregistered ∨ stage = .dropped := by
  cases stage with
  | deregistered => exact .inl rfl
  | dropped => exact .inr rfl
  | _ => exact absurd h (by simp [Stage.rank])

namespace Connection

/-- What a connection may have become: the peer stays, a refused connection
stays refused, only a handshake is refused, and a closed one stays closed. -/
structure Later (conn conn' : Connection) : Prop where
  peer : conn'.peer = conn.peer
  refused : conn.stage = .refused → conn'.stage = .refused
  forward : conn'.stage = .refused ∨ conn.stage.rank ≤ conn'.stage.rank
  early : conn'.stage = .refused → conn.stage.rank ≤ 2
  closed : conn.closed = true → conn'.closed = true

variable {conn conn' conn'' : Connection}

theorem Later.refl (conn : Connection) : conn.Later conn :=
  ⟨rfl, id, .inr (Nat.le_refl _), fun h => by rw [h]; decide, id⟩

theorem Later.trans (h : conn.Later conn') (h' : conn'.Later conn'') : conn.Later conn'' where
  peer := h'.peer.trans h.peer
  refused := fun hr => h'.refused (h.refused hr)
  forward := by
    rcases h'.forward with hr | hle
    · exact .inl hr
    · rcases h.forward with hr | hle'
      · exact .inl (h'.refused hr)
      · exact .inr (hle'.trans hle)
  early := by
    intro hr
    have hle := h'.early hr
    rcases h.forward with hr' | hle'
    · exact h.early hr'
    · exact hle'.trans hle
  closed := fun hc => h'.closed (h.closed hc)

/-- From the third stage on a connection only moves up. -/
theorem Later.rank (h : conn.Later conn') (hrank : 2 < conn.stage.rank) :
    conn.stage.rank ≤ conn'.stage.rank := by
  rcases h.forward with hr | hle
  · have := h.early hr
    omega
  · exact hle

/-- A step of a connection that goes forward. -/
def Forward (f : Connection → Option Connection) : Prop :=
  ∀ conn conn', f conn = some conn' → conn.Later conn'

theorem move_eq_some {next : Stage → Option Stage} (h : conn.move next = some conn') :
    ∃ stage, next conn.stage = some stage ∧ conn' = { conn with stage } := by
  unfold move at h
  rw [Option.map_eq_some_iff] at h
  obtain ⟨stage, hnext, hconn⟩ := h
  exact ⟨stage, hnext, hconn.symm⟩

/-- Going on to a later stage is going forward. -/
theorem Later.of_move {next : Stage → Option Stage}
    (hnext : ∀ stage stage', next stage = some stage' →
      0 < stage.rank ∧ stage.rank ≤ stage'.rank)
    (h : conn.move next = some conn') : conn.Later conn' := by
  obtain ⟨stage, hstage, rfl⟩ := move_eq_some h
  obtain ⟨hpos, hle⟩ := hnext _ _ hstage
  refine ⟨rfl, fun hr => ?_, .inr hle, fun hr => ?_, id⟩
  · rw [hr] at hpos
    cases hpos
  · have hzero : stage.rank = 0 := by rw [show stage = .refused from hr]; rfl
    omega

theorem forward_authorize (devices : Devices) : Forward (authorize devices) := by
  intro conn conn' h
  unfold authorize at h
  split at h
  · next hstage =>
      split at h
      · cases h
        exact ⟨rfl, fun hr => (nomatch hstage.symm.trans hr), .inr (by simp [hstage, Stage.rank]),
          nofun, id⟩
      · cases h
        exact ⟨rfl, fun _ => rfl, .inl rfl, fun _ => by rw [hstage]; decide, fun _ => rfl⟩
  · cases h

theorem forward_fail : Forward fail := by
  intro conn conn' h
  unfold fail at h
  split at h
  · next hstage =>
      cases h
      exact ⟨rfl, fun _ => rfl, .inl rfl, fun _ => by rw [hstage]; decide, fun _ => rfl⟩
  · next hstage =>
      cases h
      exact ⟨rfl, fun _ => rfl, .inl rfl, fun _ => by rw [hstage]; decide, fun _ => rfl⟩
  · cases h

theorem forward_disconnect : Forward disconnect := by
  intro conn conn' h
  cases h
  exact ⟨rfl, id, .inr (Nat.le_refl _), (Later.refl conn).early, fun _ => rfl⟩

theorem forward_drop : Forward drop := by
  intro conn conn' h
  unfold drop at h
  split at h
  · next hstage =>
      cases h
      exact ⟨rfl, fun hr => (nomatch hstage.symm.trans hr), .inr (by simp [hstage, Stage.rank]), nofun,
        fun _ => rfl⟩
  · cases h

/-- The steps that go on to the next stage. -/
theorem forward_moves (devices : Devices) :
    Forward enqueue ∧ Forward accept ∧ Forward (readGrants devices) ∧ Forward register ∧
      Forward spawn ∧ Forward finish ∧ Forward deregister := by
  refine ⟨?_, ?_, ?_, ?_, ?_, ?_, ?_⟩
  all_goals
    intro conn conn' h
    refine Later.of_move ?_ h
    intro stage stage' hnext
    cases stage <;> simp only [Option.some.injEq, reduceCtorEq] at hnext
    subst hnext
    simp [Stage.rank]

end Connection

namespace State

variable {s s' : State} {c : ConnId} {conn conn' : Connection}
  {f : Connection → Option Connection} {e : Event} {o : Option DeviceGrant}

theorem advance_eq_some (h : s.advance c f = some s') :
    ∃ conn conn', s.conns c = some conn ∧ f conn = some conn' ∧ s' = s.put c conn' := by
  unfold advance at h
  cases hconn : s.conns c with
  | none =>
      rw [hconn] at h
      cases h
  | some conn =>
      rw [hconn] at h
      obtain ⟨conn', hf, hs⟩ := Option.map_eq_some_iff.mp h
      exact ⟨conn, conn', rfl, hf, hs.symm⟩

@[simp] theorem put_conns_self : (s.put c conn).conns c = some conn := Function.update_self _ _ _

theorem put_conns_of_ne {c' : ConnId} (h : c' ≠ c) : (s.put c conn).conns c' = s.conns c' :=
  Function.update_of_ne h _ _

/-- The connections go forward: each is there still, and may have moved. -/
def Ahead (s s' : State) : Prop :=
  ∀ c conn, s.conns c = some conn → ∃ conn', s'.conns c = some conn' ∧ conn.Later conn'

theorem Ahead.refl (s : State) : s.Ahead s := fun _ conn h => ⟨conn, h, .refl conn⟩

theorem Ahead.trans {s'' : State} (h : s.Ahead s') (h' : s'.Ahead s'') : s.Ahead s'' := by
  intro c conn hconn
  obtain ⟨conn', hconn', hlater⟩ := h c conn hconn
  obtain ⟨conn'', hconn'', hlater'⟩ := h' c conn' hconn'
  exact ⟨conn'', hconn'', hlater.trans hlater'⟩

theorem Ahead.advance (hf : Connection.Forward f) (h : s.advance c f = some s') : s.Ahead s' := by
  obtain ⟨conn, conn', hconn, hmove, rfl⟩ := advance_eq_some h
  intro c' conn'' hconn''
  by_cases hc : c' = c
  · subst hc
    rw [hconn] at hconn''
    cases hconn''
    exact ⟨conn', put_conns_self, hf _ _ hmove⟩
  · exact ⟨conn'', (put_conns_of_ne hc).trans hconn'', .refl conn''⟩

/-- **A step only moves connections forward.** -/
theorem ahead_of_step (h : s.step e = some (s', o)) : s.Ahead s' := by
  obtain ⟨henqueue, haccept, hreadGrants, hregister, hspawn, hfinish, hderegister⟩ :=
    Connection.forward_moves s.devices
  have hmapped : ∀ {c f} {g : State → State × Option DeviceGrant}, Connection.Forward f →
      (∀ t, (g t).1.conns = t.conns) → (s.advance c f).map g = some (s', o) → s.Ahead s' := by
    intro c f g hf hg hmap
    obtain ⟨t, hadvance, ht⟩ := Option.map_eq_some_iff.mp hmap
    have hconns : s'.conns = t.conns := by rw [← hg t, ht]
    intro c' conn hconn
    rw [hconns]
    exact Ahead.advance hf hadvance c' conn hconn
  cases e with
  | quicAccept c peer =>
      dsimp only [step] at h
      split at h
      · next hnone =>
          cases h
          intro c' conn hconn
          have hne : c' ≠ c := by
            rintro rfl
            rw [hnone] at hconn
            cases hconn
          exact ⟨conn, (put_conns_of_ne hne).trans hconn, .refl conn⟩
      · cases h
  | authorize c => exact hmapped (Connection.forward_authorize _) (fun _ => rfl) h
  | fail c => exact hmapped Connection.forward_fail (fun _ => rfl) h
  | enqueue c =>
      dsimp only [step] at h
      split at h
      · exact hmapped henqueue (fun _ => rfl) h
      · cases h
  | accept c =>
      dsimp only [step] at h
      split at h
      · exact hmapped haccept (fun _ => rfl) h
      · cases h
  | readGrants c =>
      dsimp only [step] at h
      split at h
      · exact hmapped hreadGrants (fun _ => rfl) h
      · cases h
  | register c =>
      dsimp only [step] at h
      split at h
      · exact hmapped hregister (fun _ => rfl) h
      · cases h
  | spawn c =>
      dsimp only [step] at h
      split at h
      · exact hmapped hspawn (fun _ => rfl) h
      · cases h
  | request c =>
      dsimp only [step] at h
      split at h
      · cases h
        exact .refl _
      · cases h
  | disconnect c => exact hmapped Connection.forward_disconnect (fun _ => rfl) h
  | finish c => exact hmapped hfinish (fun _ => rfl) h
  | deregister c => exact hmapped hderegister (fun _ => rfl) h
  | drop c => exact hmapped Connection.forward_drop (fun _ => rfl) h
  | commit op =>
      dsimp only [step] at h
      split at h
      · cases h
        exact fun _ conn hconn => ⟨conn, hconn, .refl conn⟩
      · cases h
  | sweepRead =>
      dsimp only [step] at h
      split at h
      · cases h
        exact fun _ conn hconn => ⟨conn, hconn, .refl conn⟩
      · cases h
  | sweepClose =>
      dsimp only [step] at h
      split at h
      · cases h
        intro c conn hconn
        unfold sweep
        dsimp only
        rw [hconn, Option.map_some]
        refine ⟨_, rfl, ?_⟩
        split
        · exact Connection.forward_disconnect _ _ rfl
        · exact .refl conn
      · cases h

end State

/-- **A connection only goes forward** in a run. -/
theorem later_of_run {s s' : State} {trace : Trace} (h : Runs s trace s') : s.Ahead s' :=
  h.invariant (fun _ t => s.Ahead t) (.refl s) fun _ _ _ _ _ hahead _ hstep =>
    hahead.trans (State.ahead_of_step hstep)

/-! ### The registry -/

namespace Connection

/-- From being registered until it is taken off the registry. -/
def Watched (conn : Connection) : Prop := 6 ≤ conn.stage.rank ∧ conn.stage.rank ≤ 8

/-- A step that brings no open connection under watch and leaves none that is
dropped open. -/
def Quiet (f : Connection → Option Connection) : Prop :=
  ∀ conn conn', f conn = some conn' →
    (conn'.Watched → conn'.closed = false → conn.Watched ∧ conn.closed = false) ∧
      (conn'.stage = .dropped → conn'.closed = true)

theorem quiet_authorize (devices : Devices) : Quiet (authorize devices) := by
  intro conn conn' h
  unfold authorize at h
  split at h
  · split at h
    · cases h
      exact ⟨fun hw => absurd hw.1 (by simp [Stage.rank]), nofun⟩
    · cases h
      exact ⟨fun _ hopen => (nomatch hopen), fun _ => rfl⟩
  · cases h

theorem quiet_fail : Quiet fail := by
  intro conn conn' h
  unfold fail at h
  split at h
  · cases h
    exact ⟨fun _ hopen => (nomatch hopen), fun _ => rfl⟩
  · cases h
    exact ⟨fun _ hopen => (nomatch hopen), fun _ => rfl⟩
  · cases h

theorem quiet_drop : Quiet drop := by
  intro conn conn' h
  unfold drop at h
  split at h
  · cases h
    exact ⟨fun _ hopen => (nomatch hopen), fun _ => rfl⟩
  · cases h

theorem quiet_disconnect : Quiet disconnect := by
  intro conn conn' h
  cases h
  exact ⟨fun _ hopen => (nomatch hopen), fun _ => rfl⟩

theorem quiet_moves (devices : Devices) :
    Quiet enqueue ∧ Quiet accept ∧ Quiet (readGrants devices) ∧ Quiet spawn ∧ Quiet finish ∧
      Quiet deregister := by
  refine ⟨?_, ?_, ?_, ?_, ?_, ?_⟩
  all_goals
    intro conn conn' h
    obtain ⟨stage', hnext, rfl⟩ := move_eq_some h
    cases hstage : conn.stage <;> rw [hstage] at hnext <;>
      simp only [Option.some.injEq, reduceCtorEq] at hnext
    subst hnext
    simp [Watched, hstage, Stage.rank]

end Connection

namespace State

/-- What is open and under watch is in the registry, every entry of the registry
is one connection and its device, and what is dropped is closed. -/
structure Watched (s : State) : Prop where
  entries : ∀ entry ∈ s.live, ∃ conn, s.conns entry.2 = some conn ∧ entry.1 = conn.deviceId
  registered : ∀ c conn, s.conns c = some conn → conn.Watched → conn.closed = false →
    (conn.deviceId, c) ∈ s.live
  dropped : ∀ c conn, s.conns c = some conn → conn.stage = .dropped → conn.closed = true

variable {s s' t : State} {c : ConnId} {f : Connection → Option Connection} {e : Event}
  {o : Option DeviceGrant}

/-- A quiet step of one connection. -/
theorem Watched.advance (h : s.Watched) (hf : Connection.Forward f) (hquiet : Connection.Quiet f)
    (hadvance : s.advance c f = some t) (hconns : s'.conns = t.conns) (hlive : s'.live = s.live) :
    s'.Watched := by
  obtain ⟨conn, conn', hconn, hmove, rfl⟩ := advance_eq_some hadvance
  have hpeer := (hf _ _ hmove).peer
  have hdevice : conn'.deviceId = conn.deviceId := by rw [Connection.deviceId, hpeer]; rfl
  obtain ⟨hwatched, hdropped⟩ := hquiet _ _ hmove
  refine ⟨fun entry hentry => ?_, fun c' conn'' hconn'' hw hopen => ?_,
    fun c' conn'' hconn'' hstage => ?_⟩
  · rw [hlive] at hentry
    obtain ⟨old, hold, hid⟩ := h.entries entry hentry
    rw [hconns]
    by_cases hc : entry.2 = c
    · rw [hc] at hold ⊢
      rw [hconn] at hold
      cases hold
      exact ⟨conn', put_conns_self, hid.trans hdevice.symm⟩
    · exact ⟨old, (put_conns_of_ne hc).trans hold, hid⟩
  · rw [hlive]
    rw [hconns] at hconn''
    by_cases hc : c' = c
    · rw [hc, put_conns_self] at hconn''
      cases hconn''
      obtain ⟨hw, hopen⟩ := hwatched hw hopen
      rw [hc, hdevice]
      exact h.registered c conn hconn hw hopen
    · rw [put_conns_of_ne hc] at hconn''
      exact h.registered c' conn'' hconn'' hw hopen
  · rw [hconns] at hconn''
    by_cases hc : c' = c
    · rw [hc, put_conns_self] at hconn''
      cases hconn''
      exact hdropped hstage
    · rw [put_conns_of_ne hc] at hconn''
      exact h.dropped c' conn'' hconn'' hstage

/-- Registering puts the connection under watch and into the registry. -/
theorem Watched.register (h : s.Watched) (hadvance : s.advance c Connection.register = some t)
    (hconns : s'.conns = t.conns)
    (hlive : s'.live = s.live ++ (s.conns c).toList.map fun conn => (conn.deviceId, c)) :
    s'.Watched := by
  obtain ⟨conn, conn', hconn, hmove, rfl⟩ := advance_eq_some hadvance
  obtain ⟨stage, hnext, rfl⟩ := Connection.move_eq_some hmove
  have hstage : stage ≠ .dropped := by
    rintro rfl
    cases hgranted : conn.stage <;> simp [hgranted] at hnext
  rw [hconn] at hlive
  refine ⟨fun entry hentry => ?_, fun c' conn'' hconn'' hw hopen => ?_,
    fun c' conn'' hconn'' hdropped => ?_⟩
  · rw [hlive] at hentry
    rw [hconns]
    rcases List.mem_append.mp hentry with hold | hnew
    · obtain ⟨old, hfound, hid⟩ := h.entries entry hold
      by_cases hc : entry.2 = c
      · rw [hc] at hfound ⊢
        rw [hconn] at hfound
        cases hfound
        exact ⟨_, put_conns_self, hid⟩
      · exact ⟨old, (put_conns_of_ne hc).trans hfound, hid⟩
    · obtain rfl := List.mem_singleton.mp hnew
      exact ⟨_, put_conns_self, rfl⟩
  · rw [hconns] at hconn''
    rw [hlive]
    by_cases hc : c' = c
    · rw [hc, put_conns_self] at hconn''
      cases hconn''
      rw [hc]
      exact List.mem_append_right _ (List.mem_singleton_self _)
    · rw [put_conns_of_ne hc] at hconn''
      exact List.mem_append_left _ (h.registered c' conn'' hconn'' hw hopen)
  · rw [hconns] at hconn''
    by_cases hc : c' = c
    · rw [hc, put_conns_self] at hconn''
      cases hconn''
      exact absurd hdropped hstage
    · rw [put_conns_of_ne hc] at hconn''
      exact h.dropped c' conn'' hconn'' hdropped

/-- Taking a connection off the registry once it is out of watch. -/
theorem Watched.filter (h : s.Watched) (hout : ∀ conn, s.conns c = some conn → ¬ conn.Watched) :
    Watched { s with live := s.live.filter fun entry => entry.2 ≠ c } := by
  refine ⟨fun entry hentry => h.entries entry (List.mem_of_mem_filter hentry),
    fun c' conn hconn hw hopen => ?_, h.dropped⟩
  have hne : c' ≠ c := by
    rintro rfl
    exact hout conn hconn hw
  exact List.mem_filter.mpr ⟨h.registered c' conn hconn hw hopen, by simpa using hne⟩

/-- What the sweep does to a connection. -/
theorem sweep_conns {active : List DeviceId} :
    (s.sweep active).conns c = (s.conns c).map fun conn =>
      if s.revoked active c then { conn with closed := true } else conn :=
  rfl

/-- A registered connection that is open and not active is closed. -/
theorem revoked_of_registered {active : List DeviceId} {conn : Connection}
    (hconn : s.conns c = some conn) (hopen : conn.closed = false)
    (hentry : (conn.deviceId, c) ∈ s.live) (hactive : conn.deviceId ∉ active) :
    s.revoked active c = true := by
  have hisClosed : s.isClosed c = false := by
    rw [isClosed, hconn]
    exact hopen
  refine List.any_eq_true.mpr ⟨_, hentry, ?_⟩
  simp [hisClosed, hactive]

/-- A connection of an active device is not closed. -/
theorem Watched.not_revoked {active : List DeviceId} {conn : Connection} (h : s.Watched)
    (hconn : s.conns c = some conn) (hactive : conn.deviceId ∈ active) :
    s.revoked active c = false := by
  refine List.any_eq_false.mpr fun entry hentry hrevoked => ?_
  simp only [Bool.and_eq_true, decide_eq_true_eq, Bool.not_eq_true', List.contains_eq_mem,
    decide_eq_false_iff_not] at hrevoked
  obtain ⟨⟨hc, -⟩, hinactive⟩ := hrevoked
  obtain ⟨found, hfound, hid⟩ := h.entries entry hentry
  rw [hc, hconn] at hfound
  cases hfound
  rw [hid] at hinactive
  exact hinactive hactive

theorem Watched.sweep (h : s.Watched) (active : List DeviceId) : (s.sweep active).Watched := by
  refine ⟨fun entry hentry => ?_, fun c conn' hconn' hw hopen => ?_,
    fun c conn' hconn' hdropped => ?_⟩
  · obtain ⟨conn, hconn, hid⟩ := h.entries entry (List.mem_of_mem_filter hentry)
    rw [sweep_conns, hconn]
    refine ⟨_, rfl, ?_⟩
    rw [hid]
    split <;> rfl
  · rw [sweep_conns, Option.map_eq_some_iff] at hconn'
    obtain ⟨conn, hconn, rfl⟩ := hconn'
    cases hrevoked : s.revoked active c with
    | true =>
        rw [hrevoked] at hopen
        cases hopen
    | false =>
        rw [hrevoked] at hw hopen
        have hentry := h.registered c conn hconn hw hopen
        refine List.mem_filter.mpr ⟨hentry, ?_⟩
        have hactive : conn.deviceId ∈ active := by
          by_contra hinactive
          rw [revoked_of_registered hconn hopen hentry hinactive] at hrevoked
          cases hrevoked
        have hisClosed : s.isClosed c = false := by
          rw [isClosed, hconn]
          exact hopen
        simpa [hisClosed] using hactive
  · rw [sweep_conns, Option.map_eq_some_iff] at hconn'
    obtain ⟨conn, hconn, rfl⟩ := hconn'
    cases hrevoked : s.revoked active c with
    | true => rfl
    | false =>
        rw [hrevoked] at hdropped
        exact h.dropped c conn hconn hdropped

/-- **A step keeps what is open and served in the registry.** -/
theorem Watched.step (h : s.Watched) (hstep : s.step e = some (s', o)) : s'.Watched := by
  obtain ⟨henqueue, haccept, hreadGrants, hregister, hspawn, hfinish, hderegister⟩ :=
    Connection.forward_moves s.devices
  obtain ⟨qenqueue, qaccept, qreadGrants, qspawn, qfinish, qderegister⟩ :=
    Connection.quiet_moves s.devices
  have hmapped : ∀ {c f} {g : State → State × Option DeviceGrant}, Connection.Forward f →
      Connection.Quiet f → (∀ t, (g t).1.conns = t.conns ∧ (g t).1.live = t.live) →
      (s.advance c f).map g = some (s', o) → s'.Watched := by
    intro c f g hf hquiet hg hmap
    obtain ⟨t, hadvance, ht⟩ := Option.map_eq_some_iff.mp hmap
    obtain ⟨hconns, hlive⟩ := hg t
    rw [ht] at hconns hlive
    refine h.advance hf hquiet hadvance hconns (hlive.trans ?_)
    obtain ⟨_, _, _, _, rfl⟩ := advance_eq_some hadvance
    rfl
  cases e with
  | quicAccept c peer =>
      dsimp only [State.step] at hstep
      split at hstep
      · next hnone =>
          cases hstep
          refine ⟨fun entry hentry => ?_, fun c' conn hconn hw hopen => ?_,
            fun c' conn hconn hdropped => ?_⟩
          · obtain ⟨conn, hconn, hid⟩ := h.entries entry hentry
            have hne : entry.2 ≠ c := by
              rintro heq
              rw [heq, hnone] at hconn
              cases hconn
            exact ⟨conn, (put_conns_of_ne hne).trans hconn, hid⟩
          · by_cases hc : c' = c
            · rw [hc, put_conns_self] at hconn
              cases hconn
              exact absurd hw.1 (by simp [Stage.rank])
            · rw [put_conns_of_ne hc] at hconn
              exact h.registered c' conn hconn hw hopen
          · by_cases hc : c' = c
            · rw [hc, put_conns_self] at hconn
              cases hconn
              cases hdropped
            · rw [put_conns_of_ne hc] at hconn
              exact h.dropped c' conn hconn hdropped
      · cases hstep
  | authorize c =>
      exact hmapped (Connection.forward_authorize _) (Connection.quiet_authorize _)
        (fun _ => ⟨rfl, rfl⟩) hstep
  | fail c => exact hmapped Connection.forward_fail Connection.quiet_fail (fun _ => ⟨rfl, rfl⟩) hstep
  | enqueue c =>
      dsimp only [State.step] at hstep
      split at hstep
      · exact hmapped henqueue qenqueue (fun _ => ⟨rfl, rfl⟩) hstep
      · cases hstep
  | accept c =>
      dsimp only [State.step] at hstep
      split at hstep
      · exact hmapped haccept qaccept (fun _ => ⟨rfl, rfl⟩) hstep
      · cases hstep
  | readGrants c =>
      dsimp only [State.step] at hstep
      split at hstep
      · exact hmapped hreadGrants qreadGrants (fun _ => ⟨rfl, rfl⟩) hstep
      · cases hstep
  | register c =>
      dsimp only [State.step] at hstep
      split at hstep
      · obtain ⟨t, hadvance, ht⟩ := Option.map_eq_some_iff.mp hstep
        cases ht
        exact h.register hadvance rfl rfl
      · cases hstep
  | spawn c =>
      dsimp only [State.step] at hstep
      split at hstep
      · exact hmapped hspawn qspawn (fun _ => ⟨rfl, rfl⟩) hstep
      · cases hstep
  | request c =>
      dsimp only [State.step] at hstep
      split at hstep
      · cases hstep
        exact h
      · cases hstep
  | disconnect c =>
      exact hmapped Connection.forward_disconnect Connection.quiet_disconnect
        (fun _ => ⟨rfl, rfl⟩) hstep
  | finish c => exact hmapped hfinish qfinish (fun _ => ⟨rfl, rfl⟩) hstep
  | deregister c =>
      obtain ⟨t, hadvance, ht⟩ := Option.map_eq_some_iff.mp hstep
      obtain ⟨conn, conn', hconn, hmove, rfl⟩ := advance_eq_some hadvance
      have hwatched : (s.put c conn').Watched :=
        h.advance hderegister qderegister hadvance rfl rfl
      cases ht
      refine hwatched.filter fun found hfound => ?_
      rw [put_conns_self] at hfound
      cases hfound
      obtain ⟨stage, hnext, rfl⟩ := Connection.move_eq_some hmove
      cases hstage : conn.stage <;> simp only [hstage, Option.some.injEq, reduceCtorEq] at hnext
      subst hnext
      simp [Connection.Watched, Stage.rank]
  | drop c => exact hmapped Connection.forward_drop Connection.quiet_drop (fun _ => ⟨rfl, rfl⟩) hstep
  | commit op =>
      dsimp only [State.step] at hstep
      split at hstep
      · cases hstep
        exact ⟨h.entries, h.registered, h.dropped⟩
      · cases hstep
  | sweepRead =>
      dsimp only [State.step] at hstep
      split at hstep
      · cases hstep
        exact ⟨h.entries, h.registered, h.dropped⟩
      · cases hstep
  | sweepClose =>
      dsimp only [State.step] at hstep
      split at hstep
      · cases hstep
        exact h.sweep _
      · cases hstep

end State

theorem watched_start (devices : Devices) : (State.start devices).Watched :=
  ⟨fun _ h => (nomatch h), fun _ _ h => (nomatch h), fun _ _ h => (nomatch h)⟩

/-- **What is open and being served is registered** in every state reached. -/
theorem watched_of_run {devices : Devices} {s : State} {trace : Trace}
    (h : Runs (State.start devices) trace s) : s.Watched :=
  h.invariant (fun _ t => t.Watched) (watched_start devices) fun _ _ _ _ _ hwatched _ hstep =>
    hwatched.step hstep

namespace State

variable {s s' : State} {e : Event} {o : Option DeviceGrant}

/-- What a step of one connection leaves alone. -/
theorem frame_of_advance {α : Type} {c : ConnId} {f : Connection → Option Connection}
    {g : State → State × Option DeviceGrant} (φ : State → α)
    (hput : ∀ conn, φ (s.put c conn) = φ s) (hg : ∀ t, φ (g t).1 = φ t)
    (h : (s.advance c f).map g = some (s', o)) : φ s' = φ s := by
  obtain ⟨t, hadvance, ht⟩ := Option.map_eq_some_iff.mp h
  obtain ⟨conn, conn', -, -, rfl⟩ := advance_eq_some hadvance
  have hframe := hg (s.put c conn')
  rw [ht] at hframe
  exact hframe.trans (hput conn')

/-- Only a commit changes the device table. -/
theorem devices_of_step (h : s.step e = some (s', o)) :
    s'.devices = s.devices ∨ ∃ op, s.devices.apply op = .ok s'.devices := by
  cases e with
  | commit op =>
      dsimp only [step] at h
      split at h
      · next hok =>
          cases h
          exact .inr ⟨op, hok⟩
      · cases h
  | sweepClose =>
      dsimp only [step] at h
      split at h
      · cases h
        exact .inl rfl
      · cases h
  | request c =>
      dsimp only [step] at h
      split at h
      · cases h
        exact .inl rfl
      · cases h
  | quicAccept c peer | sweepRead =>
      dsimp only [step] at h
      split at h
      · cases h
        exact .inl rfl
      · cases h
  | enqueue c | accept c | readGrants c | register c | spawn c =>
      dsimp only [step] at h
      split at h
      · exact .inl (frame_of_advance State.devices (fun _ => rfl) (fun _ => rfl) h)
      · cases h
  | authorize c | fail c | disconnect c | finish c | deregister c | drop c =>
      exact .inl (frame_of_advance State.devices (fun _ => rfl) (fun _ => rfl) h)

/-- The list a sweep has read stays the one it goes by until it is done. -/
theorem sweeper_of_step {active : List DeviceId} (h : s.step e = some (s', o))
    (hlisted : s.sweeper = .listed active) (hne : e ≠ .sweepClose) :
    s'.sweeper = .listed active := by
  rw [← hlisted]
  cases e with
  | sweepClose => exact absurd rfl hne
  | sweepRead =>
      dsimp only [step] at h
      rw [hlisted, if_neg (by simp)] at h
      cases h
  | commit op | quicAccept c peer | request c =>
      dsimp only [step] at h
      split at h
      · cases h
        rfl
      · cases h
  | enqueue c | accept c | readGrants c | register c | spawn c =>
      dsimp only [step] at h
      split at h
      · exact frame_of_advance State.sweeper (fun _ => rfl) (fun _ => rfl) h
      · cases h
  | authorize c | fail c | disconnect c | finish c | deregister c | drop c =>
      exact frame_of_advance State.sweeper (fun _ => rfl) (fun _ => rfl) h

/-- The stage a connection has reached. -/
def Reached (s : State) (c : ConnId) (rank : Nat) : Prop :=
  ∃ conn, s.conns c = some conn ∧ rank ≤ conn.stage.rank

/-- Past the handshake, what has been reached stays reached. -/
theorem Reached.step {c : ConnId} {rank : Nat} (hrank : 2 < rank) (h : s.Reached c rank)
    (hstep : s.step e = some (s', o)) : s'.Reached c rank := by
  obtain ⟨conn, hconn, hle⟩ := h
  obtain ⟨conn', hconn', hlater⟩ := ahead_of_step hstep c conn hconn
  exact ⟨conn', hconn', hle.trans (hlater.rank (by omega))⟩

/-- Where a step of one connection leads. -/
theorem reached_of_move {c : ConnId} {next : Stage → Option Stage} {rank : Nat}
    {g : State → State × Option DeviceGrant} (hg : ∀ t, (g t).1.conns = t.conns)
    (hnext : ∀ stage stage', next stage = some stage' → rank ≤ stage'.rank)
    (h : (s.advance c (Connection.move next)).map g = some (s', o)) : s'.Reached c rank := by
  obtain ⟨t, hadvance, ht⟩ := Option.map_eq_some_iff.mp h
  obtain ⟨conn, conn', -, hmove, rfl⟩ := advance_eq_some hadvance
  obtain ⟨stage, hstage, rfl⟩ := Connection.move_eq_some hmove
  have hconns := hg (s.put c { conn with stage })
  rw [ht] at hconns
  refine ⟨{ conn with stage }, ?_, hnext _ _ hstage⟩
  show s'.conns c = _
  rw [hconns, put_conns_self]

end State

/-! ### What a run establishes -/

section Established

variable {s₀ s : State} {trace : Trace} {c : ConnId} {o : Option DeviceGrant}

/-- The peer of a connection is the one it was accepted from. -/
theorem peer_of_quicAccept {peer : PublicKey} (h : Runs s₀ trace s)
    (hmem : (.quicAccept c peer, o) ∈ trace) : ∃ conn, s.conns c = some conn ∧ conn.peer = peer := by
  refine h.established (fun t => ∃ conn, t.conns c = some conn ∧ conn.peer = peer) ?_ ?_ hmem
  · intro t t' o' hstep
    dsimp only [State.step] at hstep
    split at hstep
    · cases hstep
      exact ⟨_, State.put_conns_self, rfl⟩
    · cases hstep
  · rintro t e t' o' ⟨conn, hconn, hpeer⟩ hstep
    obtain ⟨conn', hconn', hlater⟩ := State.ahead_of_step hstep c conn hconn
    exact ⟨conn', hconn', hlater.peer.trans hpeer⟩

/-- The device of a committed revocation is revoked. -/
theorem revoked_of_commit {id : DeviceId} {now : Int} (h : Runs s₀ trace s)
    (hmem : (.commit (.revoke id now), o) ∈ trace) : s.devices.Revoked id := by
  refine h.established (fun t => t.devices.Revoked id) ?_ ?_ hmem
  · intro t t' o' hstep
    dsimp only [State.step] at hstep
    split at hstep
    · next hok =>
        cases hstep
        exact Devices.revoke_revoked hok
    · cases hstep
  · intro t e t' o' hrevoked hstep
    rcases State.devices_of_step hstep with hsame | ⟨op, hop⟩
    · rwa [hsame]
    · exact Devices.apply_revoked hrevoked hop

/-- How far a connection is that was registered. -/
theorem reached_of_register (h : Runs s₀ trace s) (hmem : (.register c, o) ∈ trace) :
    s.Reached c 6 := by
  refine h.established (fun t => t.Reached c 6) ?_
    (fun t e t' o' hreached hstep => hreached.step (by decide) hstep) hmem
  intro t t' o' hstep
  dsimp only [State.step] at hstep
  split at hstep
  · refine State.reached_of_move (fun _ => rfl) (fun stage stage' hnext => ?_) hstep
    cases stage <;> simp only [Option.some.injEq, reduceCtorEq] at hnext
    subst hnext
    exact Nat.le_refl _
  · cases hstep

/-- How far a connection is that was taken from the queue. -/
theorem reached_of_accept (h : Runs s₀ trace s) (hmem : (.accept c, o) ∈ trace) :
    s.Reached c 4 := by
  refine h.established (fun t => t.Reached c 4) ?_
    (fun t e t' o' hreached hstep => hreached.step (by decide) hstep) hmem
  intro t t' o' hstep
  dsimp only [State.step] at hstep
  split at hstep
  · refine State.reached_of_move (fun _ => rfl) (fun stage stage' hnext => ?_) hstep
    cases stage <;> simp only [Option.some.injEq, reduceCtorEq] at hnext
    subst hnext
    exact Nat.le_refl _
  · cases hstep

/-- How far a connection is that was served. -/
theorem reached_of_request (h : Runs s₀ trace s) (hmem : (.request c, o) ∈ trace) :
    s.Reached c 7 := by
  refine h.established (fun t => t.Reached c 7) ?_
    (fun t e t' o' hreached hstep => hreached.step (by decide) hstep) hmem
  intro t t' o' hstep
  dsimp only [State.step] at hstep
  split at hstep
  · next hconn =>
      cases hstep
      exact ⟨_, hconn, Nat.le_refl _⟩
  · cases hstep

end Established

/-! ### When a revocation is felt -/

theorem liveAllowlist_of_revoked {devices : Devices} {peer : PublicKey}
    (h : devices.Revoked (fromPublicKey peer)) : liveAllowlist devices peer = false := by
  unfold liveAllowlist
  have hnone : (devices.listActive.map Device.publicKey).filter (fun key => key = peer) = [] := by
    rw [List.filter_eq_nil_iff]
    intro key hkey
    obtain ⟨device, hdevice, rfl⟩ := List.mem_map.mp hkey
    have hne := Devices.not_active_of_revoked h hdevice
    rw [decide_eq_true_eq]
    rintro rfl
    exact hne device.id_eq
  rw [hnone]
  rfl

variable {devices : Devices} {s₁ s₂ s₃ s₄ : State} {t₁ t₂ : Trace} {c : ConnId}
  {conn : Connection} {now : Int} {o₁ o₂ o₃ o₄ : Option DeviceGrant}

/-- A connection that is checked after the revocation is refused. -/
theorem refused_of_authorize (hrun : Runs (.start devices) t₁ s₁) (hconn : s₁.conns c = some conn)
    (hrevoke : (.commit (.revoke conn.deviceId now), o₁) ∈ t₁)
    (hstep : s₁.step (.authorize c) = some (s₂, o₂)) :
    conn.stage = .handshaking ∧ ∃ conn', s₂.conns c = some conn' ∧ conn'.stage = .refused := by
  obtain ⟨t, hadvance, ht⟩ := Option.map_eq_some_iff.mp hstep
  cases ht
  obtain ⟨found, conn', hfound, hauthorize, rfl⟩ := State.advance_eq_some hadvance
  rw [hconn] at hfound
  cases hfound
  unfold Connection.authorize at hauthorize
  split at hauthorize
  · next hstage =>
      rw [liveAllowlist_of_revoked (revoked_of_commit hrun hrevoke), if_neg Bool.false_ne_true]
        at hauthorize
      cases hauthorize
      exact ⟨hstage, _, State.put_conns_self, rfl⟩
  · cases hauthorize

/-- **No connection checked after a revocation is taken or served**, before or
after. -/
theorem refused_after_revoke (hrun : Runs (.start devices) t₁ s₁)
    (hconn : s₁.conns c = some conn) (hrevoke : (.commit (.revoke conn.deviceId now), o₁) ∈ t₁)
    (hstep : s₁.step (.authorize c) = some (s₂, o₂)) (hrest : Runs s₂ t₂ s₃)
    (o : Option DeviceGrant) : (.accept c, o) ∉ t₁ ++ t₂ ∧ (.request c, o) ∉ t₁ ++ t₂ := by
  obtain ⟨hstage, conn', hconn', hrefused⟩ := refused_of_authorize hrun hconn hrevoke hstep
  obtain ⟨final, hfinal, hlater⟩ := later_of_run hrest c conn' hconn'
  have hfinalRefused := hlater.refused hrefused
  -- What was taken or served before has come further than a handshake.
  have hbefore : ∀ rank, 2 ≤ rank → ¬ s₁.Reached c rank := by
    rintro rank hrank ⟨found, hfound, hle⟩
    rw [hconn] at hfound
    cases hfound
    rw [hstage, Stage.rank] at hle
    omega
  have hafter : ∀ rank, 0 < rank → ¬ s₃.Reached c rank := by
    rintro rank hrank ⟨found, hfound, hle⟩
    rw [hfinal] at hfound
    cases hfound
    rw [hfinalRefused, Stage.rank] at hle
    omega
  constructor
  · intro hmem
    rcases List.mem_append.mp hmem with hmem | hmem
    · exact hbefore 4 (by decide) (reached_of_accept hrun hmem)
    · exact hafter 4 (by decide) (reached_of_accept hrest hmem)
  · intro hmem
    rcases List.mem_append.mp hmem with hmem | hmem
    · exact hbefore 7 (by decide) (reached_of_request hrun hmem)
    · exact hafter 7 (by decide) (reached_of_request hrest hmem)

/-- A sweep goes by the list it has read until it is done. -/
theorem listed_of_run {active : List DeviceId} (hlisted : s₂.sweeper = .listed active)
    (hrun : Runs s₂ t₂ s₃) (hnone : ∀ o, (.sweepClose, o) ∉ t₂) :
    s₃.sweeper = .listed active := by
  refine hrun.invariant
    (fun trace s => (∀ o, (.sweepClose, o) ∉ trace) → s.sweeper = .listed active)
    (fun _ => hlisted) ?_ hnone
  intro trace s e s' o ih _ hstep hnone
  refine State.sweeper_of_step hstep (ih fun o' hmem => hnone o' (List.mem_append_left _ hmem)) ?_
  rintro rfl
  exact hnone o (List.mem_append_right _ (List.mem_singleton_self _))

/-- What a pass of the sweep after the registration of a connection and the
revocation of its device has done by its end. -/
def SweptTo (P : Connection → Prop) : Prop :=
  ∀ {devices : Devices} {s₁ s₂ s₃ s₄ : State} {t₁ t₂ : Trace} {c : ConnId} {conn : Connection}
    {now : Int} {o₁ o₂ o₃ o₄ : Option DeviceGrant},
    Runs (.start devices) t₁ s₁ → (.register c, o₁) ∈ t₁ → s₁.conns c = some conn →
    (.commit (.revoke conn.deviceId now), o₂) ∈ t₁ → s₁.step .sweepRead = some (s₂, o₃) →
    Runs s₂ t₂ s₃ → (∀ o, (.sweepClose, o) ∉ t₂) → s₃.step .sweepClose = some (s₄, o₄) →
    ∃ conn', s₄.conns c = some conn' ∧ P conn'

/-- **What a sweep has done by its end**: a connection that was registered before
it is closed, unless its task has taken it off the registry already and is about
to drop it. -/
theorem swept : SweptTo fun conn => conn.closed = true ∨ conn.stage = .deregistered := by
  intro devices s₁ s₂ s₃ s₄ t₁ t₂ c conn now o₁ o₂ o₃ o₄ hrun hregister hconn hrevoke hread hrest
    hnone hclose
  -- The list was read after the revocation.
  have hrevoked := revoked_of_commit hrun hrevoke
  obtain ⟨active, hlisted, hinactive⟩ :
      ∃ active, s₂.sweeper = .listed active ∧ conn.deviceId ∉ active := by
    dsimp only [State.step] at hread
    split at hread
    · cases hread
      refine ⟨_, rfl, fun hmem => ?_⟩
      obtain ⟨device, hdevice, hid⟩ := List.mem_map.mp hmem
      exact Devices.not_active_of_revoked hrevoked hdevice hid
    · cases hread
  have hrest' : Runs s₁ ([(.sweepRead, o₃)] ++ t₂) s₃ :=
    .trans (.snoc .nil trivial hread) hrest
  -- The connection is where it was then, or further.
  obtain ⟨conn₃, hconn₃, hlater⟩ := later_of_run hrest' c conn hconn
  obtain ⟨found, hfound, hregistered⟩ := reached_of_register (hrun.trans hrest')
    (List.mem_append_left _ hregister)
  rw [hconn₃] at hfound
  cases hfound
  have hinactive₃ : conn₃.deviceId ∉ active := by
    rw [Connection.deviceId, hlater.peer]
    exact hinactive
  have hwatched := watched_of_run (hrun.trans hrest')
  have hlisted₃ := listed_of_run hlisted hrest hnone
  dsimp only [State.step] at hclose
  rw [hlisted₃] at hclose
  cases hclose
  rw [State.sweep_conns, hconn₃, Option.map_some]
  refine ⟨_, rfl, ?_⟩
  cases hclosed : conn₃.closed with
  | true =>
      left
      split
      · rfl
      · exact hclosed
  | false =>
      by_cases hle : conn₃.stage.rank ≤ 8
      · have hentry := hwatched.registered c conn₃ hconn₃ ⟨hregistered, hle⟩ hclosed
        rw [State.revoked_of_registered hconn₃ hclosed hentry hinactive₃]
        exact .inl rfl
      · right
        rcases Stage.last_of_rank (Nat.lt_of_not_le hle) with hstage | hstage
        · split
          · exact hstage
          · exact hstage
        · have hdropped := hwatched.dropped c conn₃ hconn₃ hstage
          rw [hclosed] at hdropped
          cases hdropped

/-- A sweep leaves the connections of the devices in the list it read alone. -/
theorem sweep_spares {active : List DeviceId} (hrun : Runs (.start devices) t₁ s₁)
    (hlisted : s₁.sweeper = .listed active) (hclose : s₁.step .sweepClose = some (s₂, o₁))
    (hconn : s₁.conns c = some conn) (hactive : conn.deviceId ∈ active) :
    s₂.conns c = some conn := by
  have hstep : s₁.step .sweepClose = some (s₁.sweep active, none) := by
    dsimp only [State.step]
    rw [hlisted]
  rw [hstep] at hclose
  cases hclose
  rw [State.sweep_conns, hconn, Option.map_some,
    (watched_of_run hrun).not_revoked hconn hactive]
  rfl

/-- **When a revocation is felt.**  No connection checked after it is ever taken
or served.  By the end of a sweep that started after the registration of a
connection and the revocation of its device, the connection is closed, or its
task has taken it off the registry and is about to drop it.  A sweep leaves the
connections of the devices in the list it read alone.  And what is open and being
served is registered at any time. -/
theorem revocation (devices : Devices) :
    (∀ {t₁ t₂ : Trace} {s₁ s₂ s₃ : State} {c : ConnId} {conn : Connection} {now : Int}
      {o₁ o₂ : Option DeviceGrant}, Runs (.start devices) t₁ s₁ → s₁.conns c = some conn →
      (.commit (.revoke conn.deviceId now), o₁) ∈ t₁ → s₁.step (.authorize c) = some (s₂, o₂) →
      Runs s₂ t₂ s₃ → ∀ o, (.accept c, o) ∉ t₁ ++ t₂ ∧ (.request c, o) ∉ t₁ ++ t₂) ∧
    SweptTo (fun conn => conn.closed = true ∨ conn.stage = .deregistered) ∧
    (∀ {t : Trace} {s s' : State} {c : ConnId} {conn : Connection} {active : List DeviceId}
      {o : Option DeviceGrant}, Runs (.start devices) t s → s.sweeper = .listed active →
      s.step .sweepClose = some (s', o) → s.conns c = some conn → conn.deviceId ∈ active →
      s'.conns c = some conn) ∧
    (∀ {t : Trace} {s : State} {c : ConnId} {conn : Connection} {grant : DeviceGrant},
      Runs (.start devices) t s → s.conns c = some conn → conn.stage = .serving grant →
      conn.closed = false → (conn.deviceId, c) ∈ s.live) := by
  refine ⟨refused_after_revoke, swept, sweep_spares, fun hrun hconn hserving hopen => ?_⟩
  refine (watched_of_run hrun).registered _ _ hconn ?_ hopen
  simp [Connection.Watched, hserving, Stage.rank]

/-- A phone that is revoked between the end of its task and the drop. -/
def lateRun : List Event :=
  [.commit (.pair (.replicate 1) "phone" none .empty 1), .quicAccept 0 (.replicate 1), .authorize 0,
    .enqueue 0, .accept 0, .readGrants 0, .register 0, .spawn 0, .finish 0, .deregister 0,
    .commit (.revoke (fromPublicKey (.replicate 1)) 2)]

/-- **Not every connection is closed by the sweep**: one that is off the registry
already, but not dropped yet, is still open at its end. -/
theorem open_after_sweep : ¬ SweptTo fun conn => conn.closed = true := by
  intro hclosed
  have hfinal : (exec State.step unguarded lateRun [] (.start .empty)).map
      (fun r => (r.2.conns 0, r.2.live, r.2.sweeper)) =
      some (some ⟨.replicate 1, .deregistered, false⟩, [], .sleeping) := by
    decide +kernel
  obtain ⟨⟨t₁, s₁⟩, hexec, hfacts⟩ := Option.map_eq_some_iff.mp hfinal
  simp only [Prod.mk.injEq] at hfacts
  obtain ⟨hconn, hlive, hsweeper⟩ := hfacts
  have hevents := events_of_exec hexec
  have hmem : ∀ e ∈ lateRun, ∃ o, (e, o) ∈ t₁ := by
    intro e he
    rw [List.map_nil, List.nil_append] at hevents
    rw [← hevents] at he
    obtain ⟨⟨e', o⟩, hentry, rfl⟩ := List.mem_map.mp he
    exact ⟨o, hentry⟩
  obtain ⟨o₁, hregister⟩ := hmem (.register 0) (by simp [lateRun])
  obtain ⟨o₂, hrevoke⟩ := hmem (.commit (.revoke (fromPublicKey (.replicate 1)) 2))
    (by simp [lateRun])
  have hread : s₁.step .sweepRead =
      some ({ s₁ with sweeper := .listed (s₁.devices.listActive.map Device.id) }, none) := by
    dsimp only [State.step]
    rw [if_pos hsweeper]
  obtain ⟨conn', hconn', hend⟩ := hclosed (run_of_exec lateRun hexec) hregister hconn hrevoke hread
    .nil (fun o h => nomatch h) rfl
  have hspared : State.revoked { s₁ with sweeper := .listed (s₁.devices.listActive.map Device.id) }
      (s₁.devices.listActive.map Device.id) 0 = false := by
    unfold State.revoked
    dsimp only
    rw [hlive]
    rfl
  rw [State.sweep_conns, hspared] at hconn'
  dsimp only at hconn'
  rw [hconn] at hconn'
  cases hconn'
  cases hend

end Server
