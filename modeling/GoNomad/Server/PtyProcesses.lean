import GoNomad.Lib.AssocList
import GoNomad.Lib.Run
import GoNomad.Server.PtyManager

/-!
# No process is lost

The operations on terminals in any order, with what their threads and processes do in
between, and with any call of the system failing.

* `Effect`, `step_effect` — what a step can do;
* `running_drop`, `drop_ends` — what runs when the manager is gone;
* `Sound.step` — what every step keeps;
* `owned_step_iff` — the steps that leave a running process without a session;
* `never_loses` — in runs without such steps no process is lost;
* `lost_child` — a run that loses one.
-/

namespace Server

open Proto UnixFs

namespace Host

variable {Parser : Type}

/-- A process is running. -/
def Running (h : Host Parser) (pid : Nat) : Prop :=
  (h.processes[pid]?).map Process.status = some .running

instance (h : Host Parser) (pid : Nat) : Decidable (h.Running pid) :=
  inferInstanceAs (Decidable (_ = _))

/-- What can happen. -/
inductive Event
  | spawn (detected : List Shell) (calls : SpawnCalls) (shell : Option Shell) (cwd : Option String)
      (cols rows : UInt16)
  | write (calls : WriteCalls) (id : UInt64) (data : List UInt8)
  | resize (resized : Bool) (id : UInt64) (cols rows : UInt16)
  | screen (id : UInt64)
  | kill (calls : KillCalls) (id : UInt64)
  | reapExited
  /-- The reader thread of a terminal read output. -/
  | output (id : UInt64) (bytes : List UInt8)
  /-- A process comes to its end. -/
  | exits (pid : Nat)
  /-- The watcher thread of a terminal finds its process at its end. -/
  | watch (id : UInt64)

/-- What an operation returned. -/
inductive Answer
  | spawned (result : Except PtyError UInt64)
  | done (result : Except PtyError Unit)
  | shown (result : Except PtyError ScreenFrame)
  | reaped (ids : List UInt64)
  | quiet

/-- One step. -/
def step (emulator : Emulator Parser) (h : Host Parser) : Event → Option (Host Parser × Answer)
  | .spawn detected calls shell cwd cols rows =>
      let result := (spawn emulator detected calls shell cwd cols rows).exec h
      some (result.2, .spawned result.1)
  | .write calls id data =>
      let result := (write calls id data).exec h
      some (result.2, .done result.1)
  | .resize resized id cols rows =>
      let result := (resize emulator resized id cols rows).exec h
      some (result.2, .done result.1)
  | .screen id => some (h, .shown (h.screen emulator id))
  | .kill calls id =>
      let result := (kill calls id).exec h
      some (result.2, .done result.1)
  | .reapExited => some (h.reapExited.2, .reaped h.reapExited.1)
  | .output id bytes =>
      match h.sessions.lookup id with
      | none => none
      | some session =>
          some (h.put id { session with parser := emulator.process session.parser bytes }, .quiet)
  | .exits pid => if h.Running pid then some (h.finish pid ⟨false, true⟩, .quiet) else none
  | .watch id =>
      match h.sessions.lookup id with
      | none => none
      | some session =>
          if h.Running session.child then none
          else some (h.put id { session with exited := true }, .quiet)

/-- The ids that were handed out. -/
def handedOut (trace : List (Event × Answer)) : List UInt64 :=
  trace.filterMap fun entry =>
    match entry.2 with
    | .spawned (.ok id) => some id
    | _ => none

/-- Every running process is the child of a session. -/
def Owned (h : Host Parser) : Prop :=
  ∀ pid, h.Running pid → ∃ id session, h.sessions.lookup id = some session ∧ session.child = pid

/-- A step leaves a running process without a session: a call fails after the child
started, or a child can be neither killed nor waited for. -/
def Orphans (h : Host Parser) : Event → Prop
  | .spawn detected calls shell cwd _ _ =>
      ∃ shell' dir e, startChild h detected calls shell cwd = .ok (shell', dir) ∧
        connect calls shell' = .error e
  | .kill calls id =>
      calls.killed = false ∧ calls.waited = false ∧
        ∃ session, h.sessions.lookup id = some session ∧ h.Running session.child
  | _ => False

/-- No step leaves a running process without a session, and no terminal starts once the
ids are used up. -/
def Careful (_ : List (Event × Answer)) (h : Host Parser) (e : Event) : Prop :=
  ¬ Orphans h e ∧
    ∀ detected calls shell cwd cols rows, e = .spawn detected calls shell cwd cols rows → h.nextId ≠ 0

/-- The sessions an operation is about. -/
def Concerns (h : Host Parser) (id : UInt64) : Event → Prop
  | .write _ id' _ | .resize _ id' _ _ | .screen id' | .kill _ id' | .output id' _ | .watch id' =>
      id = id'
  | .reapExited => ∃ session, h.sessions.lookup id = some session ∧ session.exited = true
  | .spawn .. | .exits _ => False

variable {emulator : Emulator Parser} {h t : Host Parser} {e : Event} {out : Answer}
  {id : UInt64} {pid : Nat} {trace : List (Event × Answer)}

/-! ### What a step can do -/

/-- **What a step can do.** -/
inductive Effect (emulator : Emulator Parser) (h : Host Parser) :
    Event → Answer → Host Parser → Prop
  | opened {detected : List Shell} {calls : SpawnCalls} {shell : Option Shell} {cwd : Option String}
      {cols rows : UInt16} {shell' : Shell} {dir : Location}
      (started : startChild h detected calls shell cwd = .ok (shell', dir))
      (connected : connect calls shell' = .ok ()) :
      Effect emulator h (.spawn detected calls shell cwd cols rows) (.spawned (.ok h.nextId))
        (h.opened emulator shell' cwd dir cols rows)
  | lost {detected : List Shell} {calls : SpawnCalls} {shell : Option Shell} {cwd : Option String}
      {cols rows : UInt16} {shell' : Shell} {dir : Location} {error : PtyError}
      (started : startChild h detected calls shell cwd = .ok (shell', dir))
      (failed : connect calls shell' = .error error) :
      Effect emulator h (.spawn detected calls shell cwd cols rows) (.spawned (.error error))
        (h.start (commandOf shell' cwd) dir)
  | refused {detected : List Shell} {calls : SpawnCalls} {shell : Option Shell}
      {cwd : Option String} {cols rows : UInt16} {error : PtyError}
      (failed : startChild h detected calls shell cwd = .error error) :
      Effect emulator h (.spawn detected calls shell cwd cols rows) (.spawned (.error error)) h
  | updates {e : Event} {out : Answer} {id : UInt64} {session session' : PtySession Parser}
      (found : h.sessions.lookup id = some session) (child : session'.child = session.child)
      (exited : session'.exited = true → session.exited = true ∨ ¬ h.Running session.child)
      (concerns : ∀ i, Concerns h i e ↔ i = id) (quiet : handedOut [(e, out)] = [])
      (careful : ¬ Orphans h e) :
      Effect emulator h e out (h.put id session')
  | keeps {e : Event} {out : Answer} (quiet : handedOut [(e, out)] = [])
      (careful : ¬ Orphans h e) : Effect emulator h e out h
  | closed {calls : KillCalls} {id : UInt64} {session : PtySession Parser}
      (found : h.sessions.lookup id = some session) :
      Effect emulator h (.kill calls id) (.done (.ok ()))
        (({ h with sessions := h.sessions.erase id } : Host Parser).finish session.child calls)
  | reaped : Effect emulator h .reapExited (.reaped h.reapExited.1) h.reapExited.2
  | ended {pid : Nat} : Effect emulator h (.exits pid) .quiet (h.finish pid ⟨false, true⟩)

/-- An operation on one terminal has an effect on its session, or none. -/
theorem Updates.effect (hupdates : h.Updates id t) (hconcerns : ∀ i, Concerns h i e ↔ i = id)
    (hquiet : handedOut [(e, out)] = []) (hcareful : ¬ Orphans h e) :
    Effect emulator h e out t := by
  rcases hupdates with hsame | ⟨session, session', hfound, hchild, hexited, ht⟩
  · rw [hsame]
    exact .keeps hquiet hcareful
  · rw [ht]
    exact .updates hfound hchild (fun hexit => .inl (hexited.symm.trans hexit)) hconcerns hquiet
      hcareful

theorem step_effect (hstep : step emulator h e = some (t, out)) : Effect emulator h e out t := by
  cases e with
  | spawn detected calls shell cwd cols rows =>
      rw [step, spawn_exec] at hstep
      cases hstart : startChild h detected calls shell cwd with
      | error error =>
          rw [hstart] at hstep
          cases hstep
          exact .refused hstart
      | ok started =>
          obtain ⟨shell', dir⟩ := started
          rw [hstart] at hstep
          dsimp only at hstep
          cases hconnect : connect calls shell' with
          | error error =>
              rw [hconnect] at hstep
              cases hstep
              exact .lost hstart hconnect
          | ok u =>
              rw [hconnect] at hstep
              cases hstep
              exact .opened hstart hconnect
  | write calls id data =>
      cases hstep
      exact (write_updates calls data).effect (fun _ => Iff.rfl) rfl not_false
  | resize resized id cols rows =>
      cases hstep
      exact (resize_updates resized cols rows).effect (fun _ => Iff.rfl) rfl not_false
  | screen id =>
      cases hstep
      exact .keeps rfl not_false
  | kill calls id =>
      rw [step, kill_exec] at hstep
      cases hfound : h.sessions.lookup id with
      | none =>
          rw [hfound] at hstep
          cases hstep
          refine .keeps rfl ?_
          rintro ⟨-, -, session, hsession, -⟩
          cases hfound.symm.trans hsession
      | some session =>
          rw [hfound] at hstep
          cases hstep
          exact .closed hfound
  | reapExited =>
      cases hstep
      exact .reaped
  | output id bytes =>
      rw [step] at hstep
      cases hfound : h.sessions.lookup id with
      | none =>
          rw [hfound] at hstep
          cases hstep
      | some session =>
          rw [hfound] at hstep
          cases hstep
          exact .updates hfound rfl .inl (fun _ => Iff.rfl) rfl not_false
  | exits pid =>
      rw [step] at hstep
      split_ifs at hstep
      cases hstep
      exact .ended
  | watch id =>
      rw [step] at hstep
      cases hfound : h.sessions.lookup id with
      | none =>
          rw [hfound] at hstep
          cases hstep
      | some session =>
          rw [hfound] at hstep
          dsimp only at hstep
          split_ifs at hstep with hrunning
          cases hstep
          exact .updates hfound rfl (fun _ => .inr hrunning) (fun _ => Iff.rfl) rfl not_false

/-! ### Lookups after a step -/

theorem lookup_put (h : Host Parser) (id i : UInt64) (session : PtySession Parser) :
    (h.put id session).sessions.lookup i =
      if i = id then some session else h.sessions.lookup i :=
  AList.lookup_insert_ite ..

theorem lookup_foldl_erase (ids : List UInt64) (sessions : Sessions Parser) (i : UInt64) :
    (ids.foldl (fun sessions id => sessions.erase id) sessions).lookup i =
      if i ∈ ids then none else sessions.lookup i := by
  induction ids generalizing sessions with
  | nil => rfl
  | cons id ids ih =>
      rw [List.foldl_cons, ih, AList.lookup_erase_ite]
      grind

theorem length_foldl_erase (ids : List UInt64) (sessions : Sessions Parser) :
    (ids.foldl (fun sessions id => sessions.erase id) sessions).keys.length ≤
      sessions.keys.length := by
  induction ids generalizing sessions with
  | nil => exact Nat.le_refl _
  | cons id ids ih =>
      have hle := List.length_erase_le (a := id) (l := sessions.keys)
      rw [← AList.keys_erase] at hle
      exact (ih _).trans hle

theorem mem_dead : id ∈ h.dead ↔ ∃ session, h.sessions.lookup id = some session ∧
    session.exited = true := by
  unfold dead
  constructor
  · intro hmem
    obtain ⟨⟨i, session⟩, hentry, rfl⟩ := List.mem_map.mp hmem
    obtain ⟨hentry, hexited⟩ := List.mem_filter.mp hentry
    exact ⟨session, AList.mem_lookup_iff.mpr hentry, hexited⟩
  · intro hsession
    obtain ⟨session, hfound, hexited⟩ := hsession
    exact List.mem_map.mpr ⟨⟨id, session⟩,
      List.mem_filter.mpr ⟨AList.mem_lookup_iff.mp hfound, hexited⟩, rfl⟩

theorem lookup_reapExited (i : UInt64) :
    h.reapExited.2.sessions.lookup i = if i ∈ h.dead then none else h.sessions.lookup i :=
  lookup_foldl_erase h.dead h.sessions i

/-! ### Running processes after a step -/

theorem Running.lt (hrunning : h.Running pid) : pid < h.processes.length := by
  unfold Running at hrunning
  obtain ⟨p, hp, -⟩ := Option.map_eq_some_iff.mp hrunning
  exact (List.getElem?_eq_some_iff.mp hp).1

theorem running_start (command : Command) (dir : Location) :
    (h.start command dir).Running pid ↔ h.Running pid ∨ pid = h.processes.length := by
  unfold Running start
  rw [List.getElem?_append]
  split_ifs with hlt
  · constructor
    · exact .inl
    · intro hor
      apply hor.resolve_right
      omega
  · constructor
    · intro hsome
      obtain ⟨p, hp, -⟩ := Option.map_eq_some_iff.mp hsome
      have hlt := (List.getElem?_eq_some_iff.mp hp).1
      rw [List.length_singleton] at hlt
      right
      omega
    · intro hor
      rcases hor with hrunning | rfl
      · exact absurd (Running.lt hrunning) hlt
      · simp

theorem finish_running (p : Process) (killed waited : Bool) :
    (p.finish killed waited).status = .running ↔
      p.status = .running ∧ killed = false ∧ waited = false := by
  unfold Process.finish
  cases hstatus : p.status with
  | running => cases killed <;> cases waited <;> simp [hstatus]
  | exited => simp [hstatus]
  | killed => simp [hstatus]

theorem running_finish (child : Nat) (calls : KillCalls) :
    (h.finish child calls).Running pid ↔
      h.Running pid ∧ (pid = child → calls.killed = false ∧ calls.waited = false) := by
  unfold Running finish
  rw [List.getElem?_modify]
  cases hp : h.processes[pid]? with
  | none => simp
  | some p =>
      have hfinish := finish_running p calls.killed calls.waited
      by_cases hpid : child = pid
      · simp [hpid, hfinish]
      · simp [hpid, Ne.symm hpid]

/-- **What runs when the manager is gone** is what could not be killed. -/
theorem running_drop (kills : UInt64 → Bool) :
    (h.drop kills).Running pid ↔ h.Running pid ∧ ∀ id session,
      h.sessions.lookup id = some session → pid = session.child → kills id = false := by
  have hfold : ∀ (entries : List (Sigma fun _ : UInt64 => PtySession Parser)) (h : Host Parser),
      (entries.foldl (fun h entry => h.finish entry.2.child ⟨kills entry.1, false⟩) h).Running pid ↔
        h.Running pid ∧ ∀ entry ∈ entries, pid = entry.2.child → kills entry.1 = false := by
    intro entries
    induction entries with
    | nil => intro h; simp
    | cons entry entries ih =>
        intro h
        rw [List.foldl_cons, ih, running_finish, List.forall_mem_cons]
        simp [and_assoc]
  unfold drop
  rw [hfold]
  refine and_congr_right fun _ => ⟨?_, ?_⟩
  · intro hall id session hfound
    exact hall ⟨id, session⟩ (AList.mem_lookup_iff.mp hfound)
  · intro hall entry hentry
    exact hall entry.1 entry.2 (AList.mem_lookup_iff.mpr hentry)

/-- **Terminals do not outlive the daemon** where every running process has a session and
can be killed. -/
theorem drop_ends {kills : UInt64 → Bool} (howned : h.Owned) (hkills : ∀ id, kills id = true) :
    ¬ (h.drop kills).Running pid := by
  intro hrunning
  obtain ⟨hrun, hall⟩ := (running_drop kills).mp hrunning
  obtain ⟨id, session, hfound, hchild⟩ := howned pid hrun
  have hkilled := hkills id
  rw [hall id session hfound hchild.symm] at hkilled
  cases hkilled

/-! ### What every step keeps -/

/-- What holds of the ids that were handed out, the sessions and the processes. -/
structure Sound (issued : List UInt64) (h : Host Parser) : Prop where
  increasing : issued.Pairwise (· < ·)
  issued_lt : ∀ id ∈ issued, h.nextId = 0 ∨ id < h.nextId
  filed : ∀ id session, h.sessions.lookup id = some session → id ∈ issued
  capped : h.sessions.keys.length ≤ h.maxSessions
  child_lt : ∀ id session, h.sessions.lookup id = some session →
    session.child < h.processes.length
  distinct : ∀ id id' session session', h.sessions.lookup id = some session →
    h.sessions.lookup id' = some session' → session.child = session'.child → id = id'
  ended : ∀ id session, h.sessions.lookup id = some session → session.exited = true →
    ¬ h.Running session.child
  owned : h.Owned

theorem lt_succ {a b : UInt64} (hle : a ≤ b) : b + 1 = 0 ∨ a < b + 1 := by
  have htoNat := UInt64.toNat_add b 1
  have hbound := b.toNat_lt
  rw [UInt64.le_iff_toNat_le] at hle
  rw [UInt64.lt_iff_toNat_lt, ← UInt64.toNat_inj, htoNat]
  simp only [UInt64.reduceToNat]
  omega

variable {issued : List UInt64}

/-- An id that was not handed out is not filed. -/
theorem Sound.fresh (hsound : Sound issued h) (hnext : h.nextId ≠ 0) :
    h.sessions.lookup h.nextId = none := by
  cases hfound : h.sessions.lookup h.nextId with
  | none => rfl
  | some session =>
      have hlt := (hsound.issued_lt _ (hsound.filed _ _ hfound)).resolve_left hnext
      exact absurd hlt (UInt64.lt_irrefl _)

theorem lookup_opened (shell : Shell) (cwd : Option String) (dir : Location) (cols rows : UInt16)
    (i : UInt64) :
    (h.opened emulator shell cwd dir cols rows).sessions.lookup i =
      if i = h.nextId then
        some (newSession emulator shell h.processes.length (max cols 1) (max rows 1))
      else h.sessions.lookup i :=
  lookup_put _ _ _ _

theorem length_opened (shell : Shell) (cwd : Option String) (dir : Location) (cols rows : UInt16) :
    (h.opened emulator shell cwd dir cols rows).processes.length = h.processes.length + 1 := by
  unfold opened put start
  exact List.length_append

theorem running_opened (shell : Shell) (cwd : Option String) (dir : Location)
    (cols rows : UInt16) :
    (h.opened emulator shell cwd dir cols rows).Running pid ↔
      h.Running pid ∨ pid = h.processes.length :=
  running_start _ _

/-- **A terminal that starts** keeps what holds. -/
theorem Sound.opened (hsound : Sound issued h) (hnext : h.nextId ≠ 0)
    (hlt : h.sessions.keys.length < h.maxSessions) (shell : Shell) (cwd : Option String)
    (dir : Location) (cols rows : UInt16) :
    Sound (issued ++ [h.nextId]) (h.opened emulator shell cwd dir cols rows) := by
  have hbelow : ∀ id ∈ issued, id < h.nextId := fun id hid =>
    (hsound.issued_lt id hid).resolve_left hnext
  constructor
  · refine List.pairwise_append.mpr ⟨hsound.increasing, List.pairwise_singleton _ _, ?_⟩
    intro id hid id' hid'
    rw [List.mem_singleton.mp hid']
    exact hbelow id hid
  · intro id hid
    apply lt_succ
    rcases List.mem_append.mp hid with hid | hid
    · exact UInt64.le_of_lt (hbelow id hid)
    · rw [List.mem_singleton.mp hid]
      exact UInt64.le_refl _
  · intro id session hfound
    rw [lookup_opened] at hfound
    split_ifs at hfound with hid
    · exact List.mem_append_right _ (List.mem_singleton.mpr hid)
    · exact List.mem_append_left _ (hsound.filed id session hfound)
  · have hkeys : (h.opened emulator shell cwd dir cols rows).sessions.keys =
        h.nextId :: h.sessions.keys.erase h.nextId := AList.keys_insert _
    have hle := List.length_erase_le (a := h.nextId) (l := h.sessions.keys)
    rw [hkeys, List.length_cons]
    exact (Nat.succ_le_succ hle).trans hlt
  · intro id session hfound
    rw [lookup_opened] at hfound
    rw [length_opened]
    split_ifs at hfound with hid
    · cases hfound
      exact Nat.lt_succ_self _
    · exact Nat.lt_succ_of_lt (hsound.child_lt id session hfound)
  · intro id id' session session' hfound hfound' hchild
    rw [lookup_opened] at hfound hfound'
    -- No earlier session has the child that was just started.
    split_ifs at hfound with hid <;> split_ifs at hfound' with hid'
    · exact hid.trans hid'.symm
    · cases hfound
      exact absurd hchild.symm (Nat.ne_of_lt (hsound.child_lt id' session' hfound'))
    · cases hfound'
      exact absurd hchild (Nat.ne_of_lt (hsound.child_lt id session hfound))
    · exact hsound.distinct id id' session session' hfound hfound' hchild
  · intro id session hfound hexited hrunning
    rw [lookup_opened] at hfound
    split_ifs at hfound with hid
    · cases hfound
      cases hexited
    · rcases (running_opened ..).mp hrunning with hrunning | hpid
      · exact hsound.ended id session hfound hexited hrunning
      · exact absurd hpid (Nat.ne_of_lt (hsound.child_lt id session hfound))
  · intro pid hrunning
    rcases (running_opened ..).mp hrunning with hrunning | rfl
    · obtain ⟨id, session, hfound, hchild⟩ := hsound.owned pid hrunning
      refine ⟨id, session, ?_, hchild⟩
      rw [lookup_opened, if_neg]
      · exact hfound
      · rintro rfl
        cases (hsound.fresh hnext).symm.trans hfound
    · refine ⟨h.nextId, newSession emulator shell h.processes.length (max cols 1) (max rows 1),
        ?_, rfl⟩
      rw [lookup_opened, if_pos rfl]

/-- **A session that changes** keeps what holds. -/
theorem Sound.put {session session' : PtySession Parser} (hsound : Sound issued h)
    (hfound : h.sessions.lookup id = some session) (hchild : session'.child = session.child)
    (hexited : session'.exited = true → session.exited = true ∨ ¬ h.Running session.child) :
    Sound issued (h.put id session') := by
  have hkeys : (h.put id session').sessions.keys.length = h.sessions.keys.length := by
    have hmem : id ∈ h.sessions.keys := AList.lookup_isSome.mp (by rw [hfound]; rfl)
    have hpos := List.length_pos_of_mem hmem
    show (AList.insert id session' h.sessions).keys.length = _
    rw [AList.keys_insert, List.length_cons, List.length_erase_of_mem hmem]
    omega
  -- Every session there is stands for one that was there.
  have hbefore : ∀ i s, (h.put id session').sessions.lookup i = some s →
      ∃ s', h.sessions.lookup i = some s' ∧ s.child = s'.child ∧
        (s.exited = true → s'.exited = true ∨ ¬ h.Running s'.child) := by
    intro i s hs
    rw [lookup_put] at hs
    split_ifs at hs with hi
    · cases hs
      rw [hi]
      exact ⟨session, hfound, hchild, hexited⟩
    · exact ⟨s, hs, rfl, .inl⟩
  constructor
  · exact hsound.increasing
  · exact hsound.issued_lt
  · intro i s hs
    obtain ⟨s', hs', -, -⟩ := hbefore i s hs
    exact hsound.filed i s' hs'
  · rw [hkeys]
    exact hsound.capped
  · intro i s hs
    obtain ⟨s', hs', hsame, -⟩ := hbefore i s hs
    rw [hsame]
    exact hsound.child_lt i s' hs'
  · intro i j s r hs hr hsame
    obtain ⟨s', hs', hsc, -⟩ := hbefore i s hs
    obtain ⟨r', hr', hrc, -⟩ := hbefore j r hr
    exact hsound.distinct i j s' r' hs' hr' (hsc.symm.trans (hsame.trans hrc))
  · intro i s hs hexit hrunning
    obtain ⟨s', hs', hsame, himp⟩ := hbefore i s hs
    rw [hsame] at hrunning
    rcases himp hexit with hexit' | hnot
    · exact hsound.ended i s' hs' hexit' hrunning
    · exact hnot hrunning
  · intro pid hrunning
    obtain ⟨i, s, hs, hpid⟩ := hsound.owned pid hrunning
    by_cases hi : i = id
    · refine ⟨id, session', by rw [lookup_put, if_pos rfl], ?_⟩
      rw [hi, hfound] at hs
      cases hs
      exact hchild.trans hpid
    · exact ⟨i, s, by rw [lookup_put, if_neg hi]; exact hs, hpid⟩

/-- Sessions that go, and processes that come to an end, keep what holds as long as no
process goes on without its session. -/
theorem Sound.fewer (hsound : Sound issued h) (hnext : t.nextId = h.nextId)
    (hmax : t.maxSessions = h.maxSessions)
    (hsessions : ∀ i s, t.sessions.lookup i = some s → h.sessions.lookup i = some s)
    (hkeys : t.sessions.keys.length ≤ h.sessions.keys.length)
    (hlength : t.processes.length = h.processes.length)
    (hrunning : ∀ pid, t.Running pid → h.Running pid) (howned : t.Owned) : Sound issued t := by
  constructor
  · exact hsound.increasing
  · rw [hnext]
    exact hsound.issued_lt
  · exact fun i s hs => hsound.filed i s (hsessions i s hs)
  · rw [hmax]
    exact hkeys.trans hsound.capped
  · rw [hlength]
    exact fun i s hs => hsound.child_lt i s (hsessions i s hs)
  · exact fun i j s r hs hr => hsound.distinct i j s r (hsessions i s hs) (hsessions j r hr)
  · exact fun i s hs hexited hrun =>
      hsound.ended i s (hsessions i s hs) hexited (hrunning _ hrun)
  · exact howned

/-- **When a kill** leaves every running process with a session. -/
theorem owned_closed_iff {session : PtySession Parser} {calls : KillCalls}
    (hsound : Sound issued h) (hfound : h.sessions.lookup id = some session) :
    (({ h with sessions := h.sessions.erase id } : Host Parser).finish session.child calls).Owned ↔
      ¬ (calls.killed = false ∧ calls.waited = false ∧ h.Running session.child) := by
  constructor
  · intro howned hcalls
    obtain ⟨hkilled, hwaited, hrunning⟩ := hcalls
    obtain ⟨i, s, hs, hchild⟩ := howned session.child
      ((running_finish _ _).mpr ⟨hrunning, fun _ => ⟨hkilled, hwaited⟩⟩)
    have hs' : (h.sessions.erase id).lookup i = some s := hs
    rw [AList.lookup_erase_ite] at hs'
    split_ifs at hs' with hi
    exact hi (hsound.distinct i id s session hs' hfound hchild)
  · intro hcalls pid hrunning
    obtain ⟨hrunning, hpid⟩ := (running_finish _ _).mp hrunning
    obtain ⟨i, s, hs, hchild⟩ := hsound.owned pid hrunning
    refine ⟨i, s, ?_, hchild⟩
    show (h.sessions.erase id).lookup i = some s
    rw [AList.lookup_erase_ite, if_neg]
    · exact hs
    · rintro rfl
      rw [hfound] at hs
      cases hs
      obtain ⟨hkilled, hwaited⟩ := hpid hchild.symm
      exact hcalls ⟨hkilled, hwaited, hchild ▸ hrunning⟩

/-- Ended processes keep what holds. -/
theorem Sound.ended_step (hsound : Sound issued h) :
    Sound issued (h.finish pid ⟨false, true⟩) := by
  refine hsound.fewer rfl rfl (fun _ _ hs => hs) (Nat.le_refl _) ?_ ?_ ?_
  · exact List.length_modify _ _ _
  · exact fun q hrunning => ((running_finish _ _).mp hrunning).1
  · exact fun q hrunning => hsound.owned q ((running_finish _ _).mp hrunning).1

/-- A session that is reaped has no running process. -/
theorem Sound.reaped (hsound : Sound issued h) : Sound issued h.reapExited.2 := by
  refine hsound.fewer rfl rfl ?_ (length_foldl_erase _ _) rfl (fun _ hrunning => hrunning) ?_
  · intro i s hs
    rw [lookup_reapExited] at hs
    split_ifs at hs
    exact hs
  · intro q hrunning
    obtain ⟨i, s, hs, hchild⟩ := hsound.owned q hrunning
    refine ⟨i, s, ?_, hchild⟩
    rw [lookup_reapExited, if_neg]
    · exact hs
    · intro hdead
      obtain ⟨s', hs', hexited⟩ := mem_dead.mp hdead
      rw [hs] at hs'
      cases hs'
      exact hsound.ended i s hs hexited (hchild ▸ hrunning)

/-- A child that started, and has no session, runs on. -/
theorem not_owned_start (hsound : Sound issued h) (command : Command) (dir : Location) :
    ¬ (h.start command dir).Owned := by
  intro howned
  obtain ⟨i, s, hs, hchild⟩ := howned h.processes.length ((running_start _ _).mpr (.inr rfl))
  exact absurd hchild (Nat.ne_of_lt (hsound.child_lt i s hs))

theorem handedOut_append (trace : List (Event × Answer)) (e : Event) (out : Answer) :
    handedOut (trace ++ [(e, out)]) = handedOut trace ++ handedOut [(e, out)] :=
  List.filterMap_append

/-- **Which steps leave a running process without a session**, where the ids are not used
up. -/
theorem owned_step_iff (hsound : Sound issued h)
    (hnext : ∀ detected calls shell cwd cols rows,
      e = .spawn detected calls shell cwd cols rows → h.nextId ≠ 0)
    (hstep : step emulator h e = some (t, out)) : t.Owned ↔ ¬ Orphans h e := by
  cases step_effect hstep with
  | opened started connected =>
      refine iff_of_true ?_ ?_
      · exact (hsound.opened (hnext _ _ _ _ _ _ rfl) (startChild_lt started) _ _ _ _ _).owned
      · intro horphans
        obtain ⟨shell, dir, error, hstart, hfail⟩ := horphans
        rw [started] at hstart
        cases hstart
        cases connected.symm.trans hfail
  | lost started failed =>
      exact iff_of_false (not_owned_start hsound _ _) (not_not_intro ⟨_, _, _, started, failed⟩)
  | refused failed =>
      refine iff_of_true hsound.owned ?_
      intro horphans
      obtain ⟨shell, dir, error, hstart, -⟩ := horphans
      cases failed.symm.trans hstart
  | updates found child exited concerns quiet careful =>
      exact iff_of_true (hsound.put found child exited).owned careful
  | keeps quiet careful => exact iff_of_true hsound.owned careful
  | closed found =>
      rw [owned_closed_iff hsound found]
      refine not_congr ⟨?_, ?_⟩
      · intro hcalls
        exact ⟨hcalls.1, hcalls.2.1, _, found, hcalls.2.2⟩
      · intro horphans
        obtain ⟨hkilled, hwaited, session, hsession, hrunning⟩ := horphans
        rw [found] at hsession
        cases hsession
        exact ⟨hkilled, hwaited, hrunning⟩
  | reaped => exact iff_of_true hsound.reaped.owned not_false
  | ended => exact iff_of_true hsound.ended_step.owned not_false

/-- **Every careful step** keeps what holds. -/
theorem Sound.step (hsound : Sound (handedOut trace) h) (hcareful : Careful trace h e)
    (hstep : step emulator h e = some (t, out)) : Sound (handedOut (trace ++ [(e, out)])) t := by
  have howned := (owned_step_iff hsound hcareful.2 hstep).mpr hcareful.1
  rw [handedOut_append]
  cases step_effect hstep with
  | opened started connected =>
      exact hsound.opened (hcareful.2 _ _ _ _ _ _ rfl) (startChild_lt started) _ _ _ _ _
  | lost started failed => exact absurd howned (not_owned_start hsound _ _)
  | refused failed =>
      rw [show handedOut [(_, Answer.spawned (.error _))] = [] from rfl, List.append_nil]
      exact hsound
  | updates found child exited concerns quiet careful =>
      rw [quiet, List.append_nil]
      exact hsound.put found child exited
  | keeps quiet careful =>
      rw [quiet, List.append_nil]
      exact hsound
  | closed found =>
      rw [show handedOut [(_, Answer.done (.ok ()))] = [] from rfl, List.append_nil]
      refine hsound.fewer rfl rfl ?_ ?_ (List.length_modify _ _ _)
        (fun _ hrunning => ((running_finish _ _).mp hrunning).1) howned
      · intro i s hs
        have hs' : (h.sessions.erase _).lookup i = some s := hs
        rw [AList.lookup_erase_ite] at hs'
        split_ifs at hs'
        exact hs'
      · exact length_foldl_erase [_] _
  | reaped =>
      rw [show handedOut [(_, Answer.reaped _)] = [] from rfl, List.append_nil]
      exact hsound.reaped
  | ended =>
      rw [show handedOut [(_, Answer.quiet)] = [] from rfl, List.append_nil]
      exact hsound.ended_step

/-- The cap stays what it is. -/
theorem maxSessions_step (hstep : step emulator h e = some (t, out)) :
    t.maxSessions = h.maxSessions := by
  cases step_effect hstep <;> rfl

/-- **Every careful run** keeps what holds. -/
theorem run_sound {limit : Nat}
    (hrun : Transition.Run (step emulator) Careful (withLimit limit) trace h) :
    Sound (handedOut trace) h ∧ h.maxSessions = limit := by
  induction hrun with
  | nil =>
      refine ⟨⟨.nil, fun _ hid => (nomatch hid), ?_, Nat.zero_le _, ?_, ?_, ?_, ?_⟩, rfl⟩
      · intro id session hfound
        cases hfound
      · intro id session hfound
        cases hfound
      · intro id id' session session' hfound
        cases hfound
      · intro id session hfound
        cases hfound
      · intro pid hrunning
        exact absurd hrunning.lt (Nat.not_lt_zero pid)
  | snoc run guard taken ih =>
      exact ⟨ih.1.step guard taken, (maxSessions_step taken).trans ih.2⟩

/-! ### No process is lost -/

/-- **Nothing is lost**: ids grow, the cap is kept, an operation leaves the sessions it is
not about as they are, and a running process has a session. -/
structure Lossless (emulator : Emulator Parser)
    (ok : List (Event × Answer) → Host Parser → Event → Prop) (limit : Nat)
    (trace : List (Event × Answer)) (h : Host Parser) : Prop where
  increasing : (handedOut trace).Pairwise (· < ·)
  capped : h.sessions.keys.length ≤ limit
  others : ∀ e t out id, ok trace h e → step emulator h e = some (t, out) → ¬ Concerns h id e →
    t.sessions.lookup id = h.sessions.lookup id ∨
      out = .spawned (.ok id) ∧ h.sessions.lookup id = none
  owned : h.Owned

/-- **An operation leaves other sessions as they are**; a new id stands for no session. -/
theorem others_step (hsound : Sound issued h) (hcareful : Careful trace h e)
    (hstep : step emulator h e = some (t, out)) (hconcerns : ¬ Concerns h id e) :
    t.sessions.lookup id = h.sessions.lookup id ∨
      out = .spawned (.ok id) ∧ h.sessions.lookup id = none := by
  cases step_effect hstep with
  | opened started connected =>
      rw [lookup_opened]
      by_cases hid : id = h.nextId
      · rw [hid]
        exact .inr ⟨rfl, hsound.fresh (hcareful.2 _ _ _ _ _ _ rfl)⟩
      · rw [if_neg hid]
        exact .inl rfl
  | lost started failed => exact .inl rfl
  | refused failed => exact .inl rfl
  | updates found child exited concerns quiet careful =>
      rw [lookup_put, if_neg]
      · exact .inl rfl
      · exact fun hid => hconcerns ((concerns id).mpr hid)
  | keeps quiet careful => exact .inl rfl
  | closed found =>
      left
      show (h.sessions.erase _).lookup id = _
      rw [AList.lookup_erase_ite, if_neg]
      exact hconcerns
  | reaped =>
      left
      rw [lookup_reapExited, if_neg]
      exact fun hdead => hconcerns (mem_dead.mp hdead)
  | ended => exact .inl rfl

/-- **No process is lost** in runs in which no call fails after a child was started, no
child can be neither killed nor waited for, and the ids are not used up. -/
theorem never_loses {Parser : Type} (emulator : Emulator Parser) (limit : Nat)
    (trace : List (Event × Answer)) (h : Host Parser)
    (hrun : Transition.Run (step emulator) Careful (withLimit limit) trace h) :
    Lossless emulator Careful limit trace h := by
  obtain ⟨hsound, hlimit⟩ := run_sound hrun
  refine ⟨hsound.increasing, ?_, ?_, hsound.owned⟩
  · rw [← hlimit]
    exact hsound.capped
  · intro e t out id hcareful hstep hconcerns
    exact others_step hsound hcareful hstep hconcerns

/-! ### A terminal on a small machine -/

/-- Every call goes through. -/
def through : SpawnCalls := ⟨.ok (), fun _ => .ok [], .ok (), .ok (), .ok (), .ok ()⟩

/-- A terminal that was killed. -/
theorem never_loses_killed :
    ∃ trace h, Lossless blank Careful 16 trace h ∧ h.processes.map Process.status = [.killed] := by
  have hspawn : Careful [] (withLimit 16 : Host Unit) (.spawn [sh] through none none 80 24) := by
    refine ⟨?_, fun _ _ _ _ _ _ _ => (by decide)⟩
    rintro ⟨shell, dir, error, -, hfail⟩
    cases hfail
  have hkill : ∀ trace (h : Host Unit), Careful trace h (.kill ⟨true, true⟩ 1) :=
    fun _ _ => ⟨fun horphans => (nomatch horphans.1), fun _ _ _ _ _ _ he => (nomatch he)⟩
  have hrun := Transition.Run.nil.snoc hspawn (show step blank _ _ = some (_, _) from rfl)
  have hrun' := hrun.snoc (hkill _ _) (show step blank _ _ = some (_, _) from rfl)
  exact ⟨_, _, never_loses blank 16 _ _ hrun', rfl⟩

/-- The thread that watches the child cannot be started. -/
def unwatched : SpawnCalls := { through with watcherThread := .error "out of threads" }

/-- **A child that is lost**: the watcher thread cannot be started, the request fails, and
the child runs on without a session. -/
theorem lost_child :
    ¬ ∀ (Parser : Type) (emulator : Emulator Parser) (limit : Nat)
      (trace : List (Event × Answer)) (h : Host Parser),
      Transition.Run (step emulator) Transition.unguarded (withLimit limit) trace h →
      Lossless emulator Transition.unguarded limit trace h := by
  intro hall
  have hrun : Transition.Run (step blank) Transition.unguarded (withLimit 16) _ _ :=
    Transition.run_of_exec [.spawn [sh] unwatched none none 80 24] rfl
  obtain ⟨id, session, hfound, -⟩ := (hall _ _ _ _ _ hrun).owned 0 rfl
  cases hfound

end Host

end Server
