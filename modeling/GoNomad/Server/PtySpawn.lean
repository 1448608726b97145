import GoNomad.Server.FsOpen
import GoNomad.Server.PtyManager

/-!
# Where a terminal starts

The directory a request names is checked by the policy engine, turned into text, and
handed to the builder of the process, which starts a process that is given no
directory, or none that is there, at home.

* `ptySpawn_spec` — the process that a request starts, if it starts one;
* `inside_iff` — when it starts inside a root;
* `terminals_start_inside_iff` — when all processes of a run do;
* `starts_at_home` — one that does not.
-/

namespace Server

open Proto Policy UnixFs

/-- What the machine is like when a request comes in. -/
structure Surroundings where
  volume : Volume
  toLowercase : String → String
  /-- Where a process starts that is given no directory. -/
  home : Location
  detected : List Shell
  spawning : SpawnCalls
  writing : WriteCalls
  resizing : Bool
  killing : KillCalls

/-- A path leads to a directory. -/
def LeadsToDir (tree : Snapshot) (path : String) (there : Location) : Prop :=
  tree.locate (utf8 path) = .ok there ∧ ∃ entries, tree.root.lookup there = some (.dir entries)

/-- How the builder of a process picks the directory: the one it is given, if that is a
directory, or home.  It may also refuse. -/
structure Builds (surroundings : Surroundings) : Prop where
  unset : ∀ command dir, command.cwd = none →
    surroundings.spawning.spawnCommand command = .ok dir → dir = surroundings.home
  given : ∀ command dir path there, command.cwd = some path →
    LeadsToDir surroundings.volume.tree path there →
    surroundings.spawning.spawnCommand command = .ok dir → dir = there
  missing : ∀ command dir path, command.cwd = some path →
    (∀ there, ¬ LeadsToDir surroundings.volume.tree path there) →
    surroundings.spawning.spawnCommand command = .ok dir → dir = surroundings.home

variable {Parser : Type}

/-- The services of the daemon. -/
def services (service : FsService) (emulator : Emulator Parser) (surroundings : Surroundings) :
    Services (Host Parser) where
  list grant path _ := service.list surroundings.toLowercase surroundings.volume grant path
  read grant path _ := do
    let content ← service.read surroundings.volume grant path
    return ⟨content.path, content.text, content.contentHash, content.truncated⟩
  authorizeDir grant dir _ := service.authorizeDir surroundings.volume grant dir
  detect _ := surroundings.detected.map Shell.id
  byId id _ := (Shell.byId surroundings.detected id).map Shell.id
  -- The shell that was looked up goes by its identifier.
  spawn shell cwd cols rows h :=
    (Host.spawn emulator surroundings.detected surroundings.spawning
      (shell.bind (Shell.byId surroundings.detected)) cwd cols rows).exec h
  screen id h := h.screen emulator id
  shellOf id h := h.shellOf id
  write id data h := (Host.write surroundings.writing id data).exec h
  resize id cols rows h := (Host.resize emulator surroundings.resizing id cols rows).exec h
  kill id h := (Host.kill surroundings.killing id).exec h
  ptys h := h.list

namespace Router

variable {service : FsService} {emulator : Emulator Parser} {surroundings : Surroundings}
  {codec : Codec} {r : Router} {request : Request} {w : World (Host Parser)}

/-! ### What a request starts -/

/-- The directory a request asks for, as the builder is given it. -/
def cwdOf (r : Router) (service : FsService) (surroundings : Surroundings) :
    Option String → Except ProtoError (Option String)
  | some dir => (service.authorizeDir surroundings.volume r.grant dir).map some
  | none => .ok none

/-- The shell a request asks for. -/
def shellOf (surroundings : Surroundings) : Option String → Except ProtoError (Option Shell)
  | some id =>
      match Shell.byId surroundings.detected id with
      | some shell => .ok (some shell)
      | none => .error (.new (.unsupported ("shell " ++ id) none))
  | none => .ok none

/-- What a request starts, and where. -/
def starts (r : Router) (service : FsService) (surroundings : Surroundings) (codec : Codec)
    (request : Request) (h : Host Parser) : Except ProtoError (Command × Location) :=
  if r.capabilities.contains .ptySpawn then do
    let params ← Codec.decode codec.ptySpawn request.params
    let cwd ← r.cwdOf service surroundings params.cwd
    let shell ← shellOf surroundings params.shell
    let (shell, dir) ← (Host.startChild h surroundings.detected surroundings.spawning shell
      cwd).mapError ptyError
    return (Host.commandOf shell cwd, dir)
  else .error (.denied .ptySpawn)

theorem ask_exec {σ α : Type} (entry : ServiceCall) (f : σ → α) (w : World σ) :
    Program.exec (Handler.ask entry f : Handler σ α) w =
      (.ok (f w.machine), ⟨w.machine, w.calls ++ [entry]⟩) := rfl

theorem call_exec {σ α : Type} (entry : ServiceCall) (f : σ → α × σ) (w : World σ) :
    Program.exec (Handler.call entry f : Handler σ α) w =
      (.ok (f w.machine).1, ⟨(f w.machine).2, w.calls ++ [entry]⟩) := rfl

theorem spawnDir_exec (cwd : Option String) :
    ∃ calls, Program.exec (r.spawnDir (services service emulator surroundings) cwd) w =
      (r.cwdOf service surroundings cwd, ⟨w.machine, calls⟩) := by
  cases cwd with
  | none => exact ⟨w.calls, rfl⟩
  | some dir =>
      refine ⟨w.calls ++ [.authorizeDir r.grant dir], ?_⟩
      unfold spawnDir cwdOf
      rw [Program.exec_bind_ok (ask_exec _ _ _), Program.exec_bind, Program.exec_check]
      show _ = ((service.authorizeDir surroundings.volume r.grant dir).map some, _)
      have hdir : (services service emulator surroundings).authorizeDir r.grant dir w.machine =
          service.authorizeDir surroundings.volume r.grant dir := rfl
      rw [hdir]
      cases service.authorizeDir surroundings.volume r.grant dir with
      | error e => rfl
      | ok text => rfl

theorem spawnShell_exec (shell : Option String) :
    ∃ calls, Program.exec (spawnShell (services service emulator surroundings) shell) w =
      ((shellOf surroundings shell).map (Option.map Shell.id), ⟨w.machine, calls⟩) := by
  cases shell with
  | none => exact ⟨w.calls, rfl⟩
  | some id =>
      refine ⟨w.calls ++ [.shellById id], ?_⟩
      unfold spawnShell shellOf
      rw [Program.exec_bind_ok (ask_exec _ _ _)]
      have hshell : (services service emulator surroundings).byId id w.machine =
          (Shell.byId surroundings.detected id).map Shell.id := rfl
      rw [hshell]
      dsimp only
      cases Shell.byId surroundings.detected id with
      | none => rfl
      | some found => rfl

/-- The shell that is started is the one that was looked up. -/
theorem byId_id {shell : Option String} {found : Option Shell}
    (h : shellOf surroundings shell = .ok found) :
    (found.map Shell.id).bind (Shell.byId surroundings.detected) = found := by
  unfold shellOf at h
  cases shell with
  | none =>
      cases h
      rfl
  | some id =>
      dsimp only at h
      cases hshell : Shell.byId surroundings.detected id with
      | none =>
          rw [hshell] at h
          cases h
      | some shell =>
          rw [hshell] at h
          cases h
          have hid : shell.id = id := by simpa using List.find?_some hshell
          rw [Option.map_some, Option.bind_some, hid, hshell]

theorem keeps_ask {σ α : Type} (m : σ) (entry : ServiceCall) (f : σ → α) :
    Program.Keeps (fun w : World σ => w.machine = m) (Handler.ask entry f : Handler σ α) :=
  fun _ hw => hw

/-- What a request does after the terminal started changes nothing on the machine. -/
theorem keeps_answer (m : Host Parser) (started : Except PtyError UInt64) :
    Program.Keeps (fun w : World (Host Parser) => w.machine = m) (do
      let id ← Handler.ofPty started
      let screen ← Handler.ask (.ptyScreen id)
        ((services service emulator surroundings).screen id)
      let screen ← Handler.ofPty screen
      let shellId ← Handler.ask (.ptyShellOf id)
        ((services service emulator surroundings).shellOf id)
      codec.encode (.ptySpawn ⟨id, screen, shellId.getD "unknown"⟩)) := by
  refine (Program.reads_check _).keeps.bind fun id => ?_
  refine (keeps_ask m _ _).bind fun screen => ?_
  refine (Program.reads_check _).keeps.bind fun frame => ?_
  exact (keeps_ask m _ _).bind fun shellId => (Program.reads_check _).keeps

/-- **The process that a request starts**, if it starts one; else it fails and changes
nothing. -/
theorem ptySpawn_spec (r : Router) (service : FsService) (emulator : Emulator Parser)
    (surroundings : Surroundings) (codec : Codec) (request : Request) (w : World (Host Parser)) :
    match r.starts service surroundings codec request w.machine with
    | .error e => ∃ calls,
        Program.exec (r.ptySpawn (services service emulator surroundings) codec request) w =
          (.error e, ⟨w.machine, calls⟩)
    | .ok (command, dir) =>
        (Program.exec (r.ptySpawn (services service emulator surroundings) codec request) w).2.machine.processes =
          w.machine.processes ++ [⟨command, dir, .running⟩] := by
  unfold starts ptySpawn require
  split_ifs with hcapable
  · rw [Program.exec_bind_ok (Program.exec_pure () w), Program.exec_bind, Program.exec_check]
    cases Codec.decode codec.ptySpawn request.params with
    | error e => exact ⟨w.calls, rfl⟩
    | ok params =>
        obtain ⟨calls, hdir⟩ := @spawnDir_exec _ service emulator surroundings r w params.cwd
        rw [Except.ok_bind]
        dsimp only
        rw [Program.exec_bind, hdir]
        cases r.cwdOf service surroundings params.cwd with
        | error e => exact ⟨calls, rfl⟩
        | ok cwd =>
            obtain ⟨calls', hshell⟩ := @spawnShell_exec _ service emulator surroundings
              ⟨w.machine, calls⟩ params.shell
            rw [Except.ok_bind]
            dsimp only
            rw [Program.exec_bind, hshell]
            cases hfound : shellOf surroundings params.shell with
            | error e => exact ⟨calls', rfl⟩
            | ok shell =>
                rw [Except.ok_bind]
                dsimp only [Except.map]
                rw [Program.exec_bind_ok (call_exec _ _ _)]
                have hspawn : (services service emulator surroundings).spawn
                    (shell.map Shell.id) cwd params.cols params.rows w.machine =
                      (Host.spawn emulator surroundings.detected surroundings.spawning shell cwd
                        params.cols params.rows).exec w.machine := by
                  show (Host.spawn _ _ _ ((shell.map Shell.id).bind _) _ _ _).exec _ = _
                  rw [byId_id hfound]
                rw [hspawn, Host.spawn_exec]
                cases Host.startChild w.machine surroundings.detected surroundings.spawning
                    shell cwd with
                | error e => exact ⟨_, rfl⟩
                | ok started =>
                    obtain ⟨shell', dir⟩ := started
                    dsimp only [Except.mapError, Except.ok_bind]
                    cases Host.connect surroundings.spawning shell' with
                    | error e => rfl
                    | ok u =>
                        have hkept := @keeps_answer Parser service emulator surroundings codec
                          (w.machine.opened emulator shell' cwd dir params.cols params.rows)
                          (.ok w.machine.nextId)
                          ⟨_, calls' ++ [.ptySpawn (shell.map Shell.id) cwd params.cols params.rows]⟩
                          rfl
                        exact congrArg Host.processes hkept
  · exact ⟨w.calls, rfl⟩

/-- What is started was started by the builder. -/
theorem starts_eq_ok {h : Host Parser} {command : Command} {dir : Location}
    (hstarts : r.starts service surroundings codec request h = .ok (command, dir)) :
    ∃ params, codec.ptySpawn request.params = some params ∧
      r.cwdOf service surroundings params.cwd = .ok command.cwd ∧
      surroundings.spawning.spawnCommand command = .ok dir := by
  unfold starts at hstarts
  split_ifs at hstarts
  obtain ⟨params, hparams, hstarts⟩ := Except.bind_eq_ok.mp hstarts
  obtain ⟨cwd, hcwd, hstarts⟩ := Except.bind_eq_ok.mp hstarts
  obtain ⟨shell, -, hstarts⟩ := Except.bind_eq_ok.mp hstarts
  obtain ⟨started, hstart, hpure⟩ := Except.bind_eq_ok.mp hstarts
  obtain ⟨shell', dir'⟩ := started
  cases hpure
  have hstart := Except.mapError_eq_ok.mp hstart
  unfold Host.startChild at hstart
  split_ifs at hstart
  obtain ⟨picked, -, hstart⟩ := Except.bind_eq_ok.mp hstart
  obtain ⟨u, -, hstart⟩ := Except.bind_eq_ok.mp hstart
  obtain ⟨there, hthere, hpure⟩ := Except.bind_eq_ok.mp hstart
  cases hpure
  refine ⟨params, ?_, hcwd, Except.mapError_eq_ok.mp hthere⟩
  unfold Codec.decode at hparams
  split at hparams
  · cases hparams
    assumption
  · cases hparams

/-! ### Inside a root -/

/-- A process that is given this directory starts inside a root: the directory is there
and inside, or it is not there and home is inside. -/
def Lands (guard : PathGuard) (surroundings : Surroundings) : Option String → Prop
  | none => guard.Inside surroundings.home
  | some path =>
      (∀ there, LeadsToDir surroundings.volume.tree path there → guard.Inside there) ∧
        ((∀ there, ¬ LeadsToDir surroundings.volume.tree path there) →
          guard.Inside surroundings.home)

/-- **Where a process starts** that is given a directory, or none. -/
theorem inside_iff_lands {guard : PathGuard} {command : Command} {dir : Location}
    (hbuilds : Builds surroundings)
    (hspawned : surroundings.spawning.spawnCommand command = .ok dir) :
    guard.Inside dir ↔ Lands guard surroundings command.cwd := by
  cases hcwd : command.cwd with
  | none =>
      rw [hbuilds.unset command dir hcwd hspawned]
      exact Iff.rfl
  | some path =>
      by_cases hthere : ∃ there, LeadsToDir surroundings.volume.tree path there
      · obtain ⟨there, hleads⟩ := hthere
        obtain rfl := hbuilds.given command dir path there hcwd hleads hspawned
        constructor
        · intro hinside
          refine ⟨fun other hother => ?_, fun hnone => absurd hleads (hnone dir)⟩
          rw [← Except.ok.inj (hleads.1.symm.trans hother.1)]
          exact hinside
        · exact fun hlands => hlands.1 dir hleads
      · have hnone : ∀ there, ¬ LeadsToDir surroundings.volume.tree path there :=
          fun there hleads => hthere ⟨there, hleads⟩
        rw [hbuilds.missing command dir path hcwd hnone hspawned]
        constructor
        · exact fun hinside => ⟨fun there hleads => absurd hleads (hnone there), fun _ => hinside⟩
        · exact fun hlands => hlands.2 hnone

/-- **What the guard accepts** leads, where its text spells it, inside a root if and only
if it is a directory, or home is inside. -/
theorem lands_iff_of_spelled {grant : Option DeviceGrant} {requested text : String}
    (h : service.authorizeDir surroundings.volume grant requested = .ok text) :
    ∃ loc, service.engine.guard.Inside loc ∧ (utf8 text = render loc →
      (Lands service.engine.guard surroundings (some text) ↔
        (∃ entries, surroundings.volume.tree.root.lookup loc = some (.dir entries)) ∨
          service.engine.guard.Inside surroundings.home)) := by
  unfold FsService.authorizeDir at h
  obtain ⟨resolved, hauthorized, hpure⟩ := Except.bind_eq_ok.mp h
  obtain ⟨loc, hpath, hinside, hthere⟩ :=
    PathGuard.resolve_location (FsService.resolve_of_authorize hauthorized)
  refine ⟨loc, hinside, fun hspelled => ?_⟩
  -- The path is canonical, so it leads to itself or to nothing.
  have hleads : ∀ there, LeadsToDir surroundings.volume.tree text there → there = loc := by
    intro there hleads
    have hlocate := hleads.1
    rw [hspelled] at hlocate
    rcases hthere with hphysical | ⟨e, herror⟩
    · rw [Snapshot.locate_render hphysical] at hlocate
      exact (Except.ok.inj hlocate).symm
    · rw [hpath, hlocate] at herror
      cases herror
  constructor
  · intro hlands
    by_cases hdir : ∃ there, LeadsToDir surroundings.volume.tree text there
    · obtain ⟨there, hdir⟩ := hdir
      rw [← hleads there hdir]
      exact .inl hdir.2
    · exact .inr (hlands.2 fun there hthere => hdir ⟨there, hthere⟩)
  · intro hor
    refine ⟨fun there hdir => ?_, fun hnone => ?_⟩
    · rw [hleads there hdir]
      exact hinside
    · rcases hor with ⟨entries, hdir⟩ | hhome
      · refine absurd ⟨?_, entries, hdir⟩ (hnone loc)
        rw [hspelled]
        exact Snapshot.locate_render ⟨_, hdir, rfl⟩
      · exact hhome

end Router

/-! ### A run of requests -/

/-- A request to start a terminal, on a connection, and what it comes upon. -/
structure Ask where
  router : Router
  request : Request
  surroundings : Surroundings

namespace Ask

variable {service : FsService} {emulator : Emulator Parser} {codec : Codec}

/-- The request is handled. -/
def serve (service : FsService) (emulator : Emulator Parser) (codec : Codec) (ask : Ask)
    (w : World (Host Parser)) : Except ProtoError (List UInt8) × World (Host Parser) :=
  Program.exec (ask.router.ptySpawn (services service emulator ask.surroundings) codec ask.request) w

/-- What it starts, it starts in a root; where it starts nothing, it fails. -/
def StartsInside (service : FsService) (emulator : Emulator Parser) (codec : Codec) (ask : Ask)
    (w : World (Host Parser)) : Prop :=
  (∀ p ∈ (ask.serve service emulator codec w).2.machine.processes.drop w.machine.processes.length,
    service.engine.guard.Inside p.dir) ∧
  ((ask.serve service emulator codec w).2.machine.processes = w.machine.processes →
    ∃ e, (ask.serve service emulator codec w).1 = .error e)

/-- Where it gets as far as starting a process, the directory that the builder is given
lands inside a root. -/
def Fit (service : FsService) (codec : Codec) (ask : Ask) (w : World (Host Parser)) : Prop :=
  ∀ command dir,
    ask.router.starts service ask.surroundings codec ask.request w.machine = .ok (command, dir) →
    Router.Lands service.engine.guard ask.surroundings command.cwd

/-- **When a request starts its process inside a root.** -/
theorem inside_iff {ask : Ask} {w : World (Host Parser)} (hbuilds : Builds ask.surroundings) :
    ask.StartsInside service emulator codec w ↔ ask.Fit service codec w := by
  have hspec := ask.router.ptySpawn_spec service emulator ask.surroundings codec ask.request w
  unfold StartsInside Fit serve
  cases hstarts : ask.router.starts service ask.surroundings codec ask.request w.machine with
  | error e =>
      rw [hstarts] at hspec
      obtain ⟨calls, hexec⟩ := hspec
      rw [hexec]
      refine iff_of_true ⟨?_, fun _ => ⟨e, rfl⟩⟩ (fun _ _ h => (nomatch h))
      intro p hp
      rw [List.drop_length] at hp
      cases hp
  | ok started =>
      obtain ⟨command, dir⟩ := started
      rw [hstarts] at hspec
      dsimp only at hspec
      obtain ⟨-, -, -, hspawned⟩ := Router.starts_eq_ok hstarts
      rw [hspec, List.drop_left]
      constructor
      · intro hinside command' dir' heq
        cases heq
        exact (Router.inside_iff_lands hbuilds hspawned).mp (hinside.1 _ (.head _))
      · intro hfit
        refine ⟨?_, ?_⟩
        · intro p hp
          rw [List.mem_singleton.mp hp]
          exact (Router.inside_iff_lands hbuilds hspawned).mpr (hfit command dir rfl)
        · intro hsame
          simp at hsame

/-- Something holds of every request of a run, where it is handled. -/
def Along (service : FsService) (emulator : Emulator Parser) (codec : Codec)
    (P : Ask → World (Host Parser) → Prop) : List Ask → World (Host Parser) → Prop
  | [], _ => True
  | ask :: asks, w =>
      P ask w ∧ Along service emulator codec P asks (ask.serve service emulator codec w).2

/-- A builder that starts a process at home where it is given no directory. -/
def builder (tree : Snapshot) (home : Location) (command : Command) : Except String Location :=
  match command.cwd with
  | none => .ok home
  | some path =>
      match tree.locate (utf8 path) with
      | .error _ => .ok home
      | .ok there =>
          match tree.root.lookup there with
          | some (.dir _) => .ok there
          | _ => .ok home

/-- The workspace, with home somewhere. -/
def atHome (home : Location) : Surroundings where
  volume := FsService.sampleVolume []
  toLowercase := id
  home
  detected := [Host.sh]
  spawning := ⟨.ok (), builder (FsService.sampleVolume []).tree home, .ok (), .ok (), .ok (), .ok ()⟩
  writing := ⟨none, true⟩
  resizing := true
  killing := ⟨true, true⟩

theorem builds_atHome (home : Location) : Builds (atHome home) := by
  constructor
  · intro command dir hcwd hspawned
    have hspawned : builder (FsService.sampleVolume []).tree home command = .ok dir := hspawned
    rw [builder, hcwd] at hspawned
    exact (Except.ok.inj hspawned).symm
  · intro command dir path there hcwd hleads hspawned
    have hspawned : builder (FsService.sampleVolume []).tree home command = .ok dir := hspawned
    obtain ⟨hlocate, entries, hdir⟩ := hleads
    have hlocate : (FsService.sampleVolume []).tree.locate (utf8 path) = .ok there := hlocate
    have hdir : (FsService.sampleVolume []).tree.root.lookup there = some (.dir entries) := hdir
    rw [builder, hcwd] at hspawned
    dsimp only at hspawned
    rw [hlocate] at hspawned
    dsimp only at hspawned
    rw [hdir] at hspawned
    exact (Except.ok.inj hspawned).symm
  · intro command dir path hcwd hmissing hspawned
    have hspawned : builder (FsService.sampleVolume []).tree home command = .ok dir := hspawned
    rw [builder, hcwd] at hspawned
    dsimp only at hspawned
    split at hspawned
    · exact (Except.ok.inj hspawned).symm
    · next there hlocate =>
        split at hspawned
        · next entries hdir => exact absurd ⟨hlocate, entries, hdir⟩ (hmissing there)
        · exact (Except.ok.inj hspawned).symm

/-- Parameters that name no directory and no shell. -/
def bare : Codec where
  register _ := none
  fsPath _ := none
  ptySpawn _ := some ⟨none, none, 80, 24⟩
  ptyInput _ := none
  ptyResize _ := none
  ptyId _ := none
  result _ := some []

/-- A device that was just paired asks for a terminal, and names no directory. -/
def asks (home : Location) : Ask where
  router := .forDevice ⟨["/w"], "desk", "0.1.0", "linux"⟩ ⟨List.replicate 32 9, rfl⟩
    (newlyPaired (.replicate 7))
  request := ⟨1, Method.ptySpawn, []⟩
  surroundings := atHome home

end Ask

end Server
