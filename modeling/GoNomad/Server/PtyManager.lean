import GoNomad.Lib.Transaction
import GoNomad.Lib.UnixFs
import GoNomad.Server.Router
import Mathlib.Data.List.AList

/-!
# Terminals

Every terminal of the machine: the session that owns a child process, the emulator
that renders its output, and the processes themselves.  Any call of the system may
fail; what a failed operation did before stays done.

* `spawn_exec` — what starting a terminal does;
* `write_updates`, `resize_updates`, `kill_exec` — what the operations on one terminal do.
-/

namespace Server

open Proto UnixFs

/-- Lines of scrollback retained per session. -/
def scrollbackLines : Nat := 10000

/-- A shell the daemon can spawn. -/
structure Shell where
  /-- Stable identifier, used in config and on the wire. -/
  id : String
  displayName : String
  program : OsPath
  args : List String
  /-- The paths of this shell live in another namespace than those of the host. -/
  foreignPathNamespace : Bool
  deriving DecidableEq

namespace Shell

/-- The best available shell of those detected. -/
def default (detected : List Shell) : Option Shell := detected.head?

/-- Looks up a shell by its identifier. -/
def byId (detected : List Shell) (id : String) : Option Shell := detected.find? fun s => s.id = id

end Shell

/-- What a process is started with. -/
structure Command where
  program : OsPath
  args : List String
  cwd : Option String
  env : List (String × String)
  deriving DecidableEq

inductive Status
  | running
  | exited
  | killed
  deriving DecidableEq

/-- A child process. -/
structure Process where
  command : Command
  /-- The directory it started in. -/
  dir : Location
  status : Status
  deriving DecidableEq

/-- A process that was killed, or was waited for, is at its end. -/
def Process.finish (p : Process) (killed waited : Bool) : Process :=
  match p.status with
  | .running =>
      if killed then { p with status := .killed }
      else if waited then { p with status := .exited }
      else p
  | .exited | .killed => p

/-- A terminal emulator. -/
structure Emulator (Parser : Type) where
  new : (rows cols : UInt16) → (scrollback : Nat) → Parser
  process : Parser → List UInt8 → Parser
  setSize : Parser → (rows cols : UInt16) → Parser
  cursorPosition : Parser → UInt16 × UInt16
  contentsBetween : Parser → (startRow startCol endRow endCol : UInt16) → String

/-- One live terminal. -/
structure PtySession (Parser : Type) where
  shellId : String
  parser : Parser
  /-- What was written to the terminal. -/
  input : List UInt8
  child : Nat
  exited : Bool
  cols : UInt16
  rows : UInt16

abbrev Sessions (Parser : Type) := AList fun _ : UInt64 => PtySession Parser

/-- Owns every terminal on the machine. -/
structure PtyManager (Parser : Type) where
  sessions : Sessions Parser
  nextId : UInt64
  maxSessions : Nat

/-- The terminals, and the processes that were started for them. -/
structure Host (Parser : Type) extends PtyManager Parser where
  processes : List Process

/-- What the system answers to the calls of `spawn`; a failure comes with its text. -/
structure SpawnCalls where
  openpty : Except String Unit
  /-- The directory in which the process starts. -/
  spawnCommand : Command → Except String Location
  takeWriter : Except String Unit
  tryCloneReader : Except String Unit
  readerThread : Except String Unit
  watcherThread : Except String Unit

/-- What the system answers to the calls of `write`. -/
structure WriteCalls where
  /-- How much was written, if not everything. -/
  failsAfter : Option Nat
  flushed : Bool

/-- Whether the calls of `kill` go through. -/
structure KillCalls where
  killed : Bool
  waited : Bool

namespace Host

variable {Parser : Type}

/-- A manager with an explicit cap, and no process. -/
def withLimit (maxSessions : Nat) : Host Parser := ⟨⟨∅, 1, maxSessions⟩, []⟩

/-- A process starts. -/
def start (h : Host Parser) (command : Command) (dir : Location) : Host Parser :=
  { h with processes := h.processes ++ [⟨command, dir, .running⟩] }

/-- A session is filed under an id. -/
def put (h : Host Parser) (id : UInt64) (session : PtySession Parser) : Host Parser :=
  { h with sessions := h.sessions.insert id session }

/-! ### Starting a terminal -/

/-- A call that failed, as the error of the shell that was to start. -/
def attempt {α : Type} (shell : Shell) (call : Except String α) : Except PtyError α :=
  call.mapError (.spawnFailed shell.displayName)

/-- A thread that could not be started. -/
def thread (shell : Shell) (kind : String) (call : Except String Unit) : Except PtyError Unit :=
  call.mapError fun e => .spawnFailed shell.displayName ("could not start " ++ kind ++ " thread: " ++ e)

/-- The shell that was asked for, or the default one. -/
def pickShell (detected : List Shell) : Option Shell → Except PtyError Shell
  | some shell => .ok shell
  | none =>
      match Shell.default detected with
      | some shell => .ok shell
      | none => .error .noShell

/-- What a shell is started with. -/
def commandOf (shell : Shell) (cwd : Option String) : Command :=
  ⟨shell.program, shell.args, cwd, [("TERM", "xterm-256color")]⟩

/-- Everything up to the start of the child: the shell, and the directory in which the
child started. -/
def startChild (h : Host Parser) (detected : List Shell) (calls : SpawnCalls)
    (shell : Option Shell) (cwd : Option String) : Except PtyError (Shell × Location) :=
  if h.maxSessions ≤ h.sessions.keys.length then .error (.tooManyTerminals h.maxSessions)
  else do
    let shell ← pickShell detected shell
    attempt shell calls.openpty
    let dir ← attempt shell (calls.spawnCommand (commandOf shell cwd))
    return (shell, dir)

/-- Everything after the start of the child. -/
def connect (calls : SpawnCalls) (shell : Shell) : Except PtyError Unit := do
  attempt shell calls.takeWriter
  attempt shell calls.tryCloneReader
  thread shell "reader" calls.readerThread
  thread shell "watcher" calls.watcherThread

/-- The session of a child that was just started. -/
def newSession (emulator : Emulator Parser) (shell : Shell) (child : Nat) (cols rows : UInt16) :
    PtySession Parser :=
  ⟨shell.id, emulator.new rows cols scrollbackLines, [], child, false, cols, rows⟩

/-- Spawns a terminal. -/
def spawn (emulator : Emulator Parser) (detected : List Shell) (calls : SpawnCalls)
    (shell : Option Shell) (cwd : Option String) (cols rows : UInt16) :
    Program (Host Parser) PtyError UInt64 := do
  let h ← get
  let (shell, dir) ← startChild h detected calls shell cwd
  set (h.start (commandOf shell cwd) dir)
  connect calls shell
  let session := newSession emulator shell h.processes.length (max cols 1) (max rows 1)
  modify fun h => ({ h with nextId := h.nextId + 1 } : Host Parser).put h.nextId session
  return h.nextId

/-! ### Operations on one terminal -/

/-- The session of an id. -/
def find (h : Host Parser) (id : UInt64) : Except PtyError (PtySession Parser) :=
  match h.sessions.lookup id with
  | some session => .ok session
  | none => .error .notFound

/-- Writes input to a terminal. -/
def write (calls : WriteCalls) (id : UInt64) (data : List UInt8) :
    Program (Host Parser) PtyError Unit := do
  let h ← get
  let session ← h.find id
  match calls.failsAfter with
  | some n =>
      set (h.put id { session with input := session.input ++ data.take n })
      throw .closed
  | none =>
      set (h.put id { session with input := session.input ++ data })
      if calls.flushed then pure () else throw .closed

/-- Resizes a terminal. -/
def resize (emulator : Emulator Parser) (resized : Bool) (id : UInt64) (cols rows : UInt16) :
    Program (Host Parser) PtyError Unit := do
  let h ← get
  let session ← h.find id
  let cols := max cols 1
  let rows := max rows 1
  if resized then
    set (h.put id { session with parser := emulator.setSize session.parser rows cols, cols, rows })
  else throw .closed

/-- Trailing blanks of a row are not shown. -/
def trimEnd (text : String) : String :=
  String.ofList (text.toList.reverse.dropWhile isWhiteSpace).reverse

/-- The current screen. -/
def screen (emulator : Emulator Parser) (h : Host Parser) (id : UInt64) :
    Except PtyError ScreenFrame := do
  let session ← h.find id
  let (cursorRow, cursorCol) := emulator.cursorPosition session.parser
  let rows := (List.range session.rows.toNat).map fun row =>
    trimEnd (emulator.contentsBetween session.parser (.ofNat row) 0 (.ofNat row) session.cols)
  return ⟨id, rows, cursorRow, cursorCol, session.cols, session.exited⟩

/-- A process is killed, or waited for. -/
def finish (h : Host Parser) (child : Nat) (calls : KillCalls) : Host Parser :=
  { h with processes := h.processes.modify child fun p => p.finish calls.killed calls.waited }

/-- Terminates a terminal and forgets it. -/
def kill (calls : KillCalls) (id : UInt64) : Program (Host Parser) PtyError Unit := do
  let h ← get
  let session ← h.find id
  set (({ h with sessions := h.sessions.erase id } : Host Parser).finish session.child calls)

/-- Ids of every live terminal, in ascending order. -/
def list (h : Host Parser) : List UInt64 := h.sessions.keys.insertionSort (· ≤ ·)

/-- The shell id a terminal was started with. -/
def shellOf (h : Host Parser) (id : UInt64) : Option String :=
  (h.sessions.lookup id).map PtySession.shellId

/-- The ids of the sessions whose process has exited. -/
def dead (h : Host Parser) : List UInt64 :=
  (h.sessions.entries.filter fun entry => entry.2.exited).map Sigma.fst

/-- Removes sessions whose process has exited. -/
def reapExited (h : Host Parser) : List UInt64 × Host Parser :=
  (h.dead, { h with sessions := h.dead.foldl (fun sessions id => sessions.erase id) h.sessions })

/-- The manager goes: the child of every session is killed, where the system lets it. -/
def drop (kills : UInt64 → Bool) (h : Host Parser) : Host Parser :=
  h.sessions.entries.foldl (fun h entry => h.finish entry.2.child ⟨kills entry.1, false⟩) h

/-! ### What the operations do -/

variable {emulator : Emulator Parser} {h t : Host Parser} {id : UInt64}

/-- The host with a terminal that was started. -/
def opened (h : Host Parser) (emulator : Emulator Parser) (shell : Shell) (cwd : Option String)
    (dir : Location) (cols rows : UInt16) : Host Parser :=
  ({ h.start (commandOf shell cwd) dir with nextId := h.nextId + 1 } : Host Parser).put h.nextId
    (newSession emulator shell h.processes.length (max cols 1) (max rows 1))

/-- **What starting a terminal does.** -/
theorem spawn_exec (detected : List Shell) (calls : SpawnCalls) (shell : Option Shell)
    (cwd : Option String) (cols rows : UInt16) :
    (spawn emulator detected calls shell cwd cols rows).exec h =
      match startChild h detected calls shell cwd with
      | .error e => (.error e, h)
      | .ok (shell, dir) =>
          match connect calls shell with
          | .error e => (.error e, h.start (commandOf shell cwd) dir)
          | .ok () => (.ok h.nextId, h.opened emulator shell cwd dir cols rows) := by
  unfold spawn
  rw [Program.exec_bind_ok (Program.exec_get h), Program.exec_bind, Program.exec_check]
  cases startChild h detected calls shell cwd with
  | error e => rfl
  | ok started =>
      obtain ⟨shell, dir⟩ := started
      dsimp only
      rw [Program.exec_bind_ok (Program.exec_set h _), Program.exec_bind, Program.exec_check]
      cases connect calls shell with
      | error e => rfl
      | ok u => rfl

/-- A child starts below the cap. -/
theorem startChild_lt {detected : List Shell} {calls : SpawnCalls} {shell : Option Shell}
    {cwd : Option String} {started : Shell × Location}
    (hstart : startChild h detected calls shell cwd = .ok started) :
    h.sessions.keys.length < h.maxSessions := by
  unfold startChild at hstart
  split_ifs at hstart
  omega

theorem find_eq_ok {session : PtySession Parser} :
    h.find id = .ok session ↔ h.sessions.lookup id = some session := by
  unfold find
  split
  · next found hfound => rw [hfound]; simp
  · next hfound => rw [hfound]; simp

/-- At most one session changed; its process is the same. -/
def Updates (h : Host Parser) (id : UInt64) (t : Host Parser) : Prop :=
  t = h ∨ ∃ session session', h.sessions.lookup id = some session ∧
    session'.child = session.child ∧ session'.exited = session.exited ∧ t = h.put id session'

/-- **A write** changes its own session only. -/
theorem write_updates (calls : WriteCalls) (data : List UInt8) :
    h.Updates id ((write calls id data).exec h).2 := by
  unfold write
  rw [Program.exec_bind_ok (Program.exec_get h), Program.exec_bind, Program.exec_check]
  cases hfind : h.find id with
  | error e => exact .inl rfl
  | ok session =>
      cases hfails : calls.failsAfter with
      | some n =>
          exact .inr ⟨session, { session with input := session.input ++ data.take n },
            find_eq_ok.mp hfind, rfl, rfl, rfl⟩
      | none =>
          refine .inr ⟨session, { session with input := session.input ++ data },
            find_eq_ok.mp hfind, rfl, rfl, ?_⟩
          dsimp only
          rw [Program.exec_bind_ok (Program.exec_set h _)]
          split
          · rfl
          · rfl

/-- **A resize** changes its own session only. -/
theorem resize_updates (resized : Bool) (cols rows : UInt16) :
    h.Updates id ((resize emulator resized id cols rows).exec h).2 := by
  unfold resize
  rw [Program.exec_bind_ok (Program.exec_get h), Program.exec_bind, Program.exec_check]
  cases hfind : h.find id with
  | error e => exact .inl rfl
  | ok session =>
      cases resized with
      | true =>
          refine .inr ⟨session,
            { session with
              parser := emulator.setSize session.parser (max rows 1) (max cols 1)
              cols := max cols 1
              rows := max rows 1 }, find_eq_ok.mp hfind, rfl, rfl, rfl⟩
      | false => exact .inl rfl

/-- **A kill** of no terminal changes nothing; that of a terminal forgets it, and its
child is killed or waited for as far as that goes. -/
theorem kill_exec (calls : KillCalls) :
    (kill calls id).exec h =
      match h.sessions.lookup id with
      | none => (.error .notFound, h)
      | some session =>
          (.ok (), ({ h with sessions := h.sessions.erase id } : Host Parser).finish
            session.child calls) := by
  unfold kill
  rw [Program.exec_bind_ok (Program.exec_get h), Program.exec_bind, Program.exec_check]
  unfold find
  cases h.sessions.lookup id with
  | none => rfl
  | some session => rfl

/-- The ids that are listed are those of the sessions. -/
theorem mem_list_iff : id ∈ h.list ↔ id ∈ h.sessions := by
  unfold list
  rw [List.mem_insertionSort]
  exact Iff.rfl

/-! ### A small machine -/

/-- An emulator that shows nothing. -/
def blank : Emulator Unit := ⟨fun _ _ _ => (), fun _ _ => (), fun _ _ _ => (), fun _ => (0, 0),
  fun _ _ _ _ _ => ""⟩

def sh : Shell := ⟨"sh", "sh", utf8 "/bin/sh", ["-l"], false⟩

end Host

end Server
