import Kvy.Cli.Daemon.SpawnAwaits

/-!
# The processes in a directory

A spawn looks for a live session in its directory before it asks the launcher. The launcher starts
the process, and it answers some time later; the process reports its session some time after it has
started. Processes end at any time, and their entries stay until the next sweep.

Two spawns in one directory start one process at a time, and they are answered with a session that is
alive there, as long as whoever looks can see what is there: no other spawn is about to start its
process in the directory, the processes that run there have reported, and the entries of the
directory are theirs.
-/

namespace Kvy.Cli.Daemon

open General General.Runs SpawnDaemon

/-- A process: its pid, the attempt that it was started for, the directory it was spawned in, and
whether it runs. -/
structure SpawnedProcess where
  pid : Nat
  attempt : Option Nat
  directory : Option String
  running : Bool
deriving DecidableEq

/-- The spawns of the daemon, and the processes in the order in which they started. -/
structure DirectoryWorld where
  spawns : SpawnDaemon
  processes : List SpawnedProcess

namespace DirectoryWorld

/-- What can happen. -/
inductive Event where
  | own (event : SpawnDaemon.Event)
  /-- The launcher starts the process of an attempt. -/
  | startProcess (id pid : Nat)
  /-- Another process takes a pid. -/
  | startOther (pid : Nat)
  | exit (process : Nat)
  /-- The launcher answers with the process that it has started. -/
  | launched (id : Nat) (process : LaunchedProcess)
  | sessionStarted (sessionId : String) (pid : Option Nat)
  | pruneDeadSessions

/-- Some process runs under the pid. -/
def isAlive (world : DirectoryWorld) (pid : Nat) : Bool :=
  world.processes.any (fun process => process.pid = pid && process.running)

/-- A process has been started for the attempt. -/
def hasStarted (world : DirectoryWorld) (id : Nat) : Bool :=
  world.processes.any (fun process => process.attempt = some id)

/-- A process starts. -/
def starts (world : DirectoryWorld) (process : SpawnedProcess) : DirectoryWorld :=
  { world with processes := world.processes ++ [process] }

/-- A process ends. -/
def exits (world : DirectoryWorld) (index : Nat) (process : SpawnedProcess) : DirectoryWorld :=
  { world with processes := world.processes.set index { process with running := false } }

/-- A step. A pid is given to one running process only. -/
def step (world : DirectoryWorld) : Event → Option DirectoryWorld
  | .own event =>
    if event.isOwn then (world.spawns.step event).map (fun spawns => { world with spawns }) else none
  | .startProcess id pid => do
    let attempt ← world.spawns.attempts.get? id
    match attempt.stage with
    | .launching directory =>
      if world.hasStarted id || world.isAlive pid then none
      else some (world.starts ⟨pid, some id, some directory, true⟩)
    | _ => none
  | .startOther pid =>
    if world.isAlive pid then none
    else some (world.starts ⟨pid, none, none, true⟩)
  | .exit process => do
    let exited ← world.processes[process]?
    if exited.running then some (world.exits process exited) else none
  | .launched id process => do
    let attempt ← world.spawns.attempts.get? id
    match attempt.stage with
    | .launching directory =>
      if world.processes.any (fun held => held.attempt = some id && held.pid = process.pid) then
        some { world with spawns := world.spawns.launched id attempt directory (.ok process) }
      else none
    | _ => none
  | .sessionStarted sessionId pid =>
    some { world with spawns := world.spawns.onSessionStarted sessionId pid }
  | .pruneDeadSessions => some
    { world with spawns := { world.spawns with
      pidToSession := world.spawns.pidToSession.filter (fun pid _ => world.isAlive pid) } }

/-- The daemon starts, with the sessions that it takes over and the processes that there are. -/
def boot (deps : SpawnEngineDeps) (readopted : OrderedMap Nat TrackedSession)
    (processes : List SpawnedProcess) : DirectoryWorld where
  spawns := SpawnDaemon.start deps readopted
  processes := processes

/-! ## What is asked -/

/-- The process runs in a directory in which it was spawned. -/
def RunsIn (world : DirectoryWorld) (process : Nat) (pid : Nat) (directory : String) : Prop :=
  ∃ attempt, world.processes[process]? = some ⟨pid, attempt, some directory, true⟩

/-- In no directory do two spawned processes run. -/
def OnePerDirectory (world : DirectoryWorld) : Prop :=
  ∀ first second pid other directory, world.RunsIn first pid directory →
    world.RunsIn second other directory → first = second

/-- The entry of a pid has a session id and the directory. -/
def Tracks (world : DirectoryWorld) (pid : Nat) (sessionId directory : String) : Prop :=
  ∃ session, world.spawns.pidToSession.get? pid = some session ∧
    session.sessionId = some sessionId ∧ session.directory = some directory

/-- A spawn that is answered with a session from the entries is answered with one whose process runs
in the directory. -/
def AnswersAlive (world : DirectoryWorld) (event : Event) (next : DirectoryWorld) : Prop :=
  ∀ own id directory sessionId, event = .own own → world.spawns.scans own = some (id, directory) →
    ¬ Stands world.spawns id (.settled (.ok (.sessionId sessionId))) →
    Stands next.spawns id (.settled (.ok (.sessionId sessionId))) →
    ∃ process pid, world.RunsIn process pid directory ∧ world.Tracks pid sessionId directory

/-- Who looks in a directory sees what is there: no other attempt is about to start its process there,
the processes that run there have entries with their session ids, and such entries are of processes
that run there. -/
structure Clear (world : DirectoryWorld) (id : Nat) (directory : String) : Prop where
  alone : ∀ other, other ≠ id → Stands world.spawns other (.launching directory) →
    world.hasStarted other = true
  reported : ∀ process pid, world.RunsIn process pid directory →
    ∃ sessionId, sessionId ≠ "" ∧ world.Tracks pid sessionId directory
  alive : ∀ pid sessionId, sessionId ≠ "" → world.Tracks pid sessionId directory →
    ∃ process, world.RunsIn process pid directory

/-- An attempt looks in its directory only where it sees what is there. -/
def SeesDirectory (world : DirectoryWorld) (event : Event) : Prop :=
  ∀ own id directory, event = .own own → world.spawns.scans own = some (id, directory) →
    world.Clear id directory

end DirectoryWorld

end Kvy.Cli.Daemon
