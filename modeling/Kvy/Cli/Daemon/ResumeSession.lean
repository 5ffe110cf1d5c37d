import Kvy.Cli.Daemon.SessionRegistry
import Kvy.General.Runs

/-!
# Resuming a session

A session is resumed from what the daemon remembers of it: its directory is resolved, a process that
is still live is stopped and waited for, and a new process is launched that takes the session over.
The new process has no session until it reports one.

Any number of calls may be under way for the session. Processes start, report sessions and exit at
any time; a report names a pid, and a pid is given to one running process at a time.
-/

namespace Kvy.Cli.Daemon.Registry

open General

/-! ## What is launched -/

/-- `buildReconnectEnv`. -/
def buildReconnectEnv (sessionId : String) (session : PersistedSession) : List (String × String) :=
  [("KVY_RECONNECT_SESSION_ID", sessionId),
    ("KVY_RECONNECT_ENCRYPTION_KEY", session.encryption.encryptionKey),
    ("KVY_RECONNECT_SEQ", String.ofList session.encryption.seq.text),
    ("KVY_RECONNECT_METADATA_VERSION", String.ofList session.encryption.metadataVersion.text),
    ("KVY_RECONNECT_AGENT_STATE_VERSION", String.ofList session.encryption.agentStateVersion.text)]

/-- The provider that a resumed session is launched with. -/
def resumeProvider (session : PersistedSession) : ProviderId := session.provider.getD .claudeCode

/-- The arguments of a resumed session. -/
def resumeArgs (session : PersistedSession) : List String :=
  [(resumeProvider session).kvySubcommand, "--starting-mode", "remote", "--started-by", "daemon"]

/-- What is launched: the options and what is added to the environment. -/
structure ResumeLaunch where
  options : LaunchProcessOptions
  env : List (String × String)

/-- What `resumeSession` passes to the launcher. -/
def resumeLaunch (kvyEntrypoint : List String) (sessionId : String) (session : PersistedSession)
    (directory : String) : ResumeLaunch where
  options :=
    { sessionLabel := sessionId
      command := kvyEntrypoint.headD ""
      args := kvyEntrypoint.tail ++ resumeArgs session
      cwd := directory }
  env := buildReconnectEnv sessionId session

/-! ## Calls and processes -/

/-- Where a call stands. A call that has ended has the session id or the message of a
`ResumeSessionError`. -/
inductive ResumeStage where
  | resolving (persisted : PersistedSession)
  | stopping (persisted : PersistedSession) (directory : String) (pid : Nat)
  | launching (directory : String) (launch : ResumeLaunch)
  | waiting (process : LaunchedProcess)
  | ended (result : Except String String)

/-- A process: its pid, the call that it was launched for, whether it has reported the session, and
whether it runs. -/
structure OwnedProcess where
  pid : Nat
  launchedBy : Option Nat
  reported : Bool
  running : Bool
deriving DecidableEq

/-- Whether the process is one of the session's. -/
def OwnedProcess.owns (process : OwnedProcess) : Bool := process.launchedBy.isSome || process.reported

/-- The registry, the processes in the order in which they started and the calls for one session. -/
structure ResumeWorld where
  sessionId : String
  kvyEntrypoint : List String
  registry : SessionRegistry
  processes : List OwnedProcess
  calls : List ResumeStage

/-- What can happen. -/
inductive ResumeEvent where
  | call (now : Nat)
  | resolved (call : Nat) (directory : Option String)
  /-- A poll finds that the old process has exited. -/
  | polled (call : Nat)
  /-- The old process still runs at the deadline; it dies of `SIGKILL` or it does not. -/
  | escalated (call : Nat) (dies : Bool)
  /-- The launcher starts the process of a call. -/
  | startProcess (call pid : Nat)
  | launched (call : Nat) (process : LaunchedProcess)
  | launchFailed (call : Nat) (message : String)
  /-- The awaiter answers. -/
  | answered (call : Nat) (report : Except String String)
  | startOther (pid : Nat)
  | exit (process : Nat)
  | sessionStarted (process : Nat) (sessionId : String) (metadata : Option Json)
      (encryption : Option SessionEncryptionData) (pid : Option Nat)
  /-- A spawn tracks its process. -/
  | trackSpawned (pid : Nat) (directory : Option String)
  | pruneDeadSessions (now : Nat)

namespace ResumeWorld

/-- Some process runs under the pid. -/
def isAlive (world : ResumeWorld) (pid : Nat) : Bool :=
  world.processes.any (fun process => process.pid = pid && process.running)

/-- A process has been started for the call. -/
def hasStarted (world : ResumeWorld) (call : Nat) : Bool :=
  world.processes.any (fun process => process.launchedBy = some call)

/-- A call goes to a stage. -/
def move (world : ResumeWorld) (call : Nat) (stage : ResumeStage) : ResumeWorld :=
  { world with calls := world.calls.set call stage }

/-- A process starts. -/
def starts (world : ResumeWorld) (process : OwnedProcess) : ResumeWorld :=
  { world with processes := world.processes ++ [process] }

/-- Some processes change. -/
def change (world : ResumeWorld) (changed : Nat → OwnedProcess → OwnedProcess) : ResumeWorld :=
  { world with processes := world.processes.mapIdx changed }

/-- The processes under a pid die. -/
def kill (world : ResumeWorld) (pid : Nat) : ResumeWorld :=
  world.change (fun _ process =>
    { process with running := process.running && decide (process.pid ≠ pid) })

/-- `resumeSession`, up to the directory. -/
def called (world : ResumeWorld) (now : Nat) : ResumeStage :=
  match world.registry.findResumable world.sessionId now with
  | some persisted => .resolving persisted
  | none => .ended (.error ("session " ++ world.sessionId ++
      " is not tracked by this daemon and has no persisted resume data"))

/-- `resumeSession` from the entrypoint on, up to the launcher. -/
def launch (world : ResumeWorld) (persisted : PersistedSession) (directory : String) : ResumeStage :=
  if world.kvyEntrypoint.headD "" = "" then
    .ended (.error "could not resolve the kvy entrypoint to re-invoke")
  else .launching directory (resumeLaunch world.kvyEntrypoint world.sessionId persisted directory)

/-- `resumeSession` after the directory is resolved: a live process is signalled and waited for. -/
def resolved (world : ResumeWorld) (persisted : PersistedSession) : Option String → ResumeStage
  | none => .ended (.error ("could not resolve a working directory to resume session " ++
      world.sessionId ++ " in"))
  | some directory =>
    if (world.registry.stopSession world.sessionId).2 then
      match world.registry.getLivePid world.sessionId with
      | some pid => .stopping persisted directory pid
      | none => world.launch persisted directory
    else world.launch persisted directory

/-- The error of a process that survives `SIGKILL`. -/
def survived (world : ResumeWorld) (pid : Nat) : ResumeStage :=
  .ended (.error ("old process (pid " ++ toString pid ++ ") for session " ++ world.sessionId ++
    " would not exit even after SIGKILL; refusing to launch a replacement to avoid two processes " ++
    "sharing the same session's DEK/seq"))

/-- What the awaiter's answer makes of a call. -/
def settle (process : LaunchedProcess) : Except String String → ResumeStage
  | .ok sessionId => .ended (.ok sessionId)
  | .error message => .ended (.error ("resume launched (pid " ++ toString process.pid ++ ", " ++
      process.method.text ++ ") but " ++ message))

/-- A process reports a session. -/
def report (world : ResumeWorld) (process : Nat) (sessionId : String) (metadata : Option Json)
    (encryption : Option SessionEncryptionData) (pid : Option Nat) : ResumeWorld :=
  { world.change (fun index held =>
      { held with reported := held.reported || decide (index = process ∧ sessionId = world.sessionId) })
    with registry := world.registry.onSessionStarted sessionId metadata encryption pid }

/-- A step. -/
def step (world : ResumeWorld) : ResumeEvent → Option ResumeWorld
  | .call now => some { world with calls := world.calls ++ [world.called now] }
  | .resolved call directory =>
    match world.calls[call]? with
    | some (.resolving persisted) =>
      some (world.move call (world.resolved persisted (directory.filter (· ≠ ""))))
    | _ => none
  | .polled call =>
    match world.calls[call]? with
    | some (.stopping persisted directory pid) =>
      if world.isAlive pid then none else some (world.move call (world.launch persisted directory))
    | _ => none
  | .escalated call dies =>
    match world.calls[call]? with
    | some (.stopping persisted directory pid) =>
      if !world.isAlive pid then none
      else if dies then some ((world.kill pid).move call (world.launch persisted directory))
      else some (world.move call (world.survived pid))
    | _ => none
  | .startProcess call pid =>
    match world.calls[call]? with
    | some (.launching _ _) =>
      if world.hasStarted call || world.isAlive pid then none
      else some (world.starts ⟨pid, some call, false, true⟩)
    | _ => none
  | .launched call process =>
    match world.calls[call]? with
    | some (.launching directory _) =>
      if world.processes.any (fun held => held.launchedBy = some call && held.pid = process.pid) then
        some { world.move call (.waiting process) with
          registry := world.registry.trackSpawned process.pid (some directory) }
      else none
    | _ => none
  | .launchFailed call message =>
    match world.calls[call]? with
    | some (.launching _ _) => some (world.move call
        (.ended (.error ("failed to launch provider process for resume: " ++ message))))
    | _ => none
  | .answered call report =>
    match world.calls[call]? with
    | some (.waiting process) => some (world.move call (settle process report))
    | _ => none
  | .startOther pid =>
    if world.isAlive pid then none else some (world.starts ⟨pid, none, false, true⟩)
  | .exit process =>
    match world.processes[process]? with
    | some held =>
      if held.running then
        some (world.change (fun index held =>
          { held with running := held.running && decide (index ≠ process) }))
      else none
    | none => none
  | .sessionStarted process sessionId metadata encryption pid =>
    if process < world.processes.length then
      some (world.report process sessionId metadata encryption pid)
    else none
  | .trackSpawned pid directory =>
    some { world with registry := world.registry.trackSpawned pid directory }
  | .pruneDeadSessions now =>
    some { world with registry := world.registry.pruneDeadSessions world.isAlive now }

/-- A daemon that starts with a registry and no call, among processes that it has not launched for the
session. -/
def boot (sessionId : String) (kvyEntrypoint : List String) (registry : SessionRegistry)
    (processes : List (Nat × Bool × Bool)) : ResumeWorld where
  sessionId := sessionId
  kvyEntrypoint := kvyEntrypoint
  registry := registry
  processes := processes.map (fun (pid, reported, running) => ⟨pid, none, reported, running⟩)
  calls := []

/-! ## What is asked -/

/-- Of the processes that were launched for the session, at most one runs. -/
def OneOwner (world : ResumeWorld) : Prop :=
  ∀ (first second : Nat) (one other : OwnedProcess), world.processes[first]? = some one → world.processes[second]? = some other →
    one.launchedBy.isSome = true → other.launchedBy.isSome = true → one.running = true →
    other.running = true → first = second

/-- A call comes to the launcher only when every process that ever reported the session is dead. -/
def LaunchesAlone (world next : ResumeWorld) : Prop :=
  ∀ (call : Nat) (directory : String) (launch : ResumeLaunch),
    next.calls[call]? = some (.launching directory launch) →
    (∀ before beforeLaunch, world.calls[call]? ≠ some (.launching before beforeLaunch)) →
    ∀ process ∈ next.processes, process.reported = true → process.running = false

/-- A call is between its look for a live process and the start of its own. -/
def InFlight (world : ResumeWorld) (call : Nat) : Prop :=
  (∃ persisted directory pid, world.calls[call]? = some (.stopping persisted directory pid)) ∨
    (∃ directory launch, world.calls[call]? = some (.launching directory launch)) ∧
      world.hasStarted call = false

/-- What keeps one owner. A call that looks for a live process finds every running process of the
session, and no other call is between its look and the start of its process; a running process that
reports the session while a call waits is the one that it waits for. -/
def Careful (world : ResumeWorld) : ResumeEvent → Prop
  | .resolved call _ =>
    (∀ other, other ≠ call → ¬ world.InFlight other) ∧
      ∀ process ∈ world.processes, process.running = true → process.owns = true →
        world.registry.getLivePid world.sessionId = some process.pid
  | .sessionStarted process sessionId _ _ _ =>
    ∀ (call : Nat) (persisted : PersistedSession) (directory : String) (pid : Nat)
      (held : OwnedProcess), sessionId = world.sessionId →
      world.calls[call]? = some (.stopping persisted directory pid) →
      world.processes[process]? = some held → held.running = true → held.pid = pid
  | _ => True

end ResumeWorld

end Kvy.Cli.Daemon.Registry
