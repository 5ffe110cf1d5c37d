import Kvy.Wire.Session

/-!
# Spawning a provider process

A spawn request is answered by one attempt for its idempotency key: while it runs and after it
has given a session id, later requests join it. An attempt checks the directory, prepares the
branch, looks for a live session in the directory, launches the process and waits until the
process reports, fails, exits or takes too long.

What happens outside (the file system, git, the launcher, the reports of the processes) arrives
as events. A promise that settles and the reaction to it are steps of their own.
-/

namespace Kvy.Cli.Daemon

open General Wire

/-! ## Requests and results -/

/-- `ProviderIdSchema`. -/
inductive ProviderId where
  | claudeCode
  | codex
deriving DecidableEq

/-- The subcommand of a provider in `PROVIDER_REGISTRY`. -/
def ProviderId.kvySubcommand : ProviderId → String
  | .claudeCode => "claude"
  | .codex => "codex"

/-- The branch of a spawn request. -/
structure SpawnBranch where
  name : String
  createWorktree : Bool
  baseRef : Option String
deriving DecidableEq

/-- `SpawnParamsSchema`. -/
structure SpawnParams where
  idempotencyKey : String
  workspaceId : String
  directory : String
  provider : ProviderId
  permissionMode : PermissionMode
  model : Option String
  branch : Option SpawnBranch
  continueFrom : Option String
deriving DecidableEq

/-- The approvals that a spawn can ask for. -/
inductive ApprovalAction where
  | createDirectory
  | registerWorkspace
deriving DecidableEq

/-- `SpawnResultSchema`. -/
inductive SpawnResult where
  | sessionId (id : String)
  | requiresApproval (action : ApprovalAction) (directory : String)
deriving DecidableEq

/-- Why a directory is refused. -/
inductive RefusedDirectory where
  | notAbsolute
  | unknownWorkspace
  | notFound
  | notDirectory
  | outsideWorkspaceRoot
deriving DecidableEq

/-- The reason as text. -/
def RefusedDirectory.text : RefusedDirectory → String
  | .notAbsolute => "not-absolute"
  | .unknownWorkspace => "unknown-workspace"
  | .notFound => "not-found"
  | .notDirectory => "not-directory"
  | .outsideWorkspaceRoot => "outside-workspace-root"

/-- `ValidateSpawnWorkspaceResult`, or the error that looking up the workspace throws. -/
inductive Validation where
  | accepted (realDirectory : String)
  | refused (reason : RefusedDirectory)
  | thrown (message : String)
deriving DecidableEq

/-- `LaunchProcessOptions`, without the environment. -/
structure LaunchProcessOptions where
  sessionLabel : String
  command : String
  args : List String
  cwd : String
deriving DecidableEq

/-- `buildProviderArgs`. -/
def buildProviderArgs (params : SpawnParams) : List String :=
  [params.provider.kvySubcommand, "--starting-mode", "remote", "--started-by", "daemon",
    "--permission-mode", params.permissionMode.text] ++
    (match params.model with
    | some model => if model = "" then [] else ["--model", model]
    | none => []) ++
    (match params.continueFrom with
    | some providerSessionId => ["--continue-from", providerSessionId]
    | none => [])

/-- How a process was launched. -/
inductive LaunchMethod where
  | tmux
  | detached
deriving DecidableEq

/-- The method as text. -/
def LaunchMethod.text : LaunchMethod → String
  | .tmux => "tmux"
  | .detached => "detached"

/-- A process that was launched. -/
structure LaunchedProcess where
  method : LaunchMethod
  pid : Nat
deriving DecidableEq

/-! ## The daemon -/

/-- `TrackedSession`, without what no spawn reads. -/
structure TrackedSession where
  startedBy : String
  sessionId : Option String
  directory : Option String
deriving DecidableEq

/-- Where an attempt stands. The errors are the messages of a `SpawnError`. -/
inductive AttemptStage where
  | validating
  | branching
  | launching (directory : String)
  | waiting
  | answered (report : Except String String)
  | settled (result : Except String SpawnResult)

/-- An attempt: its request, its process once it is launched, and whether `handleSpawn` has
reacted to its end. -/
structure Attempt where
  params : SpawnParams
  stage : AttemptStage
  launched : Option LaunchedProcess
  reacted : Bool

/-- A launch that succeeded. -/
structure Launch where
  attempt : Nat
  options : LaunchProcessOptions
  process : LaunchedProcess

/-- What the owner of the daemon wired. `unresolved` is what `expandEnvVars` finds missing. -/
structure SpawnEngineDeps where
  kvyEntrypoint : List String
  unresolved : List String
  timeoutMs : Nat

/-- The daemon, as far as it spawns. `waiters` are those of the awaiter, by pid. -/
structure SpawnDaemon where
  deps : SpawnEngineDeps
  spawnResults : OrderedMap String Nat
  attempts : OrderedMap Nat Attempt
  next : Nat
  waiters : OrderedMap Nat Nat
  pidToSession : OrderedMap Nat TrackedSession
  launches : List Launch

namespace SpawnDaemon

/-- A daemon that has spawned nothing, with the sessions it found running. -/
def start (deps : SpawnEngineDeps) (readopted : OrderedMap Nat TrackedSession) : SpawnDaemon where
  deps := deps
  spawnResults := .empty
  attempts := .empty
  next := 0
  waiters := .empty
  pidToSession := readopted
  launches := []

/-- An attempt moves to a stage. -/
def move (daemon : SpawnDaemon) (id : Nat) (attempt : Attempt) (stage : AttemptStage) : SpawnDaemon :=
  { daemon with attempts := daemon.attempts.set id { attempt with stage := stage } }

/-- `scanForLiveSessionInDirectory`. -/
def scanForLiveSessionInDirectory (sessions : List TrackedSession) (realDirectory : String) :
    Option String :=
  sessions.findSome? (fun session =>
    match session.sessionId with
    | some sessionId =>
      if sessionId ≠ "" ∧ session.directory = some realDirectory then some sessionId else none
    | none => none)

/-- The sessions of `getSessions`. -/
def getSessions (daemon : SpawnDaemon) : List TrackedSession := daemon.pidToSession.entries.map Prod.snd

/-- `spawnSession` from the directory on, up to the launch. -/
def proceed (daemon : SpawnDaemon) (id : Nat) (attempt : Attempt) (spawnDirectory : String) : SpawnDaemon :=
  match scanForLiveSessionInDirectory daemon.getSessions spawnDirectory with
  | some sessionId => daemon.move id attempt (.settled (.ok (.sessionId sessionId)))
  | none =>
    if daemon.deps.unresolved ≠ [] then
      daemon.move id attempt (.settled (.error ("env template references unresolved variable(s): " ++
        String.intercalate ", " daemon.deps.unresolved)))
    else if (daemon.deps.kvyEntrypoint.headD "") = "" then
      daemon.move id attempt (.settled (.error "could not resolve the kvy entrypoint to re-invoke"))
    else daemon.move id attempt (.launching spawnDirectory)

/-- What `spawnSession` passes to the launcher. -/
def launchOptions (deps : SpawnEngineDeps) (params : SpawnParams) (spawnDirectory : String) :
    LaunchProcessOptions where
  sessionLabel := params.idempotencyKey
  command := deps.kvyEntrypoint.headD ""
  args := deps.kvyEntrypoint.tail ++ buildProviderArgs params
  cwd := spawnDirectory

/-- `spawnSession` after the directory is checked. -/
def validated (daemon : SpawnDaemon) (id : Nat) (attempt : Attempt) :
    Validation → SpawnDaemon
  | .thrown message => daemon.move id attempt (.settled (.error message))
  | .refused .notFound => daemon.move id attempt
      (.settled (.ok (.requiresApproval .createDirectory attempt.params.directory)))
  | .refused .unknownWorkspace => daemon.move id attempt
      (.settled (.ok (.requiresApproval .registerWorkspace attempt.params.directory)))
  | .refused reason => daemon.move id attempt (.settled (.error ("workspace path rejected (" ++
      reason.text ++ "): " ++ attempt.params.directory)))
  | .accepted realDirectory =>
    if attempt.params.branch.isSome then daemon.move id attempt .branching
    else daemon.proceed id attempt realDirectory

/-- `spawnSession` after the branch is prepared. -/
def branched (daemon : SpawnDaemon) (id : Nat) (attempt : Attempt) : Except String String → SpawnDaemon
  | .error message =>
    daemon.move id attempt (.settled (.error ("branch/worktree setup failed: " ++ message)))
  | .ok spawnDirectory => daemon.proceed id attempt spawnDirectory

/-- `trackSpawned`. -/
def trackSpawned (daemon : SpawnDaemon) (pid : Nat) (directory : Option String) : SpawnDaemon :=
  { daemon with pidToSession := daemon.pidToSession.set pid ⟨"daemon", none, directory⟩ }

/-- `spawnSession` after the launcher is done. The awaiter waits for the process from then on. -/
def launched (daemon : SpawnDaemon) (id : Nat) (attempt : Attempt) (directory : String) :
    Except String LaunchedProcess → SpawnDaemon
  | .error message =>
    daemon.move id attempt (.settled (.error ("failed to launch provider process: " ++ message)))
  | .ok process =>
    { daemon.trackSpawned process.pid (some directory) with
      attempts := daemon.attempts.set id { attempt with stage := .waiting, launched := some process }
      waiters := daemon.waiters.set process.pid id
      launches := daemon.launches ++
        [⟨id, launchOptions daemon.deps attempt.params directory, process⟩] }

/-! ### The awaiter -/

/-- `settle` of a waiter. Its promise settles once. -/
def settleWaiter (daemon : SpawnDaemon) (pid id : Nat) (report : Except String String) : SpawnDaemon :=
  let removed := { daemon with waiters := daemon.waiters.delete pid }
  match daemon.attempts.get? id with
  | some attempt =>
    match attempt.stage with
    | .waiting => removed.move id attempt (.answered report)
    | _ => removed
  | none => removed

/-- A report about a process reaches the waiter of its pid. -/
def report (daemon : SpawnDaemon) (pid : Nat) (result : Except String String) : SpawnDaemon :=
  match daemon.waiters.get? pid with
  | some id => daemon.settleWaiter pid id result
  | none => daemon

/-- `onSessionStarted`: first the registry, then the awaiter. -/
def onSessionStarted (daemon : SpawnDaemon) (sessionId : String) (pid : Option Nat) : SpawnDaemon :=
  match pid with
  | none => daemon
  | some pid =>
    let tracked :=
      match daemon.pidToSession.get? pid with
      | some existing => { existing with sessionId := some sessionId }
      | none => ⟨"terminal", some sessionId, none⟩
    { daemon with pidToSession := daemon.pidToSession.set pid tracked }.report pid (.ok sessionId)

/-- `onSessionStartFailed`. -/
def onSessionStartFailed (daemon : SpawnDaemon) (pid : Nat) (error : String) : SpawnDaemon :=
  daemon.report pid
    (.error ("spawned process (pid " ++ toString pid ++ ") reported a startup failure: " ++ error))

/-- The timer of a waiter. -/
def timedOut (daemon : SpawnDaemon) (pid id : Nat) : SpawnDaemon :=
  daemon.settleWaiter pid id (.error ("spawned process (pid " ++ toString pid ++
    ") did not report back via /session-started within " ++ toString daemon.deps.timeoutMs ++ "ms"))

/-- The exit of a process that is watched. A waiter that was replaced is left alone. -/
def exited (daemon : SpawnDaemon) (pid id : Nat) (detail : String) : SpawnDaemon :=
  if daemon.waiters.get? pid = some id then
    daemon.settleWaiter pid id (.error ("spawned process (pid " ++ toString pid ++
      ") exited before it reported starting" ++ detail))
  else daemon

/-- `spawnSession` after the awaiter has answered. -/
def resumed (daemon : SpawnDaemon) (id : Nat) (attempt : Attempt) (process : LaunchedProcess) :
    Except String String → SpawnDaemon
  | .ok sessionId => daemon.move id attempt (.settled (.ok (.sessionId sessionId)))
  | .error message => daemon.move id attempt (.settled (.error ("spawn launched (pid " ++
      toString process.pid ++ ", " ++ process.method.text ++ ") but " ++ message)))

/-! ### The cache -/

/-- A result with a session id, which is worth replaying. -/
def genuine : Except String SpawnResult → Bool
  | .ok (.sessionId id) => id ≠ ""
  | _ => false

/-- `handleSpawn`. A request whose key is cached joins its attempt. -/
def handleSpawn (daemon : SpawnDaemon) (params : SpawnParams) : SpawnDaemon :=
  match daemon.spawnResults.get? params.idempotencyKey with
  | some _ => daemon
  | none =>
    { daemon with
      attempts := daemon.attempts.set daemon.next ⟨params, .validating, none, false⟩
      spawnResults := daemon.spawnResults.set params.idempotencyKey daemon.next
      next := daemon.next + 1 }

/-- The reaction of `handleSpawn` to the end of an attempt. -/
def react (daemon : SpawnDaemon) (id : Nat) (attempt : Attempt) (result : Except String SpawnResult) :
    SpawnDaemon :=
  let reacted := { daemon with attempts := daemon.attempts.set id { attempt with reacted := true } }
  if genuine result then reacted
  else { reacted with
    spawnResults := reacted.spawnResults.delete attempt.params.idempotencyKey }

/-! ### Steps -/

/-- What can happen to a daemon. -/
inductive Event where
  | spawn (params : SpawnParams)
  | validated (id : Nat) (result : Validation)
  | branched (id : Nat) (result : Except String String)
  | launched (id : Nat) (result : Except String LaunchedProcess)
  | sessionStarted (sessionId : String) (pid : Option Nat)
  | sessionStartFailed (pid : Nat) (error : String)
  | timedOut (id : Nat)
  | exited (id : Nat) (detail : String)
  | resumed (id : Nat)
  | reacted (id : Nat)
  | tracked (pid : Nat) (directory : Option String)
  | pruned (pid : Nat)

/-- A step of a daemon. Each attempt takes what it waits for. -/
def step (daemon : SpawnDaemon) : Event → Option SpawnDaemon
  | .spawn params => some (daemon.handleSpawn params)
  | .validated id result => do
    let attempt ← daemon.attempts.get? id
    match attempt.stage with
    | .validating => some (daemon.validated id attempt result)
    | _ => none
  | .branched id result => do
    let attempt ← daemon.attempts.get? id
    match attempt.stage with
    | .branching => some (daemon.branched id attempt result)
    | _ => none
  | .launched id result => do
    let attempt ← daemon.attempts.get? id
    match attempt.stage with
    | .launching directory => some (daemon.launched id attempt directory result)
    | _ => none
  | .sessionStarted sessionId pid => some (daemon.onSessionStarted sessionId pid)
  | .sessionStartFailed pid error => some (daemon.onSessionStartFailed pid error)
  | .timedOut id => do
    let attempt ← daemon.attempts.get? id
    match attempt.stage, attempt.launched with
    | .waiting, some process => some (daemon.timedOut process.pid id)
    | _, _ => none
  | .exited id detail => do
    let attempt ← daemon.attempts.get? id
    match attempt.stage, attempt.launched with
    | .waiting, some process => some (daemon.exited process.pid id detail)
    | _, _ => none
  | .resumed id => do
    let attempt ← daemon.attempts.get? id
    match attempt.stage, attempt.launched with
    | .answered report, some process => some (daemon.resumed id attempt process report)
    | _, _ => none
  | .reacted id => do
    let attempt ← daemon.attempts.get? id
    match attempt.stage with
    | .settled result =>
      if attempt.reacted then none else some (daemon.react id attempt result)
    | _ => none
  | .tracked pid directory => some (daemon.trackSpawned pid directory)
  | .pruned pid => some { daemon with pidToSession := daemon.pidToSession.delete pid }

end SpawnDaemon

end Kvy.Cli.Daemon
