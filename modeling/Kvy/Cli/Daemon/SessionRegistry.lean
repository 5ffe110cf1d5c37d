import Kvy.Cli.Daemon.SpawnEngine
import Kvy.General.FirstKey
import Kvy.General.Text

/-!
# The session registry of the daemon

The daemon keeps the processes of sessions by their pid, and the sessions that can be resumed by
their id. A process that reports a session takes the entry of its pid. A session is looked up
among the entries, from the first one on. Entries of processes that have ended stay until they
are pruned. What is needed to resume a session is also kept in a file, from which the next daemon
takes it, together with the processes that still run.
-/

namespace Kvy.Cli.Daemon.Registry

open General

/-- `SessionEncryptionData`. -/
structure SessionEncryptionData where
  encryptionKey : String
  seq : Decimal
  metadataVersion : Decimal
  agentStateVersion : Decimal

/-- `TrackedSession`. -/
structure TrackedSession where
  startedBy : String
  sessionId : Option String
  provider : Option ProviderId
  metadata : Option Json
  encryption : Option SessionEncryptionData
  pid : Nat
  directory : Option String

/-- `PersistedSession`. -/
structure PersistedSession where
  sessionId : String
  provider : Option ProviderId
  metadata : Option Json
  encryption : SessionEncryptionData
  savedAt : Nat
  directory : Option String
  pid : Option Nat

/-- Whether a session has an id that is equal to the given one. -/
def TrackedSession.isOf (sessionId : String) (session : TrackedSession) : Bool :=
  session.sessionId = some sessionId

/-- `toPersisted`. -/
def TrackedSession.toPersisted (session : TrackedSession) (now : Nat) : Option PersistedSession := do
  let sessionId ← session.sessionId.filter (· ≠ "")
  let encryption ← session.encryption
  return {
    sessionId, encryption
    provider := session.provider
    metadata := session.metadata
    savedAt := now
    directory := session.directory
    pid := some session.pid }

/-! ## Processes that are still there -/

/-- `ADMIN_SUBCOMMANDS`. -/
def adminSubcommands : List String :=
  ["daemon", "kill", "doctor", "auth", "sessions", "resume", "workspace", "notify", "--help", "-h",
    "--version", "-v", "-V"]

/-- `tokenize`. -/
def tokenize (command : String) : List String :=
  ((command.toList.splitOnP Text.isSpace).filter (fun token => !token.isEmpty)).map String.ofList

/-- `isKvyEntrypointToken`. -/
def isKvyEntrypointToken (token : String) : Bool :=
  let base := ((token.toList.splitOn '/').getLast?.getD token.toList)
  base = "kvy".toList || base = "kvy.mjs".toList ||
    ((base = "index.mjs".toList || base = "index.ts".toList) &&
      (Text.after? "/cli/".toList token.toList).isSome)

/-- `KvyProcessKind`. -/
inductive KvyProcessKind where
  | daemon
  | session
  | other
deriving DecidableEq

/-- The kind that `classifyKvyCommand` finds. -/
def classifyKvyCommand (command : String) : Option KvyProcessKind :=
  match (tokenize command).dropWhile (fun token => !isKvyEntrypointToken token) with
  | [] => none
  | _ :: args =>
    match args with
    | [] => some .session
    | sub :: rest =>
      if sub = "daemon" && (rest.head? = some "start-sync" || rest.head? = some "start") then
        some .daemon
      else if sub ∈ adminSubcommands then some .other
      else some .session

/-- `ProcessEntry`, as far as it is read. -/
structure ProcessEntry where
  pid : Nat
  command : String

/-- `ReadoptProbeDeps`: what the system answers. -/
structure ReadoptProbe where
  listProcesses : List ProcessEntry
  resolveCwd : Nat → Option String
  realpath : String → Option String

/-- `ReadoptCandidate`. -/
structure ReadoptCandidate where
  sessionId : String
  session : PersistedSession
  pid : Nat

/-- The candidate of a persisted session, where the listed process is a session of this CLI in the
recorded directory. -/
def ReadoptProbe.candidate? (probe : ReadoptProbe) (entry : String × PersistedSession) :
    Option ReadoptCandidate := do
  let pid ← entry.2.pid.filter (0 < ·)
  let directory ← entry.2.directory
  let byPid := probe.listProcesses.foldl (fun map process => map.set process.pid process)
    (OrderedMap.empty : OrderedMap Nat ProcessEntry)
  let process ← byPid.get? pid
  if classifyKvyCommand process.command ≠ some .session then none
  let cwd ← (probe.resolveCwd pid).filter (· ≠ "")
  let liveDir ← probe.realpath cwd
  let wantDir ← probe.realpath directory
  if liveDir ≠ wantDir then none
  return ⟨entry.1, entry.2, pid⟩

/-- `findLiveOrphanedSessions`. -/
def findLiveOrphanedSessions (persisted : OrderedMap String PersistedSession) (probe : ReadoptProbe) :
    List ReadoptCandidate := persisted.entries.filterMap probe.candidate?

/-! ## The registry -/

/-- The maps of `createSessionRegistry`. -/
structure SessionRegistry where
  pidToSession : OrderedMap Nat TrackedSession
  resumable : OrderedMap String PersistedSession

namespace SessionRegistry

/-- The registry of a daemon that has just started. -/
def empty : SessionRegistry := ⟨.empty, .empty⟩

/-- `restore`. -/
def restore (registry : SessionRegistry) (persisted : OrderedMap String PersistedSession) :
    SessionRegistry :=
  { registry with
    resumable := OrderedMap.setAll Prod.fst Prod.snd registry.resumable persisted.entries }

/-- The entry of a candidate. -/
def readopted (candidate : ReadoptCandidate) : TrackedSession where
  startedBy := "daemon"
  sessionId := some candidate.session.sessionId
  provider := candidate.session.provider
  metadata := candidate.session.metadata
  encryption := some candidate.session.encryption
  pid := candidate.pid
  directory := candidate.session.directory

/-- `readoptLiveSessions`. -/
def readoptLiveSessions (registry : SessionRegistry) (probe : ReadoptProbe) : SessionRegistry :=
  { registry with
    pidToSession := OrderedMap.setAll ReadoptCandidate.pid readopted registry.pidToSession
      (findLiveOrphanedSessions registry.resumable probe) }

/-- `trackSpawned`. -/
def trackSpawned (registry : SessionRegistry) (pid : Nat) (directory : Option String) :
    SessionRegistry :=
  { registry with
    pidToSession := registry.pidToSession.set pid
      ⟨"daemon", none, none, none, none, pid, directory⟩ }

/-- What `onSessionStarted` tracks. -/
def tracked (registry : SessionRegistry) (sessionId : String) (metadata : Option Json)
    (encryption : Option SessionEncryptionData) (pid : Option Nat) : TrackedSession :=
  match pid.bind registry.pidToSession.get? with
  | some existing => { existing with sessionId := some sessionId, metadata, encryption }
  | none => ⟨"terminal", some sessionId, none, metadata, encryption, pid.getD 0, none⟩

/-- `onSessionStarted`, as far as the maps are concerned. -/
def onSessionStarted (registry : SessionRegistry) (sessionId : String) (metadata : Option Json)
    (encryption : Option SessionEncryptionData) (pid : Option Nat) : SessionRegistry where
  pidToSession := match pid with
    | some pid => registry.pidToSession.set pid
        (registry.tracked sessionId metadata encryption (some pid))
    | none => registry.pidToSession
  resumable := registry.resumable.delete sessionId

/-- What `onSessionStarted` writes to the file. -/
def persistedAtStart (registry : SessionRegistry) (sessionId : String) (metadata : Option Json)
    (encryption : Option SessionEncryptionData) (pid : Option Nat) (now : Nat) :
    Option PersistedSession :=
  (registry.tracked sessionId metadata encryption pid).toPersisted now

/-- `stopSession`: the pids that are signalled, and the result. -/
def stopSession (registry : SessionRegistry) (sessionId : String) : List Nat × Bool :=
  match registry.pidToSession.entries.find? (fun entry => entry.2.isOf sessionId) with
  | some entry => ([entry.1], true)
  | none => ([], false)

/-- `getLivePid`. -/
def getLivePid (registry : SessionRegistry) (sessionId : String) : Option Nat :=
  (registry.pidToSession.entries.find? (fun entry => entry.2.isOf sessionId)).map Prod.fst

/-- `findResumable`. -/
def findResumable (registry : SessionRegistry) (sessionId : String) (now : Nat) :
    Option PersistedSession :=
  let live := (registry.pidToSession.entries.find? (fun entry => entry.2.isOf sessionId)).map Prod.snd
  match live.bind TrackedSession.encryption, live with
  | some encryption, some session =>
    some ⟨sessionId, session.provider, session.metadata, encryption, now, session.directory,
      some session.pid⟩
  | _, _ => registry.resumable.get? sessionId

/-- `pruneDeadSessions`. -/
def pruneDeadSessions (registry : SessionRegistry) (isAlive : Nat → Bool) (now : Nat) :
    SessionRegistry where
  pidToSession := registry.pidToSession.filter (fun pid _ => isAlive pid)
  resumable := (registry.pidToSession.entries.filter (fun entry => !isAlive entry.1)).foldl
    (fun map entry => match entry.2.toPersisted now with
      | some persisted => map.set persisted.sessionId persisted
      | none => map) registry.resumable

/-! ## The entries after each change -/

/-- What is tracked at a report is the reported session. -/
@[simp] theorem session_tracked (registry : SessionRegistry) (sessionId : String)
    (metadata : Option Json) (encryption : Option SessionEncryptionData) (pid : Option Nat) :
    (registry.tracked sessionId metadata encryption pid).sessionId = some sessionId := by
  unfold tracked
  split <;> rfl

/-- Its encryption data is what the report gives. -/
@[simp] theorem encryption_tracked (registry : SessionRegistry) (sessionId : String)
    (metadata : Option Json) (encryption : Option SessionEncryptionData) (pid : Option Nat) :
    (registry.tracked sessionId metadata encryption pid).encryption = encryption := by
  unfold tracked
  split <;> rfl

/-- A report replaces the entry of its pid. -/
theorem get_on_session_started (registry : SessionRegistry) (sessionId : String)
    (metadata : Option Json) (encryption : Option SessionEncryptionData) (pid : Option Nat)
    (tested : Nat) :
    (registry.onSessionStarted sessionId metadata encryption pid).pidToSession.get? tested =
      if pid = some tested then some (registry.tracked sessionId metadata encryption pid)
      else registry.pidToSession.get? tested := by
  cases pid with
  | none => simp [onSessionStarted]
  | some pid =>
    simp only [onSessionStarted, OrderedMap.get_set, Option.some.injEq]
    by_cases same : tested = pid
    · simp [same]
    · simp [same, Ne.symm same]

/-- A spawned process takes the entry of its pid. -/
theorem get_track_spawned (registry : SessionRegistry) (pid : Nat) (directory : Option String)
    (tested : Nat) :
    (registry.trackSpawned pid directory).pidToSession.get? tested =
      if tested = pid then some ⟨"daemon", none, none, none, none, pid, directory⟩
      else registry.pidToSession.get? tested :=
  OrderedMap.get_set registry.pidToSession pid tested _

/-- A sweep keeps the entries of the pids that are alive. -/
theorem get_prune (registry : SessionRegistry) (isAlive : Nat → Bool) (now : Nat) (tested : Nat) :
    (registry.pruneDeadSessions isAlive now).pidToSession.get? tested =
      (registry.pidToSession.get? tested).filter (fun _ => isAlive tested) :=
  OrderedMap.get_filter registry.pidToSession (fun pid _ => isAlive pid) tested

end SessionRegistry

end Kvy.Cli.Daemon.Registry
