import Kvy.Cli.Daemon.SessionRegistry
import Kvy.General.Runs

/-!
# Which process owns a session

Processes start, report sessions and exit; a pid is free again when its process has exited. The
daemon tracks what it spawns, prunes what has exited, writes the file and is started again. The
history remembers for every session which process reported it last, and for every pid which
session was reported under it last.

The registry looks up the process that reported a session last as long as no report comes while
an older entry of its session stands before its own, no spawn is tracked under the pid of a
process that owns a session, and every restart takes over the owners and only the owners.
-/

namespace Kvy.Cli.Daemon.Registry

open General

/-- A process of the system. -/
structure Process where
  pid : Nat
  running : Bool

/-- The processes, the daemon and its file, and what has been reported. Processes are numbered in
the order in which they start. -/
structure World where
  processes : List Process
  registry : SessionRegistry
  file : OrderedMap String PersistedSession
  writes : List PersistedSession
  owner : String → Option Nat
  reported : Nat → Option String

/-- `MAX_SESSION_AGE_MS`. -/
def maxSessionAgeMs : Nat := 14 * 24 * 60 * 60 * 1000

/-- `readPersistedSessions`. -/
def readPersistedSessions (file : OrderedMap String PersistedSession) (now : Nat) :
    OrderedMap String PersistedSession :=
  file.filter (fun _ session => now ≤ session.savedAt + maxSessionAgeMs)

/-- `persistSession`. -/
def persistSession (file : OrderedMap String PersistedSession) (session : PersistedSession)
    (now : Nat) : OrderedMap String PersistedSession :=
  (readPersistedSessions file now).set session.sessionId session

/-- What can happen. A report comes from a process, which may have exited meanwhile; it gives the
pid of the process, another one or none. A queued write succeeds or fails. -/
inductive Event where
  | start (pid : Nat)
  | exit (process : Nat)
  | trackSpawned (pid : Nat) (directory : Option String)
  | sessionStarted (process : Nat) (sessionId : String) (metadata : Option Json)
      (encryption : Option SessionEncryptionData) (pid : Option Nat) (now : Nat)
  | pruneDeadSessions (now : Nat)
  | write (succeeds : Bool) (now : Nat)
  | restart (now : Nat) (probe : ReadoptProbe)

namespace World

/-- The world before the first daemon. -/
def start : World where
  processes := []
  registry := .empty
  file := .empty
  writes := []
  owner := fun _ => none
  reported := fun _ => none

/-- The process runs under the pid. -/
def Runs (world : World) (process pid : Nat) : Prop := world.processes[process]? = some ⟨pid, true⟩

/-- Some process runs under the pid. -/
def isAlive (world : World) (pid : Nat) : Bool :=
  world.processes.any (fun process => process.pid = pid && process.running)

/-- A report of a process. The process owns the session from now on; who owned another session
under the pid that is given, does not any more. -/
def report (world : World) (process : Nat) (sessionId : String) (metadata : Option Json)
    (encryption : Option SessionEncryptionData) (pid : Option Nat) (now : Nat) : World :=
  { world with
    registry := world.registry.onSessionStarted sessionId metadata encryption pid
    writes := world.writes ++
      (world.registry.persistedAtStart sessionId metadata encryption pid now).toList
    owner := fun id =>
      if id = sessionId then some process
      else (world.owner id).filter (fun other =>
        (world.processes[other]?).all (fun held => pid ≠ some held.pid))
    reported := fun key => if pid = some key then some sessionId else world.reported key }

/-- The boot of the next daemon. What was not written is lost. -/
def boot (world : World) (now : Nat) (probe : ReadoptProbe) : World :=
  { world with
    registry :=
      (SessionRegistry.empty.restore (readPersistedSessions world.file now)).readoptLiveSessions probe
    writes := [] }

/-- What happens, where it can. A pid is given to one running process only. -/
def step (world : World) : Event → Option World
  | .start pid =>
    if world.isAlive pid then none
    else some { world with processes := world.processes ++ [⟨pid, true⟩] }
  | .exit process =>
    match world.processes[process]? with
    | some ⟨pid, true⟩ => some { world with processes := world.processes.set process ⟨pid, false⟩ }
    | _ => none
  | .trackSpawned pid directory =>
    some { world with registry := world.registry.trackSpawned pid directory }
  | .sessionStarted process sessionId metadata encryption pid now =>
    if process < world.processes.length then
      some (world.report process sessionId metadata encryption pid now)
    else none
  | .pruneDeadSessions now =>
    some { world with registry := world.registry.pruneDeadSessions world.isAlive now }
  | .write succeeds now =>
    match world.writes with
    | session :: writes =>
      some { world with
        writes
        file := if succeeds then persistSession world.file session now else world.file }
    | [] => none
  | .restart now probe => some (world.boot now probe)

/-- A session is looked up at the process that owns it as long as that process runs; and no pid is
signalled for a session when another one was reported under it last. -/
structure Resolves (world : World) : Prop where
  owners : ∀ sessionId process pid, world.owner sessionId = some process → world.Runs process pid →
    world.registry.getLivePid sessionId = some pid ∧
      world.registry.stopSession sessionId = ([pid], true)
  signals : ∀ sessionId, ∀ pid ∈ (world.registry.stopSession sessionId).1,
    ∀ other, world.reported pid = some other → other = sessionId

/-- The session that the next daemon takes over under a pid: that of the last candidate with the
pid. -/
def adopted (candidates : List ReadoptCandidate) (pid : Nat) : Option String :=
  (candidates.reverse.find? (fun candidate => candidate.pid = pid)).map
    (fun candidate => candidate.session.sessionId)

/-- What keeps the lookup right. No entry of the session stands before that of a running process
that reports it; and the report gives the pid of the process, or the entry of its pid holds the
session already and the pid that is given does not stand before it. A spawn is not tracked under
the pid of an owner. A restart takes over every owner, and under no pid a session other than the
last one reported under it. -/
def Keeps (world : World) : Event → Prop
  | .trackSpawned pid _ =>
    ∀ sessionId process, world.owner sessionId = some process → ¬ world.Runs process pid
  | .sessionStarted process sessionId _ _ given _ => ∀ pid, world.Runs process pid →
    world.registry.pidToSession.NoneBefore pid (TrackedSession.isOf sessionId) ∧
      (given = some pid ∨
        (∃ session, world.registry.pidToSession.get? pid = some session ∧
          session.isOf sessionId = true) ∧
        ∀ entry ∈ world.registry.pidToSession.before pid, given ≠ some entry.1)
  | .restart now probe =>
    let candidates := findLiveOrphanedSessions (readPersistedSessions world.file now) probe
    (∀ sessionId process pid, world.owner sessionId = some process → world.Runs process pid →
      adopted candidates pid = some sessionId) ∧
    ∀ pid sessionId, adopted candidates pid = some sessionId →
      ∀ other, world.reported pid = some other → other = sessionId
  | _ => True

end World

end Kvy.Cli.Daemon.Registry
