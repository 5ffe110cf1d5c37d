import Kvy.Cli.Daemon.SessionRegistry
import Kvy.General.Runs

/-!
# The spawns of a daemon and its registry

A report of a process goes to the registry and then to the awaiter, in one go. So does the answer
of the launcher: the process is tracked, and the spawn waits for its report. The launcher answers
some time after the process has started, so a report may come before the answer.

The spawns read little of the entries of the registry. What they read agrees with it throughout.
-/

namespace Kvy.Cli.Daemon

open General General.Runs

namespace SpawnDaemon

/-- The events of the spawns that leave the registry alone. -/
def Event.isOwn : Event → Bool
  | .launched _ (.ok _) | .sessionStarted _ _ | .tracked _ _ | .pruned _ => false
  | _ => true

/-- An attempt before the launcher. -/
def Preparing : AttemptStage → Prop
  | .validating | .branching => True
  | _ => False

/-- The attempt that looks for a live session, and where. -/
def scans (daemon : SpawnDaemon) : Event → Option (Nat × String)
  | .validated id (.accepted realDirectory) =>
    match daemon.attempts.get? id with
    | some attempt => if attempt.params.branch.isSome then none else some (id, realDirectory)
    | none => none
  | .branched id (.ok spawnDirectory) => some (id, spawnDirectory)
  | _ => none

/-- The stage to which an event takes an attempt that is prepared. It comes to the launcher, or to an
answer with a session, only by looking for a live session. -/
structure Prepares (daemon : SpawnDaemon) (event : Event) (id : Nat) (stage : AttemptStage) : Prop where
  untimed : ∀ other, event ≠ .timedOut other
  unawaited : stage ≠ .waiting
  launches : ∀ directory, stage = .launching directory → daemon.scans event = some (id, directory) ∧
    scanForLiveSessionInDirectory daemon.getSessions directory = none
  finds : ∀ sessionId, stage = .settled (.ok (.sessionId sessionId)) →
    ∃ directory, daemon.scans event = some (id, directory) ∧
      scanForLiveSessionInDirectory daemon.getSessions directory = some sessionId

/-- What an event of the spawns alone does. -/
inductive OwnStep (daemon : SpawnDaemon) : Event → SpawnDaemon → Prop where
  | spawn (params : SpawnParams) : OwnStep daemon (.spawn params) (daemon.handleSpawn params)
  | prepare {event : Event} {id : Nat} {attempt : Attempt} {stage : AttemptStage}
      (held : daemon.attempts.get? id = some attempt) (preparing : Preparing attempt.stage)
      (prepares : Prepares daemon event id stage) :
      OwnStep daemon event (daemon.move id attempt stage)
  | refuse {id : Nat} {attempt : Attempt} {directory : String} (message : String)
      (held : daemon.attempts.get? id = some attempt) (launching : attempt.stage = .launching directory) :
      OwnStep daemon (.launched id (.error message)) (daemon.move id attempt
        (.settled (.error ("failed to launch provider process: " ++ message))))
  | fail {pid id : Nat} (error message : String) (waits : daemon.waiters.get? pid = some id) :
      OwnStep daemon (.sessionStartFailed pid error) (daemon.settleWaiter pid id (.error message))
  | unheard (pid : Nat) (error : String) : OwnStep daemon (.sessionStartFailed pid error) daemon
  | timeOut {id : Nat} {attempt : Attempt} {process : LaunchedProcess} (message : String)
      (held : daemon.attempts.get? id = some attempt) (waiting : attempt.stage = .waiting)
      (launched : attempt.launched = some process) :
      OwnStep daemon (.timedOut id) (daemon.settleWaiter process.pid id (.error message))
  | exit {id : Nat} {attempt : Attempt} {process : LaunchedProcess} (detail message : String)
      (held : daemon.attempts.get? id = some attempt) (waiting : attempt.stage = .waiting)
      (launched : attempt.launched = some process) :
      OwnStep daemon (.exited id detail) (daemon.settleWaiter process.pid id (.error message))
  | replaced (id : Nat) (detail : String) : OwnStep daemon (.exited id detail) daemon
  | resume {id : Nat} {attempt : Attempt} {report : Except String String} (process : LaunchedProcess)
      (held : daemon.attempts.get? id = some attempt) (answered : attempt.stage = .answered report) :
      OwnStep daemon (.resumed id) (daemon.resumed id attempt process report)
  | react {id : Nat} {attempt : Attempt} {result : Except String SpawnResult}
      (held : daemon.attempts.get? id = some attempt) (settled : attempt.stage = .settled result) :
      OwnStep daemon (.reacted id) (daemon.react id attempt result)

variable {daemon next : SpawnDaemon} {event : Event}

/-- A stage that neither waits nor answers with a session is come to without looking. -/
theorem prepares_aside {id : Nat} {stage : AttemptStage} (untimed : ∀ other, event ≠ .timedOut other)
    (unawaited : stage ≠ .waiting) (unlaunched : ∀ directory, stage ≠ .launching directory)
    (unfound : ∀ sessionId, stage ≠ .settled (.ok (.sessionId sessionId))) :
    Prepares daemon event id stage :=
  ⟨untimed, unawaited, fun directory same => absurd same (unlaunched directory),
    fun sessionId same => absurd same (unfound sessionId)⟩

/-- An attempt whose directory is known looks for a live session there. -/
theorem proceed_moves {id : Nat} (attempt : Attempt) {directory : String}
    (untimed : ∀ other, event ≠ .timedOut other) (scanned : daemon.scans event = some (id, directory)) :
    ∃ stage, Prepares daemon event id stage ∧
      daemon.proceed id attempt directory = daemon.move id attempt stage := by
  have aside (message : String) : Prepares daemon event id (.settled (.error message)) :=
    prepares_aside untimed (by simp) (by simp) (by simp)
  unfold proceed
  split
  · rename_i sessionId found
    refine ⟨_, ⟨untimed, by simp, by simp, fun other same => ?_⟩, rfl⟩
    obtain rfl : sessionId = other := by simpa using same
    exact ⟨directory, scanned, found⟩
  · rename_i free
    split
    · exact ⟨_, aside _, rfl⟩
    · split
      · exact ⟨_, aside _, rfl⟩
      · refine ⟨_, ⟨untimed, by simp, fun other same => ?_, by simp⟩, rfl⟩
        obtain rfl : directory = other := by simpa using same
        exact ⟨scanned, free⟩

theorem validated_moves {id : Nat} {attempt : Attempt} (held : daemon.attempts.get? id = some attempt)
    (result : Validation) : ∃ stage, Prepares daemon (.validated id result) id stage ∧
      daemon.validated id attempt result = daemon.move id attempt stage := by
  have aside {stage : AttemptStage} (unawaited : stage ≠ .waiting)
      (unlaunched : ∀ directory, stage ≠ .launching directory)
      (unfound : ∀ sessionId, stage ≠ .settled (.ok (.sessionId sessionId))) :
      Prepares daemon (.validated id result) id stage :=
    prepares_aside (by simp) unawaited unlaunched unfound
  unfold validated
  split
  · exact ⟨_, aside (by simp) (by simp) (by simp), rfl⟩
  · exact ⟨_, aside (by simp) (by simp) (by simp), rfl⟩
  · exact ⟨_, aside (by simp) (by simp) (by simp), rfl⟩
  · exact ⟨_, aside (by simp) (by simp) (by simp), rfl⟩
  · split
    · exact ⟨_, aside (by simp) (by simp) (by simp), rfl⟩
    · rename_i unbranched
      exact proceed_moves attempt (by simp) (by simp [scans, held, unbranched])

theorem branched_moves (daemon : SpawnDaemon) (id : Nat) (attempt : Attempt)
    (result : Except String String) : ∃ stage, Prepares daemon (.branched id result) id stage ∧
      daemon.branched id attempt result = daemon.move id attempt stage := by
  cases result with
  | error message => exact ⟨_, prepares_aside (by simp) (by simp) (by simp) (by simp), rfl⟩
  | ok directory => exact proceed_moves attempt (by simp) rfl

/-- Every event of the spawns alone does one of these things. -/
theorem own_step (own : event.isOwn = true) (taken : daemon.step event = some next) :
    OwnStep daemon event next := by
  cases event with
  | spawn params =>
    cases taken
    exact .spawn params
  | validated id result =>
    obtain ⟨attempt, held, taken⟩ := Option.bind_eq_some_iff.mp taken
    split at taken
    · rename_i validating
      cases taken
      obtain ⟨stage, prepares, moved⟩ := validated_moves held result
      exact moved ▸ .prepare held (validating ▸ trivial) prepares
    · contradiction
  | branched id result =>
    obtain ⟨attempt, held, taken⟩ := Option.bind_eq_some_iff.mp taken
    split at taken
    · rename_i branching
      cases taken
      obtain ⟨stage, prepares, moved⟩ := branched_moves daemon id attempt result
      exact moved ▸ .prepare held (branching ▸ trivial) prepares
    · contradiction
  | launched id result =>
    obtain ⟨attempt, held, taken⟩ := Option.bind_eq_some_iff.mp taken
    cases result with
    | error message =>
      split at taken
      · rename_i launching
        cases taken
        exact .refuse message held launching
      · contradiction
    | ok process => contradiction
  | sessionStarted => contradiction
  | sessionStartFailed pid error =>
    cases taken
    unfold onSessionStartFailed report
    split
    · rename_i waits
      exact .fail error _ waits
    · exact .unheard pid error
  | timedOut id =>
    obtain ⟨attempt, held, taken⟩ := Option.bind_eq_some_iff.mp taken
    split at taken
    · rename_i waiting launched
      cases taken
      exact .timeOut _ held waiting launched
    · contradiction
  | exited id detail =>
    obtain ⟨attempt, held, taken⟩ := Option.bind_eq_some_iff.mp taken
    split at taken
    · rename_i waiting launched
      cases taken
      unfold exited
      split
      · exact .exit detail _ held waiting launched
      · exact .replaced id detail
    · contradiction
  | resumed id =>
    obtain ⟨attempt, held, taken⟩ := Option.bind_eq_some_iff.mp taken
    split at taken
    · rename_i answered _
      cases taken
      exact .resume _ held answered
    · contradiction
  | reacted id =>
    obtain ⟨attempt, held, taken⟩ := Option.bind_eq_some_iff.mp taken
    split at taken
    · rename_i settled
      split at taken
      · contradiction
      · cases taken
        exact .react held settled
    · contradiction
  | tracked => contradiction
  | pruned => contradiction

/-- A waiter that settles leaves the entries alone. -/
@[simp] theorem settle_waiter_entries (daemon : SpawnDaemon) (pid id : Nat)
    (report : Except String String) :
    (daemon.settleWaiter pid id report).pidToSession = daemon.pidToSession := by
  unfold settleWaiter
  dsimp only
  split
  · split <;> rfl
  · rfl

@[simp] theorem report_entries (daemon : SpawnDaemon) (pid : Nat) (result : Except String String) :
    (daemon.report pid result).pidToSession = daemon.pidToSession := by
  unfold report
  split
  · exact settle_waiter_entries daemon pid _ result
  · rfl

/-- So do the events of the spawns alone. -/
theorem OwnStep.entries (stepped : OwnStep daemon event next) :
    next.pidToSession = daemon.pidToSession := by
  cases stepped with
  | spawn params => unfold handleSpawn; split <;> rfl
  | prepare => rfl
  | refuse => rfl
  | fail => exact settle_waiter_entries daemon _ _ _
  | unheard => rfl
  | timeOut => exact settle_waiter_entries daemon _ _ _
  | exit => exact settle_waiter_entries daemon _ _ _
  | replaced => rfl
  | resume => unfold resumed; split <;> rfl
  | react => unfold SpawnDaemon.react; dsimp only; split <;> rfl

end SpawnDaemon

/-! ## The host -/

/-- The spawns and the registry of one daemon. -/
structure SpawnHost where
  spawns : SpawnDaemon
  registry : Registry.SessionRegistry

namespace SpawnHost

/-- What can happen to a host: an event of the spawns alone, or one that the registry takes part
in. -/
inductive Event where
  | own (event : SpawnDaemon.Event)
  | launched (id : Nat) (process : LaunchedProcess)
  | sessionStarted (sessionId : String) (metadata : Option Json)
      (encryption : Option Registry.SessionEncryptionData) (pid : Option Nat)
  | trackSpawned (pid : Nat) (directory : Option String)
  | pruneDeadSessions (isAlive : Nat → Bool) (now : Nat)

/-- The launcher has started the process of an attempt. -/
def launched (host : SpawnHost) (id : Nat) (attempt : Attempt) (directory : String)
    (process : LaunchedProcess) : SpawnHost where
  spawns := host.spawns.launched id attempt directory (.ok process)
  registry := host.registry.trackSpawned process.pid (some directory)

/-- A process reports a session. -/
def onSessionStarted (host : SpawnHost) (sessionId : String) (metadata : Option Json)
    (encryption : Option Registry.SessionEncryptionData) (pid : Option Nat) : SpawnHost where
  spawns := host.spawns.onSessionStarted sessionId pid
  registry := host.registry.onSessionStarted sessionId metadata encryption pid

/-- A step of a host. -/
def step (host : SpawnHost) : Event → Option SpawnHost
  | .own event =>
    if event.isOwn then (host.spawns.step event).map (fun spawns => { host with spawns }) else none
  | .launched id process => do
    let attempt ← host.spawns.attempts.get? id
    match attempt.stage with
    | .launching directory => some (host.launched id attempt directory process)
    | _ => none
  | .sessionStarted sessionId metadata encryption pid =>
    some (host.onSessionStarted sessionId metadata encryption pid)
  | .trackSpawned pid directory => some
    { spawns := host.spawns.trackSpawned pid directory
      registry := host.registry.trackSpawned pid directory }
  | .pruneDeadSessions isAlive now => some
    { spawns := { host.spawns with
        pidToSession := host.spawns.pidToSession.filter (fun pid _ => isAlive pid) }
      registry := host.registry.pruneDeadSessions isAlive now }

/-! ## What the spawns read -/

/-- An entry of the registry as the spawns read it. -/
def seen (session : Registry.TrackedSession) : TrackedSession :=
  ⟨session.startedBy, session.sessionId, session.directory⟩

/-- The spawns read the entries of the registry. -/
def Agrees (host : SpawnHost) : Prop :=
  host.spawns.pidToSession = host.registry.pidToSession.mapValues seen

variable {host next : SpawnHost} {event : Event}

/-- A report changes an entry as the spawns read it. -/
theorem report_agrees (agrees : host.Agrees) (sessionId : String) (metadata : Option Json)
    (encryption : Option Registry.SessionEncryptionData) (pid : Option Nat) :
    (host.onSessionStarted sessionId metadata encryption pid).Agrees := by
  cases pid with
  | none => exact agrees
  | some pid =>
    unfold Agrees at agrees ⊢
    simp only [onSessionStarted, SpawnDaemon.onSessionStarted, SpawnDaemon.report_entries,
      Registry.SessionRegistry.onSessionStarted, OrderedMap.map_values_set, agrees,
      OrderedMap.get_map_values]
    congr 1
    simp only [Registry.SessionRegistry.tracked, Option.bind_some]
    cases host.registry.pidToSession.get? pid with
    | none => rfl
    | some existing => rfl

/-- A process is tracked as the spawns track it. -/
theorem track_agrees (agrees : host.Agrees) (pid : Nat) (directory : Option String) :
    host.spawns.pidToSession.set pid ⟨"daemon", none, directory⟩ =
      (host.registry.trackSpawned pid directory).pidToSession.mapValues seen := by
  rw [Registry.SessionRegistry.trackSpawned, OrderedMap.map_values_set, agrees]
  rfl

theorem agrees_step (agrees : host.Agrees) (taken : host.step event = some next) :
    next.Agrees := by
  cases event with
  | own event =>
    obtain ⟨own, taken⟩ := Option.ite_none_right_eq_some.mp taken
    obtain ⟨spawns, stepped, rfl⟩ := Option.map_eq_some_iff.mp taken
    exact (SpawnDaemon.own_step own stepped).entries.trans agrees
  | launched id process =>
    obtain ⟨attempt, held, taken⟩ := Option.bind_eq_some_iff.mp taken
    split at taken
    · cases taken
      exact track_agrees agrees process.pid _
    · contradiction
  | sessionStarted sessionId metadata encryption pid =>
    cases taken
    exact report_agrees agrees sessionId metadata encryption pid
  | trackSpawned pid directory =>
    cases taken
    exact track_agrees agrees pid directory
  | pruneDeadSessions isAlive now =>
    cases taken
    have pruned := OrderedMap.map_values_filter host.registry.pidToSession seen isAlive
    exact (congrArg (OrderedMap.filter · _) agrees).trans pruned.symm

end SpawnHost

end Kvy.Cli.Daemon
