import Kvy.Cli.Daemon.ResumeSession
import Kvy.Cli.Daemon.SessionOwners

/-!
# What is remembered of a session

A session that has reported encryption data can be resumed: the daemon has the data of the latest such
report, the directory that the process was spawned into and the provider that it runs. These are in
the entry of a pid, among the sessions that have ended, and in the file for the next daemon.

Nothing tells the registry the provider of a process. A report without encryption data and a new owner
of a pid overwrite what was remembered.
-/

namespace Kvy.Cli.Daemon.Registry

open General

/-- How a process was started: its provider, and the directory that the daemon spawned it into. -/
structure SessionLaunch where
  provider : ProviderId
  directory : Option String

/-- The latest report with encryption data: the data, and how its process was started. -/
structure ResumeRecord where
  encryption : SessionEncryptionData
  launch : SessionLaunch

namespace ResumeRecord

/-- A persisted session has the data, the directory and the provider of the report. -/
structure Kept (record : ResumeRecord) (persisted : PersistedSession) : Prop where
  encryption : persisted.encryption = record.encryption
  directory : ∀ directory, record.launch.directory = some directory →
    persisted.directory = some directory
  provider : resumeProvider persisted = record.launch.provider

end ResumeRecord

/-- The system, and for every session the latest report with encryption data. -/
structure RecordHistory where
  world : World
  latest : String → Option ResumeRecord

namespace RecordHistory

/-- No record of the file is older than the expiry. -/
def fresh (file : OrderedMap String PersistedSession) (now : Nat) : Bool :=
  file.entries.all (fun entry => now ≤ entry.2.savedAt + maxSessionAgeMs)

/-- Writes succeed and find no old record; the next daemon starts when all are done. -/
def admits (world : World) : Event → Bool
  | .write succeeds now => succeeds && fresh world.file now
  | .restart now _ => world.writes.isEmpty && fresh world.file now
  | _ => true

/-- What an event adds to the reports with encryption data. -/
def noted (launch : Nat → SessionLaunch) (latest : String → Option ResumeRecord) :
    Event → String → Option ResumeRecord
  | .sessionStarted process sessionId _ (some encryption) _ _ =>
    fun id => if id = sessionId then some ⟨encryption, launch process⟩ else latest id
  | _ => latest

/-- A step, where the processes are started as given. -/
def step (launch : Nat → SessionLaunch) (history : RecordHistory) (event : Event) :
    Option RecordHistory :=
  if admits history.world event then
    (history.world.step event).map (fun next => ⟨next, noted launch history.latest event⟩)
  else none

/-- Before the first daemon nothing is reported. -/
def start : RecordHistory := ⟨.start, fun _ => none⟩

/-! ## What is asked -/

/-- Every session that was reported with encryption data can be resumed, as it was reported. -/
def Resumable (history : RecordHistory) : Prop :=
  ∀ sessionId record, history.latest sessionId = some record → ∀ now, ∃ persisted,
    history.world.registry.findResumable sessionId now = some persisted ∧ record.Kept persisted

/-- A session that is looked up under the pid has no other entry, and is remembered among the sessions
that have ended. -/
def Spares (history : RecordHistory) (pid : Nat) (sessionId : String) (record : ResumeRecord) : Prop :=
  history.world.registry.getLivePid sessionId = some pid →
    (∃ persisted, history.world.registry.resumable.get? sessionId = some persisted ∧
      record.Kept persisted) ∧
    ∀ other session, history.world.registry.pidToSession.get? other = some session →
      session.isOf sessionId = true → other = pid

/-- What keeps the records. A spawn or a report takes no pid from the session that is looked up under
it. A report with encryption data names its session and a pid that no entry of the session stands
before; the entry has the directory that the process was spawned into, and the process is one of Claude
Code. A report without encryption data is of a session that has none, or is looked up under another
pid, which the given one does not stand before. A sweep that removes the entry of a session leaves no
other, and finds encryption data in no other. -/
def Retains (launch : Nat → SessionLaunch) (history : RecordHistory) : Event → Prop
  | .trackSpawned pid _ =>
    ∀ sessionId record, history.latest sessionId = some record → history.Spares pid sessionId record
  | .sessionStarted process sessionId _ encryption given _ =>
    (∀ pid other record, given = some pid → other ≠ sessionId →
      history.latest other = some record → history.Spares pid other record) ∧
    match encryption with
    | some _ =>
      sessionId ≠ "" ∧ (launch process).provider = .claudeCode ∧ ∃ pid, given = some pid ∧
        history.world.registry.pidToSession.NoneBefore pid (TrackedSession.isOf sessionId) ∧
        ∀ directory, (launch process).directory = some directory →
          ∃ session, history.world.registry.pidToSession.get? pid = some session ∧
            session.directory = some directory
    | none =>
      history.latest sessionId = none ∨
        ∃ pid, history.world.registry.getLivePid sessionId = some pid ∧ given ≠ some pid ∧
          ∀ entry ∈ history.world.registry.pidToSession.before pid, given ≠ some entry.1
  | .pruneDeadSessions _ =>
    ∀ sessionId record pid, history.latest sessionId = some record →
      history.world.registry.getLivePid sessionId = some pid → history.world.isAlive pid = false →
      ∀ other session, history.world.registry.pidToSession.get? other = some session →
        session.isOf sessionId = true →
        other = pid ∨ (history.world.isAlive other = false ∧ session.encryption = none)
  | _ => True

end RecordHistory

end Kvy.Cli.Daemon.Registry
