import Kvy.Server.App.StructuralWrites

/-!
# Stale sessions

A read that would hand out an active session first flips the ones whose machine and
whose own row have both been quiet for the whole window.
-/

namespace Kvy.Server.App

open General Wire Db

/-- `STALE_SESSION_MACHINE_WINDOW_MS`. -/
def staleSessionMachineWindowMs : Int := 5 * 60000

/-- `isSessionOrphaned`. -/
def isSessionOrphaned (session : SessionRecord) (machineLastSeenAt : Option Int) (now : Int) : Bool :=
  match session.machineId, machineLastSeenAt with
  | some _, some lastSeenAt =>
    session.status = .active ∧ staleSessionMachineWindowMs < now - lastSeenAt ∧
      staleSessionMachineWindowMs < now - session.updatedAt
  | _, _ => false

/-- The lookup `machineLastSeenById` for the machine of a session. -/
def machineLastSeen (machines : List MachineRecord) (session : SessionRecord) : Option Int :=
  session.machineId.bind fun id =>
    (Keyed.find? MachineRecord.id id machines).bind MachineRecord.lastSeenAt

/-- `failOrphanedSession`: the write of the flip, which is the one of a reported failure. -/
def failOrphanedSession (session : SessionRecord) (now : Int) : Write := .reportFailed session.id now

end Kvy.Server.App
