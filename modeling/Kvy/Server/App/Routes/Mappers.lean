import Kvy.Server.Db.Schema

/-!
# Row mappers

The projections of stored rows to rows on the wire. Whether a machine needs to
authenticate again is read from its device sessions by the caller.
-/

namespace Kvy.Server.App

open Wire Db

/-- `toSessionRow`. -/
def toSessionRow (row : SessionRecord) : SessionRow where
  id := row.id
  accountId := row.accountId
  workspaceId := row.workspaceId
  machineId := row.machineId
  tag := row.tag
  provider := row.provider
  executionTarget := row.executionTarget
  status := row.status
  metadata := ⟨row.metadata, row.metadataVersion⟩
  agentState := row.agentState.map (fun value => ⟨value, row.agentStateVersion⟩)
  dek := row.dek
  keyEpoch := some row.keyEpoch
  msgSeq := row.msgSeq
  notificationsMuted := row.notificationsMuted
  createdAt := row.createdAt
  updatedAt := row.updatedAt

/-- `toMachineRow`. -/
def toMachineRow (row : MachineRecord) (needsReauth : Bool) : MachineRow where
  id := row.id
  accountId := row.accountId
  metadata := ⟨row.metadata, row.metadataVersion⟩
  daemonState := row.daemonState.map (fun value => ⟨value, row.daemonStateVersion⟩)
  dek := row.dek
  lastSeenAt := row.lastSeenAt
  needsReauth := some needsReauth

/-- `toWorkspaceRow`. -/
def toWorkspaceRow (row : WorkspaceRecord) : WorkspaceRow where
  id := row.id
  accountId := row.accountId
  pathHash := row.pathHash
  metadata := ⟨row.metadata, row.metadataVersion⟩
  dek := row.dek

/-- `toUnmanagedSessionRow`. -/
def toUnmanagedSessionRow (row : UnmanagedSessionRecord) : UnmanagedSessionRow where
  id := row.id
  accountId := row.accountId
  machineId := row.machineId
  workspaceId := row.workspaceId
  providerRef := row.providerRef
  summary := row.summary
  dek := row.dek
  updatedAt := row.updatedAt

end Kvy.Server.App
