import Kvy.General.KeyedRows
import Kvy.Wire.Rows

/-!
# The account's tables

The stored rows of one account, with byte columns decoded, and their tables. The
identifiers of a table are distinct, and so are the pairs and the hashes under its
unique indices where a write relies on them. Deferred columns that no route reads
are left out.
-/

namespace Kvy.Server.Db

open General Wire

/-- A row of `sessions`. -/
structure SessionRecord where
  id : String
  accountId : String
  workspaceId : Option String
  machineId : Option String
  tag : String
  provider : String
  executionTarget : String
  status : SessionStatus
  metadata : EncryptedBox
  metadataVersion : Nat
  agentState : Option EncryptedBox
  agentStateVersion : Nat
  dek : String
  keyEpoch : Nat
  msgSeq : Nat
  notificationsMuted : Bool
  createdAt : Int
  updatedAt : Int
deriving DecidableEq

/-- A row of `machines`. -/
structure MachineRecord where
  id : String
  accountId : String
  metadata : EncryptedBox
  metadataVersion : Nat
  daemonState : Option EncryptedBox
  daemonStateVersion : Nat
  dek : String
  lastSeenAt : Option Int
deriving DecidableEq

/-- A row of `workspaces`. -/
structure WorkspaceRecord where
  id : String
  accountId : String
  pathHash : String
  metadata : EncryptedBox
  metadataVersion : Nat
  dek : String
deriving DecidableEq

/-- A row of `unmanaged_sessions`. -/
structure UnmanagedSessionRecord where
  id : String
  accountId : String
  machineId : String
  workspaceId : String
  providerRef : String
  summary : EncryptedBox
  dek : String
  updatedAt : Int
deriving DecidableEq

/-- The structural tables of one account. -/
structure Tables where
  sessions : List SessionRecord
  machines : List MachineRecord
  unmanagedSessions : List UnmanagedSessionRecord
  workspaces : List WorkspaceRecord
  sessionKeys : (sessions.map SessionRecord.id).Nodup
  machineKeys : (machines.map MachineRecord.id).Nodup
  unmanagedKeys : (unmanagedSessions.map UnmanagedSessionRecord.id).Nodup
  workspaceKeys : (workspaces.map WorkspaceRecord.id).Nodup

namespace Tables

/-- The tables of a new account. -/
def empty : Tables :=
  ⟨[], [], [], [], List.nodup_nil, List.nodup_nil, List.nodup_nil, List.nodup_nil⟩

instance : Inhabited Tables := ⟨empty⟩

/-- Insert a session, or replace the one with its identifier. -/
def putSession (tables : Tables) (row : SessionRecord) : Tables :=
  { tables with
    sessions := Keyed.upsert SessionRecord.id row tables.sessions
    sessionKeys := Keyed.nodup_upsert _ row tables.sessionKeys }

/-- Change a session in place. -/
def updateSession (tables : Tables) (id : String) (change : SessionRecord → SessionRecord)
    (keeps : ∀ row, (change row).id = row.id) : Tables :=
  { tables with
    sessions := Keyed.modify SessionRecord.id id change tables.sessions
    sessionKeys := Keyed.nodup_modify _ id change keeps tables.sessionKeys }

/-- Delete a session. -/
def deleteSession (tables : Tables) (id : String) : Tables :=
  { tables with
    sessions := Keyed.delete SessionRecord.id id tables.sessions
    sessionKeys := Keyed.nodup_delete _ id tables.sessionKeys }

/-- Insert a machine, or replace the one with its identifier. -/
def putMachine (tables : Tables) (row : MachineRecord) : Tables :=
  { tables with
    machines := Keyed.upsert MachineRecord.id row tables.machines
    machineKeys := Keyed.nodup_upsert _ row tables.machineKeys }

/-- Insert an unmanaged session, or replace the one with its identifier. -/
def putUnmanaged (tables : Tables) (row : UnmanagedSessionRecord) : Tables :=
  { tables with
    unmanagedSessions := Keyed.upsert UnmanagedSessionRecord.id row tables.unmanagedSessions
    unmanagedKeys := Keyed.nodup_upsert _ row tables.unmanagedKeys }

/-- Insert a workspace, or replace the one with its identifier. -/
def putWorkspace (tables : Tables) (row : WorkspaceRecord) : Tables :=
  { tables with
    workspaces := Keyed.upsert WorkspaceRecord.id row tables.workspaces
    workspaceKeys := Keyed.nodup_upsert _ row tables.workspaceKeys }

end Tables
end Kvy.Server.Db
