import Kvy.Server.App.Routes.Mappers
import Kvy.Wire.Updates

/-!
# Structural writes

The transactions that change a session, a machine, an unmanaged session or a
workspace. Each one runs its statement, allocates the next `headerSeq` of the account
and, once committed, emits one update with that number. The row lock on the account
is held from the allocation to the commit, so transactions commit in the order of
their numbers.

A check made before the statement reads an older state and does not bind the state
that the statement runs on. A write is therefore guarded by its own `WHERE` clause and
by the unique indices alone.
-/

namespace Kvy.Server.App

open General Wire Db

/-- The tables that structural writes change. -/
inductive TableName where
  | sessions
  | machines
  | unmanagedSessions
  | workspaces
deriving DecidableEq

/-- The session field that a compare-and-set route writes. -/
inductive CasField where
  | metadata
  | agentState

/-- The values that `POST /v1/sessions` inserts; the other columns take defaults. -/
structure NewSession where
  id : String
  accountId : String
  tag : String
  provider : String
  workspaceId : Option String
  machineId : Option String
  executionTarget : Option String
  metadata : EncryptedBox
  dek : String
  now : Int

/-- A write of one route. Times are the server's clock, and `needsReauth` is what
`computeMachineNeedsReauth` returns for the emitted row. -/
inductive Write where
  | createSession (session : NewSession)
  | casSession (id : String) (field : CasField) (expectedVersion : Nat) (value : EncryptedBox)
      (now : Int)
  | reportFailed (id : String) (now : Int)
  | reportEnded (id : String) (now : Int)
  | archive (id : String) (now : Int)
  | unarchive (id : String) (now : Int)
  | muteSession (id : String) (muted : Bool) (now : Int)
  | deleteSession (id : String)
  | registerMachine (id accountId : String) (metadata : EncryptedBox)
      (daemonState : Option EncryptedBox) (dek : String) (now : Int) (needsReauth : Bool)
  | updateMachine (id : String) (metadata : EncryptedBox) (expectedMetadata : Nat)
      (daemonState : Option (EncryptedBox × Nat)) (now : Int) (needsReauth : Bool)
  | createUnmanaged (row : UnmanagedSessionRecord)
  | updateUnmanaged (id workspaceId : String) (summary : EncryptedBox) (dek : String) (now : Int)
  | createWorkspace (id accountId pathHash : String) (metadata : EncryptedBox) (dek : String)
  | casWorkspace (id : String) (expectedVersion : Nat) (value : EncryptedBox)
  | updateAccount (settings : EncryptedBox)

/-- The row that `POST /v1/sessions` inserts. -/
def NewSession.record (session : NewSession) : SessionRecord where
  id := session.id
  accountId := session.accountId
  workspaceId := session.workspaceId
  machineId := session.machineId
  tag := session.tag
  provider := session.provider
  executionTarget := session.executionTarget.getD "local"
  status := .active
  metadata := session.metadata
  metadataVersion := 0
  agentState := none
  agentStateVersion := 0
  dek := session.dek
  keyEpoch := 1
  msgSeq := 0
  notificationsMuted := false
  createdAt := session.now
  updatedAt := session.now

/-- The body that changes nothing. -/
def emptyPatch : SessionPatch := ⟨none, none, none, none⟩

/-- The `SET` clause of a compare-and-set on a session. -/
def CasField.set (field : CasField) (value : EncryptedBox) (now : Int) (row : SessionRecord) :
    SessionRecord :=
  match field with
  | .metadata =>
    { row with metadata := value, metadataVersion := row.metadataVersion + 1, updatedAt := now }
  | .agentState =>
    { row with
      agentState := some value, agentStateVersion := row.agentStateVersion + 1, updatedAt := now }

/-- The version column of a field. -/
def CasField.version (field : CasField) (row : SessionRecord) : Nat :=
  match field with
  | .metadata => row.metadataVersion
  | .agentState => row.agentStateVersion

/-- The patch that a compare-and-set emits. -/
def CasField.patch (field : CasField) (value : EncryptedBox) (version : Nat) : SessionPatch :=
  match field with
  | .metadata => { emptyPatch with metadata := some ⟨value, version⟩ }
  | .agentState => { emptyPatch with agentState := some ⟨value, version⟩ }

/-- The `SET` clause of a status transition. -/
def setStatus (status : SessionStatus) (now : Int) (row : SessionRecord) : SessionRecord :=
  { row with status, updatedAt := now }

/-- The `SET` clause of the mute route. -/
def setMuted (muted : Bool) (now : Int) (row : SessionRecord) : SessionRecord :=
  { row with notificationsMuted := muted, updatedAt := now }

theorem CasField.set_id (field : CasField) (value : EncryptedBox) (now : Int)
    (row : SessionRecord) : (field.set value now row).id = row.id := by
  cases field <;> rfl

/-- The `SET` clause of a machine update. -/
def updatedMachine (metadata : EncryptedBox) (daemonState : Option (EncryptedBox × Nat))
    (now : Int) (row : MachineRecord) : MachineRecord :=
  match daemonState with
  | some (value, _) =>
    { row with
      metadata, metadataVersion := row.metadataVersion + 1, daemonState := some value,
      daemonStateVersion := row.daemonStateVersion + 1, lastSeenAt := some now }
  | none => { row with metadata, metadataVersion := row.metadataVersion + 1, lastSeenAt := some now }

/-- The table that a write changes, if it changes one. -/
def Write.table? : Write → Option TableName
  | .createSession _ | .casSession .. | .reportFailed .. | .reportEnded .. | .archive ..
  | .unarchive .. | .muteSession .. | .deleteSession _ => some .sessions
  | .registerMachine .. | .updateMachine .. => some .machines
  | .createUnmanaged _ | .updateUnmanaged .. => some .unmanagedSessions
  | .createWorkspace .. | .casWorkspace .. => some .workspaces
  | .updateAccount _ => none

/-- The statement of a write and the body of the update it emits. Nothing is returned
where the transaction ends without allocating a `headerSeq`. -/
def Write.commit (tables : Tables) : Write → Option (Tables × UpdateBody)
  | .createSession session =>
    let row := session.record
    if tables.sessions.any (fun held => held.id = row.id ∨ held.tag = row.tag) then none
    else some (tables.putSession row, .sessionNew (toSessionRow row))
  | .casSession id field expectedVersion value now =>
    match Keyed.find? SessionRecord.id id tables.sessions with
    | none => none
    | some row =>
      if field.version row ≠ expectedVersion then none
      else
        some (tables.updateSession id (field.set value now) (field.set_id value now),
          .sessionUpdate id (field.patch value (expectedVersion + 1)))
  | .reportFailed id now =>
    match Keyed.find? SessionRecord.id id tables.sessions with
    | none => none
    | some row =>
      if row.status ≠ .active then none
      else
        some (tables.updateSession id (setStatus .failed now) (fun _ => rfl),
          .sessionUpdate id { emptyPatch with status := some .failed })
  | .reportEnded id now =>
    match Keyed.find? SessionRecord.id id tables.sessions with
    | none => none
    | some row =>
      if row.status = .archived then none
      else
        some (tables.updateSession id (setStatus .ended now) (fun _ => rfl),
          .sessionUpdate id { emptyPatch with status := some .ended })
  | .archive id now =>
    some (tables.updateSession id (setStatus .archived now) (fun _ => rfl),
      .sessionUpdate id { emptyPatch with status := some .archived })
  | .unarchive id now =>
    some (tables.updateSession id (setStatus .active now) (fun _ => rfl),
      .sessionUpdate id { emptyPatch with status := some .active })
  | .muteSession id muted now =>
    some (tables.updateSession id (setMuted muted now) (fun _ => rfl),
      .sessionUpdate id { emptyPatch with notificationsMuted := some muted })
  | .deleteSession id =>
    match Keyed.find? SessionRecord.id id tables.sessions with
    | none => none
    | some _ => some (tables.deleteSession id, .sessionDelete id)
  | .registerMachine id accountId metadata daemonState dek now needsReauth =>
    if tables.machines.any (fun held => held.id = id) then none
    else
      let row : MachineRecord :=
        { id, accountId, metadata, metadataVersion := 0, daemonState, daemonStateVersion := 0, dek,
          lastSeenAt := some now }
      some (tables.putMachine row, .machineNew (toMachineRow row needsReauth))
  | .updateMachine id metadata expectedMetadata daemonState now needsReauth =>
    match Keyed.find? MachineRecord.id id tables.machines with
    | none => none
    | some row =>
      if row.metadataVersion ≠ expectedMetadata ∨
          daemonState.any (fun state => row.daemonStateVersion ≠ state.2) then none
      else
        let updated := updatedMachine metadata daemonState now row
        some (tables.putMachine updated, .machineUpdate (toMachineRow updated needsReauth))
  | .createUnmanaged row =>
    if tables.unmanagedSessions.any (fun held => held.id = row.id ∨
        (held.machineId = row.machineId ∧ held.providerRef = row.providerRef)) then none
    else some (tables.putUnmanaged row, .unmanagedNew (toUnmanagedSessionRow row))
  | .updateUnmanaged id workspaceId summary dek now =>
    match Keyed.find? UnmanagedSessionRecord.id id tables.unmanagedSessions with
    | none => none
    | some row =>
      let updated := { row with workspaceId, summary, dek, updatedAt := now }
      some (tables.putUnmanaged updated, .unmanagedUpdate (toUnmanagedSessionRow updated))
  | .createWorkspace id accountId pathHash metadata dek =>
    if tables.workspaces.any (fun held => held.id = id ∨ held.pathHash = pathHash) then none
    else
      let row : WorkspaceRecord := { id, accountId, pathHash, metadata, metadataVersion := 0, dek }
      some (tables.putWorkspace row, .workspaceNew (toWorkspaceRow row))
  | .casWorkspace id expectedVersion value =>
    match Keyed.find? WorkspaceRecord.id id tables.workspaces with
    | none => none
    | some row =>
      if row.metadataVersion ≠ expectedVersion then none
      else
        let updated := { row with metadata := value, metadataVersion := row.metadataVersion + 1 }
        some (tables.putWorkspace updated, .workspaceUpdate (toWorkspaceRow updated))
  | .updateAccount settings => some (tables, .accountUpdate settings)

/-- A write emits a structural body. -/
theorem Write.commit_structural {write : Write} {tables written : Tables} {body : UpdateBody}
    (commits : write.commit tables = some (written, body)) : body.isMessage = false := by
  cases write <;> simp only [Write.commit] at commits <;> (repeat' split at commits) <;>
    first
    | contradiction
    | (obtain ⟨rfl, rfl⟩ := Prod.mk.inj (Option.some.inj commits); rfl)

/-- Whether each machine needs to authenticate again, as last announced. -/
def Write.announce (reauth : String → Bool) : Write → String → Bool
  | .registerMachine id _ _ _ _ _ needsReauth => Function.update reauth id needsReauth
  | .updateMachine id _ _ _ _ needsReauth => Function.update reauth id needsReauth
  | _ => reauth

/-- The part of an account row that the sync routes read, with the account's tables. -/
structure Account where
  headerSeq : Nat
  keyEpoch : Nat
  tables : Tables

/-- A new account. -/
def Account.empty : Account := ⟨0, 0, .empty⟩

/-- A committed write allocates the next `headerSeq`. -/
def Account.commit (account : Account) (write : Write) : Option (Account × UpdateBody) :=
  (write.commit account.tables).map fun (tables, body) =>
    ({ account with headerSeq := account.headerSeq + 1, tables }, body)

/-- The structural history of an account: its tables and what its updates announced
after each write, and the update body that each write emitted. -/
structure History where
  last : Nat
  tables : Nat → Tables
  reauth : Nat → String → Bool
  body : Nat → UpdateBody
  commits : ∀ seq, seq < last → ∃ write : Write,
    write.commit (tables seq) = some (tables (seq + 1), body (seq + 1)) ∧
      reauth (seq + 1) = write.announce (reauth seq)

end Kvy.Server.App
