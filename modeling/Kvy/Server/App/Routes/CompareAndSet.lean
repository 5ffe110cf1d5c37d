import Kvy.General.Transactions
import Kvy.Server.App.RowWrites

/-!
# Compare and set

The routes that replace the encrypted fields of a session, a machine or a workspace under an
expected version, any number of requests at a time on the rows of one account. Each reads the row
and answers a conflict from it; otherwise its update asks for the expected versions again, and a
request that loses there reads the row once more and answers from that.

Other writes of rows, like those of the status routes or a deletion, run their statements between.
The device session that a machine update links to its machine is not shown.
-/

namespace Kvy.Server.App.CompareAndSet

open General General.Transactions Wire Db

/-- A request of one of the routes, or another write of one row. Times are those of the update, and
`needsReauth` is what `computeMachineNeedsReauth` returns after it. -/
inductive CasRequest where
  | session (id : String) (field : CasField) (expectedVersion : Nat) (value : EncryptedBox) (now : Int)
  | machine (id : String) (metadata : EncryptedBox) (expectedMetadata : Nat)
      (daemonState : Option (EncryptedBox × Nat)) (now : Int) (needsReauth : Bool)
  | workspace (id : String) (expectedVersion : Nat) (value : EncryptedBox)
  | other (write : Write) (row : TableName × String) (isRow : write.row? = some row)

/-- `current` of a conflict. -/
inductive Conflict where
  | session (value : Option EncryptedBox) (version : Nat)
  | machine (metadata : Versioned EncryptedBox) (daemonState : Option (Versioned EncryptedBox))
  | workspace (value : EncryptedBox) (version : Nat)
deriving DecidableEq

/-- The answers without a write. -/
inductive Refusal where
  | notFound
  | conflict (current : Conflict)
deriving DecidableEq

/-- The stored value of a session field. -/
def fieldValue (field : CasField) (row : SessionRecord) : Option EncryptedBox :=
  match field with
  | .metadata => some row.metadata
  | .agentState => row.agentState

/-- The conflict that `casUpdateSessionField` reports. -/
def sessionConflict (field : CasField) (row : SessionRecord) : Conflict :=
  .session (fieldValue field row) (field.version row)

/-- The conflict that `POST /v1/machines` reports. -/
def machineConflict (row : MachineRecord) : Conflict :=
  .machine ⟨row.metadata, row.metadataVersion⟩
    (row.daemonState.map (fun value => ⟨value, row.daemonStateVersion⟩))

/-- The conflict that `PUT /v1/workspaces/:id/metadata` reports. -/
def workspaceConflict (row : WorkspaceRecord) : Conflict := .workspace row.metadata row.metadataVersion

/-- The check of the routes on the row that they have read, by whether its versions are others. -/
def readVersions {Row : Type} (found : Option Row) (mismatch : Row → Bool) (current : Row → Conflict) :
    Option Refusal :=
  match found with
  | none => some .notFound
  | some row => if mismatch row then some (.conflict (current row)) else none

namespace CasRequest

/-- The row of a request. -/
def row : CasRequest → TableName × String
  | .session id .. => (.sessions, id)
  | .machine id .. => (.machines, id)
  | .workspace id .. => (.workspaces, id)
  | .other _ row _ => row

/-- The update of a request. -/
def update : CasRequest → Write
  | .session id field expectedVersion value now => .casSession id field expectedVersion value now
  | .machine id metadata expectedMetadata daemonState now needsReauth =>
    .updateMachine id metadata expectedMetadata daemonState now needsReauth
  | .workspace id expectedVersion value => .casWorkspace id expectedVersion value
  | .other write _ _ => write

/-- What the first read leads to. -/
def look : CasRequest → Tables → Option Refusal
  | .session id field expectedVersion _ _, tables =>
    readVersions (Keyed.find? SessionRecord.id id tables.sessions)
      (fun row => field.version row ≠ expectedVersion) (sessionConflict field)
  | .machine id _ expectedMetadata daemonState _ _, tables =>
    readVersions (Keyed.find? MachineRecord.id id tables.machines)
      (fun row => row.metadataVersion ≠ expectedMetadata ∨
        daemonState.any (fun state => row.daemonStateVersion ≠ state.2)) machineConflict
  | .workspace id expectedVersion _, tables =>
    readVersions (Keyed.find? WorkspaceRecord.id id tables.workspaces)
      (fun row => row.metadataVersion ≠ expectedVersion) workspaceConflict
  | .other _ _ _, _ => none

/-- What the second read leads to, after an update that matched no row. Where the row has vanished
the route throws. -/
def reread : CasRequest → Tables → Option Refusal
  | .session id field _ _ _, tables =>
    (Keyed.find? SessionRecord.id id tables.sessions).map
      (fun fresh => .conflict (sessionConflict field fresh))
  | .machine id _ _ _ _ _, tables =>
    (Keyed.find? MachineRecord.id id tables.machines).map
      (fun fresh => .conflict (machineConflict fresh))
  | .workspace id _ _, tables =>
    (Keyed.find? WorkspaceRecord.id id tables.workspaces).map
      (fun fresh => .conflict (workspaceConflict fresh))
  | .other _ _ _, _ => some .notFound

end CasRequest

/-- The transactions of the requests. -/
def program : Program Tables (TableName × String) CasRequest UpdateBody Refusal where
  key := CasRequest.row
  look := CasRequest.look
  write := fun request tables => request.update.commit tables
  miss := CasRequest.reread

/-- An account's rows with the requests on them. -/
abbrev CasState := State Tables CasRequest UpdateBody Refusal

/-! ## What is asked -/

/-- The stored versions are the ones that a request expects. -/
def Expects : CasRequest → Tables → Prop
  | .session id field expectedVersion _ _, tables =>
    ∃ row, Keyed.find? SessionRecord.id id tables.sessions = some row ∧
      field.version row = expectedVersion
  | .machine id _ expectedMetadata daemonState _ _, tables =>
    ∃ row, Keyed.find? MachineRecord.id id tables.machines = some row ∧
      row.metadataVersion = expectedMetadata ∧
      ∀ state ∈ daemonState, row.daemonStateVersion = state.2
  | .workspace id expectedVersion _, tables =>
    ∃ row, Keyed.find? WorkspaceRecord.id id tables.workspaces = some row ∧
      row.metadataVersion = expectedVersion
  | .other _ _ _, _ => False

/-- What a conflict reports is stored, all of it together. -/
def Stores : CasRequest → Tables → Conflict → Prop
  | .session id field _ _ _, tables, current =>
    ∃ row, Keyed.find? SessionRecord.id id tables.sessions = some row ∧
      current = .session (fieldValue field row) (field.version row)
  | .machine id _ _ _ _ _, tables, current =>
    ∃ row, Keyed.find? MachineRecord.id id tables.machines = some row ∧
      current = .machine ⟨row.metadata, row.metadataVersion⟩
        (row.daemonState.map (fun value => ⟨value, row.daemonStateVersion⟩))
  | .workspace id _ _, tables, current =>
    ∃ row, Keyed.find? WorkspaceRecord.id id tables.workspaces = some row ∧
      current = .workspace row.metadata row.metadataVersion
  | .other _ _ _, _, _ => False

/-- The fields of a machine that an update does not name stay, and those it names are replaced
under the next versions. -/
structure MachineReplaced (metadata : EncryptedBox) (daemonState : Option (EncryptedBox × Nat))
    (before after : MachineRecord) : Prop where
  metadata : after.metadata = metadata
  metadataVersion : after.metadataVersion = before.metadataVersion + 1
  named : ∀ state ∈ daemonState, after.daemonState = some state.1 ∧
    after.daemonStateVersion = before.daemonStateVersion + 1
  unnamed : daemonState = none → after.daemonState = before.daemonState ∧
    after.daemonStateVersion = before.daemonStateVersion

/-- A request replaces its fields in its row, and emits them with their new versions. -/
def Replaces : CasRequest → Tables → Tables → UpdateBody → Prop
  | .session id field expectedVersion value now, before, after, body =>
    ∃ row, Keyed.find? SessionRecord.id id before.sessions = some row ∧
      Keyed.find? SessionRecord.id id after.sessions = some (field.set value now row) ∧
      field.version (field.set value now row) = field.version row + 1 ∧
      fieldValue field (field.set value now row) = some value ∧
      body = .sessionUpdate id (field.patch value (expectedVersion + 1))
  | .machine id metadata _ daemonState _ needsReauth, before, after, body =>
    ∃ row new, Keyed.find? MachineRecord.id id before.machines = some row ∧
      Keyed.find? MachineRecord.id id after.machines = some new ∧
      MachineReplaced metadata daemonState row new ∧
      body = .machineUpdate (toMachineRow new needsReauth)
  | .workspace id _ value, before, after, body =>
    ∃ row, Keyed.find? WorkspaceRecord.id id before.workspaces = some row ∧
      Keyed.find? WorkspaceRecord.id id after.workspaces =
        some { row with metadata := value, metadataVersion := row.metadataVersion + 1 } ∧
      body = .workspaceUpdate (toWorkspaceRow
        { row with metadata := value, metadataVersion := row.metadataVersion + 1 })
  | .other write _ _, before, after, body => write.commit before = some (after, body)

/-- What an answer says of the instant it is decided: a request that succeeds finds the versions it
expects, replaces its fields and takes the next number; one that does not finds others, and changes
nothing. -/
def Effect (request : CasRequest) (state next : CasState) : Reply UpdateBody Refusal → Prop
  | .done body number =>
    ((∀ write row isRow, request ≠ .other write row isRow) → Expects request state.store) ∧
      Replaces request state.store next.store body ∧
      (∀ other, request.row ≠ other → SameRow state.store next.store other) ∧
      number = state.counter + 1 ∧ next.counter = state.counter + 1
  | .refused refusal =>
    ¬ Expects request state.store ∧ next.store = state.store ∧ next.counter = state.counter ∧
      ∀ current, refusal = .conflict current → Stores request state.store current

/-- What is asked of every step. Each answer is decided at one instant while its request is open,
and from then on it is the answer; the rows and the counter change at those instants only, but for
the numbers of other transactions. A request that has its number can commit. -/
structure Linearized (state : CasState) (event : Event CasRequest) (next : CasState) : Prop where
  decided : ∀ (index : Nat) (request : CasRequest) (reply : Reply UpdateBody Refusal),
    next.requests[index]? = some (.answering request reply) →
    state.requests[index]? = some (.answering request reply) ∨
      (event = .look index ∨ event = .miss index ∨ event = .commit index) ∧
      (∃ phase : Phase CasRequest UpdateBody Refusal, state.requests[index]? = some phase ∧
        phase.opened = some request) ∧
      Effect request state next reply
  changed : next.store ≠ state.store ∨ next.counter ≠ state.counter → event = .elsewhere ∨
    ∃ (index : Nat) (request : CasRequest) (body : UpdateBody) (number : Nat),
      event = .commit index ∧ next.requests[index]? = some (.answering request (.done body number))
  elsewhere : event = .elsewhere → next.store = state.store
  final : ∀ (index : Nat) (request : CasRequest) (reply : Reply UpdateBody Refusal),
    state.requests[index]? = some (.answering request reply) →
    next.requests[index]? = some (.answering request reply) ∨ next.requests[index]? = some .finished
  closed : ∀ index : Nat, state.requests[index]? = some .finished → next.requests[index]? = some .finished
  sent : next.sent = state.sent ∨
    ∃ (index : Nat) (request : CasRequest) (reply : Reply UpdateBody Refusal),
    state.requests[index]? = some (.answering request reply) ∧
      next.requests[index]? = some .finished ∧ next.sent = state.sent ++ [(request, reply)]
  ready : ∀ (index : Nat) (request : CasRequest) (body : UpdateBody) (number : Nat),
    next.requests[index]? = some (.numbered request body number) →
    (step program next (.commit index)).isSome = true

end Kvy.Server.App.CompareAndSet
