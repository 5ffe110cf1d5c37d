import Kvy.Server.App.StructuralWrites

/-!
# Writes of one row

A write that inserts nothing changes one row, and so does one that registers a machine, whose
identifier is all that is unique. What it returns depends on that row alone, and the other rows
stay as they are.
-/

namespace Kvy.Server.App

open General Wire Db

/-- The row that a write changes, where what it returns depends on that row alone. -/
def Write.row? : Write → Option (TableName × String)
  | .casSession id .. | .reportFailed id _ | .reportEnded id _ | .archive id _ | .unarchive id _
  | .muteSession id .. | .deleteSession id => some (.sessions, id)
  | .registerMachine id .. | .updateMachine id .. => some (.machines, id)
  | .updateUnmanaged id .. => some (.unmanagedSessions, id)
  | .casWorkspace id .. => some (.workspaces, id)
  | .createSession _ | .createUnmanaged _ | .createWorkspace .. | .updateAccount _ => none

/-- Two tables hold the same row, or none. -/
def SameRow (before after : Tables) : TableName × String → Prop
  | (.sessions, id) =>
    Keyed.find? SessionRecord.id id after.sessions = Keyed.find? SessionRecord.id id before.sessions
  | (.machines, id) =>
    Keyed.find? MachineRecord.id id after.machines = Keyed.find? MachineRecord.id id before.machines
  | (.unmanagedSessions, id) =>
    Keyed.find? UnmanagedSessionRecord.id id after.unmanagedSessions =
      Keyed.find? UnmanagedSessionRecord.id id before.unmanagedSessions
  | (.workspaces, id) =>
    Keyed.find? WorkspaceRecord.id id after.workspaces =
      Keyed.find? WorkspaceRecord.id id before.workspaces

variable {after : Tables}

/-- What a write returns depends on its row alone. -/
theorem Write.commit_returns
    {write : Write} {row : TableName × String} (isRow : write.row? = some row)
    {before : Tables} (same : SameRow before after row) :
    (write.commit after).map Prod.snd = (write.commit before).map Prod.snd := by
  cases write with
  | createSession | createUnmanaged | createWorkspace | updateAccount => contradiction
  | archive | unarchive | muteSession => rfl
  | casSession id | reportFailed id | reportEnded id | deleteSession id =>
    cases isRow
    have kept : Keyed.find? SessionRecord.id id after.sessions =
        Keyed.find? SessionRecord.id id before.sessions := same
    simp only [Write.commit, kept]
    cases Keyed.find? SessionRecord.id id before.sessions with
    | none => rfl
    | some held => simp only [apply_ite (Option.map Prod.snd), Option.map_some, Option.map_none]
  | registerMachine id accountId metadata daemonState dek now needsReauth =>
    cases isRow
    have kept : Keyed.find? MachineRecord.id id after.machines =
        Keyed.find? MachineRecord.id id before.machines := same
    have present : after.machines.any (fun held => held.id = id) =
        before.machines.any (fun held => held.id = id) := by
      rw [← List.isSome_find?, ← List.isSome_find?]
      exact congrArg Option.isSome kept
    simp only [Write.commit, present, apply_ite (Option.map Prod.snd), Option.map_some, Option.map_none]
  | updateMachine id =>
    cases isRow
    have kept : Keyed.find? MachineRecord.id id after.machines =
        Keyed.find? MachineRecord.id id before.machines := same
    simp only [Write.commit, kept]
    cases Keyed.find? MachineRecord.id id before.machines with
    | none => rfl
    | some held => simp only [apply_ite (Option.map Prod.snd), Option.map_some, Option.map_none]
  | updateUnmanaged id =>
    cases isRow
    have kept : Keyed.find? UnmanagedSessionRecord.id id after.unmanagedSessions =
        Keyed.find? UnmanagedSessionRecord.id id before.unmanagedSessions := same
    simp only [Write.commit, kept]
    cases Keyed.find? UnmanagedSessionRecord.id id before.unmanagedSessions with
    | none => rfl
    | some held => rfl
  | casWorkspace id =>
    cases isRow
    have kept : Keyed.find? WorkspaceRecord.id id after.workspaces =
        Keyed.find? WorkspaceRecord.id id before.workspaces := same
    simp only [Write.commit, kept]
    cases Keyed.find? WorkspaceRecord.id id before.workspaces with
    | none => rfl
    | some held => simp only [apply_ite (Option.map Prod.snd), Option.map_some, Option.map_none]

/-! ## Other rows -/

variable {id : String} {other : TableName × String}

theorem sameRow_updateSession (tables : Tables) (change : SessionRecord → SessionRecord)
    (keeps : ∀ row, (change row).id = row.id)
    (apart : (.sessions, id) ≠ other) : SameRow tables (tables.updateSession id change keeps) other := by
  obtain ⟨table, key⟩ := other
  cases table with
  | sessions =>
    have differ : key ≠ id := by
      rintro rfl
      exact apart rfl
    simp only [SameRow, Tables.updateSession, Keyed.find_modify _ _ _ _ keeps, if_neg differ]
  | machines | unmanagedSessions | workspaces => rfl

theorem sameRow_deleteSession
    (tables : Tables)     (apart : (.sessions, id) ≠ other) : SameRow tables (tables.deleteSession id) other := by
  obtain ⟨table, key⟩ := other
  cases table with
  | sessions =>
    have differ : key ≠ id := by
      rintro rfl
      exact apart rfl
    simp only [SameRow, Tables.deleteSession, Keyed.find_delete, if_neg differ]
  | machines | unmanagedSessions | workspaces => rfl

theorem sameRow_putMachine (tables : Tables) (row : MachineRecord)
    (apart : (.machines, row.id) ≠ other) : SameRow tables (tables.putMachine row) other := by
  obtain ⟨table, key⟩ := other
  cases table with
  | machines =>
    have differ : key ≠ row.id := by
      rintro rfl
      exact apart rfl
    simp only [SameRow, Tables.putMachine, Keyed.find_upsert, if_neg differ]
  | sessions | unmanagedSessions | workspaces => rfl

theorem sameRow_putUnmanaged (tables : Tables) (row : UnmanagedSessionRecord)
    (apart : (.unmanagedSessions, row.id) ≠ other) :
    SameRow tables (tables.putUnmanaged row) other := by
  obtain ⟨table, key⟩ := other
  cases table with
  | unmanagedSessions =>
    have differ : key ≠ row.id := by
      rintro rfl
      exact apart rfl
    simp only [SameRow, Tables.putUnmanaged, Keyed.find_upsert, if_neg differ]
  | sessions | machines | workspaces => rfl

theorem sameRow_putWorkspace (tables : Tables) (row : WorkspaceRecord)
    (apart : (.workspaces, row.id) ≠ other) : SameRow tables (tables.putWorkspace row) other := by
  obtain ⟨table, key⟩ := other
  cases table with
  | workspaces =>
    have differ : key ≠ row.id := by
      rintro rfl
      exact apart rfl
    simp only [SameRow, Tables.putWorkspace, Keyed.find_upsert, if_neg differ]
  | sessions | machines | unmanagedSessions => rfl

/-! ## What the writes do -/

variable {body : UpdateBody} {now : Int} {tables : Tables}

/-- A compare-and-set on a session whose statement matches. -/
theorem commit_casSession {field : CasField}
    {expectedVersion : Nat} {value : EncryptedBox}     (commits : (Write.casSession id field expectedVersion value now).commit tables =
      some (after, body)) :
    ∃ row, Keyed.find? SessionRecord.id id tables.sessions = some row ∧
      field.version row = expectedVersion ∧
      after = tables.updateSession id (field.set value now) (field.set_id value now) ∧
      body = .sessionUpdate id (field.patch value (expectedVersion + 1)) := by
  simp only [Write.commit] at commits
  split at commits
  · contradiction
  · rename_i row found
    obtain ⟨same, commits⟩ := Option.ite_none_left_eq_some.mp commits
    obtain ⟨rfl, rfl⟩ := Prod.mk.inj (Option.some.inj commits)
    exact ⟨row, found, not_not.mp same, rfl, rfl⟩

theorem updatedMachine_id (metadata : EncryptedBox) (daemonState : Option (EncryptedBox × Nat))
    (now : Int) (row : MachineRecord) : (updatedMachine metadata daemonState now row).id = row.id := by
  cases daemonState <;> rfl

/-- An update of a machine whose statement matches. -/
theorem commit_updateMachine {metadata : EncryptedBox}
    {expectedMetadata : Nat} {daemonState : Option (EncryptedBox × Nat)}
    {needsReauth : Bool}
    (commits : (Write.updateMachine id metadata expectedMetadata daemonState now needsReauth).commit
      tables = some (after, body)) :
    ∃ row, Keyed.find? MachineRecord.id id tables.machines = some row ∧
      row.metadataVersion = expectedMetadata ∧
      (∀ state ∈ daemonState, row.daemonStateVersion = state.2) ∧
      after = tables.putMachine (updatedMachine metadata daemonState now row) ∧
      body = .machineUpdate (toMachineRow (updatedMachine metadata daemonState now row) needsReauth) := by
  simp only [Write.commit] at commits
  split at commits
  · contradiction
  · rename_i row found
    obtain ⟨same, commits⟩ := Option.ite_none_left_eq_some.mp commits
    obtain ⟨metadataSame, stateSame⟩ := not_or.mp same
    obtain ⟨rfl, rfl⟩ := Prod.mk.inj (Option.some.inj commits)
    refine ⟨row, found, not_not.mp metadataSame, ?_, rfl, rfl⟩
    intro state isState
    obtain rfl := Option.mem_def.mp isState
    simpa using stateSame

/-- A compare-and-set on a workspace whose statement matches. -/
theorem commit_casWorkspace {expectedVersion : Nat} {value : EncryptedBox}
    (commits : (Write.casWorkspace id expectedVersion value).commit tables = some (after, body)) :
    ∃ row, Keyed.find? WorkspaceRecord.id id tables.workspaces = some row ∧
      row.metadataVersion = expectedVersion ∧
      after = tables.putWorkspace
        { row with metadata := value, metadataVersion := row.metadataVersion + 1 } ∧
      body = .workspaceUpdate (toWorkspaceRow
        { row with metadata := value, metadataVersion := row.metadataVersion + 1 }) := by
  simp only [Write.commit] at commits
  split at commits
  · contradiction
  · rename_i row found
    obtain ⟨same, commits⟩ := Option.ite_none_left_eq_some.mp commits
    obtain ⟨rfl, rfl⟩ := Prod.mk.inj (Option.some.inj commits)
    exact ⟨row, found, not_not.mp same, rfl, rfl⟩

/-- A report of a failure whose statement matches. -/
theorem commit_reportFailed
    (commits : (Write.reportFailed id now).commit tables = some (after, body)) :
    ∃ row, Keyed.find? SessionRecord.id id tables.sessions = some row ∧ row.status = .active ∧
      after = tables.updateSession id (setStatus .failed now) (fun _ => rfl) ∧
      body = .sessionUpdate id { emptyPatch with status := some .failed } := by
  simp only [Write.commit] at commits
  split at commits
  · contradiction
  · rename_i row found
    obtain ⟨same, commits⟩ := Option.ite_none_left_eq_some.mp commits
    obtain ⟨rfl, rfl⟩ := Prod.mk.inj (Option.some.inj commits)
    exact ⟨row, found, not_not.mp same, rfl, rfl⟩

/-- A report of an end whose statement matches. -/
theorem commit_reportEnded
    (commits : (Write.reportEnded id now).commit tables = some (after, body)) :
    ∃ row, Keyed.find? SessionRecord.id id tables.sessions = some row ∧ row.status ≠ .archived ∧
      after = tables.updateSession id (setStatus .ended now) (fun _ => rfl) ∧
      body = .sessionUpdate id { emptyPatch with status := some .ended } := by
  simp only [Write.commit] at commits
  split at commits
  · contradiction
  · rename_i row found
    obtain ⟨live, commits⟩ := Option.ite_none_left_eq_some.mp commits
    obtain ⟨rfl, rfl⟩ := Prod.mk.inj (Option.some.inj commits)
    exact ⟨row, found, live, rfl, rfl⟩

/-- The row of a machine that is registered. -/
def registeredMachine (id accountId : String) (metadata : EncryptedBox)
    (daemonState : Option EncryptedBox) (dek : String) (now : Int) : MachineRecord where
  id := id
  accountId := accountId
  metadata := metadata
  metadataVersion := 0
  daemonState := daemonState
  daemonStateVersion := 0
  dek := dek
  lastSeenAt := some now

/-- A registration under an unused identifier. -/
theorem commit_registerMachine {accountId : String} {metadata : EncryptedBox}
    {daemonState : Option EncryptedBox} {dek : String} {needsReauth : Bool}
    (commits : (Write.registerMachine id accountId metadata daemonState dek now needsReauth).commit
      tables = some (after, body)) :
    Keyed.find? MachineRecord.id id tables.machines = none ∧
      after = tables.putMachine (registeredMachine id accountId metadata daemonState dek now) ∧
      body = .machineNew (toMachineRow
        (registeredMachine id accountId metadata daemonState dek now) needsReauth) := by
  simp only [Write.commit] at commits
  obtain ⟨unused, commits⟩ := Option.ite_none_left_eq_some.mp commits
  obtain ⟨rfl, rfl⟩ := Prod.mk.inj (Option.some.inj commits)
  refine ⟨?_, rfl, rfl⟩
  rw [Keyed.find?, List.find?_eq_none]
  intro held member same
  exact unused (List.any_eq_true.mpr ⟨held, member, same⟩)

/-- A write leaves the other rows as they are. -/
theorem Write.commit_frame {write : Write} {row : TableName × String}
    (isRow : write.row? = some row) (apart : row ≠ other) {before : Tables}
    (commits : write.commit before = some (after, body)) : SameRow before after other := by
  cases write with
  | createSession | createUnmanaged | createWorkspace | updateAccount => contradiction
  | archive id | unarchive id | muteSession id =>
    cases isRow
    obtain ⟨rfl, _⟩ := Prod.mk.inj (Option.some.inj commits)
    exact sameRow_updateSession before _ _ apart
  | casSession id =>
    cases isRow
    obtain ⟨held, _, _, rfl, _⟩ := commit_casSession commits
    exact sameRow_updateSession before _ _ apart
  | reportFailed id =>
    cases isRow
    obtain ⟨held, _, _, rfl, _⟩ := commit_reportFailed commits
    exact sameRow_updateSession before _ _ apart
  | reportEnded id =>
    cases isRow
    obtain ⟨held, _, _, rfl, _⟩ := commit_reportEnded commits
    exact sameRow_updateSession before _ _ apart
  | deleteSession id =>
    cases isRow
    simp only [Write.commit] at commits
    split at commits
    · contradiction
    · obtain ⟨rfl, _⟩ := Prod.mk.inj (Option.some.inj commits)
      exact sameRow_deleteSession before apart
  | registerMachine id accountId metadata daemonState dek now needsReauth =>
    cases isRow
    obtain ⟨_, rfl, _⟩ := commit_registerMachine commits
    exact sameRow_putMachine before _ apart
  | updateMachine id metadata expectedMetadata daemonState now =>
    cases isRow
    obtain ⟨held, found, _, _, rfl, _⟩ := commit_updateMachine commits
    apply sameRow_putMachine
    rw [updatedMachine_id, Keyed.find_key MachineRecord.id found]
    exact apart
  | updateUnmanaged id =>
    cases isRow
    simp only [Write.commit] at commits
    split at commits
    · contradiction
    · rename_i held found
      obtain ⟨rfl, _⟩ := Prod.mk.inj (Option.some.inj commits)
      apply sameRow_putUnmanaged
      rw [Keyed.find_key UnmanagedSessionRecord.id found]
      exact apart
  | casWorkspace id =>
    cases isRow
    obtain ⟨held, found, _, rfl, _⟩ := commit_casWorkspace commits
    apply sameRow_putWorkspace
    rw [Keyed.find_key WorkspaceRecord.id found]
    exact apart

/-- What a write of one row returns does not change with a write of another. -/
theorem Write.returns_apart {one other : Write} {oneRow otherRow : TableName × String}
    (isOne : one.row? = some oneRow) (isOther : other.row? = some otherRow) (apart : oneRow ≠ otherRow)
    {before : Tables} (commits : one.commit before = some (after, body)) :
    (other.commit after).map Prod.snd = (other.commit before).map Prod.snd :=
  commit_returns isOther (commit_frame isOne apart commits)

end Kvy.Server.App
