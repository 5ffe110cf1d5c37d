import Kvy.Server.App.Routes.CompareAndSet

/-!
# Runs of compare and set

Versions only grow, so a request that has read its expected versions and lost them never finds
them again. Each request is therefore decided at one instant: at the read that refuses it, or at
the commit that carries its update.
-/

namespace Kvy.Server.App.CompareAndSet

open General General.Transactions Wire Db

/-! ## Versions -/

/-- The versions of a row do not decrease. Sessions may be deleted; machines and workspaces stay. -/
def AdvancesAt (before after : Tables) : TableName × String → Prop
  | (.sessions, id) => ∀ new, Keyed.find? SessionRecord.id id after.sessions = some new →
    ∃ old, Keyed.find? SessionRecord.id id before.sessions = some old ∧
      ∀ field : CasField, field.version old ≤ field.version new
  | (.machines, id) => ∀ old, Keyed.find? MachineRecord.id id before.machines = some old →
    ∃ new, Keyed.find? MachineRecord.id id after.machines = some new ∧
      old.metadataVersion ≤ new.metadataVersion ∧ old.daemonStateVersion ≤ new.daemonStateVersion
  | (.workspaces, id) => ∀ old, Keyed.find? WorkspaceRecord.id id before.workspaces = some old →
    ∃ new, Keyed.find? WorkspaceRecord.id id after.workspaces = some new ∧
      old.metadataVersion ≤ new.metadataVersion
  | (.unmanagedSessions, _) => True

variable {before after : Tables}

theorem sameRow_advances {row : TableName × String} (same : SameRow before after row) :
    AdvancesAt before after row := by
  obtain ⟨table, id⟩ := row
  cases table with
  | sessions => exact fun new found => ⟨new, same ▸ found, fun _ => Nat.le_refl _⟩
  | machines => exact fun old found => ⟨old, same.trans found, Nat.le_refl _, Nat.le_refl _⟩
  | unmanagedSessions => trivial
  | workspaces => exact fun old found => ⟨old, same.trans found, Nat.le_refl _⟩

/-- A change of a session that does not decrease its versions. -/
theorem advances_updateSession
    (tables : Tables) (id : String) (change : SessionRecord → SessionRecord)
    (keeps : ∀ row, (change row).id = row.id)
    (grows : ∀ row, ∀ field : CasField, field.version row ≤ field.version (change row)) :
    AdvancesAt tables (tables.updateSession id change keeps) (.sessions, id) := by
  intro new found
  rw [Tables.updateSession, Keyed.find_modify _ _ _ _ keeps, if_pos rfl] at found
  obtain ⟨old, isOld, rfl⟩ := Option.map_eq_some_iff.mp found
  exact ⟨old, isOld, grows old⟩

theorem set_grows (field : CasField) (value : EncryptedBox) (now : Int) (row : SessionRecord)
    (other : CasField) : other.version row ≤ other.version (field.set value now row) := by
  cases field <;> cases other <;> simp [CasField.version, CasField.set]

theorem updatedMachine_grows (metadata : EncryptedBox) (daemonState : Option (EncryptedBox × Nat))
    (now : Int) (row : MachineRecord) :
    row.metadataVersion ≤ (updatedMachine metadata daemonState now row).metadataVersion ∧
      row.daemonStateVersion ≤ (updatedMachine metadata daemonState now row).daemonStateVersion := by
  cases daemonState <;> simp [updatedMachine]

/-- A write does not decrease the versions of its row. -/
theorem commit_advances {write : Write} {row : TableName × String} (isRow : write.row? = some row)
    {body : UpdateBody} (commits : write.commit before = some (after, body)) :
    ∀ other, AdvancesAt before after other := by
  intro other
  by_cases apart : row = other
  · subst apart
    cases write with
    | createSession | createUnmanaged | createWorkspace | updateAccount => contradiction
    | archive id | unarchive id | muteSession id =>
      cases isRow
      obtain ⟨rfl, _⟩ := Prod.mk.inj (Option.some.inj commits)
      exact advances_updateSession before id _ _ (fun _ _ => Nat.le_refl _)
    | reportFailed id =>
      cases isRow
      obtain ⟨old, _, _, rfl, _⟩ := commit_reportFailed commits
      exact advances_updateSession before id _ _ (fun _ _ => Nat.le_refl _)
    | reportEnded id =>
      cases isRow
      obtain ⟨old, _, _, rfl, _⟩ := commit_reportEnded commits
      exact advances_updateSession before id _ _ (fun _ _ => Nat.le_refl _)
    | casSession id field expectedVersion value now =>
      cases isRow
      obtain ⟨old, _, _, rfl, _⟩ := commit_casSession commits
      exact advances_updateSession before id _ _ (set_grows field value now)
    | deleteSession id =>
      cases isRow
      simp only [Write.commit] at commits
      split at commits
      · contradiction
      · obtain ⟨rfl, _⟩ := Prod.mk.inj (Option.some.inj commits)
        intro new found
        rw [Tables.deleteSession, Keyed.find_delete, if_pos rfl] at found
        contradiction
    | registerMachine id accountId metadata daemonState dek now needsReauth =>
      cases isRow
      obtain ⟨unused, rfl, _⟩ := commit_registerMachine commits
      intro old found
      rw [unused] at found
      contradiction
    | updateMachine id metadata expectedMetadata daemonState now =>
      cases isRow
      obtain ⟨old, found, _, _, rfl, _⟩ := commit_updateMachine commits
      intro row isRow
      obtain rfl := Option.some.inj (found.symm.trans isRow)
      refine ⟨updatedMachine metadata daemonState now old, ?_, updatedMachine_grows _ _ _ _⟩
      rw [Tables.putMachine, Keyed.find_upsert, updatedMachine_id,
        Keyed.find_key MachineRecord.id found, if_pos rfl]
    | updateUnmanaged id =>
      cases isRow
      trivial
    | casWorkspace id expectedVersion value =>
      cases isRow
      obtain ⟨old, found, _, rfl, _⟩ := commit_casWorkspace commits
      intro row isRow
      obtain rfl := Option.some.inj (found.symm.trans isRow)
      refine ⟨{ old with metadata := value, metadataVersion := old.metadataVersion + 1 }, ?_,
        Nat.le_succ _⟩
      rw [Tables.putWorkspace, Keyed.find_upsert, Keyed.find_key WorkspaceRecord.id found, if_pos rfl]
  · exact sameRow_advances (Write.commit_frame isRow apart commits)

/-- The stored versions are not below the ones that a request expects. -/
def Passed : CasRequest → Tables → Prop
  | .session id field expectedVersion _ _, tables =>
    ∀ row, Keyed.find? SessionRecord.id id tables.sessions = some row →
      expectedVersion ≤ field.version row
  | .machine id _ expectedMetadata daemonState _ _, tables =>
    ∃ row, Keyed.find? MachineRecord.id id tables.machines = some row ∧
      expectedMetadata ≤ row.metadataVersion ∧
      ∀ state ∈ daemonState, state.2 ≤ row.daemonStateVersion
  | .workspace id expectedVersion _, tables =>
    ∃ row, Keyed.find? WorkspaceRecord.id id tables.workspaces = some row ∧
      expectedVersion ≤ row.metadataVersion
  | .other _ _ _, _ => True

variable {request : CasRequest}

theorem passed_advances (advances : ∀ row, AdvancesAt before after row)
    (passed : Passed request before) : Passed request after := by
  cases request with
  | session id field expectedVersion value now =>
    intro new found
    obtain ⟨old, isOld, grows⟩ := advances (.sessions, id) new found
    exact (passed old isOld).trans (grows field)
  | machine id metadata expectedMetadata daemonState now needsReauth =>
    obtain ⟨old, found, metadataPassed, statePassed⟩ := passed
    obtain ⟨new, isNew, metadataGrows, stateGrows⟩ := advances (.machines, id) old found
    exact ⟨new, isNew, metadataPassed.trans metadataGrows,
      fun state named => (statePassed state named).trans stateGrows⟩
  | workspace id expectedVersion value =>
    obtain ⟨old, found, passed⟩ := passed
    obtain ⟨new, isNew, grows⟩ := advances (.workspaces, id) old found
    exact ⟨new, isNew, passed.trans grows⟩
  | other write row isRow => trivial

/-- Versions that were passed and are not expected are not expected later. -/
theorem expects_back (advances : ∀ row, AdvancesAt before after row)
    (passed : Passed request before) (expects : Expects request after) : Expects request before := by
  cases request with
  | session id field expectedVersion value now =>
    obtain ⟨new, found, isExpected⟩ := expects
    obtain ⟨old, isOld, grows⟩ := advances (.sessions, id) new found
    refine ⟨old, isOld, ?_⟩
    have below := passed old isOld
    have above := grows field
    omega
  | machine id metadata expectedMetadata daemonState now needsReauth =>
    obtain ⟨old, found, metadataPassed, statePassed⟩ := passed
    obtain ⟨new, isNew, metadataGrows, stateGrows⟩ := advances (.machines, id) old found
    obtain ⟨row, isRow, metadataExpected, stateExpected⟩ := expects
    obtain rfl := Option.some.inj (isNew.symm.trans isRow)
    refine ⟨old, found, by omega, ?_⟩
    intro state named
    have below := statePassed state named
    have reached := stateExpected state named
    omega
  | workspace id expectedVersion value =>
    obtain ⟨old, found, passed⟩ := passed
    obtain ⟨new, isNew, grows⟩ := advances (.workspaces, id) old found
    obtain ⟨row, isRow, isExpected⟩ := expects
    obtain rfl := Option.some.inj (isNew.symm.trans isRow)
    exact ⟨old, found, by omega⟩
  | other write row isRow => exact expects

/-! ## Reads and updates -/

theorem update_row (request : CasRequest) : request.update.row? = some request.row := by
  cases request with
  | session | machine | workspace => rfl
  | other write row isRow => exact isRow

theorem program_local : program.Local := fun one other _ _ _ apart commits =>
  Write.returns_apart (update_row one) (update_row other) apart commits

variable {tables : Tables}

/-- Expected versions are passed. -/
theorem expects_passed (expects : Expects request tables) :
    Passed request tables := by
  cases request with
  | session id field expectedVersion value now =>
    obtain ⟨row, found, same⟩ := expects
    intro other isRow
    obtain rfl := Option.some.inj (found.symm.trans isRow)
    exact same.ge
  | machine id metadata expectedMetadata daemonState now needsReauth =>
    obtain ⟨row, found, metadataSame, stateSame⟩ := expects
    exact ⟨row, found, metadataSame.ge, fun state named => (stateSame state named).ge⟩
  | workspace id expectedVersion value =>
    obtain ⟨row, found, same⟩ := expects
    exact ⟨row, found, same.ge⟩
  | other write row isRow => trivial

/-- A machine update is stopped where one of its versions is not the stored one. -/
theorem machine_mismatch (row : MachineRecord) (expectedMetadata : Nat)
    (daemonState : Option (EncryptedBox × Nat)) :
    (row.metadataVersion ≠ expectedMetadata ∨
        daemonState.any (fun state => row.daemonStateVersion ≠ state.2)) ↔
      ¬ (row.metadataVersion = expectedMetadata ∧
        ∀ state ∈ daemonState, row.daemonStateVersion = state.2) := by
  have one : daemonState.any (fun state => row.daemonStateVersion ≠ state.2) = true ↔
      ¬ ∀ state ∈ daemonState, row.daemonStateVersion = state.2 := by
    cases daemonState with
    | none => simp
    | some state => simp [Option.mem_def]
  rw [one, not_and_or]

variable {Row : Type} {found : Option Row} {mismatch : Row → Bool} {current : Row → Conflict}

/-- A read that goes on has found the versions. -/
theorem readVersions_none (goesOn : readVersions found mismatch current = none) :
    ∃ row, found = some row ∧ mismatch row = false := by
  cases found with
  | none => contradiction
  | some row =>
    rw [readVersions, ite_eq_right_iff] at goesOn
    exact ⟨row, rfl, Bool.eq_false_iff.mpr fun differs => nomatch goesOn differs⟩

/-- A read that refuses has found no such versions, and reports what it has found. -/
theorem readVersions_some {refusal : Refusal}
    (refuses : readVersions found mismatch current = some refusal) :
    (∀ row, found = some row → mismatch row = true) ∧
      ∀ reported, refusal = .conflict reported → ∃ row, found = some row ∧ reported = current row := by
  cases found with
  | none =>
    cases refuses
    exact ⟨nofun, nofun⟩
  | some row =>
    obtain ⟨differs, isConflict⟩ := Option.ite_none_right_eq_some.mp refuses
    cases isConflict
    constructor
    · rintro other isRow
      cases isRow
      exact differs
    · intro reported isReported
      exact ⟨row, rfl, (Refusal.conflict.inj isReported).symm⟩

/-- The first read goes on where the expected versions are stored. -/
theorem look_none (goesOn : request.look tables = none) :
    Passed request tables := by
  cases request with
  | session id field expectedVersion value now =>
    obtain ⟨row, found, same⟩ := readVersions_none goesOn
    exact expects_passed ⟨row, found, by simpa using same⟩
  | machine id metadata expectedMetadata daemonState now needsReauth =>
    obtain ⟨row, found, same⟩ := readVersions_none goesOn
    rw [decide_eq_false_iff_not, machine_mismatch, not_not] at same
    exact expects_passed ⟨row, found, same⟩
  | workspace id expectedVersion value =>
    obtain ⟨row, found, same⟩ := readVersions_none goesOn
    exact expects_passed ⟨row, found, by simpa using same⟩
  | other write row isRow => trivial

/-- The first read refuses where other versions are stored, and reports what it read. -/
theorem look_some {refusal : Refusal} (refuses : request.look tables = some refusal) :
    ¬ Expects request tables ∧
      ∀ current, refusal = .conflict current → Stores request tables current := by
  cases request with
  | session id field expectedVersion value now =>
    obtain ⟨differs, reports⟩ := readVersions_some refuses
    refine ⟨?_, reports⟩
    rintro ⟨row, found, same⟩
    have differ := differs row found
    simp [same] at differ
  | machine id metadata expectedMetadata daemonState now needsReauth =>
    obtain ⟨differs, reports⟩ := readVersions_some refuses
    refine ⟨?_, reports⟩
    rintro ⟨row, found, same⟩
    have differ := differs row found
    rw [decide_eq_true_eq, machine_mismatch] at differ
    exact differ same
  | workspace id expectedVersion value =>
    obtain ⟨differs, reports⟩ := readVersions_some refuses
    refine ⟨?_, reports⟩
    rintro ⟨row, found, same⟩
    have differ := differs row found
    simp [same] at differ
  | other write row isRow => contradiction

/-- The second read reports what it read. -/
theorem reread_some {refusal : Refusal} (refuses : request.reread tables = some refusal) :
    ∀ current, refusal = .conflict current → Stores request tables current := by
  rintro current rfl
  cases request with
  | session | machine | workspace =>
    obtain ⟨row, found, isCurrent⟩ := Option.map_eq_some_iff.mp refuses
    exact ⟨row, found, (Refusal.conflict.inj isCurrent).symm⟩
  | other write row isRow => exact absurd (Option.some.inj refuses) nofun

/-- An update that matches no row does not find the versions it expects. -/
theorem update_none (loses : request.update.commit tables = none) : ¬ Expects request tables := by
  cases request with
  | session id field expectedVersion value now =>
    rintro ⟨row, found, rfl⟩
    simp [CasRequest.update, Write.commit, found] at loses
  | machine id metadata expectedMetadata daemonState now needsReauth =>
    rintro ⟨row, found, expected⟩
    simp only [CasRequest.update, Write.commit, found, machine_mismatch] at loses
    rw [if_neg (not_not.mpr expected)] at loses
    contradiction
  | workspace id expectedVersion value =>
    rintro ⟨row, found, rfl⟩
    simp [CasRequest.update, Write.commit, found] at loses
  | other write row isRow => exact id

theorem updatedMachine_replaced
    (metadata : EncryptedBox) (daemonState : Option (EncryptedBox × Nat))
    (now : Int) (row : MachineRecord) :
    MachineReplaced metadata daemonState row (updatedMachine metadata daemonState now row) := by
  cases daemonState with
  | none => exact ⟨rfl, rfl, nofun, fun _ => ⟨rfl, rfl⟩⟩
  | some state =>
    refine ⟨rfl, rfl, ?_, nofun⟩
    intro named isNamed
    cases isNamed
    exact ⟨rfl, rfl⟩

theorem set_version (field : CasField) (value : EncryptedBox) (now : Int) (row : SessionRecord) :
    field.version (field.set value now row) = field.version row + 1 := by
  cases field <;> rfl

theorem set_value (field : CasField) (value : EncryptedBox) (now : Int) (row : SessionRecord) :
    fieldValue field (field.set value now row) = some value := by
  cases field <;> rfl

/-- An update that matches finds the versions it expects, and replaces its fields. -/
theorem update_some {body : UpdateBody}
    (commits : request.update.commit before = some (after, body)) :
    ((∀ write row isRow, request ≠ .other write row isRow) → Expects request before) ∧
      Replaces request before after body := by
  cases request with
  | session id field expectedVersion value now =>
    obtain ⟨row, found, same, rfl, rfl⟩ := commit_casSession commits
    refine ⟨fun _ => ⟨row, found, same⟩, row, found, ?_, set_version _ _ _ _, set_value _ _ _ _, rfl⟩
    rw [Tables.updateSession, Keyed.find_modify _ _ _ _ (field.set_id value now), if_pos rfl, found]
    rfl
  | machine id metadata expectedMetadata daemonState now needsReauth =>
    obtain ⟨row, found, metadataSame, stateSame, rfl, rfl⟩ := commit_updateMachine commits
    refine ⟨fun _ => ⟨row, found, metadataSame, stateSame⟩, row, _, found, ?_,
      updatedMachine_replaced metadata daemonState now row, rfl⟩
    rw [Tables.putMachine, Keyed.find_upsert, updatedMachine_id,
      Keyed.find_key MachineRecord.id found, if_pos rfl]
  | workspace id expectedVersion value =>
    obtain ⟨row, found, same, rfl, rfl⟩ := commit_casWorkspace commits
    refine ⟨fun _ => ⟨row, found, same⟩, row, found, ?_, rfl⟩
    rw [Tables.putWorkspace, Keyed.find_upsert, Keyed.find_key WorkspaceRecord.id found, if_pos rfl]
  | other write row isRow => exact ⟨fun not => absurd rfl (not write row isRow), commits⟩

/-! ## Steps -/

variable {state next : CasState} {event : Event CasRequest}

/-- A request that waits for its update has passed its versions, and one that lost no longer has
them. -/
structure Timely (state : CasState) : Prop where
  looked : ∀ (index : Nat) (request : CasRequest), state.requests[index]? = some (.looked request) →
    Passed request state.store
  missed : ∀ (index : Nat) (request : CasRequest), state.requests[index]? = some (.missed request) →
    Passed request state.store ∧ ¬ Expects request state.store

theorem timely_start
    (tables : Tables) (headerSeq : Nat) : Timely (State.start tables headerSeq) where
  looked := by simp [State.start]
  missed := by simp [State.start]

/-- A request moves. -/
theorem Timely.move
    (timely : Timely state) (index : Nat) {phase : Phase CasRequest UpdateBody Refusal}
    (looked : ∀ request, phase = .looked request → Passed request state.store)
    (missed : ∀ request, phase = .missed request →
      Passed request state.store ∧ ¬ Expects request state.store) :
    Timely (state.move index phase) where
  looked := by
    intro other request present
    obtain ⟨_, isPhase⟩ | ⟨_, present⟩ := found_move present
    · exact looked request isPhase.symm
    · exact timely.looked other request present
  missed := by
    intro other request present
    obtain ⟨_, isPhase⟩ | ⟨_, present⟩ := found_move present
    · exact missed request isPhase.symm
    · exact timely.missed other request present

/-- A request moves to a phase that is neither. -/
theorem Timely.pass
    (timely : Timely state) (index : Nat) {phase : Phase CasRequest UpdateBody Refusal}
    (looked : ∀ request, phase ≠ .looked request) (missed : ∀ request, phase ≠ .missed request) :
    Timely (state.move index phase) :=
  timely.move index (fun request same => absurd same (looked request))
    (fun request same => absurd same (missed request))

/-- Versions that advance keep requests timely. -/
theorem Timely.advance (timely : Timely state) {store : Tables} (counter : Nat)
    (advances : ∀ row, AdvancesAt state.store store row) :
    Timely { state with store := store, counter := counter } where
  looked := fun index request present =>
    passed_advances advances (timely.looked index request present)
  missed := by
    intro index request present
    obtain ⟨passed, others⟩ := timely.missed index request present
    exact ⟨passed_advances advances passed, fun expects => others (expects_back advances passed expects)⟩

theorem timely_taken
    (timely : Timely state) (taken : Taken program state event next) : Timely next := by
  cases taken with
  | arrive request =>
    constructor
    · intro index theirs present
      obtain isBegun | present := found_arrive present
      · contradiction
      · exact timely.looked index theirs present
    · intro index theirs present
      obtain isBegun | present := found_arrive present
      · contradiction
      · exact timely.missed index theirs present
  | refuse index request answer begun read => exact timely.pass index (fun _ => by simp) (fun _ => by simp)
  | look index request begun read =>
    refine timely.move index ?_ (fun _ isMissed => absurd isMissed nofun)
    intro looked isLooked
    obtain rfl := Phase.looked.inj isLooked
    exact look_none read
  | write index request store returned looked matched free => exact timely.pass index (fun _ => by simp) (fun _ => by simp)
  | lose index request looked unmatched =>
    refine timely.move index (fun _ isLooked => absurd isLooked nofun) ?_
    intro missed isMissed
    obtain rfl := Phase.missed.inj isMissed
    exact ⟨timely.looked index request looked, update_none unmatched⟩
  | miss index request answer missed read => exact timely.pass index (fun _ => by simp) (fun _ => by simp)
  | throw index request missed read => exact timely.pass index (fun _ => by simp) (fun _ => by simp)
  | number index request returned written free => exact timely.pass index (fun _ => by simp) (fun _ => by simp)
  | commit index request returned number store value numbered matched =>
    have commits : request.update.commit state.store = some (store, value) := matched
    have advances := commit_advances (update_row request) commits
    have moved : Timely (state.move index (.answering request (.done returned number))) :=
      timely.pass index (fun _ => by simp) (fun _ => by simp)
    exact moved.advance number advances
  | abort index phase request held isOpen => exact timely.pass index (fun _ => by simp) (fun _ => by simp)
  | answer index request reply answering =>
    have moved : Timely (state.move index .finished) := timely.pass index (fun _ => by simp) (fun _ => by simp)
    exact ⟨moved.looked, moved.missed⟩
  | hangUp index request reply answering => exact timely.pass index (fun _ => by simp) (fun _ => by simp)
  | elsewhere free => exact ⟨timely.looked, timely.missed⟩

/-- A step of an open request, which may decide its answer, and may change the rows and the counter
where it commits. -/
theorem linearized_move {index counter : Nat} {store : Tables}
    {before phase : Phase CasRequest UpdateBody Refusal}
    (isNext : next = { state.move index phase with store := store, counter := counter })
    (sound : Sound program next) (was : state.requests[index]? = some before)
    (isOpen : before.opened = some request) (here : event ≠ .elsewhere)
    (answers : ∀ theirs reply, phase = .answering theirs reply →
      (event = .look index ∨ event = .miss index ∨ event = .commit index) ∧ theirs = request ∧
        Effect request state next reply)
    (changes : store ≠ state.store ∨ counter ≠ state.counter →
      event = .commit index ∧ ∃ theirs body number, phase = .answering theirs (.done body number)) :
    Linearized state event next := by
  have requests : next.requests = (state.move index phase).requests := by rw [isNext]
  have apart {other : Nat} {found : Phase CasRequest UpdateBody Refusal}
      (present : state.requests[other]? = some found) (closed : found.opened = none) :
      next.requests[other]? = some found := by
    have differ : other ≠ index := by
      rintro rfl
      obtain rfl := Option.some.inj (was.symm.trans present)
      rw [closed] at isOpen
      contradiction
    rw [requests, get_other differ, present]
  constructor
  · intro other theirs reply present
    rw [requests] at present
    obtain ⟨rfl, isPhase⟩ | ⟨_, present⟩ := found_move present
    · obtain ⟨decides, rfl, effect⟩ := answers theirs reply isPhase.symm
      exact Or.inr ⟨decides, ⟨before, was, isOpen⟩, effect⟩
    · exact Or.inl present
  · intro changed
    have moved : store ≠ state.store ∨ counter ≠ state.counter := by
      rw [isNext] at changed
      exact changed
    obtain ⟨commits, theirs, body, number, rfl⟩ := changes moved
    exact Or.inr ⟨index, theirs, body, number, commits, requests ▸ get_move was⟩
  · exact fun isElsewhere => absurd isElsewhere here
  · exact fun other theirs reply present => Or.inl (apart present rfl)
  · exact fun other present => apart present rfl
  · rw [isNext]
    exact Or.inl rfl
  · exact fun other theirs body number present => sound.can_commit present

/-- A step after which an answer is sent or lost. -/
theorem linearized_over {index : Nat} {reply : Reply UpdateBody Refusal}
    (sound : Sound program next) (answering : state.requests[index]? = some (.answering request reply))
    (requests : next.requests = (state.move index .finished).requests)
    (store : next.store = state.store) (counter : next.counter = state.counter)
    (here : event ≠ .elsewhere)
    (sent : next.sent = state.sent ∨ next.sent = state.sent ++ [(request, reply)]) :
    Linearized state event next := by
  have isOver : next.requests[index]? = some .finished := requests ▸ get_move answering
  constructor
  · intro other theirs theirReply present
    rw [requests] at present
    obtain ⟨_, isFinished⟩ | ⟨_, present⟩ := found_move present
    · contradiction
    · exact Or.inl present
  · intro changed
    exact absurd changed (by simp [store, counter])
  · exact fun isElsewhere => absurd isElsewhere here
  · intro other theirs theirReply present
    by_cases same : other = index
    · exact Or.inr (same ▸ isOver)
    · rw [requests, get_other same]
      exact Or.inl present
  · intro other present
    by_cases same : other = index
    · exact same ▸ isOver
    · rw [requests, get_other same]
      exact present
  · obtain silent | answered := sent
    · exact Or.inl silent
    · exact Or.inr ⟨index, request, reply, answering, isOver, answered⟩
  · exact fun other theirs body number present => sound.can_commit present

/-- A step that leaves the requests as they are, or adds one. -/
theorem linearized_add {added : List (Phase CasRequest UpdateBody Refusal)}
    (sound : Sound program next) (requests : next.requests = state.requests ++ added)
    (unanswered : ∀ phase ∈ added, phase.reply = none) (store : next.store = state.store)
    (counter : next.counter = state.counter ∨ event = .elsewhere) (sent : next.sent = state.sent) :
    Linearized state event next := by
  have kept {index : Nat} {phase : Phase CasRequest UpdateBody Refusal}
      (present : state.requests[index]? = some phase) : next.requests[index]? = some phase := by
    rw [requests, List.getElem?_append_left (List.getElem?_eq_some_iff.mp present).1]
    exact present
  constructor
  · intro index theirs reply present
    rw [requests, List.getElem?_append] at present
    split at present
    · exact Or.inl present
    · have unanswered := unanswered _ (List.mem_of_getElem? present)
      contradiction
  · rintro (changed | changed)
    · exact absurd store changed
    · exact Or.inl (counter.resolve_left changed)
  · exact fun _ => store
  · exact fun index theirs reply present => Or.inl (kept present)
  · exact fun index present => kept present
  · exact Or.inl sent
  · exact fun index theirs body number present => sound.can_commit present

/-- Every step is linearized. -/
theorem linearized_taken (sound : Sound program state) (timely : Timely state)
    (taken : Taken program state event next) : Linearized state event next := by
  have soundNext := sound_taken sound program_local taken
  cases taken with
  | arrive request =>
    refine linearized_add soundNext rfl ?_ rfl (Or.inl rfl) rfl
    intro phase member
    obtain rfl := List.mem_singleton.mp member
    rfl
  | refuse index request refusal begun read =>
    refine linearized_move rfl soundNext begun rfl nofun ?_ (by simp)
    rintro theirs reply isAnswer
    obtain ⟨rfl, rfl⟩ := Phase.answering.inj isAnswer
    obtain ⟨others, stores⟩ := look_some read
    exact ⟨Or.inl rfl, rfl, others, rfl, rfl, stores⟩
  | look index request begun read =>
    exact linearized_move rfl soundNext begun rfl nofun (by simp) (by simp)
  | write index request store returned looked matched free =>
    exact linearized_move rfl soundNext looked rfl nofun (by simp) (by simp)
  | lose index request looked unmatched =>
    exact linearized_move rfl soundNext looked rfl nofun (by simp) (by simp)
  | miss index request refusal missed read =>
    refine linearized_move rfl soundNext missed rfl nofun ?_ (by simp)
    rintro theirs reply isAnswer
    obtain ⟨rfl, rfl⟩ := Phase.answering.inj isAnswer
    obtain ⟨_, others⟩ := timely.missed index request missed
    exact ⟨Or.inr (Or.inl rfl), rfl, others, rfl, rfl, reread_some read⟩
  | throw index request missed read =>
    exact linearized_move rfl soundNext missed rfl nofun (by simp) (by simp)
  | number index request returned written free =>
    exact linearized_move rfl soundNext written rfl nofun (by simp) (by simp)
  | commit index request returned number store value numbered matched =>
    obtain ⟨commits, rfl⟩ := sound.committed numbered matched
    refine linearized_move rfl soundNext numbered rfl nofun ?_
      (fun _ => ⟨rfl, request, returned, _, rfl⟩)
    rintro theirs reply isAnswer
    obtain ⟨rfl, rfl⟩ := Phase.answering.inj isAnswer
    obtain ⟨expects, replaces⟩ := update_some commits
    exact ⟨Or.inr (Or.inr rfl), rfl, expects, replaces,
      fun other apart => Write.commit_frame (update_row request) apart commits, rfl, rfl⟩
  | abort index phase request held isOpen =>
    exact linearized_move rfl soundNext held isOpen nofun (by simp) (by simp)
  | answer index request reply answering =>
    exact linearized_over soundNext answering rfl rfl rfl nofun (Or.inr rfl)
  | hangUp index request reply answering =>
    exact linearized_over soundNext answering rfl rfl rfl nofun (Or.inl rfl)
  | elsewhere free =>
    exact linearized_add soundNext (List.append_nil _).symm (by simp) rfl (Or.inr rfl) rfl

/-! ## Runs -/

end Kvy.Server.App.CompareAndSet
