import Kvy.Server.App.StructuralWrites
import Kvy.Web.Sync.Engine

/-!
# The header fast path refines the server's writes

The cached snapshot agrees with the server's tables when it holds the same rows under
every identifier, up to the message counter and the time of a session, which no
update carries. Patching with an update follows the write that emitted it. The engine
patches with an update only if it continues the cached snapshot, so whatever is
delivered, the cache walks the server's history one update after the other.
-/

namespace Kvy.Web.Sync

open General Wire Server.Db Server.App

/-- A session without the fields that the fast path does not carry. -/
def carried (session : SessionRow) : SessionRow := { session with msgSeq := 0, updatedAt := 0 }

/-- The snapshot holds the rows of the tables, each once. -/
structure Agrees (snapshot : SyncSnapshot) (tables : Tables) (reauth : String → Bool) : Prop where
  sessions : ∀ id, (Keyed.find? SessionRow.id id snapshot.sessions).map carried =
    (Keyed.find? SessionRecord.id id tables.sessions).map (fun row => carried (toSessionRow row))
  machines : ∀ id, Keyed.find? MachineRow.id id snapshot.machines =
    (Keyed.find? MachineRecord.id id tables.machines).map
      (fun row => toMachineRow row (reauth row.id))
  unmanagedSessions : ∀ id, Keyed.find? UnmanagedSessionRow.id id snapshot.unmanagedSessions =
    (Keyed.find? UnmanagedSessionRecord.id id tables.unmanagedSessions).map toUnmanagedSessionRow
  workspaces : ∀ id, Keyed.find? WorkspaceRow.id id snapshot.workspaces =
    (Keyed.find? WorkspaceRecord.id id tables.workspaces).map toWorkspaceRow
  sessionKeys : (snapshot.sessions.map SessionRow.id).Nodup
  machineKeys : (snapshot.machines.map MachineRow.id).Nodup
  unmanagedKeys : (snapshot.unmanagedSessions.map UnmanagedSessionRow.id).Nodup
  workspaceKeys : (snapshot.workspaces.map WorkspaceRow.id).Nodup

variable {snapshot : SyncSnapshot} {tables : Tables} {reauth : String → Bool}

/-- The sequence number of a snapshot is no part of the agreement. -/
theorem Agrees.renumber (agrees : Agrees snapshot tables reauth) (seq : Nat) :
    Agrees { snapshot with headerSeq := seq } tables reauth :=
  ⟨agrees.sessions, agrees.machines, agrees.unmanagedSessions, agrees.workspaces,
    agrees.sessionKeys, agrees.machineKeys, agrees.unmanagedKeys, agrees.workspaceKeys⟩

/-- Inserting a session on both sides. -/
theorem Agrees.put_session (agrees : Agrees snapshot tables reauth) (row : SessionRecord) :
    Agrees { snapshot with sessions := upsertById SessionRow.id (toSessionRow row) snapshot.sessions }
      (tables.putSession row) reauth := by
  refine { agrees with
    sessions := ?_, sessionKeys := Keyed.nodup_upsert _ _ agrees.sessionKeys }
  intro id
  have same : (toSessionRow row).id = row.id := rfl
  simp only [upsertById, Tables.putSession, Keyed.find_upsert, same]
  by_cases here : id = row.id
  · simp only [here, ↓reduceIte, Option.map_some]
  · simp only [here, ↓reduceIte, agrees.sessions]

/-- Patching a session follows an update of its row that the patch describes. -/
theorem Agrees.patch_session (agrees : Agrees snapshot tables reauth) (id : String)
    (patch : SessionPatch) (change : SessionRecord → SessionRecord)
    (keeps : ∀ row, (change row).id = row.id)
    (describes : ∀ row, Keyed.find? SessionRecord.id id tables.sessions = some row →
      patchSession (carried (toSessionRow row)) patch = carried (toSessionRow (change row))) :
    Agrees { snapshot with
        sessions := Keyed.modify SessionRow.id id (fun session => patchSession session patch)
          snapshot.sessions }
      (tables.updateSession id change keeps) reauth := by
  refine { agrees with
    sessions := ?_, sessionKeys := Keyed.nodup_modify _ id _ (patch_session_id patch) agrees.sessionKeys }
  intro wanted
  have commutes (row : SessionRow) : carried (patchSession row patch) =
      patchSession (carried row) patch := rfl
  simp only [Tables.updateSession]
  rw [Keyed.find_modify _ _ _ _ (patch_session_id patch), Keyed.find_modify _ _ _ _ keeps]
  by_cases here : wanted = id
  · subst here
    have before := agrees.sessions wanted
    simp only [↓reduceIte, Option.map_map]
    cases stored : Keyed.find? SessionRecord.id wanted tables.sessions with
    | none =>
      rw [stored] at before
      simp [Option.map_eq_none_iff.mp before]
    | some row =>
      rw [stored] at before
      obtain ⟨cached, found, same⟩ := Option.map_eq_some_iff.mp before
      simp only [found, Option.map_some, Function.comp_apply, commutes, same,
        describes row stored]
  · simp only [here, ↓reduceIte, agrees.sessions]

/-- Deleting a session on both sides. -/
theorem Agrees.delete_session (agrees : Agrees snapshot tables reauth) (id : String) :
    Agrees { snapshot with sessions := Keyed.delete SessionRow.id id snapshot.sessions }
      (tables.deleteSession id) reauth := by
  refine { agrees with
    sessions := ?_, sessionKeys := Keyed.nodup_delete _ id agrees.sessionKeys }
  intro wanted
  simp only [Tables.deleteSession, Keyed.find_delete]
  by_cases here : wanted = id
  · simp only [here, ↓reduceIte, Option.map_none]
  · simp only [here, ↓reduceIte, agrees.sessions]

/-- Writing a machine on both sides, with what its update announces. -/
theorem Agrees.put_machine (agrees : Agrees snapshot tables reauth) (row : MachineRecord)
    (needsReauth : Bool) :
    Agrees { snapshot with
        machines := upsertById MachineRow.id (toMachineRow row needsReauth) snapshot.machines }
      (tables.putMachine row) (Function.update reauth row.id needsReauth) := by
  refine { agrees with
    machines := ?_, machineKeys := Keyed.nodup_upsert _ _ agrees.machineKeys }
  intro id
  have same : (toMachineRow row needsReauth).id = row.id := rfl
  simp only [upsertById, Tables.putMachine, Keyed.find_upsert, same]
  by_cases here : id = row.id
  · simp only [here, ↓reduceIte, Option.map_some, Function.update_self]
  · simp only [here, ↓reduceIte, agrees.machines]
    apply Option.map_congr
    intro stored found
    have key : stored.id ≠ row.id := by
      rw [Keyed.find_key _ found]
      exact here
    rw [Function.update_of_ne key]

/-- Writing an unmanaged session on both sides. -/
theorem Agrees.put_unmanaged (agrees : Agrees snapshot tables reauth)
    (row : UnmanagedSessionRecord) :
    Agrees { snapshot with
        unmanagedSessions := upsertById UnmanagedSessionRow.id (toUnmanagedSessionRow row)
          snapshot.unmanagedSessions }
      (tables.putUnmanaged row) reauth := by
  refine { agrees with
    unmanagedSessions := ?_, unmanagedKeys := Keyed.nodup_upsert _ _ agrees.unmanagedKeys }
  intro id
  have same : (toUnmanagedSessionRow row).id = row.id := rfl
  simp only [upsertById, Tables.putUnmanaged, Keyed.find_upsert, same]
  by_cases here : id = row.id
  · simp only [here, ↓reduceIte, Option.map_some]
  · simp only [here, ↓reduceIte, agrees.unmanagedSessions]

/-- Writing a workspace on both sides. -/
theorem Agrees.put_workspace (agrees : Agrees snapshot tables reauth) (row : WorkspaceRecord) :
    Agrees { snapshot with
        workspaces := upsertById WorkspaceRow.id (toWorkspaceRow row) snapshot.workspaces }
      (tables.putWorkspace row) reauth := by
  refine { agrees with
    workspaces := ?_, workspaceKeys := Keyed.nodup_upsert _ _ agrees.workspaceKeys }
  intro id
  have same : (toWorkspaceRow row).id = row.id := rfl
  simp only [upsertById, Tables.putWorkspace, Keyed.find_upsert, same]
  by_cases here : id = row.id
  · simp only [here, ↓reduceIte, Option.map_some]
  · simp only [here, ↓reduceIte, agrees.workspaces]

/-- Patching with an update follows the write that emitted it. -/
theorem Agrees.patch (agrees : Agrees snapshot tables reauth) (seq : Nat) {write : Write}
    {written : Tables} {body : UpdateBody} (commits : write.commit tables = some (written, body)) :
    Agrees (patchSnapshot body seq snapshot) written (write.announce reauth) := by
  replace agrees := agrees.renumber seq
  cases write with
  | createSession session =>
    simp only [Write.commit] at commits
    split at commits
    · contradiction
    · obtain ⟨rfl, rfl⟩ := Prod.mk.inj (Option.some.inj commits)
      exact agrees.put_session session.record
  | casSession id field expectedVersion value now =>
    simp only [Write.commit] at commits
    split at commits
    · contradiction
    · rename_i row stored
      split at commits
      · contradiction
      · rename_i expected
        obtain ⟨rfl, rfl⟩ := Prod.mk.inj (Option.some.inj commits)
        apply agrees.patch_session
        intro other found
        obtain rfl : row = other := Option.some.inj (stored.symm.trans found)
        obtain rfl := Decidable.not_not.mp expected
        cases field <;> rfl
  | reportFailed id now =>
    simp only [Write.commit] at commits
    split at commits
    · contradiction
    · split at commits
      · contradiction
      · obtain ⟨rfl, rfl⟩ := Prod.mk.inj (Option.some.inj commits)
        exact agrees.patch_session id _ _ _ (fun _ _ => rfl)
  | reportEnded id now =>
    simp only [Write.commit] at commits
    split at commits
    · contradiction
    · split at commits
      · contradiction
      · obtain ⟨rfl, rfl⟩ := Prod.mk.inj (Option.some.inj commits)
        exact agrees.patch_session id _ _ _ (fun _ _ => rfl)
  | archive id now =>
    obtain ⟨rfl, rfl⟩ := Prod.mk.inj (Option.some.inj commits)
    exact agrees.patch_session id _ _ _ (fun _ _ => rfl)
  | unarchive id now =>
    obtain ⟨rfl, rfl⟩ := Prod.mk.inj (Option.some.inj commits)
    exact agrees.patch_session id _ _ _ (fun _ _ => rfl)
  | muteSession id muted now =>
    obtain ⟨rfl, rfl⟩ := Prod.mk.inj (Option.some.inj commits)
    exact agrees.patch_session id _ _ _ (fun _ _ => rfl)
  | deleteSession id =>
    simp only [Write.commit] at commits
    split at commits
    · contradiction
    · obtain ⟨rfl, rfl⟩ := Prod.mk.inj (Option.some.inj commits)
      exact agrees.delete_session id
  | registerMachine id accountId metadata daemonState dek now needsReauth =>
    simp only [Write.commit] at commits
    split at commits
    · contradiction
    · obtain ⟨rfl, rfl⟩ := Prod.mk.inj (Option.some.inj commits)
      exact agrees.put_machine _ needsReauth
  | updateMachine id metadata expectedMetadata daemonState now needsReauth =>
    simp only [Write.commit] at commits
    split at commits
    · contradiction
    · rename_i row stored
      split at commits
      · contradiction
      · obtain ⟨rfl, rfl⟩ := Prod.mk.inj (Option.some.inj commits)
        have key : (updatedMachine metadata daemonState now row).id = id := by
          rw [← Keyed.find_key _ stored]
          cases daemonState <;> rfl
        have put := agrees.put_machine (updatedMachine metadata daemonState now row) needsReauth
        rw [key] at put
        exact put
  | createUnmanaged row =>
    simp only [Write.commit] at commits
    split at commits
    · contradiction
    · obtain ⟨rfl, rfl⟩ := Prod.mk.inj (Option.some.inj commits)
      exact agrees.put_unmanaged row
  | updateUnmanaged id workspaceId summary dek now =>
    simp only [Write.commit] at commits
    split at commits
    · contradiction
    · obtain ⟨rfl, rfl⟩ := Prod.mk.inj (Option.some.inj commits)
      exact agrees.put_unmanaged _
  | createWorkspace id accountId pathHash metadata dek =>
    simp only [Write.commit] at commits
    split at commits
    · contradiction
    · obtain ⟨rfl, rfl⟩ := Prod.mk.inj (Option.some.inj commits)
      exact agrees.put_workspace _
  | casWorkspace id expectedVersion value =>
    simp only [Write.commit] at commits
    split at commits
    · contradiction
    · split at commits
      · contradiction
      · obtain ⟨rfl, rfl⟩ := Prod.mk.inj (Option.some.inj commits)
        exact agrees.put_workspace _
  | updateAccount settings =>
    obtain ⟨rfl, rfl⟩ := Prod.mk.inj (Option.some.inj commits)
    exact agrees

/-- The engine's cached snapshot is the server's state after an update, and its tracker
stands there. -/
def Tracks (history : History) (engine : Engine) (seq : Nat) : Prop :=
  ∃ snapshot, engine.sync.data = some snapshot ∧ snapshot.headerSeq = seq ∧
    engine.lastHeaderSeq = some seq ∧ Agrees snapshot (history.tables seq) (history.reauth seq)

/-- What the socket may deliver: any update of the history at any time, or a message. -/
def Delivered (history : History) (update : Update) : Prop :=
  update.body.isMessage = true ∨
    ∃ seq, seq < history.last ∧ update.seq = some (seq + 1) ∧ update.body = history.body (seq + 1)

/-- Whether an update takes the header fast path. -/
def Engine.applies (engine : Engine) (update : Update) : Bool :=
  !update.body.isMessage && engine.continues update

/-- The numbers of the updates that take the header fast path, in order. -/
def appliedSeqs : Engine → List Update → List Nat
  | _, [] => []
  | engine, update :: updates =>
    let later := appliedSeqs (engine.handleUpdate update) updates
    if engine.applies update then update.seq.toList ++ later else later

/-- A message leaves the header stream alone. -/
theorem handle_message
    (engine : Engine) (update : Update) (message : update.body.isMessage = true) :
    (engine.handleUpdate update).sync = engine.sync ∧
      (engine.handleUpdate update).lastHeaderSeq = engine.lastHeaderSeq := by
  obtain ⟨sessionId, msgSeq, localId, content, body⟩ := UpdateBody.of_message message
  simp only [Engine.handleUpdate, body, Engine.applyMessageFastPath, Engine.setMessages]
  repeat' split
  all_goals exact ⟨rfl, rfl⟩

/-- An update that does not continue the cached snapshot only invalidates the query. -/
theorem handle_gap (engine : Engine) (update : Update) (structural : update.body.isMessage = false)
    (gap : engine.continues update = false) :
    engine.handleUpdate update = engine.setSync engine.sync.invalidate := by
  unfold Engine.handleUpdate
  split
  · rename_i body
    rw [body] at structural
    contradiction
  · rw [gap]
    cases update.seq <;> rfl

variable {seq : Nat}

/-- An update that continues the cached snapshot patches it. -/
theorem handle_next (engine : Engine) (update : Update) (structural : update.body.isMessage = false)
    (numbered : update.seq = some seq) (next : engine.continues update = true) :
    engine.handleUpdate update =
      { engine.applyStructural update.body seq with lastHeaderSeq := some seq } := by
  unfold Engine.handleUpdate
  split
  · rename_i body
    rw [body] at structural
    contradiction
  · rw [numbered, next]

/-- Patching sets the sequence number. -/
theorem patch_header_seq (body : UpdateBody) (seq : Nat) (old : SyncSnapshot) :
    (patchSnapshot body seq old).headerSeq = seq := by
  cases body <;> rfl

variable {engine : Engine} {history : History} {update : Update}

/-- The numbers that a delivery may apply: the exact successor or none. -/
theorem continues_iff (tracks : Tracks history engine seq) :
    engine.continues update = true ↔ update.seq = some (seq + 1) := by
  obtain ⟨_, _, _, tracker, _⟩ := tracks
  unfold Engine.continues
  rw [tracker]
  cases update.seq with
  | none => simp
  | some number => simp

/-- The successor advances the cached snapshot by one write. -/
theorem Tracks.next (tracks : Tracks history engine seq) (delivered : Delivered history update)
    (structural : update.body.isMessage = false) (numbered : update.seq = some (seq + 1)) :
    Tracks history (engine.handleUpdate update) (seq + 1) := by
  rcases delivered with message | ⟨number, known, counted, body⟩
  · rw [message] at structural
    contradiction
  obtain rfl : number = seq := by
    have same := Option.some.inj (numbered.symm.trans counted)
    omega
  obtain ⟨write, commits, announced⟩ := history.commits number known
  rw [handle_next engine update structural numbered ((continues_iff tracks).mpr numbered), body]
  obtain ⟨snapshot, cached, _, _, agrees⟩ := tracks
  refine ⟨patchSnapshot (history.body (number + 1)) (number + 1) snapshot, ?_,
    patch_header_seq _ _ _, rfl, ?_⟩
  · simp only [Engine.applyStructural, cached]
    rfl
  · rw [announced]
    exact agrees.patch (number + 1) commits

/-- Any other structural update leaves the data and invalidates the query. -/
theorem Tracks.gap (tracks : Tracks history engine seq) (structural : update.body.isMessage = false)
    (gap : update.seq ≠ some (seq + 1)) :
    Tracks history (engine.handleUpdate update) seq ∧
      (engine.handleUpdate update).sync.data = engine.sync.data ∧
      (engine.handleUpdate update).sync.isInvalidated = true := by
  have stays : engine.continues update = false :=
    Bool.eq_false_iff.mpr (fun next => gap ((continues_iff tracks).mp next))
  rw [handle_gap engine update structural stays]
  obtain ⟨snapshot, cached, counted, tracker, agrees⟩ := tracks
  refine ⟨⟨snapshot, ?_, counted, ?_, agrees⟩, ?_, ?_⟩
  · simp [Engine.setSync, cached]
  · simp [Engine.setSync, cached, counted]
  · simp [Engine.setSync]
  · simp [Engine.setSync]

/-- One delivery moves the cached snapshot to its successor or not at all. -/
theorem Tracks.handle (tracks : Tracks history engine seq) (delivered : Delivered history update) :
    Tracks history (engine.handleUpdate update) (if engine.applies update then seq + 1 else seq) := by
  cases message : update.body.isMessage with
  | true =>
    obtain ⟨sync, tracker⟩ := handle_message engine update message
    simp only [Engine.applies, message, Bool.not_true, Bool.false_and, Bool.false_eq_true,
      ↓reduceIte]
    unfold Tracks
    rw [sync, tracker]
    exact tracks
  | false =>
    by_cases numbered : update.seq = some (seq + 1)
    · simp only [Engine.applies, message, (continues_iff tracks).mpr numbered, Bool.not_false,
        Bool.and_self, ↓reduceIte]
      exact tracks.next delivered message numbered
    · have stays : engine.continues update = false :=
        Bool.eq_false_iff.mpr (fun next => numbered ((continues_iff tracks).mp next))
      simp only [Engine.applies, message, stays, Bool.and_false, Bool.false_eq_true, ↓reduceIte]
      exact (tracks.gap message numbered).1

/-- Whatever is delivered, the cached snapshot is the server's state after some update,
reached by applying the updates up to it once each and in order. -/
theorem tracks_deliveries (tracks : Tracks history engine seq) (updates : List Update)
    (delivered : ∀ update ∈ updates, Delivered history update) :
    ∃ reached, seq ≤ reached ∧ Tracks history (updates.foldl Engine.handleUpdate engine) reached ∧
      appliedSeqs engine updates = List.range' (seq + 1) (reached - seq) := by
  induction updates generalizing engine seq with
  | nil => exact ⟨seq, Nat.le_refl seq, tracks, by simp [appliedSeqs]⟩
  | cons update updates inductionHypothesis =>
    have step := tracks.handle (delivered update List.mem_cons_self)
    obtain ⟨reached, later, final, applied⟩ := inductionHypothesis step
      (fun other member => delivered other (List.mem_cons_of_mem update member))
    simp only [appliedSeqs, applied]
    cases applies : engine.applies update with
    | false =>
      simp only [applies, Bool.false_eq_true, ↓reduceIte] at later ⊢
      exact ⟨reached, later, final, rfl⟩
    | true =>
      simp only [applies, ↓reduceIte] at later ⊢
      refine ⟨reached, by omega, final, ?_⟩
      have continues : engine.continues update = true :=
        (Bool.and_eq_true_iff.mp applies).2
      have split : reached - seq = (reached - (seq + 1)) + 1 := by omega
      rw [(continues_iff tracks).mp continues, split, List.range'_succ]
      rfl

/-- The header fast path refines the server's history: over any deliveries the cache
follows the updates one by one from where it stands, and every structural update but
the exact successor leaves the cached data as it is and invalidates the query. -/
theorem header_fast_path_refines (history : History) (engine : Engine) (seq : Nat)
    (tracks : Tracks history engine seq) (updates : List Update)
    (delivered : ∀ update ∈ updates, Delivered history update) :
    (∃ reached, seq ≤ reached ∧ Tracks history (updates.foldl Engine.handleUpdate engine) reached ∧
      appliedSeqs engine updates = List.range' (seq + 1) (reached - seq)) ∧
    ∀ before update after, updates = before ++ update :: after → update.body.isMessage = false →
      ∃ current, Tracks history (before.foldl Engine.handleUpdate engine) current ∧
        (update.seq ≠ some (current + 1) →
          ((before.foldl Engine.handleUpdate engine).handleUpdate update).sync.data =
              (before.foldl Engine.handleUpdate engine).sync.data ∧
            ((before.foldl Engine.handleUpdate engine).handleUpdate update).sync.isInvalidated =
              true) := by
  constructor
  · exact tracks_deliveries tracks updates delivered
  · rintro before update after rfl structural
    obtain ⟨current, _, reached, _⟩ := tracks_deliveries tracks before
      (fun other member => delivered other (List.mem_append_left _ member))
    exact ⟨current, reached, fun gap => (reached.gap structural gap).2⟩

/-- A session that the examples create. -/
def exampleSession : NewSession :=
  ⟨"session", "account", "tag", "claude-code", none, none, none, ⟨"metadata"⟩, "dek", 0⟩

/-- Its row. -/
def exampleRecord : SessionRecord := exampleSession.record

/-- An account whose only session is created and then archived. -/
def archivedOnce : History where
  last := 2
  tables
    | 0 => .empty
    | 1 => Tables.empty.putSession exampleRecord
    | _ => (Tables.empty.putSession exampleRecord).updateSession "session" (setStatus .archived 5)
        (fun _ => rfl)
  reauth := fun _ _ => false
  body
    | 1 => .sessionNew (toSessionRow exampleRecord)
    | _ => .sessionUpdate "session" { emptyPatch with status := some .archived }
  commits := by
    intro seq known
    match seq, known with
    | 0, _ => exact ⟨.createSession exampleSession, rfl, rfl⟩
    | 1, _ => exact ⟨.archive "session" 5, rfl, rfl⟩

/-- An engine on the empty snapshot of a new account. -/
def newAccountEngine : Engine :=
  .create { Query.unused with data := some ⟨0, 0, [], [], [], []⟩ } (fun _ => .unused)

/-- The archiving overtakes the creation and both are delivered twice. -/
def overtaking : List Update :=
  [⟨some 2, 0, archivedOnce.body 2⟩, ⟨some 1, 0, archivedOnce.body 1⟩,
    ⟨some 1, 0, archivedOnce.body 1⟩, ⟨some 2, 0, archivedOnce.body 2⟩]

theorem overtaking_refines :
    ∃ reached, 0 ≤ reached ∧
      Tracks archivedOnce (overtaking.foldl Engine.handleUpdate newAccountEngine) reached ∧
      appliedSeqs newAccountEngine overtaking = List.range' 1 (reached - 0) := by
  refine (header_fast_path_refines archivedOnce newAccountEngine 0 ?_ overtaking ?_).1
  · exact ⟨⟨0, 0, [], [], [], []⟩, rfl, rfl, rfl, fun _ => rfl, fun _ => rfl, fun _ => rfl,
      fun _ => rfl, List.nodup_nil, List.nodup_nil, List.nodup_nil, List.nodup_nil⟩
  · intro update member
    simp only [overtaking, List.mem_cons, List.not_mem_nil, or_false] at member
    rcases member with rfl | rfl | rfl | rfl
    · exact Or.inr ⟨1, by decide, rfl, rfl⟩
    · exact Or.inr ⟨0, by decide, rfl, rfl⟩
    · exact Or.inr ⟨0, by decide, rfl, rfl⟩
    · exact Or.inr ⟨1, by decide, rfl, rfl⟩

/-- The creation and then the archiving are applied. -/
example : appliedSeqs newAccountEngine overtaking = [1, 2] := by decide

end Kvy.Web.Sync
