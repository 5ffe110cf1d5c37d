import Kvy.General.Runs
import Kvy.Web.Sync.Engine

/-!
# Mutations on the cached snapshot

Archiving a session patches its status in the cached snapshot at once and keeps the whole
snapshot, to be put back should the request fail. Renaming and pinning write the metadata
that the server accepted into the session's row. Both work on the cache that the engine
patches and that fetches replace.
-/

namespace Kvy.Web.Sync

open General Wire

/-- A session under another status. -/
def withStatus (status : SessionStatus) (session : SessionRow) : SessionRow :=
  { session with status }

/-- A session with other metadata. -/
def withMetadata (metadata : Versioned EncryptedBox) (session : SessionRow) : SessionRow :=
  { session with metadata }

/-- The updater of `onMutate` in `useArchiveSessionMutation`. -/
def archiveInCache (sessionId : String) (old : SyncSnapshot) : SyncSnapshot :=
  { old with sessions := Keyed.modify SessionRow.id sessionId (withStatus .archived) old.sessions }

/-- The updater of `onSuccess` in `useSessionMetadataPatchMutation`. -/
def writeMetadata (sessionId : String) (result : Versioned EncryptedBox) (old : SyncSnapshot) :
    SyncSnapshot :=
  { old with sessions := Keyed.modify SessionRow.id sessionId (withMetadata result) old.sessions }

/-- `setQueryData` with an updater, which leaves an empty cache as it is. -/
def Engine.updateSync (engine : Engine) (updater : SyncSnapshot → SyncSnapshot) : Engine :=
  match engine.sync.data with
  | none => engine
  | some old => engine.setSync (engine.sync.write (updater old))

/-- An updater acts on the cached data. -/
@[simp] theorem Engine.update_data (engine : Engine) (updater : SyncSnapshot → SyncSnapshot) :
    (engine.updateSync updater).sync.data = engine.sync.data.map updater := by
  unfold Engine.updateSync
  cases cached : engine.sync.data with
  | none => simp [cached]
  | some old => rfl

namespace Mutations

/-- An archive request under way, with the context that `onMutate` returned. -/
structure Archive where
  mutation : Nat
  sessionId : String
  previous : Option SyncSnapshot

/-- A metadata write under way. -/
structure Patch where
  mutation : Nat
  sessionId : String

/-- What happens to the cache. Fetches may read any snapshot. -/
inductive Event where
  | deliver (update : Update)
  | reconnect
  | useSync (active : Bool)
  | startSync
  | readSync (snapshot : SyncSnapshot)
  | landSync
  | archive (mutation : Nat) (sessionId : String)
  | archived (mutation : Nat)
  | archiveFailed (mutation : Nat)
  | patch (mutation : Nat) (sessionId : String)
  | patched (mutation : Nat) (result : Versioned EncryptedBox)
  | patchFailed (mutation : Nat)

/-- Whether an event belongs to an archive mutation. -/
def Event.isOf (mutation : Nat) : Event → Bool
  | .archive other _ | .archived other | .archiveFailed other => other = mutation
  | _ => false

/-- The engine on its cache, the mutations under way, and what has happened. -/
structure Client where
  engine : Engine
  archives : List Archive
  patches : List Patch
  past : List Event

/-- The engine is created on the cache, and no mutation is under way. -/
def start (sync : Query SyncSnapshot) (messages : String → Query MessagesQueryData) : Client :=
  ⟨Engine.create sync messages, [], [], []⟩

namespace Client

/-- The cached snapshot. -/
def data (client : Client) : Option SyncSnapshot := client.engine.sync.data

/-- `getQueryData` in the mutation function of a metadata write finds the session. -/
def holds (client : Client) (sessionId : String) : Bool :=
  client.data.any (fun snapshot => (Keyed.find? SessionRow.id sessionId snapshot.sessions).isSome)

/-- `onError` of an archive: the previous snapshot is put back, if there was one. -/
def putBack (client : Client) (archive : Archive) : Engine :=
  match archive.previous with
  | none => client.engine
  | some previous => client.engine.setSync (client.engine.sync.write previous)

/-- What one event does, short of recording it. An archive has a number of its own. -/
def advance (client : Client) : Event → Option Client
  | .deliver update => some { client with engine := client.engine.handleUpdate update }
  | .reconnect => some { client with engine := client.engine.handleReconnect }
  | .useSync active =>
    some { client with engine := client.engine.setSync { client.engine.sync with active } }
  | .startSync =>
    some { client with engine := client.engine.setSync (client.engine.sync.start none) }
  | .readSync snapshot =>
    (client.engine.sync.receive (fun _ => snapshot)).map
      (fun query => { client with engine := client.engine.setSync query })
  | .landSync =>
    client.engine.sync.land.map (fun query => { client with engine := client.engine.setSync query })
  | .archive mutation sessionId =>
    if client.past.any (Event.isOf mutation) then none
    else some { client with
      engine := client.engine.updateSync (archiveInCache sessionId)
      archives := client.archives ++ [Archive.mk mutation sessionId client.data] }
  | .archived mutation =>
    (Keyed.find? Archive.mutation mutation client.archives).map (fun _ =>
      { client with archives := Keyed.delete Archive.mutation mutation client.archives })
  | .archiveFailed mutation =>
    (Keyed.find? Archive.mutation mutation client.archives).map (fun archive =>
      { client with
        engine := client.putBack archive
        archives := Keyed.delete Archive.mutation mutation client.archives })
  | .patch mutation sessionId =>
    if client.holds sessionId then
      some { client with patches := client.patches ++ [Patch.mk mutation sessionId] }
    else none
  | .patched mutation result =>
    (Keyed.find? Patch.mutation mutation client.patches).map (fun patch =>
      { client with
        engine := client.engine.updateSync (writeMetadata patch.sessionId result)
        patches := Keyed.delete Patch.mutation mutation client.patches })
  | .patchFailed mutation =>
    (Keyed.find? Patch.mutation mutation client.patches).map (fun _ =>
      { client with patches := Keyed.delete Patch.mutation mutation client.patches })

/-- One event. -/
def step (client : Client) (event : Event) : Option Client :=
  (client.advance event).map (fun next => { next with past := client.past ++ [event] })

end Client

/-! ## A cache seen but for the status of one session -/

/-- A row without the status of the session, if it is that session's. -/
def blurRow (own : Option String) (row : SessionRow) : SessionRow :=
  if own = some row.id then withStatus .active row else row

/-- A snapshot without the status of the session. -/
def blur (own : Option String) (snapshot : SyncSnapshot) : SyncSnapshot :=
  { snapshot with sessions := snapshot.sessions.map (blurRow own) }

/-- A query without the status of the session in its data and without its mark. -/
def blurQuery (own : Option String) (query : Query SyncSnapshot) : Query SyncSnapshot :=
  { query with data := query.data.map (blur own), isInvalidated := false }

/-- An engine whose cache is blurred. -/
def blurEngine (own : Option String) (engine : Engine) : Engine :=
  { engine with sync := blurQuery own engine.sync }

/-- An archive request whose context is blurred. -/
def blurArchive (own : Option String) (archive : Archive) : Archive :=
  { archive with previous := archive.previous.map (blur own) }

/-- A client without one archive mutation, blurred. -/
def Client.view (own : Option String) (mutation : Nat) (client : Client) : Client where
  engine := blurEngine own client.engine
  archives := (Keyed.delete Archive.mutation mutation client.archives).map (blurArchive own)
  patches := client.patches
  past := client.past.filter (fun event => !event.isOf mutation)

variable (own : Option String)

@[simp] theorem blur_row_id (row : SessionRow) : (blurRow own row).id = row.id := by
  unfold blurRow
  split <;> rfl

@[simp] theorem blur_row_blur (row : SessionRow) :
    blurRow own (blurRow own row) = blurRow own row := by
  rw [blurRow, blur_row_id]
  split
  · rename_i mine
    rw [blurRow, if_pos mine]
    rfl
  · rfl

@[simp] theorem blur_row_none : blurRow none = id := by
  funext row
  simp [blurRow]

/-- A change of a row that keeps its id and does not look at its status. -/
def Blind (change : SessionRow → SessionRow) : Prop :=
  ∀ row, (change row).id = row.id ∧
    ∀ status, ∃ kept, change (withStatus status row) = withStatus kept (change row)

theorem blind_status (status : SessionStatus) : Blind (withStatus status) :=
  fun _ => ⟨rfl, fun _ => ⟨status, rfl⟩⟩

theorem blind_metadata (metadata : Versioned EncryptedBox) : Blind (withMetadata metadata) :=
  fun _ => ⟨rfl, fun status => ⟨status, rfl⟩⟩

theorem blind_patch (patch : SessionPatch) : Blind (fun session => patchSession session patch) :=
  fun _ => ⟨rfl, fun status => ⟨patch.status.getD status, rfl⟩⟩

/-- A blind change of a row is the same change of the blurred row. -/
theorem blur_row_change {change : SessionRow → SessionRow} (blind : Blind change)
    (row : SessionRow) : blurRow own (change row) = blurRow own (change (blurRow own row)) := by
  by_cases mine : own = some row.id
  · have blurred : blurRow own row = withStatus .active row := if_pos mine
    have named : own = some (change row).id := by rw [(blind row).1, mine]
    obtain ⟨kept, told⟩ := (blind row).2 .active
    have namedKept : own = some (withStatus kept (change row)).id := named
    rw [blurred, told, blurRow, blurRow, if_pos named, if_pos namedKept]
    rfl
  · have untouched : blurRow own row = row := if_neg mine
    rw [untouched]

@[simp] theorem blur_blur (snapshot : SyncSnapshot) :
    blur own (blur own snapshot) = blur own snapshot := by
  simp [blur]

@[simp] theorem blur_header (snapshot : SyncSnapshot) :
    (blur own snapshot).headerSeq = snapshot.headerSeq := rfl

@[simp] theorem blur_none : blur none = id := by
  funext snapshot
  simp [blur]

/-- Changing rows blindly respects the blurred rows. -/
theorem blur_modify (id : String) {change : SessionRow → SessionRow} (blind : Blind change)
    (rows : List SessionRow) :
    (Keyed.modify SessionRow.id id change rows).map (blurRow own) =
      (Keyed.modify SessionRow.id id change (rows.map (blurRow own))).map (blurRow own) :=
  Keyed.map_modify (blur_row_id own) id (blur_row_change own blind) (blur_row_blur own) rows

theorem blur_archive (sessionId : String) (snapshot : SyncSnapshot) :
    blur own (archiveInCache sessionId snapshot) =
      blur own (archiveInCache sessionId (blur own snapshot)) := by
  simp only [blur, archiveInCache]
  rw [blur_modify own sessionId (blind_status .archived)]

theorem blur_metadata (sessionId : String) (result : Versioned EncryptedBox)
    (snapshot : SyncSnapshot) :
    blur own (writeMetadata sessionId result snapshot) =
      blur own (writeMetadata sessionId result (blur own snapshot)) := by
  simp only [blur, writeMetadata]
  rw [blur_modify own sessionId (blind_metadata result)]

/-- The archived status is blurred. -/
theorem blur_archived (sessionId : String) (snapshot : SyncSnapshot) :
    blur (some sessionId) (archiveInCache sessionId snapshot) = blur (some sessionId) snapshot := by
  simp only [blur, archiveInCache, Keyed.modify, List.map_map]
  congr 1
  apply List.map_congr_left
  intro row _
  by_cases mine : row.id = sessionId
  · simp [blurRow, mine, withStatus]
  · simp [mine]

/-- An update patches a blurred snapshot as it patches the snapshot. -/
theorem blur_patch (body : UpdateBody) (seq : Nat) (snapshot : SyncSnapshot) :
    blur own (patchSnapshot body seq snapshot) =
      blur own (patchSnapshot body seq (blur own snapshot)) := by
  cases body with
  | sessionNew session =>
    simp only [blur, patchSnapshot, upsertById, Keyed.map_upsert (blur_row_id own), List.map_map,
      Function.comp_def, blur_row_blur]
  | sessionUpdate id patch =>
    simp only [blur, patchSnapshot]
    rw [blur_modify own id (blind_patch patch)]
  | sessionDelete id =>
    simp only [blur, patchSnapshot, Keyed.map_delete (blur_row_id own), List.map_map,
      Function.comp_def, blur_row_blur]
  | machineNew | machineUpdate | unmanagedNew | unmanagedUpdate | workspaceNew | workspaceUpdate
  | accountUpdate | messageNew =>
    simp only [blur, patchSnapshot, List.map_map, Function.comp_def, blur_row_blur]

/-! ## What the engine does to a blurred cache -/

@[simp] theorem blur_query_blur (query : Query SyncSnapshot) :
    blurQuery own (blurQuery own query) = blurQuery own query := by
  cases query with
  | mk data mark active fetch => cases data <;> simp [blurQuery]

@[simp] theorem blur_engine_blur (engine : Engine) :
    blurEngine own (blurEngine own engine) = blurEngine own engine := by
  simp [blurEngine]

/-- Setting the query sets the blurred query of the blurred engine. -/
theorem blur_set (engine : Engine) (query : Query SyncSnapshot) :
    blurEngine own (engine.setSync query) =
      (blurEngine own engine).setSync (blurQuery own query) := by
  cases data : query.data <;>
    simp [blurEngine, Engine.setSync, blurQuery, data]

/-- Queries that look the same are set to engines that look the same. -/
theorem blur_set_same (engine : Engine) {query other : Query SyncSnapshot}
    (same : blurQuery own query = blurQuery own other) :
    blurEngine own (engine.setSync query) =
      blurEngine own ((blurEngine own engine).setSync other) := by
  rw [blur_set, blur_set, same, blur_engine_blur]

theorem blur_write (query : Query SyncSnapshot) {written other : SyncSnapshot}
    (same : blur own written = blur own other) :
    blurQuery own (query.write written) = blurQuery own ((blurQuery own query).write other) := by
  simp [blurQuery, Query.write, same]

theorem blur_start (query : Query SyncSnapshot) (base : Option SyncSnapshot) :
    blurQuery own (query.start base) = blurQuery own ((blurQuery own query).start base) := by
  obtain ⟨data, mark, active, fetch⟩ := query
  cases fetch <;> cases data <;> simp [blurQuery, Query.start]

theorem blur_invalidate (query : Query SyncSnapshot) :
    blurQuery own query.invalidate = blurQuery own (blurQuery own query).invalidate := by
  obtain ⟨data, mark, active, fetch⟩ := query
  cases active <;> cases fetch <;> cases data <;>
    simp [blurQuery, Query.invalidate, Query.start]

theorem blur_receive (query : Query SyncSnapshot) (snapshot : SyncSnapshot) :
    (query.receive (fun _ => snapshot)).map (blurQuery own) =
      ((blurQuery own query).receive (fun _ => snapshot)).map (blurQuery own) := by
  obtain ⟨data, mark, active, fetch⟩ := query
  cases fetch <;> cases data <;> simp [blurQuery, Query.receive]

theorem blur_land (query : Query SyncSnapshot) :
    query.land.map (blurQuery own) = (blurQuery own query).land.map (blurQuery own) := by
  obtain ⟨data, mark, active, fetch⟩ := query
  cases fetch <;> simp [blurQuery, Query.land]

/-- An updater that respects the blurred snapshot respects the blurred engine. -/
theorem blur_update {updater : SyncSnapshot → SyncSnapshot}
    (respects : ∀ snapshot, blur own (updater snapshot) = blur own (updater (blur own snapshot)))
    (engine : Engine) :
    blurEngine own (engine.updateSync updater) =
      blurEngine own ((blurEngine own engine).updateSync updater) := by
  unfold Engine.updateSync
  cases data : engine.sync.data with
  | none =>
    have none : (blurEngine own engine).sync.data = none := by simp [blurEngine, blurQuery, data]
    simp only [none, blur_engine_blur]
  | some old =>
    have some : (blurEngine own engine).sync.data = some (blur own old) := by
      simp [blurEngine, blurQuery, data]
    simp only [some]
    exact blur_set_same own engine (blur_write own engine.sync (respects old))

/-- A message leaves the cached snapshot alone. -/
theorem blur_message (engine : Engine) (sessionId : String) (msgSeq : Nat)
    (localId : Option String) (content : EncryptedBox) (ts : Int) :
    blurEngine own (engine.applyMessageFastPath sessionId msgSeq localId content ts) =
      (blurEngine own engine).applyMessageFastPath sessionId msgSeq localId content ts := by
  have trackers : (blurEngine own engine).lastMsgSeq = engine.lastMsgSeq := rfl
  have queries : (blurEngine own engine).messages = engine.messages := rfl
  simp only [Engine.applyMessageFastPath, trackers, queries]
  cases engine.lastMsgSeq sessionId with
  | none => rfl
  | some known =>
    dsimp only
    split
    · rfl
    · split
      · rfl
      · cases (engine.messages sessionId).data <;> rfl

/-- An update respects the blurred engine. -/
theorem blur_handle (engine : Engine) (update : Update) :
    blurEngine own (engine.handleUpdate update) =
      blurEngine own ((blurEngine own engine).handleUpdate update) := by
  have gap : blurEngine own (engine.setSync engine.sync.invalidate) = blurEngine own
      ((blurEngine own engine).setSync (blurEngine own engine).sync.invalidate) :=
    blur_set_same own engine (blur_invalidate own engine.sync)
  have structural (body : UpdateBody) (seq : Nat) :
      blurEngine own (engine.applyStructural body seq) =
        blurEngine own ((blurEngine own engine).applyStructural body seq) :=
    blur_update own (blur_patch own body seq) engine
  have next (body : UpdateBody) (seq : Nat) :
      blurEngine own { engine.applyStructural body seq with lastHeaderSeq := some seq } =
        blurEngine own { (blurEngine own engine).applyStructural body seq with
          lastHeaderSeq := some seq } := by
    have same := structural body seq
    simp only [blurEngine, Engine.mk.injEq] at same ⊢
    exact ⟨trivial, same.2⟩
  have continues : (blurEngine own engine).continues update = engine.continues update := rfl
  cases body : update.body with
  | messageNew sessionId msgSeq localId content =>
    simp only [Engine.handleUpdate, body]
    rw [← blur_message, blur_engine_blur]
  | sessionNew | sessionUpdate | sessionDelete | machineNew | machineUpdate | unmanagedNew
  | unmanagedUpdate | workspaceNew | workspaceUpdate | accountUpdate =>
    simp only [Engine.handleUpdate, body, continues]
    cases update.seq with
    | none => exact gap
    | some seq =>
      cases engine.continues update with
      | true => exact next _ seq
      | false => exact gap

/-- A reconnect respects the blurred engine. -/
theorem blur_reconnect (engine : Engine) :
    blurEngine own engine.handleReconnect =
      blurEngine own (blurEngine own engine).handleReconnect := by
  have gap : blurEngine own (engine.setSync engine.sync.invalidate) = blurEngine own
      ((blurEngine own engine).setSync (blurEngine own engine).sync.invalidate) :=
    blur_set_same own engine (blur_invalidate own engine.sync)
  unfold Engine.handleReconnect
  simp only [blurEngine, Engine.mk.injEq] at gap ⊢
  exact ⟨gap.1, trivial, gap.2.2.1, trivial⟩

end Mutations
end Kvy.Web.Sync
