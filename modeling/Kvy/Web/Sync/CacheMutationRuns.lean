import Kvy.Web.Sync.CacheMutations
import Kvy.Web.Sync.HeaderFold

/-!
# Archives and metadata writes over whole runs

After a callback of a mutation has written the cache, every row is at least as new as
before, and a failed archive leaves the cache as it would be had the archive never patched
it. Both hold exactly when what happens while an archive that fails is under way leaves the
snapshot it started from, and when a metadata write brings no older version than is cached.
-/

namespace Kvy.Web.Sync.Mutations

open General Wire Server.App

/-! ## Events respect what is seen without an archive -/

variable {event : Event}

section Views

variable (own : Option String) (mutation : Nat)

@[simp] theorem view_archives (archives : List Archive) :
    (Keyed.delete Archive.mutation mutation
        ((Keyed.delete Archive.mutation mutation archives).map (blurArchive own))).map
          (blurArchive own) =
      (Keyed.delete Archive.mutation mutation archives).map (blurArchive own) := by
  have keeps (archive : Archive) : (blurArchive own archive).mutation = archive.mutation := rfl
  rw [← Keyed.map_delete keeps]
  simp [Keyed.delete, blurArchive, Function.comp_def]

@[simp] theorem view_past (past : List Event) (event : Event) :
    (past.filter (fun event => !event.isOf mutation) ++ [event]).filter
        (fun event => !event.isOf mutation) =
      (past ++ [event]).filter (fun event => !event.isOf mutation) := by
  simp

/-- A step that only changes the engine respects the view if the change does. -/
theorem respects_engine (change : Engine → Option Engine)
    (steps : ∀ client : Client, client.advance event =
      (change client.engine).map (fun engine => { client with engine }))
    (respects : ∀ engine, (change engine).map (blurEngine own) =
      (change (blurEngine own engine)).map (blurEngine own)) :
    Runs.Respects Client.step (Client.view own mutation) event := by
  intro client
  have seen (past : List Event) (engine : Engine) :
      Client.view own mutation { client with engine, past } =
        Client.mk (blurEngine own engine)
          ((Keyed.delete Archive.mutation mutation client.archives).map (blurArchive own))
          client.patches (past.filter (fun event => !event.isOf mutation)) := rfl
  simp only [Client.step, steps, Option.map_map, Function.comp_def]
  have shape (past : List Event) (changed : Option Engine) :
      changed.map (fun engine => Client.view own mutation { client with engine, past }) =
        (changed.map (blurEngine own)).map (fun engine => Client.mk engine
          ((Keyed.delete Archive.mutation mutation client.archives).map (blurArchive own))
          client.patches (past.filter (fun event => !event.isOf mutation))) := by
    rw [Option.map_map]
    rfl
  rw [shape, respects client.engine, Option.map_map]
  simp only [Client.view, Function.comp_def, view_archives, view_past]

/-- Setting the query respects the view if the change of the query does. -/
theorem respects_query (change : Query SyncSnapshot → Option (Query SyncSnapshot))
    (steps : ∀ client : Client, client.advance event = (change client.engine.sync).map
      (fun query => { client with engine := client.engine.setSync query }))
    (respects : ∀ query, (change query).map (blurQuery own) =
      (change (blurQuery own query)).map (blurQuery own)) :
    Runs.Respects Client.step (Client.view own mutation) event := by
  apply respects_engine own mutation (fun engine => (change engine.sync).map engine.setSync)
  · intro client
    rw [steps, Option.map_map]
    rfl
  · intro engine
    have blurred : (blurEngine own engine).sync = blurQuery own engine.sync := rfl
    simp only [Option.map_map, Function.comp_def, blur_set, blur_engine_blur, blurred]
    have both := congrArg (Option.map (blurEngine own engine).setSync) (respects engine.sync)
    simpa only [Option.map_map, Function.comp_def] using both

variable {other : Nat}

/-- An archive that is under way is found under its number, but for the one left out. -/
theorem find_view (apart : other ≠ mutation) (archives : List Archive) :
    Keyed.find? Archive.mutation other
        ((Keyed.delete Archive.mutation mutation archives).map (blurArchive own)) =
      (Keyed.find? Archive.mutation other archives).map (blurArchive own) := by
  have keeps (archive : Archive) : (blurArchive own archive).mutation = archive.mutation := rfl
  rw [Keyed.find_map keeps, Keyed.find_delete, if_neg apart]

/-- Taking two archives off in either order. -/
theorem delete_view (other : Nat) (archives : List Archive) :
    (Keyed.delete Archive.mutation mutation (Keyed.delete Archive.mutation other
        ((Keyed.delete Archive.mutation mutation archives).map (blurArchive own)))).map
          (blurArchive own) =
      (Keyed.delete Archive.mutation mutation (Keyed.delete Archive.mutation other archives)).map
        (blurArchive own) := by
  have keeps (archive : Archive) : (blurArchive own archive).mutation = archive.mutation := rfl
  have swap (rows : List Archive) : Keyed.delete Archive.mutation mutation
      (Keyed.delete Archive.mutation other rows) = Keyed.delete Archive.mutation other
        (Keyed.delete Archive.mutation mutation rows) := by
    simp only [Keyed.delete, List.filter_filter, Bool.and_comm]
  rw [swap, Keyed.map_delete keeps, view_archives, ← Keyed.map_delete keeps, swap]

/-- Another archive is seen. -/
theorem view_append (apart : other ≠ mutation) (archives : List Archive)
    (sessionId : String) (previous : Option SyncSnapshot) :
    (Keyed.delete Archive.mutation mutation
        (archives ++ [Archive.mk other sessionId previous])).map (blurArchive own) =
      (Keyed.delete Archive.mutation mutation archives).map (blurArchive own) ++
        [Archive.mk other sessionId (previous.map (blur own))] := by
  simp [Keyed.delete, apart, blurArchive]

/-- What is put back is blurred as the context was. -/
theorem blur_put_back (client : Client) (archive : Archive) :
    blurEngine own (client.putBack archive) =
      blurEngine own ((client.view own mutation).putBack (blurArchive own archive)) := by
  cases previous : archive.previous with
  | none => simp [Client.putBack, blurArchive, previous, Client.view]
  | some snapshot =>
    simp only [Client.putBack, blurArchive, previous, Option.map_some, Client.view]
    exact blur_set_same own client.engine
      (blur_write own client.engine.sync (blur_blur own snapshot).symm)

theorem past_any (apart : other ≠ mutation) (past : List Event) :
    (past.filter (fun event => !event.isOf mutation)).any (Event.isOf other) =
      past.any (Event.isOf other) := by
  rw [List.any_filter]
  congr 1
  funext event
  cases event <;> simp [Event.isOf]
  all_goals
    intro same
    exact fun mine => apart (same.symm.trans mine)

/-- Another archive respects the view. -/
theorem respects_archive (apart : other ≠ mutation) (sessionId : String) :
    Runs.Respects Client.step (Client.view own mutation) (.archive other sessionId) := by
  intro client
  have seen : (client.view own mutation).past.any (Event.isOf other) =
      client.past.any (Event.isOf other) := past_any mutation apart client.past
  simp only [Client.step, Client.advance, seen]
  split
  · rfl
  · simp only [Option.map_some, Client.view, Option.some.injEq, Client.mk.injEq, view_past,
      and_true]
    refine ⟨blur_update own (blur_archive own sessionId) client.engine, ?_⟩
    rw [view_append own mutation apart, view_append own mutation apart, view_archives]
    cases cached : client.engine.sync.data with
    | none => simp [Client.data, cached, blurEngine, blurQuery]
    | some snapshot => simp [Client.data, cached, blurEngine, blurQuery]

/-- The end of another archive respects the view. -/
theorem respects_archived (apart : other ≠ mutation) :
    Runs.Respects Client.step (Client.view own mutation) (.archived other) := by
  intro client
  have found : Keyed.find? Archive.mutation other (client.view own mutation).archives =
      (Keyed.find? Archive.mutation other client.archives).map (blurArchive own) :=
    find_view own mutation apart client.archives
  simp only [Client.step, Client.advance, found, Option.map_map]
  congr 1
  funext archive
  simp only [Function.comp_apply, Client.view, blur_engine_blur, view_past, delete_view]

/-- The failure of another archive respects the view. -/
theorem respects_failed (apart : other ≠ mutation) :
    Runs.Respects Client.step (Client.view own mutation) (.archiveFailed other) := by
  intro client
  have found : Keyed.find? Archive.mutation other (client.view own mutation).archives =
      (Keyed.find? Archive.mutation other client.archives).map (blurArchive own) :=
    find_view own mutation apart client.archives
  simp only [Client.step, Client.advance, found, Option.map_map]
  congr 1
  funext archive
  have back := blur_put_back own mutation client archive
  simp only [Client.view] at back
  simp only [Function.comp_apply, Client.view, back, view_past, delete_view]

/-- The start of a metadata write respects the view. -/
theorem respects_patch (write : Nat) (sessionId : String) :
    Runs.Respects Client.step (Client.view own mutation) (.patch write sessionId) := by
  intro client
  have seen : (client.view own mutation).holds sessionId = client.holds sessionId := by
    unfold Client.holds Client.data Client.view blurEngine blurQuery
    cases client.engine.sync.data with
    | none => rfl
    | some snapshot => simp [blur, Keyed.find_map (blur_row_id own)]
  simp only [Client.step, Client.advance, seen]
  split
  · simp only [Option.map_some, Client.view, blur_engine_blur, view_archives, view_past]
  · rfl

/-- The end of a metadata write respects the view. -/
theorem respects_patched (write : Nat) (result : Versioned EncryptedBox) :
    Runs.Respects Client.step (Client.view own mutation) (.patched write result) := by
  intro client
  simp only [Client.step, Client.advance, Client.view, Option.map_map]
  congr 1
  funext patch
  have written := blur_update own (blur_metadata own patch.sessionId result) client.engine
  simp only [Function.comp_apply, Client.view, written, view_archives, view_past]

/-- The failure of a metadata write respects the view. -/
theorem respects_patch_failed (write : Nat) :
    Runs.Respects Client.step (Client.view own mutation) (.patchFailed write) := by
  intro client
  simp only [Client.step, Client.advance, Client.view, Option.map_map]
  congr 1
  funext patch
  simp only [Function.comp_apply, Client.view, blur_engine_blur, view_archives, view_past]

/-- Every event that is not of the archive respects what is seen without it. -/
theorem respects_others (apart : event.isOf mutation = false) :
    Runs.Respects Client.step (Client.view own mutation) event := by
  cases event with
  | deliver update =>
    exact respects_engine own mutation (fun engine => some (engine.handleUpdate update))
      (fun _ => rfl) (fun engine => congrArg some (blur_handle own engine update))
  | reconnect =>
    exact respects_engine own mutation (fun engine => some engine.handleReconnect)
      (fun _ => rfl) (fun engine => congrArg some (blur_reconnect own engine))
  | useSync active =>
    exact respects_query own mutation (fun query => some { query with active })
      (fun _ => rfl) (fun query => by simp [blurQuery, Function.comp_def])
  | startSync =>
    exact respects_query own mutation (fun query => some (query.start none))
      (fun _ => rfl) (fun query => congrArg some (blur_start own query none))
  | readSync snapshot =>
    exact respects_query own mutation (fun query => query.receive (fun _ => snapshot))
      (fun _ => rfl) (fun query => blur_receive own query snapshot)
  | landSync =>
    exact respects_query own mutation Query.land (fun _ => rfl) (blur_land own)
  | archive other sessionId =>
    exact respects_archive own mutation (by simpa [Event.isOf] using apart) sessionId
  | archived other => exact respects_archived own mutation (by simpa [Event.isOf] using apart)
  | archiveFailed other => exact respects_failed own mutation (by simpa [Event.isOf] using apart)
  | patch write sessionId => exact respects_patch own mutation write sessionId
  | patched write result => exact respects_patched own mutation write result
  | patchFailed write => exact respects_patch_failed own mutation write

end Views

/-! ## What is asked of a run -/

/-- A session row at least as new as another: the same but for metadata of no older version and,
for the session of an archive, the status. -/
def RowKept (own : Option String) (row after : SessionRow) : Prop :=
  row.metadata.version ≤ after.metadata.version ∧
    (own ≠ some row.id → after.status = row.status) ∧
      { after with metadata := row.metadata, status := row.status } = row

/-- Every row of the snapshot is at least as new as before. -/
structure AtLeastAsNew (own : Option String) (before after : SyncSnapshot) : Prop where
  headerSeq : after.headerSeq = before.headerSeq
  accountKeyEpoch : after.accountKeyEpoch = before.accountKeyEpoch
  sessions : List.Forall₂ (RowKept own) before.sessions after.sessions
  machines : after.machines = before.machines
  unmanagedSessions : after.unmanagedSessions = before.unmanagedSessions
  workspaces : after.workspaces = before.workspaces

/-- The cached snapshot is at least as new as before. -/
def Newer (own : Option String) : Option SyncSnapshot → Option SyncSnapshot → Prop
  | none, none => True
  | some before, some after => AtLeastAsNew own before after
  | _, _ => False

/-- The events that are not of an archive. -/
def without (mutation : Nat) (past : List Event) : List Event :=
  past.filter (fun event => !event.isOf mutation)

/-- The events before an archive. -/
def before (mutation : Nat) (past : List Event) : List Event :=
  past.takeWhile (fun event => !event.isOf mutation)

section Runs

variable (sync : Query SyncSnapshot) (messages : String → Query MessagesQueryData)

/-- What the cache holds after events. -/
def cachedAfter (events : List Event) : Option SyncSnapshot :=
  (Runs.run Client.step (start sync messages) events).bind Client.data

/-- After a callback has written the cache, every row is at least as new as before; and a failed
archive leaves the cache as the same events without the archive do. -/
def KeepsUpdates (client : Client) (event : Event) (next : Client) : Prop :=
  match event with
  | .archive _ sessionId => Newer (some sessionId) client.data next.data
  | .archived _ | .patched _ _ | .patchFailed _ => Newer none client.data next.data
  | .archiveFailed mutation =>
    (∀ archive, Keyed.find? Archive.mutation mutation client.archives = some archive →
      Newer (some archive.sessionId) client.data next.data) ∧
      next.data = cachedAfter sync messages (without mutation client.past)
  | _ => True

/-- When an archive fails, the events since it began lead, without it, to the snapshot that was
cached when it began, if one was; and a metadata write brings no older version than is cached. -/
def Undisturbed (client : Client) (event : Event) : Prop :=
  match event with
  | .archiveFailed mutation =>
    ∀ snapshot, cachedAfter sync messages (before mutation client.past) = some snapshot →
      cachedAfter sync messages (without mutation client.past) = some snapshot
  | .patched mutation result =>
    ∀ patch, Keyed.find? Patch.mutation mutation client.patches = some patch →
      ∀ snapshot, client.data = some snapshot → ∀ row ∈ snapshot.sessions,
        row.id = patch.sessionId → row.metadata.version ≤ result.version
  | _ => True

end Runs

/-! ## At least as new -/

theorem row_kept_refl (own : Option String) (row : SessionRow) : RowKept own row row :=
  ⟨Nat.le_refl _, fun _ => rfl, rfl⟩

theorem newer_refl (own : Option String) (data : Option SyncSnapshot) : Newer own data data := by
  cases data with
  | none => trivial
  | some snapshot =>
    exact ⟨rfl, rfl, List.forall₂_same.mpr (fun row _ => row_kept_refl own row), rfl, rfl, rfl⟩

/-- Rows that are blurred alike differ in the status of the session alone. -/
theorem row_kept_of_blur {own : Option String} {row after : SessionRow}
    (same : blurRow own row = blurRow own after) : RowKept own row after := by
  have ids : row.id = after.id := by
    rw [← blur_row_id own row, same, blur_row_id]
  by_cases mine : own = some row.id
  · have alike : withStatus .active row = withStatus .active after := by
      simpa [blurRow, mine, ← ids] using same
    obtain ⟨-, -, -, -, -, -, -, -, metadata, -⟩ := SessionRow.mk.inj alike
    refine ⟨Nat.le_of_eq (congrArg Versioned.version metadata), fun apart => absurd mine apart, ?_⟩
    have restored := congrArg (fun kept => { kept with status := row.status }) alike
    rw [metadata]
    exact restored.symm
  · have equal : row = after := by simpa [blurRow, mine, ← ids] using same
    subst equal
    exact row_kept_refl own row

/-- Snapshots that are blurred alike are as new as each other. -/
theorem newer_of_blur {own : Option String} {data after : Option SyncSnapshot}
    (same : data.map (blur own) = after.map (blur own)) : Newer own data after := by
  cases data with
  | none =>
    cases after with
    | none => trivial
    | some after => contradiction
  | some snapshot =>
    cases after with
    | none => contradiction
    | some after =>
      obtain ⟨header, epoch, sessions, machines, unmanaged, workspaces⟩ :=
        SyncSnapshot.mk.inj (Option.some.inj same)
      refine ⟨header.symm, epoch.symm, ?_, machines.symm, unmanaged.symm, workspaces.symm⟩
      have rows : List.Forall₂ (fun row after => blurRow own row = blurRow own after)
          snapshot.sessions after.sessions := by
        rw [← List.forall₂_eq_eq_eq, List.forall₂_map_left_iff, List.forall₂_map_right_iff]
          at sessions
        exact sessions
      exact rows.imp (fun _ _ => row_kept_of_blur)

/-- An archive patches the status of its session alone. -/
theorem newer_archive (sessionId : String) (data : Option SyncSnapshot) :
    Newer (some sessionId) data (data.map (archiveInCache sessionId)) := by
  apply newer_of_blur
  rw [Option.map_map]
  congr 1
  funext snapshot
  exact (blur_archived sessionId snapshot).symm

/-- Written metadata is at least as new exactly if no cached row of the session is newer. -/
theorem newer_metadata (sessionId : String) (result : Versioned EncryptedBox)
    (data : Option SyncSnapshot) :
    Newer none data (data.map (writeMetadata sessionId result)) ↔
      ∀ snapshot, data = some snapshot → ∀ row ∈ snapshot.sessions, row.id = sessionId →
        row.metadata.version ≤ result.version := by
  cases data with
  | none => simp [Newer]
  | some snapshot =>
    simp only [Option.map_some, Newer, Option.some.injEq, forall_eq']
    constructor
    · intro newer row member mine
      have rows := newer.sessions
      simp only [writeMetadata, Keyed.modify, List.forall₂_map_right_iff, List.forall₂_same] at rows
      have kept := (rows row member).1
      simpa [mine, withMetadata] using kept
    · intro versions
      refine ⟨rfl, rfl, ?_, rfl, rfl, rfl⟩
      simp only [writeMetadata, Keyed.modify, List.forall₂_map_right_iff, List.forall₂_same]
      intro row member
      split
      · rename_i mine
        exact ⟨versions row member mine, fun _ => rfl, rfl⟩
      · exact row_kept_refl none row

/-! ## What a client remembers of its run -/

variable {sync : Query SyncSnapshot} {messages : String → Query MessagesQueryData}

/-- An archive under way began once, on the snapshot that it keeps, and nothing of it has
happened since. -/
structure BeganIn (sync : Query SyncSnapshot) (messages : String → Query MessagesQueryData)
    (past : List Event) (archive : Archive) (earlier later : List Event) : Prop where
  order : past = earlier ++ .archive archive.mutation archive.sessionId :: later
  fresh : earlier.any (Event.isOf archive.mutation) = false
  since : later.any (Event.isOf archive.mutation) = false
  kept : ∃ client, Runs.run Client.step (start sync messages) earlier = some client ∧
    client.data = archive.previous

/-- A client whose past led to it, whose engine stands at the cached snapshot, and whose
archives began in its past. -/
structure Traced (sync : Query SyncSnapshot) (messages : String → Query MessagesQueryData)
    (client : Client) : Prop where
  ran : Runs.run Client.step (start sync messages) client.past = some client
  tracker : ∀ snapshot, client.data = some snapshot →
    client.engine.lastHeaderSeq = some snapshot.headerSeq
  began : ∀ archive ∈ client.archives, ∃ earlier later,
    BeganIn sync messages client.past archive earlier later

theorem traced_start : Traced sync messages (start sync messages) where
  ran := rfl
  tracker := by
    intro snapshot cached
    have held : sync.data = some snapshot := cached
    simp [start, Engine.create, held]
  began := by simp [start]

/-- An engine that stands at its cached snapshot. -/
def Standing (engine : Engine) : Prop :=
  ∀ snapshot, engine.sync.data = some snapshot → engine.lastHeaderSeq = some snapshot.headerSeq

theorem standing_set (engine : Engine) (query : Query SyncSnapshot) :
    Standing (engine.setSync query) := by
  intro snapshot cached
  have held : query.data = some snapshot := cached
  simp [Engine.setSync, held]

theorem standing_update {engine : Engine} (stands : Standing engine)
    (updater : SyncSnapshot → SyncSnapshot) : Standing (engine.updateSync updater) := by
  unfold Engine.updateSync
  split
  · exact stands
  · exact standing_set engine _

/-- An update leaves the engine at its cached snapshot. -/
theorem standing_handle {engine : Engine} (stands : Standing engine) (update : Update) :
    Standing (engine.handleUpdate update) := by
  cases message : update.body.isMessage with
  | true =>
    obtain ⟨same, tracker⟩ := handle_message engine update message
    unfold Standing
    rw [same, tracker]
    exact stands
  | false =>
    cases next : engine.continues update with
    | false =>
      rw [handle_gap engine update message next]
      exact standing_set engine _
    | true =>
      cases number : update.seq with
      | none => simp [Engine.continues, number] at next
      | some seq =>
        rw [handle_next engine update message number next]
        intro snapshot cached
        cases held : engine.sync.data with
        | none =>
          have empty : (engine.applyStructural update.body seq).sync.data = none := by
            simp [Engine.applyStructural, held]
          simp [empty] at cached
        | some old =>
          have patched : some (patchSnapshot update.body seq old) = some snapshot := by
            simpa [Engine.applyStructural, held, Engine.setSync, Query.write] using cached
          rw [← Option.some.inj patched, patch_header_seq]

variable {client next : Client}

/-- Every event leaves the engine at its cached snapshot. -/
theorem standing_advance (stands : Standing client.engine)
    (taken : client.advance event = some next) : Standing next.engine := by
  cases event with
  | deliver update =>
    cases taken
    exact standing_handle stands update
  | reconnect =>
    cases taken
    exact standing_set client.engine _
  | useSync active | startSync =>
    cases taken
    exact standing_set client.engine _
  | readSync | landSync =>
    obtain ⟨query, -, rfl⟩ := Option.map_eq_some_iff.mp taken
    exact standing_set client.engine query
  | archive mutation sessionId =>
    simp only [Client.advance, Option.ite_none_left_eq_some, Option.some.injEq] at taken
    obtain ⟨-, rfl⟩ := taken
    exact standing_update stands _
  | archived mutation =>
    obtain ⟨archive, -, rfl⟩ := Option.map_eq_some_iff.mp taken
    exact stands
  | archiveFailed mutation =>
    obtain ⟨archive, -, rfl⟩ := Option.map_eq_some_iff.mp taken
    simp only [Client.putBack]
    split
    · exact stands
    · exact standing_set client.engine _
  | patch write sessionId =>
    simp only [Client.advance, Option.ite_none_right_eq_some, Option.some.injEq] at taken
    obtain ⟨-, rfl⟩ := taken
    exact stands
  | patched write result =>
    obtain ⟨patch, -, rfl⟩ := Option.map_eq_some_iff.mp taken
    exact standing_update stands _
  | patchFailed write =>
    obtain ⟨patch, -, rfl⟩ := Option.map_eq_some_iff.mp taken
    exact stands

variable {archive : Archive} {earlier later : List Event}

/-- An archive goes on while nothing of it happens. -/
theorem BeganIn.extend
    {past : List Event}     (began : BeganIn sync messages past archive earlier later)
    (apart : event.isOf archive.mutation = false) :
    BeganIn sync messages (past ++ [event]) archive earlier (later ++ [event]) where
  order := by rw [began.order]; simp
  fresh := began.fresh
  since := by simp [began.since, apart]
  kept := began.kept

/-- An archive that still goes on after an event went on before, and the event is not of it; or
it begins with the event. -/
theorem archives_advance
    (taken : client.advance event = some next) (member : archive ∈ next.archives) :
    (archive ∈ client.archives ∧ (event.isOf archive.mutation = false ∨
      client.past.any (Event.isOf archive.mutation) = false)) ∨
      (event = .archive archive.mutation archive.sessionId ∧ archive.previous = client.data ∧
        client.past.any (Event.isOf archive.mutation) = false) := by
  cases event with
  | deliver | reconnect | useSync | startSync =>
    cases taken
    exact .inl ⟨member, .inl rfl⟩
  | readSync | landSync =>
    obtain ⟨query, -, rfl⟩ := Option.map_eq_some_iff.mp taken
    exact .inl ⟨member, .inl rfl⟩
  | archive mutation sessionId =>
    simp only [Client.advance, Option.ite_none_left_eq_some, Option.some.injEq] at taken
    obtain ⟨fresh, rfl⟩ := taken
    have unused : client.past.any (Event.isOf mutation) = false := by simpa using fresh
    rcases List.mem_append.mp member with old | new
    · by_cases same : archive.mutation = mutation
      · exact .inl ⟨old, .inr (same ▸ unused)⟩
      · exact .inl ⟨old, .inl (by simpa [Event.isOf] using Ne.symm same)⟩
    · obtain rfl := List.mem_singleton.mp new
      exact .inr ⟨rfl, rfl, unused⟩
  | archived mutation | archiveFailed mutation =>
    obtain ⟨held, -, rfl⟩ := Option.map_eq_some_iff.mp taken
    obtain ⟨old, apart⟩ := List.mem_filter.mp member
    have other : mutation ≠ archive.mutation := Ne.symm (by simpa using apart)
    exact .inl ⟨old, .inl (by simpa [Event.isOf] using other)⟩
  | patch write sessionId =>
    simp only [Client.advance, Option.ite_none_right_eq_some, Option.some.injEq] at taken
    obtain ⟨-, rfl⟩ := taken
    exact .inl ⟨member, .inl rfl⟩
  | patched | patchFailed =>
    obtain ⟨patch, -, rfl⟩ := Option.map_eq_some_iff.mp taken
    exact .inl ⟨member, .inl rfl⟩

/-- What has begun in the past is found there. -/
theorem BeganIn.past_any {past : List Event}
    (began : BeganIn sync messages past archive earlier later) :
    past.any (Event.isOf archive.mutation) = true := by
  rw [began.order]
  simp [Event.isOf]

/-- Every step keeps what a client remembers. -/
theorem Traced.step (traced : Traced sync messages client)
    (taken : client.step event = some next) : Traced sync messages next := by
  obtain ⟨advanced, moved, rfl⟩ := Option.map_eq_some_iff.mp taken
  have stands : Standing advanced.engine := standing_advance traced.tracker moved
  refine ⟨?_, stands, ?_⟩
  · rw [Runs.run_append, traced.ran, Option.bind_some, Runs.run, taken]
    rfl
  · intro archive member
    rcases archives_advance moved member with ⟨old, goesOn⟩ | ⟨rfl, kept, fresh⟩
    · obtain ⟨earlier, later, began⟩ := traced.began archive old
      have apart : event.isOf archive.mutation = false := by
        rcases goesOn with apart | fresh
        · exact apart
        · rw [began.past_any] at fresh
          contradiction
      exact ⟨earlier, later ++ [event], began.extend apart⟩
    · exact ⟨client.past, [], rfl, fresh, rfl, client, traced.ran, kept.symm⟩

/-! ## A failed archive -/

/-- The session whose status an archive has patched: its own, if there was a snapshot. -/
def patchedBy (archive : Archive) : Option String :=
  archive.previous.map (fun _ => archive.sessionId)

/-- The beginning of an archive changes nothing but the status of its session. -/
theorem view_begin {mutation : Nat} {sessionId : String}
    (stands : Standing client.engine) (taken : client.step (.archive mutation sessionId) = some next) :
    client.view (client.data.map (fun _ => sessionId)) mutation =
      next.view (client.data.map (fun _ => sessionId)) mutation := by
  obtain ⟨advanced, moved, rfl⟩ := Option.map_eq_some_iff.mp taken
  simp only [Client.advance, Option.ite_none_left_eq_some, Option.some.injEq] at moved
  obtain ⟨-, rfl⟩ := moved
  have archives (previous : Option SyncSnapshot) : Keyed.delete Archive.mutation mutation
      (client.archives ++ [Archive.mk mutation sessionId previous]) =
        Keyed.delete Archive.mutation mutation client.archives := by
    simp [Keyed.delete]
  have past : (client.past ++ [Event.archive mutation sessionId]).filter
      (fun event => !event.isOf mutation) =
        client.past.filter (fun event => !event.isOf mutation) := by
    simp [Event.isOf]
  simp only [Client.view, archives, past, Client.mk.injEq, and_true]
  cases cached : client.engine.sync.data with
  | none => simp [Client.data, cached, Engine.updateSync]
  | some snapshot =>
    simp only [Client.data, cached, Option.map_some, Engine.updateSync]
    rw [blur_set]
    simp only [blurEngine, blurQuery, Query.write, Engine.setSync, cached, Option.map_some,
      blur_archived, blur_header, Option.some_or, Engine.mk.injEq, and_true]
    exact stands snapshot cached

/-- Without an archive under way, its client looks the same but for what the archive patched. -/
theorem BeganIn.reference (began : BeganIn sync messages client.past archive earlier later)
    (traced : Traced sync messages client) :
    ∃ other, Runs.run Client.step (start sync messages) (without archive.mutation client.past) =
        some other ∧
      client.view (patchedBy archive) archive.mutation =
        other.view (patchedBy archive) archive.mutation := by
  obtain ⟨first, ranEarlier, kept⟩ := began.kept
  have ran := traced.ran
  rw [began.order, Runs.run_append, ranEarlier, Option.bind_some] at ran
  obtain ⟨patched, taken, ranLater⟩ := Option.bind_eq_some_iff.mp ran
  have firstTraced : Traced sync messages first :=
    Runs.run_invariant (Traced sync messages) (fun _ _ _ holds taken => holds.step taken)
      traced_start ranEarlier
  have looks := view_begin firstTraced.tracker taken
  rw [kept] at looks
  have others : ∀ event ∈ later, Runs.Respects Client.step
      (Client.view (patchedBy archive) archive.mutation) event := by
    intro event member
    apply respects_others
    exact Bool.eq_false_iff.mpr (List.any_eq_false.mp began.since event member)
  obtain ⟨other, reached, same⟩ := Runs.respects_run others looks.symm ranLater
  refine ⟨other, ?_, same⟩
  have split : without archive.mutation client.past = earlier ++ later := by
    rw [without, began.order, List.filter_append, List.filter_cons_of_neg (by simp [Event.isOf])]
    rw [List.filter_eq_self.mpr, List.filter_eq_self.mpr]
    · intro event member
      simpa using List.any_eq_false.mp began.since event member
    · intro event member
      simpa using List.any_eq_false.mp began.fresh event member
  rw [split, Runs.run_append, ranEarlier]
  exact reached

/-- What was cached when an archive under way began is what it keeps. -/
theorem BeganIn.cached_before {past : List Event}
    (began : BeganIn sync messages past archive earlier later) :
    cachedAfter sync messages (before archive.mutation past) = archive.previous := by
  obtain ⟨first, ranEarlier, kept⟩ := began.kept
  have taken : before archive.mutation past = earlier := by
    rw [before, began.order, List.takeWhile_append_of_pos]
    · simp [Event.isOf]
    · intro event member
      simpa using List.any_eq_false.mp began.fresh event member
  rw [taken, cachedAfter, ranEarlier, Option.bind_some, kept]

/-- A failed archive keeps the updates exactly if the events since it began lead, without it,
to the snapshot it began on. -/
theorem failed_iff {mutation : Nat} (traced : Traced sync messages client)
    (taken : client.step (.archiveFailed mutation) = some next) :
    KeepsUpdates sync messages client (.archiveFailed mutation) next ↔
      Undisturbed sync messages client (.archiveFailed mutation) := by
  obtain ⟨advanced, moved, rfl⟩ := Option.map_eq_some_iff.mp taken
  obtain ⟨archive, found, rfl⟩ := Option.map_eq_some_iff.mp moved
  obtain rfl : archive.mutation = mutation := Keyed.find_key _ found
  obtain ⟨earlier, later, began⟩ := traced.began archive (List.mem_of_find?_eq_some found)
  obtain ⟨other, reached, same⟩ := began.reference traced
  have reference : cachedAfter sync messages (without archive.mutation client.past) = other.data := by
    rw [cachedAfter, reached, Option.bind_some]
  have looks : client.data.map (blur (patchedBy archive)) =
      other.data.map (blur (patchedBy archive)) :=
    congrArg (fun seen : Client => seen.engine.sync.data) same
  simp only [KeepsUpdates, Undisturbed, found, Option.some.injEq, forall_eq', reference,
    began.cached_before]
  cases previous : archive.previous with
  | none =>
    have untouched : client.data = other.data := by
      simpa [patchedBy, previous] using looks
    simp only [Client.data, Client.putBack, previous, reduceCtorEq, false_implies, implies_true,
      iff_true]
    exact ⟨newer_refl _ _, untouched⟩
  | some snapshot =>
    simp only [Client.data, Client.putBack, previous, Option.some.injEq, forall_eq']
    constructor
    · rintro ⟨-, restored⟩
      exact restored.symm
    · intro unchanged
      refine ⟨newer_of_blur ?_, unchanged.symm⟩
      have patched : patchedBy archive = some archive.sessionId := by simp [patchedBy, previous]
      rw [patched] at looks
      exact looks.trans (congrArg (Option.map (blur (some archive.sessionId))) unchanged)

/-- A callback keeps the updates exactly if nothing disturbs it. -/
theorem keeps_iff (traced : Traced sync messages client) (taken : client.step event = some next) :
    KeepsUpdates sync messages client event next ↔ Undisturbed sync messages client event := by
  cases event with
  | archiveFailed mutation => exact failed_iff traced taken
  | patched write result =>
    obtain ⟨advanced, moved, rfl⟩ := Option.map_eq_some_iff.mp taken
    obtain ⟨patch, found, rfl⟩ := Option.map_eq_some_iff.mp moved
    simp only [KeepsUpdates, Undisturbed, found, Option.some.injEq, forall_eq', Client.data,
      Engine.update_data]
    exact newer_metadata patch.sessionId result client.engine.sync.data
  | archive mutation sessionId =>
    obtain ⟨advanced, moved, rfl⟩ := Option.map_eq_some_iff.mp taken
    simp only [Client.advance, Option.ite_none_left_eq_some, Option.some.injEq] at moved
    obtain ⟨-, rfl⟩ := moved
    simp only [KeepsUpdates, Undisturbed, Client.data, Engine.update_data, iff_true]
    exact newer_archive sessionId client.engine.sync.data
  | archived mutation | patchFailed mutation =>
    obtain ⟨advanced, moved, rfl⟩ := Option.map_eq_some_iff.mp taken
    obtain ⟨held, -, rfl⟩ := Option.map_eq_some_iff.mp moved
    exact iff_of_true (newer_refl none client.data) trivial
  | deliver | reconnect | useSync | startSync | readSync | landSync | patch =>
    exact Iff.rfl

/-- A cache with one session, which stands at the first update. -/
def oneSession : Query SyncSnapshot :=
  { Query.unused with data := some ⟨1, 0, [toSessionRow exampleRecord], [], [], []⟩ }

/-- A client on that cache. -/
def oneSessionClient : Client := start oneSession (fun _ => .unused)

/-- New metadata of the session. -/
def metadataUpdate (seq version : Nat) : Update :=
  ⟨some seq, 0, .sessionUpdate "session" { emptyPatch with metadata := some ⟨⟨"box"⟩, version⟩ }⟩

/-- The metadata that a client writes is delivered, and so is what another device writes after
it, before the answer to the first write arrives. -/
def beforeAnswer : List Event :=
  [.patch 1 "session", .deliver (metadataUpdate 2 2), .deliver (metadataUpdate 3 3)]

/-- Another session is created while an archive that fails is under way. -/
def beforeFailure : List Event :=
  [.archive 1 "session", .deliver ⟨some 2, 0, .sessionNew { toSessionRow exampleRecord with
    id := "other" }⟩]

/-- The sessions in the cache with the versions of their metadata. -/
def cachedVersions (data : Option SyncSnapshot) : List (String × Nat) :=
  (data.elim [] SyncSnapshot.sessions).map (fun row => (row.id, row.metadata.version))

/-- The versions of the metadata in a cache that is at least as new. -/
theorem newer_versions {own : Option String} {data after : Option SyncSnapshot}
    (newer : Newer own data after) :
    List.Forall₂ (fun old new => old.2 ≤ new.2) (cachedVersions data) (cachedVersions after) := by
  cases data with
  | none =>
    cases after with
    | none => exact List.Forall₂.nil
    | some after => exact newer.elim
  | some snapshot =>
    cases after with
    | none => exact newer.elim
    | some after =>
      simp only [cachedVersions, Option.elim, List.forall₂_map_left_iff, List.forall₂_map_right_iff]
      exact newer.sessions.imp (fun _ _ kept => kept.1)

end Kvy.Web.Sync.Mutations
