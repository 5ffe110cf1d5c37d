import Kvy.Cli.Api.SessionMetadata

/-!
# What the CLI leaves of a session's metadata

A version names one value of the metadata as long as it is the row's. The updater knows the value
of the version it knows, and each request carries the value of the version it expects with one
operation applied. So a request that succeeds replaces what the operation is about and nothing
else, as long as every conflict brings metadata that can be read.
-/

namespace Kvy.Cli.Api

open General General.Runs Wire Server.Db Server.App

/-! ## What is asked -/

/-- Only the model differs. -/
def OnlyModel (before after : SessionMetadataValue) : Prop :=
  ∀ key, key ≠ "model" → after.get? key = before.get? key

/-- Only the title and its source differ, and the title was not set by hand. -/
def OnlyTitle (before after : SessionMetadataValue) : Prop :=
  before.isString "titleSource" "manual" = false ∧
    ∀ key, key ≠ "title" → key ≠ "titleSource" → after.get? key = before.get? key

/-- A request that succeeds changes the model, or the title and its source, of the metadata that is
stored under the version it expects, taken in some form. -/
def Preserves (cipher : Cipher)
    (form : SessionMetadataValue → SessionMetadataValue)
    (updater : Updater) (event : MetadataEvent) (next : Updater) : Prop :=
  ∀ request now expectedVersion value row, event = .decide request now →
    updater.requests[request]? = some ⟨expectedVersion, value, none⟩ →
    updater.row = some row → row.metadataVersion = expectedVersion →
    next.row = some (CasField.metadata.set value now row) ∧
      ∃ before after, cipher.readMetadataFromBox row.metadata = some before ∧
        cipher.readMetadataFromBox value = some after ∧
        (OnlyModel (form before) after ∨ OnlyTitle (form before) after)

/-- A conflict that arrives brings metadata that can be read. -/
def ConflictsRead (cipher : Cipher) (updater : Updater) (event : MetadataEvent) : Prop :=
  ∀ operation next request expectedVersion value stored version, event = .answer →
    updater.running = some (operation, .sent next request) →
    updater.requests[request]? = some ⟨expectedVersion, value, some (.conflict stored version)⟩ →
    (cipher.readMetadataFromBox stored).isSome

/-! ## Metadata -/

/-- What is sealed is read. -/
theorem Cipher.reads_sealed (cipher : Cipher) (metadata : SessionMetadataValue) (nonce : Nat) :
    cipher.readMetadataFromBox (cipher.sealMetadata metadata nonce) = some metadata := by
  obtain ⟨⟨entries, keys⟩, distinct, accepted⟩ := metadata
  have object : (Json.obj entries).distinct = true := by
    simp only [Json.distinct, Bool.and_eq_true, decide_eq_true_eq, Json.distinct_fields_iff]
    exact ⟨keys, distinct⟩
  have parsed := Json.parse_stringify (.obj entries) 0 object
  have read : SessionMetadataValue.ofJson (.obj entries) = some ⟨⟨entries, keys⟩, distinct, accepted⟩ := by
    unfold SessionMetadataValue.ofJson
    dsimp only
    rw [dif_pos keys, dif_pos distinct, dif_pos accepted]
  simp only [Cipher.readMetadataFromBox, Cipher.sealMetadata, SessionMetadataValue.toJson,
    cipher.decrypts, parsed, Option.bind_eq_bind, Option.bind_some, read]

/-- The fields are the same, in whatever order. -/
def Same (first second : SessionMetadataValue) : Prop := ∀ key, first.get? key = second.get? key

/-- The fields that a normalized value has. -/
def Normalized (metadata : SessionMetadataValue) : Prop :=
  (metadata.get? "providerSessionId").isSome ∧ (metadata.get? "model").isSome

theorem get_normalize (metadata : SessionMetadataValue) (key : String) :
    (normalizeMetadata metadata).get? key =
      if key = "model" then some ((metadata.get? "model").getD .null)
      else if key = "providerSessionId" then
        some ((metadata.get? "providerSessionId").getD .null)
      else metadata.get? key := by
  simp [normalizeMetadata, SessionMetadataValue.withModelOrNull,
    SessionMetadataValue.withProviderOrNull]

theorem normalize_normalized (metadata : SessionMetadataValue) :
    Normalized (normalizeMetadata metadata) := by
  simp [Normalized, get_normalize]

theorem normalize_same {metadata : SessionMetadataValue} (normalized : Normalized metadata) :
    Same (normalizeMetadata metadata) metadata := by
  intro key
  obtain ⟨provider, hasProvider⟩ := Option.isSome_iff_exists.mp normalized.1
  obtain ⟨model, hasModel⟩ := Option.isSome_iff_exists.mp normalized.2
  rw [get_normalize]
  split
  · simp [*]
  · split <;> simp [*]

/-- A string field is read from the fields alone. -/
theorem Same.isString {first second : SessionMetadataValue} (same : Same first second)
    (key text : String) : first.isString key text = second.isString key text := by
  unfold SessionMetadataValue.isString
  rw [same key]

variable {next : SessionMetadataValue} {operation : Operation}

/-- An operation changes the model, or the title and its source. -/
theorem computeNext_only {current : SessionMetadataValue}
    (computed : operation.computeNext current = some next) :
    OnlyModel current next ∨ OnlyTitle current next := by
  cases operation with
  | model text =>
    simp only [Operation.computeNext] at computed
    split at computed
    · contradiction
    · cases computed
      exact Or.inl (fun key other => by simp [other])
  | title text =>
    simp only [Operation.computeNext] at computed
    split at computed
    · contradiction
    · rename_i derived
      split at computed
      · contradiction
      · cases computed
        exact Or.inr ⟨by simpa using derived, fun key notTitle notSource => by
          simp [notTitle, notSource]⟩

/-- An operation on normalized metadata gives normalized metadata. -/
theorem computeNext_normalized {current : SessionMetadataValue}
    (computed : operation.computeNext current = some next) (normalized : Normalized current) :
    Normalized next := by
  cases operation with
  | model text =>
    simp only [Operation.computeNext] at computed
    split at computed
    · contradiction
    · cases computed
      simpa [Normalized] using normalized.1
  | title text =>
    simp only [Operation.computeNext] at computed
    split at computed
    · contradiction
    · split at computed
      · contradiction
      · cases computed
        simpa [Normalized] using normalized

/-- What an operation leaves of some metadata it leaves of any with the same fields. -/
theorem only_same {first second after : SessionMetadataValue} (same : Same first second)
    (only : OnlyModel second after ∨ OnlyTitle second after) :
    OnlyModel first after ∨ OnlyTitle first after := by
  rcases only with only | ⟨derived, only⟩
  · exact Or.inl (fun key other => (only key other).trans (same key).symm)
  · exact Or.inr ⟨(same.isString _ _).trans derived, fun key notTitle notSource =>
      (only key notTitle notSource).trans (same key).symm⟩

/-! ## Versions -/

/-- The row has not gone back behind a version, and holds this box while it is at it. -/
def At (row : Option SessionRecord) (version : Nat) (box : EncryptedBox) : Prop :=
  ∀ held, row = some held →
    version ≤ held.metadataVersion ∧ (held.metadataVersion = version → held.metadata = box)

/-- The value of the version that is known, normalized. -/
def Known (cipher : Cipher) (row : Option SessionRecord) (version : Nat)
    (metadata : SessionMetadataValue) : Prop :=
  ∃ box stored, At row version box ∧ cipher.readMetadataFromBox box = some stored ∧
    Same (normalizeMetadata stored) metadata

/-- A row that is replaced, or deleted. -/
structure Moves (row next : Option SessionRecord) : Prop where
  forward : ∀ held, next = some held → ∃ before, row = some before ∧
    (before.metadataVersion < held.metadataVersion ∨
      before.metadataVersion = held.metadataVersion ∧ before.metadata = held.metadata)

theorem Moves.refl (row : Option SessionRecord) : Moves row row where
  forward held same := ⟨held, same, Or.inr ⟨rfl, rfl⟩⟩

theorem Moves.set (row : SessionRecord) (value : EncryptedBox) (now : Int) :
    Moves (some row) (some (CasField.metadata.set value now row)) where
  forward held same := by
    cases same
    exact ⟨row, rfl, Or.inl (Nat.lt_succ_self _)⟩

theorem Moves.delete (row : Option SessionRecord) : Moves row none where
  forward held same := by contradiction

variable {row : Option SessionRecord}

theorem At.moves {next : Option SessionRecord} {version : Nat} {box : EncryptedBox}
    (at' : At row version box) (moves : Moves row next) : At next version box := by
  intro held same
  obtain ⟨before, was, later | ⟨versions, boxes⟩⟩ := moves.forward held same
  · have bound := (at' before was).1
    exact ⟨by omega, fun equal => absurd equal (by omega)⟩
  · obtain ⟨bound, holds⟩ := at' before was
    exact ⟨versions ▸ bound, fun equal => boxes ▸ holds (versions.trans equal)⟩

variable {cipher : Cipher}

theorem Known.moves {next : Option SessionRecord} {version : Nat}
    {metadata : SessionMetadataValue} (known : Known cipher row version metadata)
    (moves : Moves row next) : Known cipher next version metadata := by
  obtain ⟨box, stored, at', reads, same⟩ := known
  exact ⟨box, stored, at'.moves moves, reads, same⟩

/-- A request that is not decided carries one operation on the value of the version it expects. -/
def Based (cipher : Cipher) (row : Option SessionRecord) (put : PutMetadata) : Prop :=
  ∃ metadata operation next, Known cipher row put.expectedVersion metadata ∧
    Operation.computeNext metadata operation = some next ∧
    cipher.readMetadataFromBox put.value = some next

/-- What an answer says of the row. -/
def Tells (row : Option SessionRecord) (value : EncryptedBox) : CasAnswer → Prop
  | .ok version => At row version value
  | .conflict stored version => At row version stored
  | .notFound => True

/-- What holds of a request. -/
def Stands (cipher : Cipher) (row : Option SessionRecord) (put : PutMetadata) : Prop :=
  match put.answer with
  | none => Based cipher row put
  | some answer => Tells row put.value answer

/-- The law of the updater, its requests and the row. -/
structure Sound (cipher : Cipher) (updater : Updater) : Prop where
  known : Known cipher updater.row updater.currentVersion updater.currentMetadata
  normalized : Normalized updater.currentMetadata
  token : ∀ operation next, updater.running = some (operation, .token next) →
    operation.computeNext updater.currentMetadata = some next
  sent : ∀ operation next request, updater.running = some (operation, .sent next request) →
    operation.computeNext updater.currentMetadata = some next ∧
      ∃ put, updater.requests[request]? = some put ∧
        cipher.readMetadataFromBox put.value = some next
  requests : ∀ put ∈ updater.requests, Stands cipher updater.row put

theorem Stands.moves {next : Option SessionRecord} {put : PutMetadata}
    (stands : Stands cipher row put) (moves : Moves row next) : Stands cipher next put := by
  unfold Stands at stands ⊢
  cases answered : put.answer with
  | none =>
    rw [answered] at stands
    obtain ⟨metadata, operation, written, known, computed, reads⟩ := stands
    exact ⟨metadata, operation, written, known.moves moves, computed, reads⟩
  | some answer =>
    rw [answered] at stands
    cases answer with
    | ok version => exact At.moves stands moves
    | conflict stored version => exact At.moves stands moves
    | notFound => trivial

/-- The row of an instant. -/
theorem at_current (row : SessionRecord) : At (some row) row.metadataVersion row.metadata := by
  intro held same
  cases same
  exact ⟨Nat.le_refl _, fun _ => rfl⟩

/-- The route moves the row, and its answer tells where it is. -/
theorem casMetadata_tells
    (row : Option SessionRecord) (expectedVersion : Nat) (value : EncryptedBox)
    (now : Int) :
    Moves row (casMetadata row expectedVersion value now).1 ∧
      Tells (casMetadata row expectedVersion value now).1 value
        (casMetadata row expectedVersion value now).2 := by
  cases row with
  | none => exact ⟨Moves.refl none, trivial⟩
  | some row =>
    unfold casMetadata
    dsimp only
    split
    · rename_i expected
      obtain rfl : row.metadataVersion = expectedVersion := expected
      exact ⟨Moves.set row value now, at_current (CasField.metadata.set value now row)⟩
    · exact ⟨Moves.refl (some row), at_current row⟩

variable {updater : Updater}

namespace Sound

/-- The row moves and nothing else. -/
theorem moves (sound : Sound cipher updater) (moves : Moves updater.row row) :
    Sound cipher { updater with row := row } :=
  ⟨sound.known.moves moves, sound.normalized, sound.token, sound.sent,
    fun put member => (sound.requests put member).moves moves⟩

/-- No operation runs. -/
theorem rest (sound : Sound cipher updater) :
    Sound cipher { updater with running := none } :=
  ⟨sound.known, sound.normalized, by simp, by simp, sound.requests⟩

/-- The queue is no part of the law. -/
theorem queued (sound : Sound cipher updater)
    (queue : List Operation) : Sound cipher { updater with queue := queue } :=
  ⟨sound.known, sound.normalized, sound.token, sound.sent, sound.requests⟩

/-- An operation is tried on what is known. -/
theorem attempt (sound : Sound cipher updater)
    (operation : Operation) : Sound cipher (updater.attempt operation) where
  known := sound.known
  normalized := sound.normalized
  token tried next running := by
    obtain ⟨computed, found, same⟩ := Option.map_eq_some_iff.mp running
    obtain ⟨rfl, ⟨⟩⟩ := Prod.mk.inj same
    exact found
  sent tried next request running := by
    obtain ⟨computed, found, same⟩ := Option.map_eq_some_iff.mp running
    simp at same
  requests := sound.requests

/-- A request is sent. -/
theorem send (sound : Sound cipher updater)
        (running : updater.running = some (operation, .token next)) (nonce : Nat) :
    Sound cipher (updater.send cipher operation next nonce) where
  known := sound.known
  normalized := sound.normalized
  token tried other isToken := by simp [Updater.send] at isToken
  sent tried other request isSent := by
    simp only [Updater.send, Option.some.injEq, Prod.mk.injEq, Attempt.sent.injEq] at isSent
    obtain ⟨rfl, rfl, rfl⟩ := isSent
    exact ⟨sound.token _ _ running, ⟨updater.currentVersion, cipher.sealMetadata next nonce, none⟩,
      by simp [Updater.send], cipher.reads_sealed next nonce⟩
  requests put member := by
    rcases List.mem_append.mp member with held | added
    · exact sound.requests put held
    · obtain rfl := List.mem_singleton.mp added
      exact ⟨updater.currentMetadata, operation, next, sound.known, sound.token _ _ running,
        cipher.reads_sealed next nonce⟩

/-- An answer arrives; a conflict brings metadata that can be read. -/
theorem receive (sound : Sound cipher updater) {request expectedVersion : Nat}
    {value : EncryptedBox} {answer : CasAnswer}
    (running : updater.running = some (operation, .sent next request))
    (found : updater.requests[request]? = some ⟨expectedVersion, value, some answer⟩)
    (reads : ∀ stored version, answer = .conflict stored version →
      (cipher.readMetadataFromBox stored).isSome) :
    Sound cipher (updater.receive cipher operation next answer) := by
  have tells : Tells updater.row value answer := sound.requests _ (List.mem_of_getElem? found)
  cases answer with
  | ok version =>
    obtain ⟨computed, put, same, carries⟩ := sound.sent operation next request running
    obtain rfl := Option.some.inj (same.symm.trans found)
    have normalized := computeNext_normalized computed sound.normalized
    exact ⟨⟨value, next, tells, carries, normalize_same normalized⟩, normalized,
      by simp [Updater.receive],
      by simp [Updater.receive], sound.requests⟩
  | conflict stored version =>
    obtain ⟨metadata, readable⟩ := Option.isSome_iff_exists.mp (reads stored version rfl)
    simp only [Updater.receive, readable]
    have reloaded : Sound cipher
        { updater with
          currentVersion := version
          currentMetadata := normalizeMetadata metadata
          running := none } :=
      ⟨⟨stored, metadata, tells, readable, fun _ => rfl⟩, normalize_normalized metadata, by simp, by simp,
        sound.requests⟩
    exact reloaded.attempt operation
  | notFound => exact sound.rest

/-- The route decides a request. -/
theorem decide (sound : Sound cipher updater) {request expectedVersion : Nat} {value : EncryptedBox}
    (found : updater.requests[request]? = some ⟨expectedVersion, value, none⟩) (now : Int) :
    Sound cipher
      { updater with
        row := (casMetadata updater.row expectedVersion value now).1
        requests := updater.requests.set request
          ⟨expectedVersion, value, some (casMetadata updater.row expectedVersion value now).2⟩ } := by
  obtain ⟨moves, tells⟩ := casMetadata_tells updater.row expectedVersion value now
  have moved := sound.moves moves
  refine ⟨moved.known, moved.normalized, moved.token, fun operation next other running => ?_,
    fun put member => ?_⟩
  · obtain ⟨computed, put, same, carries⟩ := moved.sent operation next other running
    refine ⟨computed, ?_⟩
    by_cases here : other = request
    · subst here
      obtain rfl := Option.some.inj (same.symm.trans found)
      exact ⟨_, List.getElem?_set_self (List.getElem?_eq_some_iff.mp found).1, carries⟩
    · exact ⟨put, by rw [List.getElem?_set_ne (Ne.symm here)]; exact same, carries⟩
  · rcases List.mem_or_eq_of_mem_set member with held | rfl
    · exact moved.requests put held
    · exact tells

end Sound

/-! ## Runs -/

theorem step_sound {next : Updater} {event : MetadataEvent}
    (sound : Sound cipher updater) (read : ConflictsRead cipher updater event)
    (taken : metadataStep cipher updater event = some next) : Sound cipher next := by
  cases event with
  | updateModel text =>
    cases taken
    unfold Updater.enqueue
    dsimp only
    split
    · exact sound
    · exact sound.queued _
  | updateTitle text =>
    cases taken
    unfold Updater.enqueue
    dsimp only
    split
    · exact sound
    · exact sound.queued _
  | start =>
    simp only [metadataStep] at taken
    split at taken
    · cases taken
      exact (sound.queued _).attempt _
    · contradiction
  | token nonce =>
    simp only [metadataStep] at taken
    split at taken
    · rename_i running
      cases taken
      exact sound.send running nonce
    · contradiction
  | decide request now =>
    simp only [metadataStep] at taken
    split at taken
    · rename_i found
      cases taken
      exact sound.decide found now
    · contradiction
  | answer =>
    simp only [metadataStep] at taken
    split at taken
    · rename_i running
      split at taken
      · rename_i found
        cases taken
        refine sound.receive running found (fun stored version same => ?_)
        subst same
        exact read _ _ _ _ _ stored version rfl running found
      · contradiction
    · contradiction
  | fail =>
    obtain ⟨_, ⟨⟩⟩ := Option.ite_none_right_eq_some.mp taken
    exact sound.rest
  | otherWrite value now =>
    simp only [metadataStep] at taken
    split at taken
    · rename_i row isRow
      cases taken
      exact sound.moves (isRow ▸ Moves.set row value now)
    · contradiction
  | delete =>
    obtain ⟨_, ⟨⟩⟩ := Option.ite_none_right_eq_some.mp taken
    exact sound.moves (Moves.delete updater.row)

/-- A request that succeeds replaces what its operation is about. -/
theorem step_preserves {next : Updater} {event : MetadataEvent} (sound : Sound cipher updater)
    (taken : metadataStep cipher updater event = some next) :
    Preserves cipher normalizeMetadata updater event next := by
  rintro request now expectedVersion value row rfl found isRow versions
  simp only [metadataStep, found] at taken
  cases taken
  have based : Based cipher updater.row ⟨expectedVersion, value, none⟩ :=
    sound.requests _ (List.mem_of_getElem? found)
  obtain ⟨metadata, operation, written, ⟨box, stored, at', reads, normalized⟩, computed, carries⟩ :=
    based
  have holds := (at' row isRow).2 versions
  refine ⟨?_, stored, written, holds ▸ reads, carries, ?_⟩
  · simp [casMetadata, isRow, CasField.version, versions]
  · exact only_same normalized (computeNext_only computed)

/-- For an updater that starts with the metadata its row holds, in every run in which conflicts
bring metadata that can be read, each request that succeeds changes only the model, or only the
title and its source of a title that was not set by hand; absent known fields count as null. -/
theorem metadata_preserved (cipher : Cipher) (row : SessionRecord)
    (metadata stored : SessionMetadataValue)
    (holds : cipher.readMetadataFromBox row.metadata = some stored)
    (same : Same (normalizeMetadata stored) (normalizeMetadata metadata)) (events : List MetadataEvent)
    (read : Always (metadataStep cipher) (fun updater event _ => ConflictsRead cipher updater event)
      (createSessionMetadataUpdater row metadata row.metadataVersion) events) :
    Always (metadataStep cipher) (Preserves cipher normalizeMetadata)
      (createSessionMetadataUpdater row metadata row.metadataVersion) events := by
  have start : Sound cipher (createSessionMetadataUpdater row metadata row.metadataVersion) :=
    ⟨⟨row.metadata, stored, at_current row, holds, same⟩, normalize_normalized metadata,
      by simp [createSessionMetadataUpdater], by simp [createSessionMetadataUpdater],
      by simp [createSessionMetadataUpdater]⟩
  exact always_under (Sound cipher) (ConflictsRead cipher) (Preserves cipher normalizeMetadata)
    (fun _ _ _ sound met taken => ⟨step_sound sound met taken, step_preserves sound taken⟩) start read

/-! ## A session of another client -/

/-- A cipher that hides nothing. -/
def plainCipher : Cipher where
  encrypt text _ := ⟨String.ofList text⟩
  decrypt box := some box.c.toList
  decrypts text _ := by simp

/-- Metadata with a field the CLI does not know and without two that it knows. -/
def pinnedMetadata : SessionMetadataValue where
  fields := ⟨[("title", .str "dir"), ("path", .str "/dir"), ("pinned", .bool true)], by decide⟩
  distinct := by simp [Json.distinct]
  accepted := by decide

/-- The same after a rename by hand. -/
def renamedMetadata : SessionMetadataValue where
  fields := ⟨[("title", .str "Mine"), ("path", .str "/dir"), ("pinned", .bool true),
    ("titleSource", .str "manual")], by decide⟩
  distinct := by simp [Json.distinct]
  accepted := by decide

/-- A row with the third version of its metadata. -/
def pinnedRow (cipher : Cipher) : SessionRecord where
  id := "session"
  accountId := "account"
  workspaceId := none
  machineId := none
  tag := "tag"
  provider := "claude-code"
  executionTarget := "native"
  status := .active
  metadata := cipher.sealMetadata pinnedMetadata 0
  metadataVersion := 3
  agentState := none
  agentStateVersion := 0
  dek := ""
  keyEpoch := 0
  msgSeq := 0
  notificationsMuted := false
  createdAt := 0
  updatedAt := 0

/-- A derived title meets a rename by hand: its request is refused, and it is not tried again. -/
theorem metadata_preserved_renamed :
    Always (metadataStep plainCipher) (Preserves plainCipher normalizeMetadata)
      (createSessionMetadataUpdater (pinnedRow plainCipher) pinnedMetadata 3)
      [.updateTitle "Fix", .start, .token 1,
        .otherWrite (plainCipher.sealMetadata renamedMetadata 2) 1, .decide 0 2, .answer] := by
  refine metadata_preserved plainCipher (pinnedRow plainCipher) pinnedMetadata pinnedMetadata
    (plainCipher.reads_sealed pinnedMetadata 0) (fun _ => rfl) _ ?_
  refine always_cons rfl (by rintro _ _ _ _ _ _ _ ⟨⟩) ?_
  refine always_cons rfl (by rintro _ _ _ _ _ _ _ ⟨⟩) ?_
  refine always_cons rfl (by rintro _ _ _ _ _ _ _ ⟨⟩) ?_
  refine always_cons rfl (by rintro _ _ _ _ _ _ _ ⟨⟩) ?_
  refine always_cons rfl (by rintro _ _ _ _ _ _ _ ⟨⟩) ?_
  refine always_cons rfl ?_ trivial
  intro operation next request expectedVersion value stored version _ running found
  obtain ⟨rfl, ⟨⟩⟩ := Prod.mk.inj (Option.some.inj running)
  obtain ⟨rfl, rfl, ⟨⟩⟩ := PutMetadata.mk.inj (Option.some.inj found)
  exact Option.isSome_iff_exists.mpr ⟨_, plainCipher.reads_sealed renamedMetadata 2⟩

/-- A derived title writes the fields that the stored metadata lacks as null. -/
theorem null_written (cipher : Cipher) :
    ¬ Always (metadataStep cipher) (Preserves cipher id)
      (createSessionMetadataUpdater (pinnedRow cipher) pinnedMetadata 3)
      [.updateTitle "Fix", .start, .token 1, .decide 0 1] := by
  intro always
  have asked := (always _ rfl).2
  have started := (asked _ rfl).2
  have sent := (started _ rfl).2
  have preserves := (sent _ rfl).1
  obtain ⟨_, before, after, reads, carries, only⟩ :=
    preserves 0 1 3 _ (pinnedRow cipher) rfl rfl rfl rfl
  obtain rfl := Option.some.inj ((cipher.reads_sealed pinnedMetadata 0).symm.trans reads)
  have written := Option.some.inj ((cipher.reads_sealed
    ((normalizeMetadata pinnedMetadata).withTitle "Fix").withAutoTitle 1).symm.trans carries)
  have absent : pinnedMetadata.get? "providerSessionId" = none := rfl
  have isNull : after.get? "providerSessionId" = some .null := by
    rw [← written]
    simp [get_normalize, absent]
  have same : after.get? "providerSessionId" = pinnedMetadata.get? "providerSessionId" := by
    rcases only with only | ⟨_, only⟩
    · exact only "providerSessionId" (by simp)
    · exact only "providerSessionId" (by simp) (by simp)
  rw [isNull, absent] at same
  contradiction

/-- So it changes a field that is neither the title nor its source. -/
theorem absent_becomes_null :
    ¬ Always (metadataStep plainCipher) (Preserves plainCipher id)
      (createSessionMetadataUpdater (pinnedRow plainCipher) pinnedMetadata 3)
      [.updateTitle "Fix", .start, .token 1, .decide 0 1] :=
  null_written plainCipher

end Kvy.Cli.Api
