import Kvy.General.JsonRoundTrip
import Kvy.General.Runs
import Kvy.General.Text
import Kvy.Server.App.StructuralWrites

/-!
# Updating a session's metadata

The CLI writes the model and derived titles into the metadata of its session, which other clients
write too. It keeps the metadata and the version it knows, runs one operation after the other and
sends each as a replacement under the version it knows; a conflict brings the stored metadata, and
the operation is tried again on it.

The metadata is an object with fields that the CLI knows and others that it carries along. Boxes
are sealed under the session's key. The compare-and-set route decides each request at one instant, which may come
after the CLI has given up on it; other clients write at any time.
-/

namespace Kvy.Cli.Api

open General Wire Server.Db Server.App

/-! ## Metadata -/

/-- `z.string()`. -/
def isText : Option Json → Bool
  | some (.str _) => true
  | _ => false

/-- `z.string().nullable().optional()`. -/
def isOptionalText : Option Json → Bool
  | none | some .null | some (.str _) => true
  | _ => false

/-- `z.enum(["auto", "manual"]).optional()`. -/
def isTitleSource : Option Json → Bool
  | none => true
  | some (.str source) => source = "auto" || source = "manual"
  | _ => false

/-- `SessionMetadataValueSchema`: the known fields are of their types, others are let through. -/
def accepts (fields : OrderedMap String Json) : Bool :=
  isText (fields.get? "title") && isText (fields.get? "path") &&
    isOptionalText (fields.get? "providerSessionId") && isOptionalText (fields.get? "model") &&
    isTitleSource (fields.get? "titleSource")

/-- `SessionMetadataValue`: an object that the schema accepts, with all its fields. -/
structure SessionMetadataValue where
  fields : OrderedMap String Json
  distinct : ∀ field ∈ fields.entries, field.2.distinct = true
  accepted : accepts fields = true

namespace SessionMetadataValue

/-- The value of a field. -/
def get? (metadata : SessionMetadataValue) (key : String) : Option Json := metadata.fields.get? key

/-- A field is this string. -/
def isString (metadata : SessionMetadataValue) (key text : String) : Bool :=
  match metadata.get? key with
  | some (.str held) => held = text
  | _ => false

/-- What JSON is written. -/
def toJson (metadata : SessionMetadataValue) : Json := .obj metadata.fields.entries

/-- What is read; objects that were parsed have distinct keys. -/
def ofJson : Json → Option SessionMetadataValue
  | .obj fields =>
    if keys : (fields.map Prod.fst).Nodup then
      if distinct : ∀ field ∈ fields, field.2.distinct = true then
        if accepted : accepts ⟨fields, keys⟩ = true then some ⟨⟨fields, keys⟩, distinct, accepted⟩
        else none
      else none
    else none
  | _ => none

/-- A field is set to a value that the schema accepts there. -/
def set (metadata : SessionMetadataValue) (key : String) (value : Json)
    (distinct : value.distinct = true)
    (accepted : accepts (metadata.fields.set key value) = true) : SessionMetadataValue where
  fields := metadata.fields.set key value
  distinct := by
    rintro ⟨held, stored⟩ member
    rw [OrderedMap.mem_entries, OrderedMap.get_set] at member
    split at member
    · exact Option.some.inj member ▸ distinct
    · exact metadata.distinct (held, stored) ((OrderedMap.mem_entries _ _ _).mpr member)
  accepted := accepted

@[simp] theorem get_set (metadata : SessionMetadataValue) (key : String) (value : Json)
    (distinct : value.distinct = true)
    (accepted : accepts (metadata.fields.set key value) = true) (tested : String) :
    (metadata.set key value distinct accepted).get? tested =
      if tested = key then some value else metadata.get? tested :=
  OrderedMap.get_set metadata.fields key tested value

/-- A known field that may be text or null is set to either. -/
theorem accepts_set {fields : OrderedMap String Json} {key : String} {value : Json}
    (accepted : accepts fields = true)
    (title : key = "title" → isText (some value) = true)
    (path : key = "path" → isText (some value) = true)
    (providerSessionId : key = "providerSessionId" → isOptionalText (some value) = true)
    (model : key = "model" → isOptionalText (some value) = true)
    (titleSource : key = "titleSource" → isTitleSource (some value) = true) :
    accepts (fields.set key value) = true := by
  simp only [accepts, Bool.and_eq_true] at accepted ⊢
  obtain ⟨⟨⟨⟨isTitle, isPath⟩, isProvider⟩, isModel⟩, isSource⟩ := accepted
  simp only [OrderedMap.get_set]
  refine ⟨⟨⟨⟨?_, ?_⟩, ?_⟩, ?_⟩, ?_⟩
  · split
    · exact title (Eq.symm ‹_›)
    · exact isTitle
  · split
    · exact path (Eq.symm ‹_›)
    · exact isPath
  · split
    · exact providerSessionId (Eq.symm ‹_›)
    · exact isProvider
  · split
    · exact model (Eq.symm ‹_›)
    · exact isModel
  · split
    · exact titleSource (Eq.symm ‹_›)
    · exact isSource

/-- A known field that is text or null, missing or not. -/
theorem optional_value {value : Option Json} (optional : isOptionalText value = true) :
    (value.getD .null).distinct = true ∧ isOptionalText (some (value.getD .null)) = true := by
  cases value with
  | none => exact ⟨rfl, rfl⟩
  | some value =>
    cases value with
    | null => exact ⟨rfl, rfl⟩
    | str text => exact ⟨rfl, rfl⟩
    | _ => contradiction

theorem model_optional (metadata : SessionMetadataValue) :
    isOptionalText (metadata.get? "model") = true := by
  have accepted := metadata.accepted
  simp only [accepts, Bool.and_eq_true] at accepted
  exact accepted.1.2

theorem provider_optional (metadata : SessionMetadataValue) :
    isOptionalText (metadata.get? "providerSessionId") = true := by
  have accepted := metadata.accepted
  simp only [accepts, Bool.and_eq_true] at accepted
  exact accepted.1.1.2

/-- `model ?? null`. -/
def withModelOrNull (metadata : SessionMetadataValue) : SessionMetadataValue :=
  metadata.set "model" ((metadata.get? "model").getD .null)
    (optional_value metadata.model_optional).1
    (accepts_set metadata.accepted (by simp) (by simp) (by simp)
      (fun _ => (optional_value metadata.model_optional).2) (by simp))

/-- `providerSessionId ?? null`. -/
def withProviderOrNull (metadata : SessionMetadataValue) : SessionMetadataValue :=
  metadata.set "providerSessionId" ((metadata.get? "providerSessionId").getD .null)
    (optional_value metadata.provider_optional).1
    (accepts_set metadata.accepted (by simp) (by simp)
      (fun _ => (optional_value metadata.provider_optional).2) (by simp) (by simp))

/-- `{ ...current, model }`. -/
def withModel (metadata : SessionMetadataValue) (text : String) : SessionMetadataValue :=
  metadata.set "model" (.str text) rfl
    (accepts_set metadata.accepted (by simp) (by simp) (by simp) (fun _ => rfl) (by simp))

/-- `{ ...current, title }`. -/
def withTitle (metadata : SessionMetadataValue) (text : String) : SessionMetadataValue :=
  metadata.set "title" (.str text) rfl
    (accepts_set metadata.accepted (fun _ => rfl) (by simp) (by simp) (by simp) (by simp))

/-- `{ ...current, titleSource: "auto" }`. -/
def withAutoTitle (metadata : SessionMetadataValue) : SessionMetadataValue :=
  metadata.set "titleSource" (.str "auto") rfl
    (accepts_set metadata.accepted (by simp) (by simp) (by simp) (by simp) (fun _ => rfl))

@[simp] theorem get_withModel (metadata : SessionMetadataValue) (text tested : String) :
    (metadata.withModel text).get? tested =
      if tested = "model" then some (.str text) else metadata.get? tested :=
  get_set metadata "model" (.str text) rfl _ tested

@[simp] theorem get_withTitle (metadata : SessionMetadataValue) (text tested : String) :
    (metadata.withTitle text).get? tested =
      if tested = "title" then some (.str text) else metadata.get? tested :=
  get_set metadata "title" (.str text) rfl _ tested

@[simp] theorem get_withAutoTitle (metadata : SessionMetadataValue) (tested : String) :
    metadata.withAutoTitle.get? tested =
      if tested = "titleSource" then some (.str "auto") else metadata.get? tested :=
  get_set metadata "titleSource" (.str "auto") rfl _ tested

end SessionMetadataValue

/-- The known fields that are missing become null; `titleSource` may stay missing. -/
def normalizeMetadata (metadata : SessionMetadataValue) : SessionMetadataValue :=
  metadata.withProviderOrNull.withModelOrNull

/-- The cipher under the session's key. What was encrypted is decrypted; other boxes may be too. -/
structure Cipher where
  encrypt : List Char → (nonce : Nat) → EncryptedBox
  decrypt : EncryptedBox → Option (List Char)
  decrypts : ∀ text nonce, decrypt (encrypt text nonce) = some text

/-- `seal`. -/
def Cipher.sealMetadata (cipher : Cipher) (metadata : SessionMetadataValue) (nonce : Nat) :
    EncryptedBox :=
  cipher.encrypt (metadata.toJson.stringify 0) nonce

/-- `open` and the schema, before the value is normalized. -/
def Cipher.readMetadataFromBox (cipher : Cipher) (box : EncryptedBox) :
    Option SessionMetadataValue := do
  let text ← cipher.decrypt box
  let opened ← Json.parse text
  SessionMetadataValue.ofJson opened

/-! ## The updater -/

/-- What `persistModel` and `persistTitle` are asked for, as trimmed text. -/
inductive Operation where
  | model (text : String)
  | title (text : String)
deriving DecidableEq

/-- `computeNext` of an operation: nothing where there is nothing to write. -/
def Operation.computeNext (current : SessionMetadataValue) : Operation → Option SessionMetadataValue
  | .model text => if current.isString "model" text then none else some (current.withModel text)
  | .title text =>
    if current.isString "titleSource" "manual" then none
    else if current.isString "title" text && current.isString "titleSource" "auto" then none
    else some (current.withTitle text).withAutoTitle

/-- What the route answers. -/
inductive CasAnswer where
  | ok (version : Nat)
  | conflict (value : EncryptedBox) (version : Nat)
  | notFound
deriving DecidableEq

/-- A `PUT` of the metadata, with its answer once it is decided. -/
structure PutMetadata where
  expectedVersion : Nat
  value : EncryptedBox
  answer : Option CasAnswer
deriving DecidableEq

/-- Where the operation that runs stands: it waits for a token, or for the answer to a request. -/
inductive Attempt where
  | token (next : SessionMetadataValue)
  | sent (next : SessionMetadataValue) (request : Nat)

/-- The session's row, the updater's variables and the requests it has sent. -/
structure Updater where
  row : Option SessionRecord
  currentMetadata : SessionMetadataValue
  currentVersion : Nat
  queue : List Operation
  running : Option (Operation × Attempt)
  requests : List PutMetadata

/-- `createSessionMetadataUpdater`. -/
def createSessionMetadataUpdater (row : SessionRecord) (metadata : SessionMetadataValue)
    (metadataVersion : Nat) : Updater where
  row := some row
  currentMetadata := normalizeMetadata metadata
  currentVersion := metadataVersion
  queue := []
  running := none
  requests := []

namespace Updater

/-- `updateModel` and `updateTitle`: an empty text asks for nothing. -/
def enqueue (updater : Updater) (operation : String → Operation) (text : String) :
    Updater :=
  let normalized := Text.trimString text
  if normalized = "" then updater
  else { updater with queue := updater.queue ++ [operation normalized] }

/-- The head of the loop in `persistPatch`. -/
def attempt (updater : Updater) (operation : Operation) : Updater :=
  { updater with
    running :=
      (operation.computeNext updater.currentMetadata).map (fun next => (operation, .token next)) }

/-- The request of the operation that runs. -/
def send (cipher : Cipher) (updater : Updater) (operation : Operation)
    (next : SessionMetadataValue) (nonce : Nat) : Updater :=
  { updater with
    running := some (operation, .sent next updater.requests.length)
    requests := updater.requests ++ [⟨updater.currentVersion, cipher.sealMetadata next nonce, none⟩] }

/-- What the updater does with an answer. -/
def receive (cipher : Cipher) (updater : Updater) (operation : Operation)
    (next : SessionMetadataValue) : CasAnswer → Updater
  | .ok version =>
    { updater with currentMetadata := next, currentVersion := version, running := none }
  | .conflict value version =>
    -- The version is taken over before the value is read.
    let updater := { updater with currentVersion := version }
    match cipher.readMetadataFromBox value with
    | some stored =>
      { updater with currentMetadata := normalizeMetadata stored }.attempt operation
    | none => { updater with running := none }
  | .notFound => { updater with running := none }

end Updater

/-- `casUpdateSessionField` of the metadata, at the instant it is decided. -/
def casMetadata (row : Option SessionRecord) (expectedVersion : Nat) (value : EncryptedBox)
    (now : Int) : Option SessionRecord × CasAnswer :=
  match row with
  | none => (none, .notFound)
  | some row =>
    if CasField.metadata.version row = expectedVersion then
      (some (CasField.metadata.set value now row), .ok (expectedVersion + 1))
    else (some row, .conflict row.metadata (CasField.metadata.version row))

/-- What can happen. -/
inductive MetadataEvent where
  | updateModel (text : String)
  | updateTitle (text : String)
  /-- The next operation of the queue starts. -/
  | start
  /-- The token has come, and the request is sealed and sent. -/
  | token (nonce : Nat)
  /-- The route decides a request. -/
  | decide (request : Nat) (now : Int)
  /-- The answer to the running operation's request arrives. -/
  | answer
  /-- The running operation fails: no token, no answer, or one it cannot use. -/
  | fail
  /-- Another client's replacement succeeds. -/
  | otherWrite (value : EncryptedBox) (now : Int)
  /-- The row is deleted. -/
  | delete
deriving DecidableEq

/-- One event. -/
def metadataStep (cipher : Cipher) (updater : Updater) :
    MetadataEvent → Option (Updater)
  | .updateModel text => some (updater.enqueue .model text)
  | .updateTitle text => some (updater.enqueue .title text)
  | .start =>
    match updater.running, updater.queue with
    | none, operation :: queue => some ({ updater with queue := queue }.attempt operation)
    | _, _ => none
  | .token nonce =>
    match updater.running with
    | some (operation, .token next) => some (updater.send cipher operation next nonce)
    | _ => none
  | .decide request now =>
    match updater.requests[request]? with
    | some ⟨expectedVersion, value, none⟩ =>
      let (row, answer) := casMetadata updater.row expectedVersion value now
      some
        { updater with
          row := row
          requests := updater.requests.set request ⟨expectedVersion, value, some answer⟩ }
    | _ => none
  | .answer =>
    match updater.running with
    | some (operation, .sent next request) =>
      match updater.requests[request]? with
      | some ⟨_, _, some answer⟩ => some (updater.receive cipher operation next answer)
      | _ => none
    | _ => none
  | .fail => if updater.running.isSome then some { updater with running := none } else none
  | .otherWrite value now =>
    match updater.row with
    | some row => some { updater with row := some (CasField.metadata.set value now row) }
    | none => none
  | .delete => if updater.row.isSome then some { updater with row := none } else none

end Kvy.Cli.Api
