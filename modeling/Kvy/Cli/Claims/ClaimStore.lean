import Kvy.General.JsObject
import Kvy.General.JsonRoundTrip
import Mathlib.Algebra.Order.Ring.Unbundled.Rat

/-!
# The claim store

One file a session records which sends have been claimed and which have completed. Every
call reads the file, drops the completed entries past their retention, changes one entry
and writes the whole file back; a missing or corrupt file reads as an empty one.

The critical sections of the calls are taken one after the other here. The temporary file
and the rename make the replacement a single step.
-/

namespace Kvy.Cli.Claims

open General

/-- A JSON value whose objects have distinct keys, as every value in memory has. -/
abbrev JsValue := { value : Json // value.distinct = true }

/-- `ClaimEntry`. -/
inductive ClaimEntry where
  | claimed (claimId : String) (claimedAt : Decimal)
  | completed (result : JsValue) (completedAt : Decimal)

/-- `ClaimOutcome`. -/
inductive ClaimOutcome where
  | claimed (claimId : String)
  | completed (result : JsValue)
  | inProgress

/-- `ClaimsFileShape`. -/
structure ClaimsFile where
  schemaVersion : Int
  claims : JsObject ClaimEntry

/-- `CLAIMS_SCHEMA_VERSION`. -/
def claimsSchemaVersion : Int := 1

/-- `CLAIM_RETENTION_MS`: seven days. -/
def claimRetentionMs : ℚ := 7 * 24 * 60 * 60 * 1000

/-- The contents that stand for a file that cannot be read. -/
def emptyFile : ClaimsFile := ⟨claimsSchemaVersion, .literal⟩

/-- `normalizeEntry`. -/
def normalizeEntry (value : Json) : Option ClaimEntry :=
  match value.field? "status" with
  | some (.str "claimed") =>
    match value.field? "claimId", value.field? "claimedAt" with
    | some (.str claimId), some (.num claimedAt) => some (.claimed claimId claimedAt)
    | _, _ => none
  | some (.str "completed") =>
    match value.field? "completedAt", value.field? "result" with
    | some (.num completedAt), some result =>
      -- parsed objects have distinct keys, so the test never fails
      if distinct : result.distinct = true then some (.completed ⟨result, distinct⟩ completedAt)
      else none
    | _, _ => none
  | _ => none

/-- `normalizeClaimsFile`. -/
def normalizeClaimsFile (raw : Json) : ClaimsFile :=
  match raw.field? "claims" with
  | some (.obj entries) =>
    ⟨claimsSchemaVersion, entries.foldl (fun claims (entry : String × Json) =>
      (normalizeEntry entry.2).elim claims (claims.assign entry.1)) .bare⟩
  | _ => emptyFile

/-- `readClaimsFileRaw`, from the text of the file, if it exists. -/
def readClaimsFileRaw (file : Option (List Char)) : ClaimsFile :=
  match file.bind Json.parse with
  | some parsed => normalizeClaimsFile parsed
  | none => emptyFile

/-- The entry is completed and past its retention. -/
def ClaimEntry.expired (now : Decimal) : ClaimEntry → Bool
  | .claimed _ _ => false
  | .completed _ completedAt => completedAt.toRat < now.toRat - claimRetentionMs

/-- `pruneExpired`. -/
def pruneExpired (file : ClaimsFile) (now : Decimal) : ClaimsFile :=
  { file with
    claims := file.claims.own.entries.foldl (fun claims (entry : String × ClaimEntry) =>
      (if entry.2.expired now then none else some entry.2).elim claims (claims.assign entry.1)) .bare }

/-- An entry as JSON. -/
def ClaimEntry.toJson : ClaimEntry → Json
  | .claimed claimId claimedAt =>
    .obj [("status", .str "claimed"), ("claimId", .str claimId), ("claimedAt", .num claimedAt)]
  | .completed result completedAt =>
    .obj [("status", .str "completed"), ("result", result.1), ("completedAt", .num completedAt)]

/-- The file's contents as JSON. -/
def ClaimsFile.toJson (file : ClaimsFile) : Json :=
  .obj [("schemaVersion", .num (Decimal.ofInt file.schemaVersion)),
    ("claims", .obj (file.claims.own.entries.map (fun entry => (entry.1, entry.2.toJson))))]

/-- The text that is written. -/
def ClaimsFile.text (file : ClaimsFile) : List Char :=
  ({ file with schemaVersion := claimsSchemaVersion } : ClaimsFile).toJson.stringify 2

/-- The critical section of `withClaimsFile`; a mutation that throws writes nothing. -/
def withClaimsFile {α : Type} (file : Option (List Char)) (now : Decimal)
    (mutate : ClaimsFile → Option (ClaimsFile × α)) : Option (List Char) × Option α :=
  match mutate (pruneExpired (readClaimsFileRaw file) now) with
  | none => (file, none)
  | some (next, result) => (some next.text, some result)

/-- `claimMessageSend`. -/
def claimMessageSend (file : Option (List Char)) (envelopeId claimId : String) (now : Decimal) :
    Option (List Char) × Option ClaimOutcome :=
  withClaimsFile file now (fun current =>
    match current.claims.read envelopeId with
    | .own (.completed result _) => some (current, .completed result)
    | .own (.claimed _ _) => some (current, .inProgress)
    | .inherited | .absent =>
      some ({ current with claims := current.claims.spreadWith envelopeId (.claimed claimId now) },
        .claimed claimId))

/-- An absent result is stored as `null`. -/
def resultOrNull (result : Option JsValue) : JsValue := result.getD ⟨.null, rfl⟩

/-- `completeMessageSend`. -/
def completeMessageSend (file : Option (List Char)) (envelopeId claimId : String)
    (result : Option JsValue) (now : Decimal) : Option (List Char) × Option Unit :=
  withClaimsFile file now (fun current =>
    match current.claims.read envelopeId with
    | .own (.claimed held _) =>
      if held = claimId then
        some ({ current with
          claims := current.claims.spreadWith envelopeId (.completed (resultOrNull result) now) }, ())
      else none
    | _ => none)

/-- `readClaims`. -/
def readClaims (file : Option (List Char)) (now : Decimal) : JsObject ClaimEntry :=
  (pruneExpired (readClaimsFileRaw file) now).claims

/-! ## What a file stores -/

/-- The entry a file stores for an envelope. -/
def stored (file : Option (List Char)) (envelopeId : String) : Option ClaimEntry :=
  (readClaimsFileRaw file).claims.own.get? envelopeId

/-- The entry a call at a time works on. -/
def live (file : Option (List Char)) (now : Decimal) (envelopeId : String) : Option ClaimEntry :=
  (stored file envelopeId).filter (fun entry => !entry.expired now)

/-- Reading an entry back. -/
theorem normalize_entry_json (entry : ClaimEntry) : normalizeEntry entry.toJson = some entry := by
  cases entry with
  | claimed claimId claimedAt => simp [ClaimEntry.toJson, normalizeEntry, Json.field?, lookup_cons_if]
  | completed result completedAt =>
    simp [ClaimEntry.toJson, normalizeEntry, Json.field?, lookup_cons_if, result.2]

/-- Written contents have distinct keys throughout. -/
theorem to_json_distinct (file : ClaimsFile) : file.toJson.distinct = true := by
  have entry (entry : ClaimEntry) : entry.toJson.distinct = true := by
    cases entry with
    | claimed claimId claimedAt => simp [ClaimEntry.toJson, Json.distinct, Json.distinctFields]
    | completed result completedAt =>
      simp [ClaimEntry.toJson, Json.distinct, Json.distinctFields, result.2]
  have keys : ((file.claims.own.entries.map (fun entry => (entry.1, entry.2.toJson))).map
      Prod.fst).Nodup := by
    rw [List.map_map]
    exact file.claims.own.distinct
  have values : Json.distinctFields
      (file.claims.own.entries.map (fun entry => (entry.1, entry.2.toJson))) = true := by
    apply (Json.distinct_fields_iff _).mpr
    intro field member
    obtain ⟨held, _, rfl⟩ := List.mem_map.mp member
    exact entry held.2
  simp only [ClaimsFile.toJson, Json.distinct, Json.distinctFields, Bool.and_true, Bool.true_and,
    Bool.and_eq_true, decide_eq_true_eq]
  exact ⟨by simp, keys, values⟩

/-- A file stores exactly the own entries that were written. -/
theorem stored_text (file : ClaimsFile) (envelopeId : String) :
    stored (some file.text) envelopeId = file.claims.own.get? envelopeId := by
  have parsed : Json.parse file.text =
      some ({ file with schemaVersion := claimsSchemaVersion } : ClaimsFile).toJson :=
    Json.parse_stringify _ 2 (to_json_distinct _)
  have keys : ((file.claims.own.entries.map (fun entry => (entry.1, entry.2.toJson))).map
      Prod.fst).Nodup := by
    rw [List.map_map]
    exact file.claims.own.distinct
  obtain ⟨_, reads⟩ := JsObject.own_assigned normalizeEntry _ keys .bare rfl (fun _ _ => rfl)
  simp only [stored, readClaimsFileRaw, Option.bind_some, parsed, normalizeClaimsFile,
    ClaimsFile.toJson, Json.field?, lookup_cons_if]
  simp only [String.reduceEq, ↓reduceIte]
  rw [reads envelopeId]
  simp only [JsObject.bare, OrderedMap.get_empty, Option.none_or]
  have looked : ∀ entries : List (String × ClaimEntry),
      ((entries.map (fun entry => (entry.1, entry.2.toJson))).lookup envelopeId).bind normalizeEntry =
        entries.lookup envelopeId := by
    intro entries
    induction entries with
    | nil => rfl
    | cons entry rest inductionHypothesis =>
      obtain ⟨first, held⟩ := entry
      simp only [List.map_cons, lookup_cons_if]
      split
      · exact normalize_entry_json held
      · exact inductionHypothesis
  exact looked file.claims.own.entries

/-- Pruning leaves a bare object with the entries that are not expired. -/
theorem prune_own (file : ClaimsFile) (now : Decimal) :
    (pruneExpired file now).claims.inherits = false ∧ ∀ envelopeId,
      (pruneExpired file now).claims.own.get? envelopeId =
        (file.claims.own.get? envelopeId).filter (fun entry => !entry.expired now) := by
  obtain ⟨plain, reads⟩ := JsObject.own_assigned
    (fun entry : ClaimEntry => if entry.expired now then none else some entry)
    file.claims.own.entries file.claims.own.distinct .bare rfl (fun _ _ => rfl)
  refine ⟨plain, ?_⟩
  intro envelopeId
  have read := reads envelopeId
  simp only [JsObject.bare, OrderedMap.get_empty, Option.none_or] at read
  refine read.trans ?_
  simp only [OrderedMap.get?]
  cases file.claims.own.entries.lookup envelopeId with
  | none => rfl
  | some entry =>
    cases expired : entry.expired now with
    | true => simp [Option.filter, expired]
    | false => simp [Option.filter, expired]

/-- A call works on the live entries. -/
theorem read_live (file : Option (List Char)) (now : Decimal) (envelopeId : String) :
    (pruneExpired (readClaimsFileRaw file) now).claims.read envelopeId =
      (live file now envelopeId).elim .absent .own := by
  obtain ⟨plain, own⟩ := prune_own (readClaimsFileRaw file) now
  rw [JsObject.read_bare plain, own]
  rfl

/-- A critical section that writes stores the entries of its new contents. -/
theorem stored_pruned (file : Option (List Char)) (now : Decimal) (envelopeId : String) :
    stored (some (pruneExpired (readClaimsFileRaw file) now).text) envelopeId =
      live file now envelopeId := by
  rw [stored_text, (prune_own _ now).2]
  rfl

/-- The answer to a claim that finds a live entry. -/
def ClaimEntry.answer : ClaimEntry → ClaimOutcome
  | .claimed _ _ => .inProgress
  | .completed result _ => .completed result

variable {envelopeId : String} {file : Option (List Char)} {now : Decimal}

/-- A claim that finds no live entry stores its own. -/
theorem claim_absent (claimId : String) (absent : live file now envelopeId = none) :
    stored (claimMessageSend file envelopeId claimId now).1 envelopeId = some (.claimed claimId now) ∧
      (claimMessageSend file envelopeId claimId now).2 = some (.claimed claimId) := by
  simp only [claimMessageSend, withClaimsFile, read_live, absent, Option.elim_none, stored_text,
    JsObject.spreadWith, OrderedMap.get_set, ↓reduceIte, and_self]

/-- A claim that finds a live entry keeps it and reports it. -/
theorem claim_present
    {entry : ClaimEntry} (claimId : String) (held : live file now envelopeId = some entry) :
    stored (claimMessageSend file envelopeId claimId now).1 envelopeId = some entry ∧
      (claimMessageSend file envelopeId claimId now).2 = some entry.answer := by
  simp only [claimMessageSend, withClaimsFile, read_live, held, Option.elim_some]
  cases entry with
  | claimed heldId claimedAt => exact ⟨(stored_pruned file now envelopeId).trans held, rfl⟩
  | completed result completedAt => exact ⟨(stored_pruned file now envelopeId).trans held, rfl⟩

/-- A claim keeps the live entries of the other envelopes. -/
theorem claim_others (file : Option (List Char)) {other : String} (claimId : String)
    (now : Decimal) (differs : other ≠ envelopeId) :
    stored (claimMessageSend file envelopeId claimId now).1 other = live file now other := by
  simp only [claimMessageSend, withClaimsFile, read_live]
  cases held : live file now envelopeId with
  | none =>
    simp only [Option.elim_none, stored_text, JsObject.spreadWith, OrderedMap.get_set, differs,
      ↓reduceIte, (prune_own _ now).2]
    rfl
  | some entry =>
    cases entry with
    | claimed heldId claimedAt => exact stored_pruned file now other
    | completed result completedAt => exact stored_pruned file now other

/-- A claim never throws. -/
theorem claim_answers (file : Option (List Char)) (envelopeId claimId : String) (now : Decimal) :
    ∃ outcome, (claimMessageSend file envelopeId claimId now).2 = some outcome := by
  cases held : live file now envelopeId with
  | none => exact ⟨_, (claim_absent claimId held).2⟩
  | some entry => exact ⟨_, (claim_present claimId held).2⟩

/-- Completing the claim that is live records the result. -/
theorem complete_live {claimId : String} {claimedAt : Decimal}
    (result : Option JsValue) (held : live file now envelopeId = some (.claimed claimId claimedAt)) :
    (completeMessageSend file envelopeId claimId result now).2 = some () ∧
      stored (completeMessageSend file envelopeId claimId result now).1 envelopeId =
        some (.completed (resultOrNull result) now) ∧
      ∀ other, other ≠ envelopeId →
        stored (completeMessageSend file envelopeId claimId result now).1 other =
          live file now other := by
  simp only [completeMessageSend, withClaimsFile, read_live, held, Option.elim_some, ↓reduceIte,
    stored_text, JsObject.spreadWith, OrderedMap.get_set, true_and]
  intro other differs
  simp only [differs, ↓reduceIte, (prune_own _ now).2]
  rfl

/-- Completing anything else throws and leaves the file. -/
theorem complete_other {claimId : String} (result : Option JsValue)
    (absent : ¬ ∃ claimedAt, live file now envelopeId = some (.claimed claimId claimedAt)) :
    completeMessageSend file envelopeId claimId result now = (file, none) := by
  simp only [completeMessageSend, withClaimsFile, read_live]
  cases held : live file now envelopeId with
  | none => rfl
  | some entry =>
    cases entry with
    | completed recorded completedAt => rfl
    | claimed heldId claimedAt =>
      have differs : heldId ≠ claimId := by
        rintro rfl
        exact absent ⟨claimedAt, held⟩
      simp [differs]

end Kvy.Cli.Claims
