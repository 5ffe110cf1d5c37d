import Kvy.General.JsonLines
import Kvy.Wire.Rows
import Mathlib.Algebra.Ring.Rat

/-!
# The outbox queue file

A session's pending batches are one JSON line each, oldest first. An entry is the
parsed JSON object itself: loading keeps every property of an accepted line, and
saving writes it back. Loading skips blank, unparsable and malformed lines.

Appending evicts from the front while the accounted bytes exceed the cap, but
never the entry just appended. Accounted bytes are exact rational sums.
-/

namespace Kvy.Cli.Queue

open General Wire

/-- `isQueuedBatch`: the shape test on a parsed line. -/
def isQueuedBatch (value : Json) : Bool :=
  match value.field? "localId", value.field? "bytes", value.field? "content" with
  | some (.str _), some (.num _), some (.obj _) => true
  | some (.str _), some (.num _), some (.arr _) => true
  | _, _, _ => false

/-- One sealed batch waiting to be posted: a JSON object of the accepted shape. -/
structure QueuedBatch where
  json : Json
  distinct : json.distinct = true
  valid : isQueuedBatch json = true

/-- The identifier that makes the post idempotent. -/
def QueuedBatch.localId (batch : QueuedBatch) : String :=
  match batch.json.field? "localId" with
  | some (.str localId) => localId
  | _ => ""

/-- The bytes accounted against the cap. -/
def QueuedBatch.bytes (batch : QueuedBatch) : ℚ :=
  match batch.json.field? "bytes" with
  | some (.num bytes) => bytes.toRat
  | _ => 0

/-- `Buffer.byteLength` of a text in UTF-8. -/
def byteLength (text : List Char) : Nat := (text.map Char.utf8Size).sum

/-- `payloadBytes`: the serialized size of the identifier and the content. -/
def payloadBytes (localId : String) (content : EncryptedBox) : Nat :=
  byteLength ((Json.obj [("localId", .str localId), ("content", content.toJson)]).stringify 0)

/-- `makeQueuedBatch`. -/
def makeQueuedBatch (localId : String) (content : EncryptedBox) : QueuedBatch where
  json := .obj [("localId", .str localId), ("content", content.toJson),
    ("bytes", .num (Decimal.ofInt (payloadBytes localId content)))]
  distinct := by
    simp only [Json.distinct, Json.distinctFields, List.map_cons, List.map_nil,
      content.to_json_distinct, Bool.and_true]
    decide
  valid := by
    simp only [isQueuedBatch, Json.field?, lookup_cons_if, EncryptedBox.toJson, String.reduceEq,
      ↓reduceIte]

/-- Accept a parsed line of the queue file. Parsed objects have distinct keys, so
only the shape can fail. -/
def accept (value : Json) : Option QueuedBatch :=
  if checked : value.distinct = true ∧ isQueuedBatch value = true then
    some ⟨value, checked.1, checked.2⟩
  else none

/-- `loadQueue`: the accepted lines of the file, or nothing without a file. -/
def loadQueue (file : Option (List Char)) : List QueuedBatch :=
  match file with
  | none => []
  | some text => Json.readLines accept text

/-- `persistQueue`: the file's new content; an empty queue removes the file. The
temporary file and the rename make the replacement a single step. -/
def persistQueue (entries : List QueuedBatch) : Option (List Char) :=
  if entries.isEmpty then none
  else some (Json.writeLines (entries.map QueuedBatch.json))

/-- The eviction loop of `appendWithCap`. -/
def evict (maxBytes : ℚ) : List QueuedBatch → ℚ → List QueuedBatch
  | dropped :: next :: rest, total =>
    if maxBytes < total then evict maxBytes (next :: rest) (total - dropped.bytes)
    else dropped :: next :: rest
  | short, _ => short

/-- `appendWithCap`. -/
def appendWithCap (entries : List QueuedBatch) (entry : QueuedBatch) (maxBytes : ℚ) :
    List QueuedBatch :=
  let updated := entries ++ [entry]
  evict maxBytes updated (updated.map QueuedBatch.bytes).sum

/-- A batch is accepted. -/
@[simp] theorem accept_batch (batch : QueuedBatch) : accept batch.json = some batch := by
  simp [accept, batch.distinct, batch.valid]

/-- A saved queue loads back unchanged. -/
theorem load_persist (entries : List QueuedBatch) :
    loadQueue (persistQueue entries) = entries := by
  unfold persistQueue
  split
  · exact (List.isEmpty_iff.mp ‹_›).symm
  · have distinct : ∀ value ∈ entries.map QueuedBatch.json, value.distinct = true := by
      intro value member
      obtain ⟨batch, _, rfl⟩ := List.mem_map.mp member
      exact batch.distinct
    have accepted : accept ∘ QueuedBatch.json = some := funext accept_batch
    rw [loadQueue, Json.read_write_lines accept _ distinct, List.filterMap_map, accepted,
      List.filterMap_some]

/-! ## Files with corrupt lines -/

/-- What a line of the file holds, if it is well formed. -/
def wellFormed? (line : List Char) : Option Json := (Json.parse line).filter isQueuedBatch

/-- A line is accepted exactly if it is well formed. -/
theorem accept_line (line : List Char) :
    ((Json.parse line).bind accept).map QueuedBatch.json = wellFormed? line := by
  unfold wellFormed?
  cases parsed : Json.parse line with
  | none => rfl
  | some value =>
    have distinct := Json.parse_distinct parsed
    cases valid : isQueuedBatch value <;> simp [accept, distinct, valid, Option.filter]

/-- Whatever a file holds, its well-formed lines are loaded in order. -/
theorem load_lines (text : List Char) :
    (loadQueue (some text)).map QueuedBatch.json = (text.splitOn '\n').filterMap wellFormed? := by
  rw [loadQueue, Json.read_lines_eq, List.map_filterMap]
  exact List.filterMap_congr (fun line _ => accept_line line)

/-- A line that holds no batch. -/
structure CorruptLine where
  text : List Char
  inline : '\n' ∉ text
  corrupt : wellFormed? text = none

/-- What is written on a line. -/
def lineText : QueuedBatch ⊕ CorruptLine → List Char
  | .inl batch => batch.json.stringify 0
  | .inr line => line.text

/-- The file with these lines. -/
def fileOf (lines : List (QueuedBatch ⊕ CorruptLine)) : List Char :=
  lines.flatMap (fun line => lineText line ++ ['\n'])

/-- A line is read as the batch that is written on it. -/
theorem accept_lineText (line : QueuedBatch ⊕ CorruptLine) :
    (Json.parse (lineText line)).bind accept = line.getLeft? := by
  cases line with
  | inl batch => simp [lineText, Json.parse_stringify batch.json 0 batch.distinct]
  | inr line => exact Option.map_eq_none_iff.mp ((accept_line line.text).trans line.corrupt)

/-- Corrupt lines between the batches of a file are skipped. -/
theorem load_fileOf (lines : List (QueuedBatch ⊕ CorruptLine)) :
    loadQueue (some (fileOf lines)) = lines.filterMap Sum.getLeft? := by
  simp only [loadQueue]
  induction lines with
  | nil => simp [fileOf, Json.read_lines_eq, @Json.parse_blank [] rfl]
  | cons line rest inductionHypothesis =>
    have inline : '\n' ∉ lineText line := by
      cases line with
      | inl batch => exact Json.render_inline 0 batch.json
      | inr line => exact line.inline
    have opened : fileOf (line :: rest) = lineText line ++ '\n' :: fileOf rest := by simp [fileOf]
    rw [opened, Json.read_lines_line accept inline, accept_lineText, inductionHypothesis]
    cases line <;> rfl

/-! ## Eviction -/

/-- The accounted bytes of batches. -/
def totalBytes (entries : List QueuedBatch) : ℚ := (entries.map QueuedBatch.bytes).sum

/-- The loop drops a prefix and never the last entry. -/
theorem evict_keeps (maxBytes : ℚ) (entries : List QueuedBatch) (entry : QueuedBatch) (total : ℚ) :
    ∃ dropped kept, entries = dropped ++ kept ∧
      evict maxBytes (entries ++ [entry]) total = kept ++ [entry] := by
  induction entries generalizing total with
  | nil => exact ⟨[], [], rfl, rfl⟩
  | cons first rest inductionHypothesis =>
    obtain ⟨next, tail, shape⟩ : ∃ next tail, rest ++ [entry] = next :: tail := by
      cases rest with
      | nil => exact ⟨entry, [], rfl⟩
      | cons next tail => exact ⟨next, tail ++ [entry], rfl⟩
    by_cases exceeds : maxBytes < total
    · obtain ⟨dropped, kept, split, result⟩ := inductionHypothesis (total - first.bytes)
      refine ⟨first :: dropped, kept, by simp [split], ?_⟩
      rw [List.cons_append, shape, evict, if_pos exceeds, ← shape]
      exact result
    · refine ⟨[], first :: rest, rfl, ?_⟩
      rw [List.cons_append, shape, evict, if_neg exceeds, ← shape]

/-- Appending keeps a suffix of the queue followed by the new entry. -/
theorem append_with_cap_keeps (entries : List QueuedBatch) (entry : QueuedBatch) (maxBytes : ℚ) :
    ∃ dropped kept, entries = dropped ++ kept ∧
      appendWithCap entries entry maxBytes = kept ++ [entry] :=
  evict_keeps maxBytes entries entry _

/-- Eviction stops at the longest suffix that fits: every longer one was tried before it. -/
theorem evict_longest (maxBytes : ℚ) (entries : List QueuedBatch) (entry : QueuedBatch) :
    ∃ kept, kept <:+ entries ∧
      evict maxBytes (entries ++ [entry]) (totalBytes (entries ++ [entry])) = kept ++ [entry] ∧
      (totalBytes (kept ++ [entry]) ≤ maxBytes ∨ kept = []) ∧
      ∀ longer, longer <:+ entries ++ [entry] → (kept ++ [entry]).length < longer.length →
        maxBytes < totalBytes longer := by
  induction entries with
  | nil =>
    refine ⟨[], List.suffix_rfl, rfl, .inr rfl, fun longer suffix exceeds => ?_⟩
    exact absurd suffix.length_le (Nat.not_le_of_lt exceeds)
  | cons first rest inductionHypothesis =>
    obtain ⟨next, tail, shape⟩ : ∃ next tail, rest ++ [entry] = next :: tail :=
      List.exists_cons_of_ne_nil (by simp)
    have total : totalBytes (first :: rest ++ [entry]) - first.bytes = totalBytes (rest ++ [entry]) := by
      simp [totalBytes]
    by_cases exceeds : maxBytes < totalBytes (first :: rest ++ [entry])
    · obtain ⟨kept, suffix, result, fits, longest⟩ := inductionHypothesis
      refine ⟨kept, suffix.trans (List.suffix_cons first rest), ?_, fits, ?_⟩
      · rw [← result, ← total, List.cons_append, shape, evict, if_pos]
        rwa [← shape]
      · intro longer within above
        rcases List.suffix_cons_iff.mp within with rfl | inside
        · exact exceeds
        · exact longest longer inside above
    · refine ⟨first :: rest, List.suffix_rfl, ?_, .inl (Rat.not_lt.mp exceeds), ?_⟩
      · rw [List.cons_append, shape, evict, if_neg]
        rwa [← shape]
      · intro longer within above
        exact absurd within.length_le (Nat.not_le_of_lt above)

/-- Nothing is evicted while the accounted bytes fit the cap. -/
theorem append_with_cap_fits {entries : List QueuedBatch} {entry : QueuedBatch} {maxBytes : ℚ}
    (fits : (entries.map QueuedBatch.bytes).sum + entry.bytes ≤ maxBytes) :
    appendWithCap entries entry maxBytes = entries ++ [entry] := by
  have within : ¬ maxBytes < ((entries ++ [entry]).map QueuedBatch.bytes).sum := by
    simpa [Rat.not_lt] using fits
  unfold appendWithCap
  rcases entries with _ | ⟨first, _ | ⟨second, rest⟩⟩
  · rfl
  · exact if_neg within
  · exact if_neg within

end Kvy.Cli.Queue
