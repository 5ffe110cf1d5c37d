import Kvy.Cli.Api.Uplink
import Kvy.Web.Lib.SessionMetadataWrite
import Kvy.Web.Sync.Messages

/-!
# From the agent's outbox to the browser

Envelopes that are handed to an outbox are buffered, sealed together, posted and stored as rows;
the browser opens the rows of its pages and reads the envelopes again. The outbox, the route and the
pages keep the order.
-/

namespace Kvy.Web.Sync

open General Wire Cli.Api Cli.Queue Cli.Outbox Server.App Lib

/-- An envelope as JSON, with what its schema reads. -/
structure Handed where
  json : Json
  distinct : json.distinct = true
  envelope : SessionEnvelope
  reads : readSessionEnvelope (some json) = some envelope

/-- A buffer as JSON. -/
def batchJson (buf : List Handed) : Plain :=
  ⟨.arr (buf.map Handed.json), by
    induction buf with
    | nil => rfl
    | cons first rest inductionHypothesis =>
      exact Bool.and_eq_true_iff.mpr ⟨first.distinct, inductionHypothesis⟩⟩

/-- `seal` of a batch under the key of the session. -/
def sealBatch (cipher : Cipher) (buf : List Handed) (nonce : Nat) : EncryptedBox :=
  sealBox cipher (batchJson buf) nonce

/-- The items of a sealed batch fit their schema. -/
theorem read_items (buf : List Handed) :
    Schema.array readSessionEnvelope (some (batchJson buf).1) = some (buf.map Handed.envelope) := by
  induction buf with
  | nil => rfl
  | cons first rest inductionHypothesis =>
    simp only [Schema.array, batchJson, List.map_cons, List.mapM_cons] at inductionHypothesis ⊢
    rw [first.reads, inductionHypothesis]
    rfl

/-- The rows of the route are numbered from one. -/
theorem rows_numbered {server : Messages.State} (sound : Messages.Sound server) :
    Numbered server.rows := by
  intro index item held
  have listed := congrArg (·[index]?) sound.numbered
  simp only [List.getElem?_map, held, Option.map_some] at listed
  obtain ⟨_, isSeq⟩ := List.getElem?_eq_some_iff.mp listed.symm
  rw [← isSeq, List.getElem_range']
  omega

section Browser
variable {cipher : Cipher} {options : Options Handed Nat}

/-- A row that holds a sealed buffer opens to what was buffered. -/
theorem open_sealed (keyed : options.sealBatch = sealBatch cipher) {buf : List Handed}
    {batch : QueuedBatch} {row : MessageItem} (seals : Seals options buf batch)
    (stored : box? batch = some row.content) :
    openBatch (openBox cipher) row = buf.map Handed.envelope := by
  obtain ⟨minted, rfl⟩ := seals
  have boxed : some (options.sealBatch buf minted.nonce) = some row.content := stored
  rw [openBatch, ← Option.some.inj boxed, keyed, sealBatch, open_sealBox]
  exact congrArg (Option.getD · []) (read_items buf)

/-- The rows of batches open to what was sealed in them. -/
theorem read_stored (keyed : options.sealBatch = sealBatch cipher) {said : List (List Handed)}
    {stored : List QueuedBatch} (seals : List.Forall₂ (Seals options) said stored)
    {rows : List MessageItem}
    (same : rows.map (fun row => (row.localId, some row.content)) =
      stored.map (fun batch => (some batch.localId, box? batch))) :
    batches (openBox cipher) rows = said.map (List.map Handed.envelope) := by
  induction seals generalizing rows with
  | nil => rw [List.map_eq_nil_iff.mp same]; rfl
  | cons first _ inductionHypothesis =>
    cases rows with
    | nil => contradiction
    | cons row rows =>
      obtain ⟨now, later⟩ := List.cons.inj same
      rw [batches, List.map_cons, List.map_cons, open_sealed keyed first (Prod.mk.inj now).2.symm]
      exact congrArg _ (inductionHypothesis later)

/-- Whether a step fits can be tested. -/
instance (link : Uplink Handed) :
    (event : Uplink.Event Handed Nat) → Decidable (Uplink.Fits options link event)
  | .client event => inferInstanceAs (Decidable (∀ new ∈ sealed? options link.outbox event,
      (link.outbox.queue.map QueuedBatch.bytes).sum + new.bytes ≤ options.maxQueueBytes))
  | .send _ | .foreign _ _ | .server _ | .hear => isTrue trivial

end Browser

/-- A text of the agent. -/
def noteJson : Json := rootEnvelope "note" 10 [("t", .str "text"), ("md", .str "hi")]

def note : Handed :=
  have isNote : (readSessionEnvelope (some noteJson)).isSome := by decide +kernel
  ⟨noteJson, rfl, (readSessionEnvelope (some noteJson)).get isNote, (Option.some_get isNote).symm⟩

def noteOptions : Options Handed Nat := ⟨sealBatch plainCipher, 1, 1000⟩

/-- The text is posted, stored and acknowledged. -/
def notePosted : List (Uplink.Event Handed Nat) :=
  [.client (.enqueue [note] ⟨"first", 0⟩), .send 0, .server (.selectSession 0),
    .server (.selectExisting 0), .server (.allocMsgSeq 0), .server (.insert 0 5),
    .server (.commit 0), .server (.finish 0), .hear, .client .resume]

end Kvy.Web.Sync
