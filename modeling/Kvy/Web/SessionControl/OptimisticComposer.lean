import Kvy.General.Claims
import Kvy.Web.Sync.Reducer.Refetch
import Kvy.Web.Sync.Reducer.RootEvents

/-!
# Pending messages and the transcript

A message sent from the composer is shown as pending until the transcript accounts for it: by
an item with its id, by a user text with its text that no earlier pending message has claimed,
or, for a queued message, by a turn that ended at or after the time it was sent.
-/

namespace Kvy.Web.SessionControl

open General Web.Sync

/-- What a pending message carries. -/
inductive PendingKind where
  | text (text : String)
  | file (name : String) (size : Decimal)
deriving DecidableEq

/-- `PendingMessage`. -/
structure PendingMessage where
  kind : PendingKind
  localId : String
  sentAt : Decimal
  queued : Bool
deriving DecidableEq

/-- The text of a text message. -/
def PendingMessage.text? (message : PendingMessage) : Option String :=
  match message.kind with
  | .text text => some text
  | .file _ _ => none

/-- `MessageRpcStatus`. -/
inductive MessageRpcStatus where
  | queued
  | duplicate
  | outcomeUnknown
deriving DecidableEq

/-- `MessageRpcResult`. -/
structure MessageRpcResult where
  queued : Bool
  status : Option MessageRpcStatus
deriving DecidableEq

/-! ## Items of the transcript -/

/-- The id and the text of a user's text item. -/
def userText? : RenderItemBase × EventItem → Option (String × String)
  | (base, .text md _) => if base.role = .user then some (base.id, md) else none
  | _ => none

/-- The user's text items, by their ids. -/
def landedUserTexts (items : List RenderItem) : List (String × String) :=
  items.filterMap (fun item => item.event?.bind userText?)

/-- The ids of the items. -/
def landedIds (items : List RenderItem) : List String := items.map (fun item => item.base.id)

/-- An item that ends a turn. -/
def isTurnEnd : RenderItem → Bool
  | .event _ (.turnEnd _) => true
  | _ => false

/-- `hasTurnClosedSince`. -/
def hasTurnClosedSince (items : List RenderItem) (sentAt : Decimal) : Bool :=
  items.any (fun item => isTurnEnd item && decide (sentAt.toRat ≤ item.base.time.toRat))

/-! ## Reconciling -/

/-- What accounts for a pending message that is dropped. -/
inductive Reason where
  | id
  | text (item : String)
  | turnEnd
deriving DecidableEq

/-- What accounts for a message, where some text items are claimed already. -/
def reason? (items : List RenderItem) (claimed : List String) (message : PendingMessage) :
    Option Reason :=
  if message.localId ∈ landedIds items then some .id
  else
    match message.text?.bind (firstUnclaimed Prod.snd Prod.fst (landedUserTexts items) claimed) with
    | some landed => some (.text landed.1)
    | none =>
      if message.queued && hasTurnClosedSince items message.sentAt then some .turnEnd else none

/-- The text items claimed after a message that is dropped. -/
def Reason.claim (claimed : List String) : Reason → List String
  | .text item => item :: claimed
  | .id | .turnEnd => claimed

/-- The pending messages in turn, each with what accounts for it. -/
def sortOut (items : List RenderItem) :
    List String → List PendingMessage → List (PendingMessage × Option Reason)
  | _, [] => []
  | claimed, message :: rest =>
    let reason := reason? items claimed message
    (message, reason) :: sortOut items (reason.elim claimed (Reason.claim claimed)) rest

/-- `reconcilePending`. -/
def reconcilePending (pending : List PendingMessage) (items : List RenderItem) :
    List PendingMessage :=
  ((sortOut items [] pending).filter (fun entry => entry.2.isNone)).map Prod.fst

/-- The messages that are dropped, each with what accounts for it. -/
def dropped (pending : List PendingMessage) (items : List RenderItem) :
    List (PendingMessage × Reason) :=
  (sortOut items [] pending).filterMap (fun entry => entry.2.map (fun reason => (entry.1, reason)))

/-- Take a message off the list. -/
def dropMessage (pending : List PendingMessage) (localId : String) : List PendingMessage :=
  pending.filter (fun message => message.localId ≠ localId)

/-- `reconcileByStatus`. -/
def reconcileByStatus (pending : List PendingMessage) (localId : String)
    (result : MessageRpcResult) : List PendingMessage :=
  match result.status with
  | some .duplicate => dropMessage pending localId
  | some .outcomeUnknown => pending
  | some .queued | none =>
    pending.map (fun message =>
      if message.localId = localId then { message with queued := result.queued } else message)

/-! ## Which messages stay -/

@[simp] theorem sortOut_messages (items : List RenderItem) (claimed : List String)
    (pending : List PendingMessage) : (sortOut items claimed pending).map Prod.fst = pending := by
  induction pending generalizing claimed with
  | nil => rfl
  | cons message rest inductionHypothesis => rw [sortOut, List.map_cons, inductionHypothesis]

variable {items : List RenderItem} {message : PendingMessage} {pending : List PendingMessage}

theorem mem_dropped {reason : Reason} :
    (message, reason) ∈ dropped pending items ↔
      (message, some reason) ∈ sortOut items [] pending := by
  simp only [dropped, List.mem_filterMap, Option.map_eq_some_iff, Prod.mk.injEq]
  constructor
  · rintro ⟨⟨held, _⟩, member, _, rfl, rfl, rfl⟩
    exact member
  · intro member
    exact ⟨_, member, reason, rfl, rfl, rfl⟩

/-- Reconciling only drops messages. -/
theorem reconcile_sublist (pending : List PendingMessage) (items : List RenderItem) :
    (reconcilePending pending items).Sublist pending := by
  have kept : ((sortOut items [] pending).filter (fun entry => entry.2.isNone)).Sublist
      (sortOut items [] pending) := List.filter_sublist
  simpa [reconcilePending] using kept.map Prod.fst

/-- A message that does not stay is dropped for a reason. -/
theorem dropped_of_not_mem (held : message ∈ pending)
    (gone : message ∉ reconcilePending pending items) :
    ∃ reason, (message, reason) ∈ dropped pending items := by
  rw [← sortOut_messages items [] pending] at held
  obtain ⟨⟨_, reason⟩, member, rfl⟩ := List.mem_map.mp held
  cases reason with
  | none =>
    refine absurd (List.mem_map.mpr ⟨_, List.mem_filter.mpr ⟨member, rfl⟩, rfl⟩) gone
  | some reason => exact ⟨reason, mem_dropped.mpr member⟩

/-- A dropped message was pending. -/
theorem pending_of_dropped {reason : Reason} (gone : (message, reason) ∈ dropped pending items) :
    message ∈ pending :=
  sortOut_messages items [] pending ▸ List.mem_map_of_mem (mem_dropped.mp gone)

/-! ## Texts are claimed in turn -/

/-- The text a message waits for: its own, unless an item has its id. -/
def waitsFor (items : List RenderItem) (message : PendingMessage) : Option String :=
  if message.localId ∈ landedIds items then none else message.text?

/-- What accounts for a message, from the text item it claims. -/
def reasonFor (items : List RenderItem) (message : PendingMessage)
    (claim : Option (String × String)) : Option Reason :=
  if message.localId ∈ landedIds items then some .id
  else
    match claim with
    | some landed => some (.text landed.1)
    | none =>
      if message.queued && hasTurnClosedSince items message.sentAt then some .turnEnd else none

theorem reason_reasonFor (items : List RenderItem) (claimed : List String)
    (message : PendingMessage) :
    reason? items claimed message = reasonFor items message ((waitsFor items message).bind
      (firstUnclaimed Prod.snd Prod.fst (landedUserTexts items) claimed)) := by
  unfold reason? waitsFor reasonFor
  split <;> rfl

/-- A message that claims no text item leaves what is claimed as it was. -/
theorem claim_none (items : List RenderItem) (message : PendingMessage) (claimed : List String) :
    (reasonFor items message none).elim claimed (Reason.claim claimed) = claimed := by
  unfold reasonFor
  split
  · rfl
  · dsimp only
    split <;> rfl

/-- A message that waits for a text and claims an item adds the item to what is claimed. -/
theorem claim_some {text : String}
    (waits : waitsFor items message = some text) (landed : String × String)
    (claimed : List String) :
    (reasonFor items message (some landed)).elim claimed (Reason.claim claimed) =
      landed.1 :: claimed := by
  have absent : message.localId ∉ landedIds items := by
    intro present
    rw [waitsFor, if_pos present] at waits
    contradiction
  rw [reasonFor, if_neg absent]
  rfl

/-- Sorting out lets the waiting messages claim the text items in turn. -/
theorem sortOut_claims (items : List RenderItem) (claimed : List String)
    (pending : List PendingMessage) :
    sortOut items claimed pending =
      (claims (waitsFor items) Prod.snd Prod.fst (landedUserTexts items) claimed pending).map
        (fun entry => (entry.1, reasonFor items entry.1 entry.2)) := by
  induction pending generalizing claimed with
  | nil => rfl
  | cons message rest inductionHypothesis =>
    rw [sortOut, claims]
    simp only [reason_reasonFor, inductionHypothesis]
    cases claim : (waitsFor items message).bind
        (firstUnclaimed Prod.snd Prod.fst (landedUserTexts items) claimed) with
    | none => rw [claim_none, List.map_cons]
    | some landed =>
      obtain ⟨text, waits, -⟩ := Option.bind_eq_some_iff.mp claim
      rw [claim_some waits, List.map_cons]

/-- The text items of a transcript have their own ids. -/
def DistinctTexts (items : List RenderItem) : Prop :=
  ((landedUserTexts items).map Prod.fst).Nodup

/-- The messages that wait for a text. -/
def waiting (pending : List PendingMessage) (items : List RenderItem) (text : String) :
    List PendingMessage :=
  pending.filter (fun message => waitsFor items message = some text)

/-- The text items with a text. -/
def landedTexts (items : List RenderItem) (text : String) : List (String × String) :=
  (landedUserTexts items).filter (fun landed => landed.2 = text)

/-- The messages that wait for a text and the items with it, each opposite to the other. -/
def opposite (pending : List PendingMessage) (items : List RenderItem) (text : String) :
    List (PendingMessage × (String × String)) :=
  (waiting pending items text).zip (landedTexts items text)

/-- What the claims tell of a dropped message. -/
theorem claim_of_dropped {reason : Reason} (gone : (message, reason) ∈ dropped pending items) :
    ∃ claim, (message, claim) ∈ claims (waitsFor items) Prod.snd Prod.fst (landedUserTexts items)
      [] pending ∧ reasonFor items message claim = some reason := by
  have member := mem_dropped.mp gone
  rw [sortOut_claims] at member
  obtain ⟨⟨held, claim⟩, among, same⟩ := List.mem_map.mp member
  obtain ⟨rfl, told⟩ := Prod.mk.injEq .. ▸ same
  exact ⟨claim, among, told⟩

/-- A message dropped for its id has an item with its id. -/
theorem landed_of_dropped (gone : (message, .id) ∈ dropped pending items) :
    message.localId ∈ landedIds items := by
  obtain ⟨claim, -, told⟩ := claim_of_dropped gone
  by_contra absent
  cases claim with
  | some landed => simp [reasonFor, absent] at told
  | none =>
    simp only [reasonFor, absent, if_false] at told
    split at told <;> contradiction

/-- A message dropped for a text item claims that item. -/
theorem claim_of_text {item : String} (gone : (message, .text item) ∈ dropped pending items) :
    ∃ text, (message, some (item, text)) ∈ claims (waitsFor items) Prod.snd Prod.fst
      (landedUserTexts items) [] pending := by
  obtain ⟨claim, among, told⟩ := claim_of_dropped gone
  unfold reasonFor at told
  split at told
  · cases told
  · cases claim with
    | some landed =>
      obtain rfl : landed.1 = item := by simpa using told
      exact ⟨landed.2, among⟩
    | none =>
      dsimp only at told
      split at told <;> cases told

/-- A message dropped for a text item stands opposite to it. -/
theorem opposite_of_text (distinct : DistinctTexts items) {item : String}
    (gone : (message, .text item) ∈ dropped pending items) :
    ∃ text, message.text? = some text ∧ (message, (item, text)) ∈ opposite pending items text := by
  obtain ⟨text, among⟩ := claim_of_text gone
  obtain ⟨-, -, wish⟩ := claimed_item among
  have own : message.text? = some text := by
    unfold waitsFor at wish
    split at wish
    · contradiction
    · exact wish
  exact ⟨text, own, claimed_opposite distinct wish among⟩

/-- No text item is claimed by two messages. -/
theorem text_claimed_once {other : PendingMessage} {item : String}
    (first : (message, .text item) ∈ dropped pending items)
    (second : (other, .text item) ∈ dropped pending items) : message = other := by
  obtain ⟨_, claim⟩ := claim_of_text first
  obtain ⟨_, again⟩ := claim_of_text second
  exact claimed_once claim again rfl

/-- A message dropped for the end of a turn is queued, no item has its id, a turn ended since it
was sent, and it stands opposite to no item with its text. -/
theorem turn_of_dropped (distinct : DistinctTexts items) (apart : pending.Nodup)
    (gone : (message, .turnEnd) ∈ dropped pending items) :
    message.queued = true ∧ message.localId ∉ landedIds items ∧
      hasTurnClosedSince items message.sentAt = true ∧
        ∀ text, message.text? = some text → message ∉ (opposite pending items text).map Prod.fst := by
  obtain ⟨claim, among, told⟩ := claim_of_dropped gone
  unfold reasonFor at told
  split at told
  · cases told
  · rename_i absent
    cases claim with
    | some landed => cases told
    | none =>
      simp only [Option.ite_none_right_eq_some, and_true, Bool.and_eq_true] at told
      refine ⟨told.1, absent, told.2, ?_⟩
      intro text own
      have wish : waitsFor items message = some text := by rw [waitsFor, if_neg absent, own]
      exact unclaimed_opposite distinct apart wish among

/-! ## The items of a transcript -/

theorem landedUserTexts_events (items : List RenderItem) :
    landedUserTexts items = (items.filterMap RenderItem.event?).filterMap userText? := by
  rw [landedUserTexts, List.filterMap_filterMap]

/-- The text item an envelope shows. -/
def shownText? (env : Wire.SessionEnvelope) : Option (String × String) :=
  (rootEvent? env).bind userText?

/-- The text item of an envelope has the envelope's id. -/
theorem shownText_id {env : Wire.SessionEnvelope} {landed : String × String}
    (shown : shownText? env = some landed) : landed.1 = env.id := by
  obtain ⟨⟨base, item⟩, event, text⟩ := Option.bind_eq_some_iff.mp shown
  have sameBase : base = baseOf env := root_event_base event
  cases item with
  | text md thinking =>
    simp only [userText?, Option.ite_none_right_eq_some, Option.some.injEq] at text
    rw [← text.2, sameBase]
    rfl
  | service | file | turnStart | turnEnd | modeSwitch | permissionMode | subStart | subStop
  | usage | plan => cases text

/-- What selects items with their envelopes' ids selects distinct ids from distinct ones. -/
theorem nodup_of_shown {envelopes : List Wire.SessionEnvelope}
    (distinct : (envelopes.map Wire.SessionEnvelope.id).Nodup) :
    ((envelopes.filterMap shownText?).map Prod.fst).Nodup := by
  induction envelopes with
  | nil => exact List.nodup_nil
  | cons env rest inductionHypothesis =>
    obtain ⟨fresh, later⟩ := List.nodup_cons.mp distinct
    cases shown : shownText? env with
    | none => simpa [shown] using inductionHypothesis later
    | some landed =>
      rw [List.filterMap_cons_some shown, List.map_cons, List.nodup_cons]
      refine ⟨?_, inductionHypothesis later⟩
      intro again
      obtain ⟨other, member, same⟩ := List.mem_map.mp again
      obtain ⟨source, held, showsOther⟩ := List.mem_filterMap.mp member
      apply fresh
      rw [← shownText_id shown, ← same, shownText_id showsOther]
      exact List.mem_map_of_mem held

/-- The text items of a reduced transcript have their own ids. -/
theorem reduced_distinct (envelopes : List Wire.SessionEnvelope) :
    DistinctTexts (reduceEnvelopes envelopes) := by
  let kept := keepFirst Wire.SessionEnvelope.id envelopes
  let sorted := sortBy (fun env : Wire.SessionEnvelope => env.time.toRat) kept
  have ordered : sorted.Pairwise (fun first second => first.time.toRat ≤ second.time.toRat) :=
    sort_pairwise _ kept
  have distinct : (sorted.map Wire.SessionEnvelope.id).Nodup :=
    (((sort_perm _ kept).map _).nodup_iff).mpr (keepFirst_nodup _)
  rw [DistinctTexts, landedUserTexts_events, reduce_kept, reduce_sorted_events ordered,
    List.filterMap_filterMap]
  exact nodup_of_shown distinct

end Kvy.Web.SessionControl
