import Kvy.Web.Sync.Pages
import Kvy.Web.Sync.Reducer.Refetch
import Kvy.Web.Sync.Reducer.RootEvents

/-!
# From message pages to the transcript

The client opens every row of the pages it holds, newest row first, and folds the batches
into the transcript. Opening needs the session's key and is a parameter. The reducer sorts
by time, so the pages show the transcript of the log when no time occurs in two rows; two
root events of one time in different rows always show in the wrong order.
-/

namespace Kvy.Web.Sync

open General Wire Server.App

/-- The batch of a row: empty when it does not open or does not fit the schema. -/
def openBatch (crypto : EncryptedBox → Option Json) (row : MessageItem) : List SessionEnvelope :=
  match crypto row.content with
  | none => []
  | some opened => (Schema.array readSessionEnvelope (some opened)).getD []

/-- `decryptMessageBatches`. -/
def decryptMessageBatches (crypto : EncryptedBox → Option Json) (pages : List MessagesPage) :
    List SessionEnvelope :=
  (pages.flatMap MessagesPage.messages).flatMap (openBatch crypto)

/-- Pages that follow the cursors from one on to the oldest row, of whatever sizes. -/
inductive Paged (log : List MessageItem) : Option Nat → List MessagesPage → Prop
  | last {before : Option Nat} {limit : Nat} (positive : 0 < limit)
      (oldest : (listMessages log before limit).nextBefore = none) :
      Paged log before [listMessages log before limit]
  | more {before : Option Nat} {limit cursor : Nat} {rest : List MessagesPage} (positive : 0 < limit)
      (next : (listMessages log before limit).nextBefore = some cursor)
      (others : Paged log (some cursor) rest) :
      Paged log before (listMessages log before limit :: rest)

/-- A page is the newest segment of the rows it is cut from. -/
theorem page_of_segment (log : List MessageItem) (limit count : Nat) :
    (pageOf log limit count).messages = segment log (count - limit) count := rfl

/-- Following the cursors reads the rows below them, newest first. -/
theorem paged_below {log : List MessageItem} (numbered : Numbered log) {before : Option Nat}
    {pages : List MessagesPage} (paged : Paged log before pages) {count : Nat}
    (within : count ≤ log.length)
    (starts : before = some (count + 1) ∨ before = none ∧ count = log.length) :
    pages.flatMap MessagesPage.messages = (log.take count).reverse := by
  have page {before : Option Nat} {limit count : Nat} (positive : 0 < limit)
      (within : count ≤ log.length)
      (starts : before = some (count + 1) ∨ before = none ∧ count = log.length) :
      listMessages log before limit = pageOf log limit count := by
    obtain rfl | ⟨rfl, rfl⟩ := starts
    · have listed := list_below numbered positive within (Nat.le_refl log.length)
      rwa [List.take_length] at listed
    · have listed := list_newest numbered positive (Nat.le_refl log.length)
      rwa [List.take_length] at listed
  induction paged generalizing count with
  | @last _ limit positive oldest =>
    rw [page positive within starts] at oldest ⊢
    simp only [List.flatMap_cons, List.flatMap_nil, List.append_nil, page_of_segment]
    have whole : count - limit = 0 := by
      by_contra nonzero
      simp [pageOf, nonzero] at oldest
    rw [whole, segment, List.drop_zero]
  | @more _ limit cursor rest positive next others inductionHypothesis =>
    rw [page positive within starts] at next ⊢
    have nonzero : count - limit ≠ 0 := by
      intro zero
      simp [pageOf, zero] at next
    have cursorIs : cursor = count - limit + 1 := by
      have unfolded : some (count - limit + 1) = some cursor := by simpa [pageOf, nonzero] using next
      exact (Option.some.inj unfolded).symm
    have below : rest.flatMap MessagesPage.messages = (log.take (count - limit)).reverse :=
      inductionHypothesis (by omega) (Or.inl (by rw [cursorIs]))
    rw [List.flatMap_cons, page_of_segment, below]
    have joined := segment_append log (Nat.zero_le (count - limit)) (Nat.sub_le count limit)
    simpa only [segment, List.drop_zero] using joined

/-- Pages followed from the newest row hold the log, newest row first. -/
theorem paged_newest_first {log : List MessageItem} (numbered : Numbered log)
    {pages : List MessagesPage} (paged : Paged log none pages) :
    pages.flatMap MessagesPage.messages = log.reverse := by
  rw [paged_below numbered paged (Nat.le_refl log.length) (Or.inr ⟨rfl, rfl⟩), List.take_length]

/-! ## What the reducer makes of the order -/

variable {envelopes : List SessionEnvelope}

/-- Envelopes with distinct ids are all kept. -/
theorem dedupe_distinct
    (distinct : (envelopes.map SessionEnvelope.id).Nodup) : dedupeById envelopes = envelopes := by
  rw [dedupe_keepFirst, keepFirst_distinct distinct]

variable {crypto : EncryptedBox → Option Json} {log : List MessageItem} {pages : List MessagesPage}

/-- The batches of the log, in the order of its rows. -/
def batches (crypto : EncryptedBox → Option Json) (log : List MessageItem) :
    List (List SessionEnvelope) :=
  log.map (openBatch crypto)

/-- The pages open to the batches in the opposite order. -/
theorem decrypt_reversed (numbered : Numbered log) (paged : Paged log none pages) :
    decryptMessageBatches crypto pages = (batches crypto log).reverse.flatten := by
  rw [decryptMessageBatches, paged_newest_first numbered paged, batches, List.flatMap_def,
    List.map_reverse]

/-- With distinct ids, the reducer sorts what it is given. -/
theorem reduce_distinct
    (distinct : (envelopes.map SessionEnvelope.id).Nodup) :
    reduceEnvelopes envelopes =
      reduceSorted (sortBy (fun env => env.time.toRat) envelopes) := by
  rw [reduceEnvelopes, dedupe_distinct distinct, stableSortByTime, sort_indexed]

/-- The time of a shown event. -/
def shownTime (shown : RenderItemBase × EventItem) : ℚ := shown.1.time.toRat

/-- The transcript of distinct envelopes shows their root events by time. -/
theorem reduce_events
    (distinct : (envelopes.map SessionEnvelope.id).Nodup) :
    (reduceEnvelopes envelopes).filterMap RenderItem.event? =
      sortBy shownTime (envelopes.filterMap rootEvent?) := by
  rw [reduce_distinct distinct, reduce_sorted_events (sort_pairwise _ envelopes)]
  apply filter_map_sort
  intro env shown isShown
  rw [shownTime, root_event_base isShown]
  rfl

/-- Distinct ids make distinct events. -/
theorem root_events_nodup
    (distinct : (envelopes.map SessionEnvelope.id).Nodup) :
    (envelopes.filterMap rootEvent?).Nodup := by
  have apart : envelopes.Pairwise (fun first second => first.id ≠ second.id) :=
    List.pairwise_map.mp distinct
  apply List.Pairwise.filterMap rootEvent? _ apart
  intro first second differ shown isShown other otherShown same
  apply differ
  have bases : baseOf first = baseOf second := by
    rw [← root_event_base isShown, ← root_event_base otherShown, same]
  exact congrArg RenderItemBase.id bases

/-- Pages show the transcript of their log when no time occurs in two rows, and only when no
two root events of different rows have one time. -/
theorem paging_keeps_transcript (numbered : Numbered log)
    (distinct : ((log.flatMap (openBatch crypto)).map SessionEnvelope.id).Nodup)
    (paged : Paged log none pages) :
    (Untied (fun env => env.time.toRat) (batches crypto log) →
      reduceEnvelopes (decryptMessageBatches crypto pages) =
        reduceEnvelopes (log.flatMap (openBatch crypto))) ∧
    (reduceEnvelopes (decryptMessageBatches crypto pages) =
        reduceEnvelopes (log.flatMap (openBatch crypto)) →
      Untied shownTime ((batches crypto log).map (List.filterMap rootEvent?))) := by
  have written : log.flatMap (openBatch crypto) = (batches crypto log).flatten := by
    rw [List.flatMap_def, batches]
  rw [written] at distinct ⊢
  rw [decrypt_reversed numbered paged]
  have reversedDistinct : ((batches crypto log).reverse.flatten.map SessionEnvelope.id).Nodup :=
    (((List.reverse_perm _).flatten.map _).nodup_iff).mpr distinct
  constructor
  · intro untied
    rw [reduce_distinct reversedDistinct, reduce_distinct distinct,
      (sort_reverse_iff _ (distinct.of_map _)).mpr untied]
  · intro same
    have events := congrArg (List.filterMap RenderItem.event?) same
    rw [reduce_events reversedDistinct, reduce_events distinct, List.filterMap_flatten,
      List.filterMap_flatten, List.map_reverse] at events
    apply (sort_reverse_iff shownTime _).mp events
    rw [← List.filterMap_flatten]
    exact root_events_nodup distinct

/-- An envelope of the root scope as JSON. -/
def rootEnvelope (id : String) (time : Int) (ev : List (String × Json)) : Json :=
  .obj [("id", .str id), ("time", .num (Decimal.ofInt time)), ("role", .str "agent"), ("ev", .obj ev)]

/-- The log of one tool call: its start is flushed in the first row and its end in the second. -/
def toolLog : List MessageItem := [⟨1, none, ⟨"started"⟩, 10⟩, ⟨2, none, ⟨"ended"⟩, 10⟩]

/-- What the rows of the tool call hold when the call ends at the given time. -/
def openTool (ended : Int) (box : EncryptedBox) : Option Json :=
  if box.c = "started" then
    some (.arr [rootEnvelope "start" 10
      [("t", .str "tool-start"), ("call", .str "c"), ("name", .str "Bash"), ("args", .null)]])
  else some (.arr [rootEnvelope "end" ended
    [("t", .str "tool-end"), ("call", .str "c"), ("ok", .bool true)]])

theorem tool_log_numbered : Numbered toolLog := by
  intro index item held
  match index with
  | 0 | 1 =>
    cases held
    rfl
  | index + 2 => simp [toolLog] at held

theorem tool_log_paged : Paged toolLog none [listMessages toolLog none 50] :=
  Paged.last (by decide) (by decide)

/-- A later end: both orders of the rows show the call as done. -/
theorem later_end_shows :
    Numbered toolLog ∧
    ((toolLog.flatMap (openBatch (openTool 11))).map SessionEnvelope.id).Nodup ∧
    Paged toolLog none [listMessages toolLog none 50] ∧
    reduceEnvelopes (decryptMessageBatches (openTool 11) [listMessages toolLog none 50]) =
      reduceEnvelopes (toolLog.flatMap (openBatch (openTool 11))) := by
  have distinct : ((toolLog.flatMap (openBatch (openTool 11))).map SessionEnvelope.id).Nodup := by
    decide +kernel
  have untied : Untied (fun env => env.time.toRat) (batches (openTool 11) toolLog) := by
    unfold Untied
    decide +kernel
  exact ⟨tool_log_numbered, distinct, tool_log_paged,
    (paging_keeps_transcript tool_log_numbered distinct tool_log_paged).1 untied⟩

/-- An end in the same millisecond is folded before the start: an orphan, beside a call that
runs for ever. -/
theorem same_time_orphans_end :
    ¬ ∀ (crypto : EncryptedBox → Option Json) (log : List MessageItem) (pages : List MessagesPage),
      Numbered log →
      (∀ row ∈ log, ∃ opened batch, crypto row.content = some opened ∧
        Schema.array readSessionEnvelope (some opened) = some batch) →
      ((log.flatMap (openBatch crypto)).map SessionEnvelope.id).Nodup →
      (log.flatMap (openBatch crypto)).Pairwise
        (fun first second => first.time.toRat ≤ second.time.toRat) →
      Paged log none pages →
      reduceEnvelopes (decryptMessageBatches crypto pages) =
        reduceEnvelopes (log.flatMap (openBatch crypto)) := by
  intro independent
  have same := independent (openTool 10) toolLog [listMessages toolLog none 50] tool_log_numbered
    (by
      intro row member
      have opens : (openTool 10 row.content).isSome ∧
          ((openTool 10 row.content).bind
            (fun opened => Schema.array readSessionEnvelope (some opened))).isSome := by
        revert row
        decide +kernel
      obtain ⟨batch, reads⟩ := Option.isSome_iff_exists.mp opens.2
      obtain ⟨opened, isOpened, isRead⟩ := Option.bind_eq_some_iff.mp reads
      exact ⟨opened, batch, isOpened, isRead⟩)
    (by decide +kernel) (by decide +kernel) tool_log_paged
  have ids := congrArg (List.map (fun item => item.base.id)) same
  exact absurd ids (by decide +kernel)

end Kvy.Web.Sync
