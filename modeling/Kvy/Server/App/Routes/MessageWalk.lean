import Kvy.General.Paging
import Kvy.Server.App.Routes.MessageList

/-!
# Walking a session's messages

A client asks for the newest page of a session and then follows the `before` cursors until
none is returned, while new messages are appended between its requests. The log is a
keyset whose cursors are exact, so the walk returns the rows of the first request.
-/

namespace Kvy.Server.App

open General

/-- The `limit` that `ListMessagesQuerySchema` accepts. -/
structure PageLimit where
  value : Nat
  positive : 0 < value
  within : value ≤ 200

/-- The `before` that `ListMessagesQuerySchema` accepts. -/
def acceptsBefore (before : Option Nat) : Bool := before.all (fun cursor => 0 < cursor)

/-- The rows of one session at each request of a walk. Rows are only appended, with numbers
above those stored before. -/
structure MessageLogs where
  stored : Nat → List MessageItem
  appended : ∀ request, stored request <+: stored (request + 1)
  ascending : ∀ request, (stored request).Pairwise (fun first second => first.seq < second.seq)
  numbered : ∀ request, ∀ row ∈ stored request, 0 < row.seq

/-- Follow the cursors from one request on. Absent when a query is refused or the fuel of the
model is used up. -/
def walkMessages (logs : MessageLogs) (limit : PageLimit) :
    Nat → Nat → Option Nat → Option (List MessageItem)
  | 0, _, _ => none
  | fuel + 1, request, before =>
    if acceptsBefore before then
      let page := listMessages (logs.stored request) before limit.value
      match page.nextBefore with
      | none => some page.messages
      | some cursor =>
        (walkMessages logs limit fuel (request + 1) (some cursor)).map (page.messages ++ ·)
    else none

/-- Messages are paged by their numbers. -/
def messageKeyset : Keyset MessageItem Nat := ⟨MessageItem.seq, fun cursor row => row.seq < cursor⟩

/-- The route returns a page of the rows, newest first. -/
theorem list_messages_page (stored : List MessageItem) (before : Option Nat) (limit : Nat) :
    listMessages stored before limit =
      ⟨(messageKeyset.page stored.reverse before limit).1,
        (messageKeyset.page stored.reverse before limit).2⟩ := by
  have below : messageKeyset.rowsBelow stored.reverse before =
      (stored.filter (fun row => before.all (fun cursor => row.seq < cursor))).reverse := by
    simp only [Keyset.rowsBelow, List.filter_reverse, messageKeyset]
  simp only [listMessages, Keyset.page, below]
  split
  · rfl
  · rfl

namespace MessageLogs
variable (logs : MessageLogs)

/-- The first rows stay in front. -/
theorem stored_prefix (request : Nat) : logs.stored 0 <+: logs.stored request := by
  induction request with
  | zero => exact List.prefix_rfl
  | succ request inductionHypothesis => exact inductionHypothesis.trans (logs.appended request)

/-- Later rows lie above every cursor of the first ones. -/
theorem rows_below (request : Nat) (row : MessageItem) (member : row ∈ (logs.stored 0).reverse) :
    messageKeyset.rowsBelow (logs.stored request).reverse (some row.seq) =
      messageKeyset.rowsBelow (logs.stored 0).reverse (some row.seq) := by
  obtain ⟨more, grown⟩ := logs.stored_prefix request
  have ascending := logs.ascending request
  rw [← grown, List.pairwise_append] at ascending
  have above : more.reverse.filter (fun later => later.seq < row.seq) = [] := by
    apply List.filter_eq_nil_iff.mpr
    intro later laterMember
    have order := ascending.2.2 row (List.mem_reverse.mp member) later
      (List.mem_reverse.mp laterMember)
    simp only [decide_eq_true_eq]
    omega
  simp only [Keyset.rowsBelow, messageKeyset, ← grown, List.reverse_append, List.filter_append,
    Option.all_some, above, List.nil_append]

/-- The rows of a request, newest first, descend. -/
theorem descending (request : Nat) :
    (logs.stored request).reverse.Pairwise (fun first second => second.seq < first.seq) := by
  rw [List.pairwise_reverse]
  exact logs.ascending request

theorem descends : messageKeyset.Descends (logs.stored 0).reverse where
  never := by
    intro seen last left split row member
    have order := logs.descending 0
    have joined : seen ++ last :: left = (seen ++ [last]) ++ left := by simp
    rw [split, List.pairwise_append, List.pairwise_cons] at order
    rcases List.mem_append.mp member with before | same
    · have above := order.2.2 row before last (by simp)
      simp only [messageKeyset, decide_eq_false_iff_not]
      omega
    · obtain rfl : row = last := by simpa using same
      simp [messageKeyset]
  stays := by
    apply (logs.descending 0).imp
    intro first second order cursor below
    simp only [messageKeyset, decide_eq_true_eq] at below ⊢
    omega

/-- The row after a cursor lies below it. -/
theorem continues (limit : Nat) : messageKeyset.Continues (logs.stored 0).reverse limit := by
  intro index last first _ isLast isNext
  have order := List.pairwise_iff_getElem.mp (logs.descending 0) index (index + 1)
    (List.getElem?_eq_some_iff.mp isLast).1 (List.getElem?_eq_some_iff.mp isNext).1
    (Nat.lt_succ_self index)
  obtain ⟨_, rfl⟩ := List.getElem?_eq_some_iff.mp isLast
  obtain ⟨_, rfl⟩ := List.getElem?_eq_some_iff.mp isNext
  simpa [messageKeyset] using order

/-- No query of a walk is refused, so the walk is that of the keyset. -/
theorem walk_keyset (limit : PageLimit) (fuel request : Nat) (before : Option Nat)
    (accepted : acceptsBefore before = true) :
    walkMessages logs limit fuel request before =
      messageKeyset.walk (fun request => (logs.stored request).reverse) limit.value fuel request
        before := by
  induction fuel generalizing request before with
  | zero => rfl
  | succ fuel inductionHypothesis =>
    simp only [walkMessages, Keyset.walk, accepted, ↓reduceIte, list_messages_page]
    cases listed : messageKeyset.page (logs.stored request).reverse before limit.value with
    | mk found next =>
      cases next with
      | none => rfl
      | some cursor =>
        obtain ⟨row, member, rfl⟩ := Keyset.page_cursor listed
        have held : row ∈ logs.stored request :=
          List.mem_reverse.mp (List.mem_filter.mp member).1
        have positive : acceptsBefore (some (messageKeyset.of row)) = true := by
          simpa [acceptsBefore, messageKeyset] using logs.numbered request row held
        simp only [inductionHypothesis (request + 1) _ positive]

end MessageLogs

end Kvy.Server.App
