import Kvy.Wire.Rows
import Mathlib.Data.List.TakeDrop

/-!
# Message pages

`GET /v1/sessions/:id/messages` returns the newest rows below a cursor, newest first,
and a cursor for the rows below them. On the rows of a session in the order of their
numbers, following the cursors cuts the log into segments from its end.
-/

namespace Kvy.Server.App

open Wire

/-- `MessageItemSchema`. -/
structure MessageItem where
  seq : Nat
  localId : Option String
  content : EncryptedBox
  createdAt : Int
deriving DecidableEq

/-- `ListMessagesResponseSchema`. -/
structure MessagesPage where
  messages : List MessageItem
  nextBefore : Option Nat
deriving DecidableEq

/-- The handler of the list route, on the rows of the session in ascending order. -/
def listMessages (stored : List MessageItem) (before : Option Nat) (limit : Nat) : MessagesPage :=
  let below := stored.filter (fun row => before.all (fun cursor => row.seq < cursor))
  let rows := below.reverse.take (limit + 1)
  if limit < rows.length then
    let page := rows.take limit
    ⟨page, page.getLast?.map MessageItem.seq⟩
  else ⟨rows, none⟩

/-- The rows are numbered from one, in order. -/
def Numbered (log : List MessageItem) : Prop :=
  ∀ index item, log[index]? = some item → item.seq = index + 1

/-- The page of the newest `limit` rows among the first `count`. -/
def pageOf (log : List MessageItem) (limit count : Nat) : MessagesPage where
  messages := ((log.take count).drop (count - limit)).reverse
  nextBefore := if count - limit = 0 then none else some (count - limit + 1)

/-- The rows below a cursor are the first ones. -/
theorem filter_below {log : List MessageItem} (numbered : Numbered log) {cursor count : Nat}
    (within : cursor ≤ count) :
    (log.take count).filter (fun row => row.seq < cursor + 1) = log.take cursor := by
  have split : log.take count = log.take cursor ++ (log.take count).drop cursor := by
    have parts := List.take_append_drop cursor (log.take count)
    rw [List.take_take, Nat.min_eq_left within] at parts
    exact parts.symm
  have kept : (log.take cursor).filter (fun row => row.seq < cursor + 1) = log.take cursor := by
    apply List.filter_eq_self.mpr
    intro row member
    obtain ⟨index, entry⟩ := List.mem_iff_getElem?.mp member
    rw [List.getElem?_take] at entry
    split at entry
    · simp only [numbered index row entry, decide_eq_true_eq]
      omega
    · contradiction
  have dropped : ((log.take count).drop cursor).filter (fun row => row.seq < cursor + 1) = [] := by
    apply List.filter_eq_nil_iff.mpr
    intro row member
    obtain ⟨index, entry⟩ := List.mem_iff_getElem?.mp member
    rw [List.getElem?_drop, List.getElem?_take] at entry
    split at entry
    · simp only [numbered _ row entry, decide_eq_true_eq]
      omega
    · contradiction
  rw [split, List.filter_append, kept, dropped, List.append_nil]

/-- The page cut from the first rows, newest first. -/
theorem page_rows (log : List MessageItem) (numbered : Numbered log) {limit count : Nat}
    (positive : 0 < limit) (within : count ≤ log.length) :
    (let rows := (log.take count).reverse.take (limit + 1)
      if limit < rows.length then
        let page := rows.take limit
        (⟨page, page.getLast?.map MessageItem.seq⟩ : MessagesPage)
      else ⟨rows, none⟩) = pageOf log limit count := by
  have length : (log.take count).length = count := by simp [within]
  have segment (size : Nat) : (log.take count).reverse.take size =
      ((log.take count).drop (count - size)).reverse := by
    rw [List.take_reverse, length]
  by_cases more : limit < count
  · have long : limit < ((log.take count).reverse.take (limit + 1)).length := by
      simp [length]
      omega
    have page : ((log.take count).reverse.take (limit + 1)).take limit =
        ((log.take count).drop (count - limit)).reverse := by
      rw [List.take_take, Nat.min_eq_left (Nat.le_succ limit), segment]
    have oldest : (log.take count)[count - limit]? = some log[count - limit] := by
      rw [List.getElem?_take_of_lt (by omega), List.getElem?_eq_getElem]
    have cursor : ((log.take count).drop (count - limit)).reverse.getLast?.map MessageItem.seq =
        some (count - limit + 1) := by
      rw [List.getLast?_reverse, List.head?_drop, oldest, Option.map_some,
        numbered (count - limit) _ (List.getElem?_eq_getElem (by omega))]
    have nonzero : count - limit ≠ 0 := by omega
    simp only [long, ↓reduceIte, page, cursor, pageOf, nonzero]
  · have short : ¬ limit < ((log.take count).reverse.take (limit + 1)).length := by
      simp [length]
      omega
    have whole : (log.take count).reverse.take (limit + 1) = (log.take count).reverse := by
      apply List.take_of_length_le
      simp [length]
      omega
    have zero : count - limit = 0 := by omega
    simp only [whole, ↓reduceIte, pageOf, zero, List.drop_zero]
    rw [whole] at short
    simp only [short, ↓reduceIte]

/-- The first page holds the newest rows. -/
theorem list_newest {log : List MessageItem} (numbered : Numbered log) {limit count : Nat}
    (positive : 0 < limit) (within : count ≤ log.length) :
    listMessages (log.take count) none limit = pageOf log limit count := by
  rw [← page_rows log numbered positive within]
  simp [listMessages]

/-- The page below a cursor is the newest page of the rows below it. -/
theorem list_below {log : List MessageItem} (numbered : Numbered log) {limit count cursor : Nat}
    (positive : 0 < limit) (below : cursor ≤ count) (within : count ≤ log.length) :
    listMessages (log.take count) (some (cursor + 1)) limit = pageOf log limit cursor := by
  have rows := filter_below numbered below
  rw [← page_rows log numbered positive (Nat.le_trans below within)]
  simp only [listMessages, Option.all_some, rows]

end Kvy.Server.App
