import Kvy.Web.Sync.Engine

/-!
# Cached message pages

Refetching a session's pages follows the cursors from the newest row down, and fetching
one page more continues at the last cursor. Either way, and after each message put in
front, the cached pages hold one segment of the session's log, newest row first.
-/

namespace Kvy.Web.Sync

open General Wire Server.App

/-- The pages of a refetch: one, and as many more as were cached and still exist. -/
def refetchPages (stored : List MessageItem) (limit : Nat) : Nat → Option Nat → List MessagesPage
  | 0, before => [listMessages stored before limit]
  | more + 1, before =>
    let page := listMessages stored before limit
    match page.nextBefore with
    | none => [page]
    | some cursor => page :: refetchPages stored limit more (some cursor)

/-- What a message query reads: `fetchNextPage` appends to the data it started from, and
any other fetch replaces it. -/
def readPages (stored : List MessageItem) (limit more : Nat) :
    Option MessagesQueryData → MessagesQueryData
  | none => ⟨refetchPages stored limit more none⟩
  | some base =>
    match base.pages.getLast?.bind MessagesPage.nextBefore with
    | none => base
    | some cursor => ⟨base.pages ++ [listMessages stored (some cursor) limit]⟩

/-- What an item shares with the row it shows; the delivery time is not the stored one. -/
def itemKey (item : MessageItem) : Nat × Option String × EncryptedBox :=
  (item.seq, item.localId, item.content)

/-- The rows above `low` up to `high`, newest first. -/
def segment (log : List MessageItem) (low high : Nat) : List MessageItem :=
  ((log.take high).drop low).reverse

/-- The cached pages show the rows above `low` up to `high`. -/
structure Window (log : List MessageItem) (data : MessagesQueryData) (low high : Nat) : Prop where
  ordered : low ≤ high
  within : high ≤ log.length
  items : (data.pages.flatMap MessagesPage.messages).map itemKey = (segment log low high).map itemKey
  cursor : ∃ page, data.pages.getLast? = some page ∧
    page.nextBefore = if low = 0 then none else some (low + 1)
  newest : msgSeqBaseline data = high

variable {high low : Nat}

/-- Adjacent segments join. -/
theorem segment_append (log : List MessageItem) {middle : Nat} (lower : low ≤ middle)
    (upper : middle ≤ high) :
    segment log middle high ++ segment log low middle = segment log low high := by
  have split : (log.take high).drop low =
      (log.take middle).drop low ++ (log.take high).drop middle := by
    have parts := List.take_append_drop (middle - low) ((log.take high).drop low)
    rw [List.drop_drop, Nat.add_sub_cancel' lower, List.take_drop, Nat.add_sub_cancel' lower,
      List.take_take, Nat.min_eq_left upper] at parts
    exact parts.symm
  simp only [segment, split, List.reverse_append]

/-- The pages of a refetch, cut from the log. -/
def pagesFrom (log : List MessageItem) (limit : Nat) : Nat → Nat → List MessagesPage
  | 0, count => [pageOf log limit count]
  | more + 1, count =>
    if count - limit = 0 then [pageOf log limit count]
    else pageOf log limit count :: pagesFrom log limit more (count - limit)

variable {count limit : Nat} {log : List MessageItem}

/-- Following the cursors below one cuts the log there. -/
theorem refetch_below (numbered : Numbered log)
    (positive : 0 < limit) (within : count ≤ log.length) (more cursor : Nat)
    (below : cursor ≤ count) :
    refetchPages (log.take count) limit more (some (cursor + 1)) = pagesFrom log limit more cursor := by
  induction more generalizing cursor with
  | zero => simp only [refetchPages, pagesFrom, list_below numbered positive below within]
  | succ more inductionHypothesis =>
    simp only [refetchPages, pagesFrom, list_below numbered positive below within]
    by_cases last : cursor - limit = 0
    · simp [pageOf, last]
    · have rest := inductionHypothesis (cursor - limit) (by omega)
      simp only [pageOf, last, ↓reduceIte]
      rw [rest]

/-- A refetch cuts the log at the rows stored so far. -/
theorem refetch_newest (numbered : Numbered log)
    (positive : 0 < limit) (within : count ≤ log.length) (more : Nat) :
    refetchPages (log.take count) limit more none = pagesFrom log limit more count := by
  cases more with
  | zero => simp only [refetchPages, pagesFrom, list_newest numbered positive within]
  | succ more =>
    simp only [refetchPages, pagesFrom, list_newest numbered positive within]
    by_cases last : count - limit = 0
    · simp [pageOf, last]
    · have rest := refetch_below numbered positive within more (count - limit) (by omega)
      simp only [pageOf, last, ↓reduceIte]
      rw [rest]

/-- The pages cut from the log form a segment and end with its cursor. -/
theorem pages_from_segment (log : List MessageItem) (limit more count : Nat) :
    ∃ low, low ≤ count ∧
      (pagesFrom log limit more count).flatMap MessagesPage.messages = segment log low count ∧
      ∃ page, (pagesFrom log limit more count).getLast? = some page ∧
        page.nextBefore = if low = 0 then none else some (low + 1) := by
  induction more generalizing count with
  | zero =>
    refine ⟨count - limit, Nat.sub_le count limit, ?_, pageOf log limit count, rfl, rfl⟩
    simp [pagesFrom, pageOf, segment]
  | succ more inductionHypothesis =>
    by_cases last : count - limit = 0
    · refine ⟨count - limit, Nat.sub_le count limit, ?_, pageOf log limit count, ?_, rfl⟩
      · simp [pagesFrom, last, pageOf, segment]
      · simp [pagesFrom, last]
    · obtain ⟨low, below, items, page, final, cursor⟩ := inductionHypothesis (count - limit)
      refine ⟨low, by omega, ?_, page, ?_, cursor⟩
      · simp only [pagesFrom, last, ↓reduceIte, List.flatMap_cons, items]
        exact segment_append log below (Nat.sub_le count limit)
      · simp only [pagesFrom, last, ↓reduceIte]
        rw [List.getLast?_cons, final]
        rfl

/-- The newest row of a segment comes first. -/
theorem segment_succ (log : List MessageItem) (lower : low ≤ high) (known : high < log.length) :
    segment log low (high + 1) = log[high] :: segment log low high := by
  have length : low ≤ (log.take high).length := by
    rw [List.length_take]
    omega
  rw [segment, List.take_succ_eq_append_getElem known, List.drop_append_of_le_length length,
    List.reverse_append]
  rfl

/-- The first page starts with the newest row. -/
theorem page_of_newest (numbered : Numbered log)
    (positive : 0 < limit) (within : count ≤ log.length) (rest : List MessagesPage) :
    msgSeqBaseline ⟨pageOf log limit count :: rest⟩ = count := by
  have messages : (pageOf log limit count).messages = segment log (count - limit) count := rfl
  cases count with
  | zero => simp [msgSeqBaseline, pageOf]
  | succ count =>
    have known : count < log.length := within
    rw [segment_succ log (by omega) known] at messages
    have page : pageOf log limit (count + 1) =
        ⟨log[count] :: segment log (count + 1 - limit) count,
          (pageOf log limit (count + 1)).nextBefore⟩ := by
      rw [← messages]
    rw [page]
    exact numbered count _ (List.getElem?_eq_getElem known)

/-- A refetch shows the rows stored so far. -/
theorem refetch_window (numbered : Numbered log)
    (positive : 0 < limit) (within : count ≤ log.length) (more : Nat) :
    ∃ low, Window log ⟨refetchPages (log.take count) limit more none⟩ low count := by
  rw [refetch_newest numbered positive within]
  obtain ⟨low, below, items, cursor⟩ := pages_from_segment log limit more count
  refine ⟨low, below, within, by rw [items], cursor, ?_⟩
  cases more with
  | zero => exact page_of_newest numbered positive within []
  | succ more =>
    simp only [pagesFrom]
    split
    · exact page_of_newest numbered positive within []
    · exact page_of_newest numbered positive within _

/-- One page more extends the rows shown downwards. -/
theorem next_page_window (numbered : Numbered log)
    (positive : 0 < limit) {more : Nat} (within : count ≤ log.length)
    {base : MessagesQueryData} (window : Window log base low high) (stored : high ≤ count) :
    ∃ lower, Window log (readPages (log.take count) limit more (some base)) lower high := by
  obtain ⟨last, final, cursor⟩ := window.cursor
  simp only [readPages, final, Option.bind_some, cursor]
  by_cases bottom : low = 0
  · simp only [bottom, ↓reduceIte]
    exact ⟨low, window⟩
  · simp only [bottom, ↓reduceIte]
    have page : listMessages (log.take count) (some (low + 1)) limit = pageOf log limit low :=
      list_below numbered positive (Nat.le_trans window.ordered stored) within
    have below : low - limit ≤ low := Nat.sub_le low limit
    refine ⟨low - limit, Nat.le_trans below window.ordered, window.within, ?_, ?_, ?_⟩
    · rw [page, List.flatMap_append, List.map_append, window.items, ← segment_append log below
        window.ordered, List.map_append]
      simp [pageOf, segment]
    · exact ⟨pageOf log limit low, by simp [page], rfl⟩
    · rw [← window.newest]
      cases pages : base.pages with
      | nil => simp [pages] at final
      | cons first rest =>
        obtain ⟨messages, nextBefore⟩ := first
        simp only [msgSeqBaseline, pages, List.cons_append]
        cases messages <;> rfl

/-- A message put in front extends the rows shown by the next one. -/
theorem prepend_window {data : MessagesQueryData}
    (window : Window log data low high) (known : high < log.length) (item : MessageItem)
    (numbered : item.seq = high + 1) (shows : itemKey item = itemKey log[high]) :
    Window log (prependMessage item data) low (high + 1) := by
  obtain ⟨last, final, cursor⟩ := window.cursor
  cases pages : data.pages with
  | nil => simp [pages] at final
  | cons first rest =>
    have prepended : prependMessage item data =
        ⟨{ first with messages := item :: first.messages } :: rest⟩ := by
      simp only [prependMessage, pages]
    rw [prepended]
    refine ⟨by have := window.ordered; omega, known, ?_, ?_, numbered⟩
    · have items := window.items
      rw [pages] at items
      rw [segment_succ log window.ordered known, List.map_cons, ← items, ← shows]
      simp
    · rw [pages] at final
      cases rest with
      | nil =>
        obtain rfl : first = last := by simpa using final
        exact ⟨_, rfl, cursor⟩
      | cons second rest => exact ⟨last, by simpa using final, cursor⟩

/-- The rows of a segment are those numbered above `low` up to `high`. -/
theorem mem_segment (numbered : Numbered log) {seq : Nat}
    {item : MessageItem} (row : log[seq - 1]? = some item) (positive : 0 < seq) :
    itemKey item ∈ (segment log low high).map itemKey ↔ low < seq ∧ seq ≤ high := by
  have counted : item.seq = seq := by
    rw [numbered _ item row]
    omega
  constructor
  · intro member
    obtain ⟨shown, inside, same⟩ := List.mem_map.mp member
    obtain ⟨index, entry⟩ := List.mem_iff_getElem?.mp (List.mem_reverse.mp inside)
    rw [List.getElem?_drop, List.getElem?_take] at entry
    split at entry
    · have place := numbered _ shown entry
      have equal : shown.seq = item.seq := congrArg Prod.fst same
      omega
    · contradiction
  · rintro ⟨lower, upper⟩
    refine List.mem_map.mpr ⟨item, List.mem_reverse.mpr ?_, rfl⟩
    refine List.mem_iff_getElem?.mpr ⟨seq - 1 - low, ?_⟩
    rw [List.getElem?_drop, List.getElem?_take]
    have place : low + (seq - 1 - low) = seq - 1 := by omega
    rw [place, if_pos (by omega), row]

/-- A row is shown by the pages. -/
def Shown (data : MessagesQueryData) (item : MessageItem) : Prop :=
  ∃ page ∈ data.pages, ∃ shown ∈ page.messages, itemKey shown = itemKey item

/-- A row is on a page older than the cached ones. -/
def Older (data : MessagesQueryData) (seq : Nat) : Prop :=
  ∃ page cursor, data.pages.getLast? = some page ∧ page.nextBefore = some cursor ∧ seq < cursor

/-- The newest cached number tells which rows are shown or older. -/
theorem Window.reached_iff (numbered : Numbered log)
    {data : MessagesQueryData} (window : Window log data low high) {seq : Nat}
    (positive : 0 < seq) {item : MessageItem} (row : log[seq - 1]? = some item) :
    Shown data item ∨ Older data seq ↔ seq ≤ msgSeqBaseline data := by
  have shown : Shown data item ↔ low < seq ∧ seq ≤ high := by
    rw [← mem_segment numbered row positive, ← window.items]
    simp only [Shown, List.mem_map, List.mem_flatMap]
    constructor
    · rintro ⟨page, member, shown, inside, same⟩
      exact ⟨shown, ⟨page, member, inside⟩, same⟩
    · rintro ⟨shown, ⟨page, member, inside⟩, same⟩
      exact ⟨page, member, shown, inside, same⟩
  have older : Older data seq ↔ seq ≤ low := by
    obtain ⟨last, final, cursor⟩ := window.cursor
    constructor
    · rintro ⟨page, before, same, next, below⟩
      obtain rfl := Option.some.inj (final.symm.trans same)
      rw [cursor] at next
      split at next
      · contradiction
      · have equal := Option.some.inj next
        omega
    · intro below
      refine ⟨last, low + 1, final, ?_, by omega⟩
      rw [cursor, if_neg (by omega)]
  have ordered := window.ordered
  rw [shown, older, window.newest]
  omega

end Kvy.Web.Sync
