import Kvy.Cli.Daemon.FsRead
import Mathlib.Data.List.TakeWhile

/-!
# Paging through a file

The first page of a file comes without a range and may carry the marker of a file that is cut, which is
removed from every page. As long as the last page was marked as truncated, the range behind what is
loaded can be asked for.

A page that starts behind the first byte is always marked as truncated, so a file that is longer than
one page never ends. What fits in one page is shown as it is, unless its own text ends with the marker.
-/

namespace Kvy.Web.RepoFiles

open General Cli.Daemon.FsRead

/-! ## The pages -/

/-- What stands before a marker at the end of a text. -/
def unmarked? (text : List Char) : Option (List Char) :=
  if markerEnding.isSuffixOf text then
    let numbered := text.take (text.length - markerEnding.length)
    let opened := (numbered.reverse.dropWhile Char.isDigit).reverse
    if opened.length < numbered.length ∧ markerOpening.isSuffixOf opened = true then
      some (opened.take (opened.length - markerOpening.length))
    else none
  else none

/-- `stripTruncationMarker`. -/
def stripTruncationMarker (text : List Char) : List Char := (unmarked? text).getD text

/-- `byteLength`. -/
def byteLength (text : List Char) : Nat := (Utf8.encode text).length

/-- `FileContentPage`. -/
structure FileContentPage where
  inline : Option (List Char)
  truncated : Bool

/-- `PagedFileContent`. -/
structure PagedFileContent where
  content : List Char
  loadedBytes : Nat
  canLoadMore : Bool

/-- `EMPTY_PAGED_CONTENT`. -/
def emptyPagedContent : PagedFileContent := ⟨[], 0, false⟩

/-- `appendPage`. -/
def appendPage (previous : Option PagedFileContent) (page : FileContentPage) : PagedFileContent :=
  let base := previous.getD emptyPagedContent
  let cleaned := stripTruncationMarker (page.inline.getD [])
  { content := base.content ++ cleaned
    loadedBytes := base.loadedBytes + byteLength cleaned
    canLoadMore := page.truncated }

/-- The page of an answer. -/
def pageOf (answer : FsReadResult) : FileContentPage := ⟨answer.inline, answer.truncated⟩

/-- A file that is open: its path and bytes, and the sizes of a page on both sides. -/
structure OpenFile where
  path : String
  buffer : List UInt8
  maxInlineBytes : Nat
  pageSize : Nat
  uploadBlob : List UInt8 → Option String

namespace OpenFile

/-- What the daemon answers. -/
def fetch (file : OpenFile) (range : Option FsReadRange) : Except String FsReadResult :=
  readFile file.path file.buffer file.maxInlineBytes file.uploadBlob range

/-- The first page. -/
def firstPage (file : OpenFile) : Except String PagedFileContent :=
  (file.fetch none).map (fun answer => appendPage none (pageOf answer))

/-- `loadMore`, where there is more. An error leaves what is loaded. -/
def loadMore (file : OpenFile) (paged : PagedFileContent) : PagedFileContent :=
  if paged.canLoadMore then
    match file.fetch (some ⟨paged.loadedBytes, paged.loadedBytes + file.pageSize⟩) with
    | .ok answer => appendPage (some paged) (pageOf answer)
    | .error _ => paged
  else paged

/-- What is loaded after the first page and a number of further ones. -/
def paged (file : OpenFile) (first : PagedFileContent) : Nat → PagedFileContent
  | 0 => first
  | count + 1 => file.loadMore (file.paged first count)

/-- Paging shows exactly the file: it ends, with the text of the file; what is loaded is always the
beginning of the text, and all of it is loaded only where there is no more to load. -/
structure ShowsExactly (file : OpenFile) (text : List Char) : Prop where
  opens : ∃ first, file.firstPage = .ok first
  ends : ∀ first, file.firstPage = .ok first → ∃ count, (file.paged first count).canLoadMore = false
  whole : ∀ first, file.firstPage = .ok first → ∀ count,
    (file.paged first count).canLoadMore = false → (file.paged first count).content = text
  begins : ∀ first, file.firstPage = .ok first → ∀ count,
    (file.paged first count).content <+: text ∧
      (file.paged first count).loadedBytes = byteLength (file.paged first count).content
  stops : ∀ first, file.firstPage = .ok first → ∀ count,
    (file.paged first count).loadedBytes = byteLength text →
    (file.paged first count).canLoadMore = false

end OpenFile

/-- A text that ends with a marker, of whatever number. -/
def EndsWithMarker (text : List Char) : Prop :=
  ∃ before digits, digits ≠ [] ∧ (∀ digit ∈ digits, digit.isDigit = true) ∧
    text = before ++ markerOpening ++ digits ++ markerEnding

/-! ## The marker -/

/-- What stands before an ending. -/
theorem take_of_suffix {text ending : List Char} (ends : ending.isSuffixOf text = true) :
    text.take (text.length - ending.length) ++ ending = text := by
  obtain ⟨before, rfl⟩ := List.isSuffixOf_iff_suffix.mp ends
  rw [List.length_append, Nat.add_sub_cancel, List.take_left']
  rfl

/-- What is left where an ending is taken away. -/
theorem take_append_suffix (before ending : List Char) :
    (before ++ ending).take ((before ++ ending).length - ending.length) = before := by
  rw [List.length_append, Nat.add_sub_cancel]
  exact List.take_left' rfl

/-- The digits at the end of a text are taken away. -/
theorem drop_digits (opened digits : List Char)
    (numbers : ∀ digit ∈ digits, digit.isDigit = true)
    (stops : ∀ last ∈ opened.getLast?, last.isDigit = false) :
    ((opened ++ digits).reverse.dropWhile Char.isDigit).reverse = opened := by
  have dropped : digits.reverse.dropWhile Char.isDigit = [] :=
    List.dropWhile_eq_nil_iff.mpr (fun digit member => numbers digit (List.mem_reverse.mp member))
  have kept : opened.reverse.dropWhile Char.isDigit = opened.reverse := by
    rw [← List.head?_reverse] at stops
    cases same : opened.reverse with
    | nil => rfl
    | cons last rest => exact List.dropWhile_cons_of_neg (by simp [stops last (by simp [same])])
  rw [List.reverse_append, List.dropWhile_append, dropped, kept]
  simp

/-- A marker at the end is found. -/
theorem unmarked_of_marker {before digits : List Char} (some : digits ≠ [])
    (numbers : ∀ digit ∈ digits, digit.isDigit = true) :
    unmarked? (before ++ markerOpening ++ digits ++ markerEnding) = Option.some before := by
  have ends : markerEnding.isSuffixOf (before ++ markerOpening ++ digits ++ markerEnding) = true :=
    List.isSuffixOf_iff_suffix.mpr (List.suffix_append _ _)
  have blank : ∀ last ∈ (before ++ markerOpening).getLast?, last.isDigit = false := by
    intro last held
    rw [List.getLast?_append_of_ne_nil before (by decide)] at held
    cases held
    decide
  have more : 0 < digits.length := List.length_pos_iff.mpr some
  have opens : markerOpening.isSuffixOf (before ++ markerOpening) = true :=
    List.isSuffixOf_iff_suffix.mpr (List.suffix_append _ _)
  have shorter : (before ++ markerOpening).length < (before ++ markerOpening ++ digits).length := by
    rw [@List.length_append _ _ digits]
    omega
  rw [unmarked?, if_pos ends, take_append_suffix]
  simp only [drop_digits _ digits numbers blank, shorter, opens, and_self, ↓reduceIte,
    take_append_suffix]

/-- What is found is a marker at the end. -/
theorem marker_of_unmarked {text before : List Char} (found : unmarked? text = some before) :
    EndsWithMarker text := by
  have ends : markerEnding.isSuffixOf text = true := by
    by_contra other
    rw [unmarked?, if_neg other] at found
    cases found
  rw [unmarked?, if_pos ends] at found
  obtain ⟨⟨shorter, opens⟩, -⟩ := Option.ite_none_right_eq_some.mp found
  clear found
  generalize numbered : text.take (text.length - markerEnding.length) = first at *
  have whole : first ++ markerEnding = text := numbered ▸ take_of_suffix ends
  have parts : (first.reverse.dropWhile Char.isDigit).reverse ++
      (first.reverse.takeWhile Char.isDigit).reverse = first := by
    rw [← List.reverse_append, List.takeWhile_append_dropWhile, List.reverse_reverse]
  generalize (first.reverse.dropWhile Char.isDigit).reverse = opened at *
  refine ⟨opened.take (opened.length - markerOpening.length),
    (first.reverse.takeWhile Char.isDigit).reverse, ?_, ?_, ?_⟩
  · intro none
    rw [none, List.append_nil] at parts
    rw [parts] at shorter
    exact absurd shorter (Nat.lt_irrefl _)
  · intro digit member
    exact List.mem_takeWhile_imp (List.mem_reverse.mp member)
  · rw [take_of_suffix opens, parts, whole]

/-- A text is shown as it is exactly where it does not end with a marker. -/
theorem strip_eq_self_iff (text : List Char) :
    stripTruncationMarker text = text ↔ ¬ EndsWithMarker text := by
  constructor
  · rintro same ⟨before, digits, some, numbers, rfl⟩
    rw [stripTruncationMarker, unmarked_of_marker some numbers, Option.getD_some] at same
    have length := congrArg List.length same
    simp only [List.length_append] at length
    have long : 0 < markerEnding.length := by decide
    omega
  · intro plain
    unfold stripTruncationMarker
    cases found : unmarked? text with
    | none => rfl
    | some before => exact absurd (marker_of_unmarked found) plain

/-! ## What is shown -/

namespace OpenFile

variable (file : OpenFile) (text : List Char)

/-- A file of one page that is accepted as text is loaded at once. -/
theorem firstPage_short (holds : file.buffer = Utf8.encode text)
    (accepted : looksBinary file.buffer = false)
    (short : file.buffer.length ≤ file.maxInlineBytes) :
    file.firstPage = .ok (appendPage none ⟨some text, false⟩) := by
  have answered : file.fetch none = .ok ⟨some text, none, false⟩ := by
    simp [fetch, readFile, accepted, short]
    rw [holds, Utf8.decode_encode]
  rw [firstPage, answered]
  rfl

/-- The first page of a longer file is marked as truncated. -/
theorem firstPage_long (accepted : looksBinary file.buffer = false)
    (long : file.maxInlineBytes < file.buffer.length) :
    ∃ first, file.firstPage = .ok first ∧ first.canLoadMore = true := by
  refine ⟨appendPage none ⟨some (Utf8.decode (file.buffer.take file.maxInlineBytes) ++
    marker file.maxInlineBytes), true⟩, ?_, rfl⟩
  simp only [firstPage, fetch, readFile, accepted, Bool.false_eq_true, ↓reduceIte,
    Nat.not_le.mpr long]
  rfl

/-- Where there is no more, nothing is loaded. -/
theorem paged_stopped {first : PagedFileContent} (stopped : first.canLoadMore = false)
    (count : Nat) : file.paged first count = first := by
  induction count with
  | zero => rfl
  | succ count inductionHypothesis =>
    rw [paged, inductionHypothesis, loadMore, stopped]
    rfl

/-- Every range of a file that is longer than one page is marked as truncated: it starts behind the
first byte, or ends with the first page. -/
theorem fetch_range_truncated (accepted : looksBinary file.buffer = false)
    (long : file.maxInlineBytes < file.buffer.length) (loaded : Nat) :
    ∃ answer, file.fetch (some ⟨loaded, loaded + file.pageSize⟩) = .ok answer ∧
      answer.truncated = true := by
  simp only [fetch, readFile, accepted, Bool.false_eq_true, ↓reduceIte]
  refine ⟨_, rfl, ?_⟩
  simp only [Bool.or_eq_true, decide_eq_true_eq]
  omega

/-- More can always be loaded of a file that is longer than one page. -/
theorem paged_long (accepted : looksBinary file.buffer = false)
    (long : file.maxInlineBytes < file.buffer.length) {first : PagedFileContent}
    (more : first.canLoadMore = true) (count : Nat) :
    (file.paged first count).canLoadMore = true := by
  induction count with
  | zero => exact more
  | succ count inductionHypothesis =>
    obtain ⟨answer, answered, truncated⟩ :=
      file.fetch_range_truncated accepted long (file.paged first count).loadedBytes
    rw [paged, loadMore, inductionHypothesis, if_pos rfl, answered]
    exact truncated

/-- A file that is longer than one page is not shown exactly. -/
theorem not_shows_of_long (accepted : looksBinary file.buffer = false)
    (long : file.maxInlineBytes < file.buffer.length) : ¬ file.ShowsExactly text := by
  intro shows
  obtain ⟨first, opened, more⟩ := file.firstPage_long accepted long
  obtain ⟨count, ended⟩ := shows.ends first opened
  rw [file.paged_long accepted long more count] at ended
  cases ended

/-- Exactly the files of one page whose text does not end with a marker are shown exactly. -/
theorem shows_exactly_iff (holds : file.buffer = Utf8.encode text)
    (accepted : looksBinary file.buffer = false) :
    file.ShowsExactly text ↔
      file.buffer.length ≤ file.maxInlineBytes ∧ ¬ EndsWithMarker text := by
  constructor
  · intro shows
    have short : file.buffer.length ≤ file.maxInlineBytes := by
      by_contra long
      exact file.not_shows_of_long text accepted (Nat.not_le.mp long) shows
    have opened := file.firstPage_short text holds accepted short
    refine ⟨short, (strip_eq_self_iff text).mp ?_⟩
    have shown := shows.whole _ opened 0 rfl
    simpa [paged, appendPage, emptyPagedContent] using shown
  · rintro ⟨short, plain⟩
    have opened := file.firstPage_short text holds accepted short
    have same : stripTruncationMarker text = text := (strip_eq_self_iff text).mpr plain
    have shown : ∀ first, file.firstPage = .ok first → ∀ count,
        file.paged first count = ⟨text, byteLength text, false⟩ := by
      intro first found count
      rw [opened] at found
      cases found
      rw [file.paged_stopped rfl count]
      simp [appendPage, emptyPagedContent, same]
    refine ⟨⟨_, opened⟩, ?_, ?_, ?_, ?_⟩
    · intro first found
      exact ⟨0, by rw [shown first found 0]⟩
    · intro first found count _
      rw [shown first found count]
    · intro first found count
      rw [shown first found count]
      exact ⟨List.prefix_refl text, rfl⟩
    · intro first found count _
      rw [shown first found count]

/-- A short file is shown exactly. -/
theorem short_file_shown :
    (⟨"a.txt", Utf8.encode "ab\n".toList, 60000, 60000, fun _ => none⟩ : OpenFile).ShowsExactly
      "ab\n".toList :=
  (shows_exactly_iff _ _ rfl (by decide)).mpr ⟨by decide, (strip_eq_self_iff _).mp (by decide)⟩

/-- A file that is one byte longer than a page. -/
def longFile : OpenFile :=
  ⟨"a.txt", Utf8.encode (List.replicate 60001 'a'), 60000, 60000, fun _ => none⟩

/-- Its bytes are counted and accepted as text. -/
theorem longFile_accepted :
    longFile.buffer.length = 60001 ∧ looksBinary longFile.buffer = false := by
  have bytes : longFile.buffer = List.replicate 60001 97 := by
    have one : String.utf8EncodeChar 'a' = [97] := by decide
    rw [longFile, Utf8.encode, List.flatMap_replicate, one, List.flatten_replicate_singleton]
  refine ⟨by rw [bytes, List.length_replicate], ?_⟩
  rw [bytes, looksBinary, List.take_replicate, List.any_replicate]
  decide

/-- Its paging never ends. -/
theorem long_file_not_shown : longFile.buffer = Utf8.encode (List.replicate 60001 'a') ∧
    looksBinary longFile.buffer = false ∧ ¬ longFile.ShowsExactly (List.replicate 60001 'a') := by
  obtain ⟨length, accepted⟩ := longFile_accepted
  refine ⟨rfl, accepted, longFile.not_shows_of_long _ accepted ?_⟩
  rw [length]
  decide

end OpenFile

end Kvy.Web.RepoFiles
