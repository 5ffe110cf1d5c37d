import Kvy.General.Utf8Cuts
import Mathlib.Data.Nat.Init

/-!
# A transcript in chunks

A chunk starts at a cursor and ends behind the last line break within its bytes, or behind all of them
where there is none. A line that is longer than a chunk is therefore cut wherever the bytes of a chunk
end, counted from the start of the line, and every other cut is at the start of a line.
-/

namespace Kvy.Cli.Daemon.TranscriptMirror

open General

/-- `MAX_CHUNK_BYTES`. -/
def maxChunkBytes : Nat := 64 * 1024

/-- `DEFAULT_CHUNK_BYTES`. -/
def defaultChunkBytes : Nat := 32 * 1024

/-- `NEWLINE_BYTE`. -/
def newlineByte : UInt8 := 0x0a

/-- `AdoptMirrorParams`. -/
structure AdoptMirrorParams where
  providerSessionId : String
  cursor : Option Nat
  maxBytes : Option Nat

/-- `AdoptMirrorResult`. -/
structure AdoptMirrorResult where
  chunk : List Char
  nextCursor : Option Nat
  done : Bool
  blobRef : Option String

/-- The last place of a byte among the first ones of a buffer. -/
def lastIndexOf (buf : List UInt8) (value : UInt8) : Nat → Option Nat
  | 0 => none
  | count + 1 => if buf[count]? = some value then some count else lastIndexOf buf value count

/-- `findChunkEnd`. -/
def findChunkEnd (buf : List UInt8) (start maxBytes : Nat) : Nat :=
  let hardEnd := min (start + maxBytes) buf.length
  if buf.length ≤ hardEnd then buf.length
  else match lastIndexOf buf newlineByte hardEnd with
    | some newlineIndex => if start ≤ newlineIndex then newlineIndex + 1 else hardEnd
    | none => hardEnd

/-- The bytes of a chunk, of those that were asked for. -/
def chunkBytes (maxBytes : Option Nat) : Nat :=
  min (max (maxBytes.getD defaultChunkBytes) 1) maxChunkBytes

/-- `handleAdoptMirror`, from the bytes of the transcript on. -/
def handleAdoptMirror (params : AdoptMirrorParams) (buf : List UInt8)
    (uploadBlob : List UInt8 → Option String) : Except String AdoptMirrorResult :=
  let cursor := params.cursor.getD 0
  if buf.length < cursor then
    .error ("adopt.mirror: cursor " ++ toString cursor ++ " is past the end of \"" ++
      params.providerSessionId ++ "\"'s transcript (" ++ toString buf.length ++ " bytes)")
  else
    let endAt := findChunkEnd buf cursor (chunkBytes params.maxBytes)
    let done := decide (buf.length ≤ endAt)
    .ok
      { chunk := Utf8.decode ((buf.take endAt).drop cursor)
        nextCursor := if done then none else some endAt
        done
        blobRef := if params.cursor = none ∧ done = false then uploadBlob buf else none }

/-! ## Where a chunk ends -/

/-- No line break stands at a place. -/
def Unbroken (buf : List UInt8) (start endAt : Nat) : Prop :=
  ∀ place, start ≤ place → place < endAt → buf[place]? ≠ some newlineByte

/-- The last place is found, or there is none. -/
theorem lastIndexOf_spec (buf : List UInt8) (count : Nat) :
    match lastIndexOf buf newlineByte count with
    | some place => place < count ∧ buf[place]? = some newlineByte ∧ Unbroken buf (place + 1) count
    | none => Unbroken buf 0 count := by
  induction count with
  | zero => exact fun place _ below => absurd below (Nat.not_lt_zero _)
  | succ count inductionHypothesis =>
    by_cases here : buf[count]? = some newlineByte
    · simp only [lastIndexOf, here, ↓reduceIte]
      exact ⟨Nat.lt_succ_self _, trivial, fun place above below => by omega⟩
    · have last : ∀ start, Unbroken buf start count → Unbroken buf start (count + 1) := by
        intro start others place above below
        rcases Nat.lt_succ_iff_lt_or_eq.mp below with earlier | rfl
        · exact others place above earlier
        · exact here
      simp only [lastIndexOf, here, ↓reduceIte]
      cases found : lastIndexOf buf newlineByte count with
      | none =>
        rw [found] at inductionHypothesis
        exact last 0 inductionHypothesis
      | some place =>
        rw [found] at inductionHypothesis
        obtain ⟨below, held, others⟩ := inductionHypothesis
        exact ⟨Nat.lt_succ_of_lt below, held, last _ others⟩

/-- What the end of a chunk can be: the end of the buffer, the start of a line behind the last line
break, or the end of the bytes of the chunk where they hold no line break. -/
inductive ChunkEnd (buf : List UInt8) (start maxBytes : Nat) : Nat → Prop where
  | whole (reached : buf.length ≤ start + maxBytes) : ChunkEnd buf start maxBytes buf.length
  | line (place : Nat) (more : start + maxBytes < buf.length) (after : start ≤ place)
      (before : place < start + maxBytes) (break' : buf[place]? = some newlineByte)
      (last : Unbroken buf (place + 1) (start + maxBytes)) : ChunkEnd buf start maxBytes (place + 1)
  | hard (more : start + maxBytes < buf.length) (unbroken : Unbroken buf start (start + maxBytes)) :
      ChunkEnd buf start maxBytes (start + maxBytes)

theorem findChunkEnd_spec (buf : List UInt8) (start maxBytes : Nat) :
    ChunkEnd buf start maxBytes (findChunkEnd buf start maxBytes) := by
  unfold findChunkEnd
  by_cases reached : buf.length ≤ start + maxBytes
  · simp only [Nat.min_eq_right reached, Nat.le_refl, ↓reduceIte]
    exact .whole reached
  · have more : start + maxBytes < buf.length := Nat.not_le.mp reached
    simp only [Nat.min_eq_left (Nat.le_of_lt more), reached, ↓reduceIte]
    have found := lastIndexOf_spec buf (start + maxBytes)
    cases last : lastIndexOf buf newlineByte (start + maxBytes) with
    | none =>
      rw [last] at found
      exact .hard more (fun place _ below => found place (Nat.zero_le _) below)
    | some place =>
      rw [last] at found
      obtain ⟨before, held, others⟩ := found
      by_cases after : start ≤ place
      · simp only [after, ↓reduceIte]
        exact .line place more after before held others
      · simp only [after, ↓reduceIte]
        exact .hard more (fun place' above below => others place' (by omega) below)

variable {buf : List UInt8} {maxBytes : Nat}

/-- A chunk ends behind its start, and not behind the end of the buffer. -/
theorem findChunkEnd_progress {start : Nat} (positive : 0 < maxBytes)
    (inside : start < buf.length) : start < findChunkEnd buf start maxBytes ∧
      findChunkEnd buf start maxBytes ≤ buf.length := by
  have cut := findChunkEnd_spec buf start maxBytes
  generalize findChunkEnd buf start maxBytes = endAt at cut
  cases cut <;> omega

/-- Nothing follows the end of the buffer. -/
theorem findChunkEnd_length (buf : List UInt8) (maxBytes : Nat) :
    findChunkEnd buf buf.length maxBytes = buf.length := by
  simp [findChunkEnd]

theorem chunkBytes_pos (maxBytes : Option Nat) : 0 < chunkBytes maxBytes := by
  unfold chunkBytes maxChunkBytes
  omega

/-! ## The cursors of a transcript -/

/-- Where the next chunk starts after a number of chunks. -/
def cursorAfter (buf : List UInt8) (maxBytes : Nat) : Nat → Nat
  | 0 => 0
  | count + 1 => findChunkEnd buf (cursorAfter buf maxBytes count) maxBytes

/-- A line starts here. -/
def LineStart (buf : List UInt8) (place : Nat) : Prop :=
  place = 0 ∨ ∃ before, place = before + 1 ∧ buf[before]? = some newlineByte

/-- A line is cut here: it starts a number of chunks before and holds no line break up to here, and the
buffer does not end here. -/
structure LineCut (buf : List UInt8) (maxBytes place : Nat) : Prop where
  more : place < buf.length
  cut : ∃ lineStart chunks, LineStart buf lineStart ∧ place = lineStart + (chunks + 1) * maxBytes ∧
    Unbroken buf lineStart place

theorem cursorAfter_le (buf : List UInt8) (maxBytes count : Nat) :
    cursorAfter buf maxBytes count ≤ buf.length := by
  induction count with
  | zero => exact Nat.zero_le _
  | succ count inductionHypothesis =>
    rw [cursorAfter]
    have cut := findChunkEnd_spec buf (cursorAfter buf maxBytes count) maxBytes
    generalize findChunkEnd buf (cursorAfter buf maxBytes count) maxBytes = endAt at cut
    cases cut <;> omega

/-- What reaches the end stays there. -/
theorem cursorAfter_stays {count : Nat}
    (ended : cursorAfter buf maxBytes count = buf.length) {later : Nat} (after : count ≤ later) :
    cursorAfter buf maxBytes later = buf.length := by
  induction later, after using Nat.le_induction with
  | base => exact ended
  | succ later _ inductionHypothesis => rw [cursorAfter, inductionHypothesis, findChunkEnd_length]

/-- Every chunk starts with a line, or where a line is cut, or at the end. -/
theorem cursor_sound (buf : List UInt8) (maxBytes count : Nat) :
    LineStart buf (cursorAfter buf maxBytes count) ∨
      LineCut buf maxBytes (cursorAfter buf maxBytes count) ∨
      cursorAfter buf maxBytes count = buf.length := by
  induction count with
  | zero => exact .inl (.inl rfl)
  | succ count inductionHypothesis =>
    rw [cursorAfter]
    have cut := findChunkEnd_spec buf (cursorAfter buf maxBytes count) maxBytes
    generalize findChunkEnd buf (cursorAfter buf maxBytes count) maxBytes = endAt at cut
    cases cut with
    | whole reached => exact .inr (.inr rfl)
    | line place more after before break' last => exact .inl (.inr ⟨place, rfl, break'⟩)
    | hard more unbroken =>
      refine .inr (.inl ⟨more, ?_⟩)
      rcases inductionHypothesis with start | ⟨_, lineStart, chunks, start, place, others⟩ | ended
      · exact ⟨_, 0, start, by omega, unbroken⟩
      · refine ⟨lineStart, chunks + 1, start, ?_, ?_⟩
        · rw [place, Nat.succ_mul (chunks + 1)]
          omega
        · intro place' above below
          by_cases earlier : place' < cursorAfter buf maxBytes count
          · exact others place' above earlier
          · exact unbroken place' (Nat.not_lt.mp earlier) below
      · omega

/-- No chunk reaches beyond the start of a line that does not end with it. -/
theorem findChunkEnd_line {cursor lineStart : Nat}
    (start : LineStart buf lineStart) (before : cursor < lineStart)
    (long : lineStart + maxBytes < buf.length)
    (unbroken : Unbroken buf lineStart (lineStart + maxBytes)) :
    findChunkEnd buf cursor maxBytes ≤ lineStart := by
  have cut := findChunkEnd_spec buf cursor maxBytes
  generalize findChunkEnd buf cursor maxBytes = endAt at cut
  rcases start with rfl | ⟨previous, rfl, break'⟩
  · omega
  · cases cut with
    | whole reached => omega
    | line place more after within held last =>
      by_contra beyond
      exact unbroken place (by omega) (by omega) held
    | hard more none =>
      by_contra beyond
      exact none previous (by omega) (by omega) break'

/-- A chunk starts where a line starts that does not end with the chunk. -/
theorem cursor_line {lineStart : Nat} (positive : 0 < maxBytes)
    (start : LineStart buf lineStart) (long : lineStart + maxBytes < buf.length)
    (unbroken : Unbroken buf lineStart (lineStart + maxBytes)) {count : Nat}
    (before : cursorAfter buf maxBytes count ≤ lineStart) :
    ∃ count, cursorAfter buf maxBytes count = lineStart := by
  by_cases here : cursorAfter buf maxBytes count = lineStart
  · exact ⟨count, here⟩
  · have earlier : cursorAfter buf maxBytes count < lineStart := by omega
    have next : cursorAfter buf maxBytes (count + 1) ≤ lineStart :=
      findChunkEnd_line start earlier long unbroken
    have progress : cursorAfter buf maxBytes count < cursorAfter buf maxBytes (count + 1) :=
      (findChunkEnd_progress positive (by omega)).1
    exact cursor_line positive start long unbroken next
termination_by lineStart - cursorAfter buf maxBytes count

/-- A chunk without a line break ends with its bytes. -/
theorem findChunkEnd_unbroken {cursor : Nat}
    (more : cursor + maxBytes < buf.length) (unbroken : Unbroken buf cursor (cursor + maxBytes)) :
    findChunkEnd buf cursor maxBytes = cursor + maxBytes := by
  have cut := findChunkEnd_spec buf cursor maxBytes
  generalize findChunkEnd buf cursor maxBytes = endAt at cut
  cases cut with
  | whole reached => omega
  | line place _ after before held _ => exact absurd held (unbroken place after before)
  | hard _ _ => rfl

/-- A chunk starts wherever a line is cut. -/
theorem cursor_complete {place : Nat} (positive : 0 < maxBytes)
    (cut : LineCut buf maxBytes place) : ∃ count, cursorAfter buf maxBytes count = place := by
  obtain ⟨more, lineStart, chunks, start, rfl, unbroken⟩ := cut
  have part : ∀ earlier, earlier ≤ chunks + 1 →
      earlier * maxBytes ≤ (chunks + 1) * maxBytes :=
    fun earlier below => Nat.mul_le_mul_right maxBytes below
  have reached : ∀ earlier, earlier ≤ chunks + 1 →
      ∃ count, cursorAfter buf maxBytes count = lineStart + earlier * maxBytes := by
    intro earlier below
    induction earlier with
    | zero =>
      have one := part 1 (by omega)
      have first : cursorAfter buf maxBytes 0 ≤ lineStart := Nat.zero_le _
      have found := cursor_line positive start (by omega)
        (fun place above below => unbroken place above (by omega)) first
      simpa using found
    | succ earlier inductionHypothesis =>
      obtain ⟨count, at'⟩ := inductionHypothesis (by omega)
      have here := part (earlier + 1) below
      rw [Nat.succ_mul] at here ⊢
      refine ⟨count + 1, ?_⟩
      rw [cursorAfter, at', findChunkEnd_unbroken (by omega)
        (fun place above below => unbroken place (by omega) (by omega))]
      omega
  exact reached (chunks + 1) (Nat.le_refl _)

end Kvy.Cli.Daemon.TranscriptMirror
