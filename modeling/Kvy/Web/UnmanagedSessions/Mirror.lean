import Kvy.Cli.Daemon.TranscriptMirror

/-!
# Putting a transcript together

The chunks are asked for one after another and their texts are put behind each other. Every chunk is
read for itself, so a character that is cut into two chunks is lost. Chunks start at the starts of lines
and where a line is cut, and the transcript comes out whole exactly where the cuts of its lines are at
the boundaries of characters.
-/

namespace Kvy.Web.UnmanagedSessions

open General Cli.Daemon.TranscriptMirror

/-- `MAX_CHUNKS`. -/
def maxChunks : Nat := 4096

/-- The loop of `fetchFullTranscript`. -/
def fetchLoop (mirror : Option Nat → Except String AdoptMirrorResult) (providerSessionId : String) :
    Nat → Option Nat → List Char → Except String (List Char)
  | 0, _, _ => .error ("transcript mirror for '" ++ providerSessionId ++ "' did not finish within " ++
      toString maxChunks ++ " chunks")
  | left + 1, cursor, text =>
    match mirror cursor with
    | .error error => .error error
    | .ok result =>
      if result.done then .ok (text ++ result.chunk)
      else match result.nextCursor with
        | none => .ok (text ++ result.chunk)
        | some next => fetchLoop mirror providerSessionId left (some next) (text ++ result.chunk)

/-- `fetchFullTranscript`. -/
def fetchFullTranscript (mirror : Option Nat → Except String AdoptMirrorResult)
    (providerSessionId : String) : Except String (List Char) :=
  fetchLoop mirror providerSessionId maxChunks none []

/-- A transcript that is mirrored. -/
structure Transcript where
  providerSessionId : String
  maxBytes : Option Nat
  buf : List UInt8
  uploadBlob : List UInt8 → Option String

namespace Transcript

variable (transcript : Transcript)

/-- What the daemon answers. -/
def mirror (cursor : Option Nat) : Except String AdoptMirrorResult :=
  handleAdoptMirror ⟨transcript.providerSessionId, cursor, transcript.maxBytes⟩ transcript.buf
    transcript.uploadBlob

/-- Where the next chunk starts after a number of chunks. -/
def cursorAfter (count : Nat) : Nat :=
  Cli.Daemon.TranscriptMirror.cursorAfter transcript.buf (chunkBytes transcript.maxBytes) count

/-- The transcript comes out whole: every request ends it or moves its cursor on, and the text is that of
the file. -/
structure MirrorsExactly (text : List Char) : Prop where
  progress : ∀ cursor, cursor.getD 0 ≤ transcript.buf.length → ∃ result,
    transcript.mirror cursor = .ok result ∧
      (result.done = true ∧ result.nextCursor = none ∨
        ∃ next, result.nextCursor = some next ∧ cursor.getD 0 < next ∧ next ≤ transcript.buf.length)
  whole : fetchFullTranscript transcript.mirror transcript.providerSessionId = .ok text

/-- The cuts of the lines are at the boundaries of characters. -/
def CutsWhole : Prop :=
  ∀ place, LineCut transcript.buf (chunkBytes transcript.maxBytes) place →
    ∀ byte ∈ transcript.buf[place]?, ¬ Utf8.Continues byte

/-! ## The loop -/

/-- The bytes of a chunk. -/
def piece (count : Nat) : List UInt8 :=
  (transcript.buf.take (transcript.cursorAfter (count + 1))).drop (transcript.cursorAfter count)

/-- The bytes of the chunks from one on. -/
def pieces (count : Nat) : Nat → List (List UInt8)
  | 0 => []
  | left + 1 => transcript.piece count :: pieces (count + 1) left

/-- What is answered after a number of chunks. -/
theorem mirror_after {cursor : Option Nat} {count : Nat}
    (here : cursor.getD 0 = transcript.cursorAfter count) : ∃ result,
    transcript.mirror cursor = .ok result ∧ result.chunk = Utf8.decode (transcript.piece count) ∧
      result.done = decide (transcript.buf.length ≤ transcript.cursorAfter (count + 1)) ∧
      (result.done = false → result.nextCursor = some (transcript.cursorAfter (count + 1))) := by
  have inside : transcript.cursorAfter count ≤ transcript.buf.length := cursorAfter_le _ _ _
  have next : findChunkEnd transcript.buf (transcript.cursorAfter count)
      (chunkBytes transcript.maxBytes) = transcript.cursorAfter (count + 1) := rfl
  simp only [mirror, handleAdoptMirror, here, next, Nat.not_lt.mpr inside, ↓reduceIte]
  refine ⟨_, rfl, rfl, rfl, ?_⟩
  intro more
  exact if_neg (by simpa using more)

/-- Pieces behind the end are empty. -/
theorem decode_ended {count : Nat} (ended : transcript.cursorAfter count = transcript.buf.length)
    (left : Nat) : Utf8.decodePieces (transcript.pieces count left) = [] := by
  induction left generalizing count with
  | zero => rfl
  | succ left inductionHypothesis =>
    have next : transcript.cursorAfter (count + 1) = transcript.buf.length :=
      cursorAfter_stays ended (Nat.le_succ count)
    have empty : transcript.piece count = [] := by
      rw [piece, ended]
      exact List.drop_eq_nil_of_le (List.length_take_le' _ _)
    have later := inductionHypothesis next
    rw [Utf8.decodePieces] at later ⊢
    rw [pieces, List.map_cons, List.flatten_cons, later, empty]
    rfl

/-- The loop returns the texts of the chunks, where they are enough. -/
theorem fetchLoop_pieces {left count : Nat} {cursor : Option Nat} (text : List Char)
    (here : cursor.getD 0 = transcript.cursorAfter count) (positive : 0 < left)
    (enough : transcript.cursorAfter (count + left) = transcript.buf.length) :
    fetchLoop transcript.mirror transcript.providerSessionId left cursor text =
      .ok (text ++ Utf8.decodePieces (transcript.pieces count left)) := by
  induction left generalizing count cursor text with
  | zero => exact absurd positive (Nat.lt_irrefl 0)
  | succ left inductionHypothesis =>
    obtain ⟨result, answered, chunk, done, next⟩ := transcript.mirror_after here
    have parts : Utf8.decodePieces (transcript.pieces count (left + 1)) =
        result.chunk ++ Utf8.decodePieces (transcript.pieces (count + 1) left) := by
      rw [chunk]
      rfl
    rw [fetchLoop, answered, parts]
    by_cases ended : transcript.buf.length ≤ transcript.cursorAfter (count + 1)
    · have last : transcript.cursorAfter (count + 1) = transcript.buf.length :=
        Nat.le_antisymm (cursorAfter_le _ _ _) ended
      simp [done, ended, transcript.decode_ended last left]
    · have more : result.done = false := by simp [done, ended]
      have others : 0 < left := by
        rcases Nat.eq_zero_or_pos left with rfl | others
        · exact absurd (Nat.le_of_eq enough.symm) ended
        · exact others
      have last : transcript.cursorAfter (count + 1 + left) = transcript.buf.length := by
        rw [← enough, Nat.add_right_comm, Nat.add_assoc]
      have rest : fetchLoop transcript.mirror transcript.providerSessionId left
          (some (transcript.cursorAfter (count + 1))) (text ++ result.chunk) = _ :=
        inductionHypothesis _ rfl others last
      simp [more, next more, rest]

/-- The chunks follow each other. -/
theorem cursorAfter_next (count : Nat) :
    transcript.cursorAfter count ≤ transcript.cursorAfter (count + 1) := by
  rcases Nat.lt_or_eq_of_le (cursorAfter_le transcript.buf (chunkBytes transcript.maxBytes) count)
    with inside | ended
  · exact Nat.le_of_lt (findChunkEnd_progress (chunkBytes_pos _) inside).1
  · exact Nat.le_of_eq (ended.trans (cursorAfter_stays ended (Nat.le_succ count)).symm)

theorem cursorAfter_add (count left : Nat) :
    transcript.cursorAfter count ≤ transcript.cursorAfter (count + left) := by
  induction left with
  | zero => exact Nat.le_refl _
  | succ left inductionHypothesis =>
    exact Nat.le_trans inductionHypothesis (transcript.cursorAfter_next (count + left))

/-- The chunks together are a part of the transcript. -/
theorem pieces_flatten (count left : Nat) : (transcript.pieces count left).flatten =
    (transcript.buf.take (transcript.cursorAfter (count + left))).drop
      (transcript.cursorAfter count) := by
  induction left generalizing count with
  | zero =>
    rw [Nat.add_zero]
    exact (List.drop_eq_nil_of_le (List.length_take_le _ _)).symm
  | succ left inductionHypothesis =>
    have inside : transcript.cursorAfter (count + 1) ≤ transcript.buf.length := cursorAfter_le _ _ _
    have first := transcript.cursorAfter_next count
    have last := transcript.cursorAfter_add (count + 1) left
    have same : count + (left + 1) = count + 1 + left := by omega
    rw [pieces, List.flatten_cons, inductionHypothesis, piece, same]
    generalize transcript.cursorAfter (count + 1 + left) = third at *
    generalize transcript.cursorAfter (count + 1) = second at *
    have split : (transcript.buf.take third) =
        transcript.buf.take second ++ (transcript.buf.take third).drop second := by
      rw [← List.take_append_drop second (transcript.buf.take third), List.take_take,
        Nat.min_eq_left last, List.drop_left' (by rw [List.length_take, Nat.min_eq_left inside])]
    conv_rhs => rw [split]
    rw [List.drop_append_of_le_length (by rw [List.length_take, Nat.min_eq_left inside]; exact first)]

theorem mem_pieces {count left : Nat} {piece : List UInt8} :
    piece ∈ transcript.pieces count left ↔
      ∃ at', count ≤ at' ∧ at' < count + left ∧ piece = transcript.piece at' := by
  induction left generalizing count with
  | zero =>
    constructor
    · exact fun member => absurd member List.not_mem_nil
    · rintro ⟨at', above, below, -⟩
      omega
  | succ left inductionHypothesis =>
    rw [pieces, List.mem_cons, inductionHypothesis]
    constructor
    · rintro (rfl | ⟨at', above, below, rfl⟩)
      · exact ⟨count, Nat.le_refl _, by omega, rfl⟩
      · exact ⟨at', by omega, by omega, rfl⟩
    · rintro ⟨at', above, below, rfl⟩
      rcases Nat.eq_or_lt_of_le above with rfl | later
      · exact .inl rfl
      · exact .inr ⟨at', later, by omega, rfl⟩

/-- The first byte of a chunk is the one at its cursor. -/
theorem head_piece (count : Nat) : (transcript.piece count).head? =
    if transcript.cursorAfter count < transcript.cursorAfter (count + 1) then
      transcript.buf[transcript.cursorAfter count]?
    else none := by
  rw [piece, List.head?_drop, List.getElem?_take]

/-! ## What comes out -/

variable {transcript} {text : List Char}

/-- A line starts with a whole character. -/
theorem line_whole (holds : transcript.buf = Utf8.encode text) {place : Nat}
    (start : LineStart transcript.buf place) :
    ∀ byte ∈ transcript.buf[place]?, ¬ Utf8.Continues byte := by
  rw [← List.head?_drop]
  rcases start with rfl | ⟨before, rfl, break'⟩
  · rw [List.drop_zero, holds]
    exact Utf8.whole_encode text
  · obtain ⟨inside, same⟩ := List.getElem?_eq_some_iff.mp break'
    have parts : transcript.buf.take before ++ newlineByte :: transcript.buf.drop (before + 1) =
        Utf8.encode text := by
      rw [← holds, ← same, ← List.drop_eq_getElem_cons inside, List.take_append_drop]
    exact Utf8.whole_after (by decide) parts

/-- Every chunk begins with a whole character exactly where the cuts of the lines are at the boundaries
of characters. -/
theorem pieces_whole_iff (holds : transcript.buf = Utf8.encode text) {left : Nat}
    (enough : transcript.cursorAfter left = transcript.buf.length) :
    (∀ piece ∈ transcript.pieces 0 left, Utf8.Whole piece) ↔ transcript.CutsWhole := by
  constructor
  · intro whole place cut
    obtain ⟨count, rfl⟩ := cursor_complete (chunkBytes_pos _) cut
    have more : transcript.cursorAfter count < transcript.buf.length := cut.more
    have before : count < left := by
      by_contra after
      have stays : transcript.cursorAfter count = transcript.buf.length :=
        cursorAfter_stays enough (Nat.not_lt.mp after)
      omega
    have first := whole _ (transcript.mem_pieces.mpr ⟨count, Nat.zero_le _, by omega, rfl⟩)
    have next : transcript.cursorAfter count < transcript.cursorAfter (count + 1) :=
      (findChunkEnd_progress (chunkBytes_pos _) more).1
    rw [Utf8.Whole, head_piece, if_pos next] at first
    exact first
  · intro whole piece member
    obtain ⟨count, -, -, rfl⟩ := transcript.mem_pieces.mp member
    rw [Utf8.Whole, head_piece]
    split_ifs with next
    · rcases cursor_sound transcript.buf (chunkBytes transcript.maxBytes) count with
        start | cut | ended
      · exact line_whole holds start
      · exact whole _ cut
      · intro byte held
        have none : transcript.buf[transcript.cursorAfter count]? = none :=
          List.getElem?_eq_none (Nat.le_of_eq ended.symm)
        rw [none] at held
        cases held
    · intro byte held
      cases held

variable (transcript)

/-- Every request ends the transcript or moves its cursor on. -/
theorem mirror_progress {cursor : Option Nat} (inside : cursor.getD 0 ≤ transcript.buf.length) :
    ∃ result, transcript.mirror cursor = .ok result ∧
      (result.done = true ∧ result.nextCursor = none ∨
        ∃ next, result.nextCursor = some next ∧ cursor.getD 0 < next ∧
          next ≤ transcript.buf.length) := by
  simp only [mirror, handleAdoptMirror, Nat.not_lt.mpr inside, ↓reduceIte]
  refine ⟨_, rfl, ?_⟩
  by_cases ended : transcript.buf.length ≤
      findChunkEnd transcript.buf (cursor.getD 0) (chunkBytes transcript.maxBytes)
  · exact .inl ⟨decide_eq_true ended, if_pos (decide_eq_true ended)⟩
  · have more : cursor.getD 0 < transcript.buf.length := by
      by_contra last
      have same : cursor.getD 0 = transcript.buf.length := Nat.le_antisymm inside (Nat.not_lt.mp last)
      rw [same, findChunkEnd_length] at ended
      exact ended (Nat.le_refl _)
    exact .inr ⟨_, if_neg (by simpa using ended), findChunkEnd_progress (chunkBytes_pos _) more⟩

variable {transcript}

/-- A transcript that needs few enough chunks comes out whole exactly where the cuts of its lines are at
the boundaries of characters. -/
theorem mirrors_exactly_iff (holds : transcript.buf = Utf8.encode text)
    (enough : transcript.cursorAfter maxChunks = transcript.buf.length) :
    transcript.MirrorsExactly text ↔ transcript.CutsWhole := by
  have fetched : fetchFullTranscript transcript.mirror transcript.providerSessionId =
      .ok (Utf8.decodePieces (transcript.pieces 0 maxChunks)) := by
    have first : (none : Option Nat).getD 0 = transcript.cursorAfter 0 := rfl
    rw [fetchFullTranscript, transcript.fetchLoop_pieces [] first (by decide)
      (by rw [Nat.zero_add]; exact enough), List.nil_append]
  have bytes : (transcript.pieces 0 maxChunks).flatten = Utf8.encode text := by
    have first : transcript.cursorAfter 0 = 0 := rfl
    rw [pieces_flatten, Nat.zero_add, enough, List.take_length, first, List.drop_zero, holds]
  rw [← pieces_whole_iff holds enough, ← Utf8.decodePieces_iff bytes]
  constructor
  · intro mirrors
    have whole := mirrors.whole
    rw [fetched] at whole
    exact Except.ok.inj whole
  · intro same
    exact ⟨fun cursor inside => transcript.mirror_progress inside, by rw [fetched, same]⟩

/-- A transcript of one chunk comes out whole. -/
theorem short_transcript_mirrored :
    (⟨"p", none, Utf8.encode "é\n".toList, fun _ => none⟩ : Transcript).MirrorsExactly
      "é\n".toList := by
  have one : cursorAfter ⟨"p", none, Utf8.encode "é\n".toList, fun _ => none⟩ 1 = 3 := by decide
  refine (mirrors_exactly_iff rfl (cursorAfter_stays one (by decide))).mpr ?_
  rintro place ⟨more, lineStart, chunks, -, rfl, -⟩
  have size : chunkBytes none = 32768 := by decide
  have length : (Utf8.encode "é\n".toList).length = 3 := by decide
  rw [size, length] at more
  omega

/-- A transcript of one character that is cut into two chunks. -/
def cutTranscript : Transcript := ⟨"p", some 1, Utf8.encode ['é'], fun _ => none⟩

/-- The character is lost. -/
theorem cut_character_lost : cutTranscript.buf = Utf8.encode ['é'] ∧
    cutTranscript.cursorAfter maxChunks = cutTranscript.buf.length ∧
    ¬ cutTranscript.MirrorsExactly ['é'] := by
  have two : cutTranscript.cursorAfter 2 = cutTranscript.buf.length := by decide
  refine ⟨rfl, cursorAfter_stays two (by decide), ?_⟩
  intro mirrors
  have lost : fetchFullTranscript cutTranscript.mirror cutTranscript.providerSessionId =
      .ok [Utf8.replacement, Utf8.replacement] := rfl
  have whole := mirrors.whole
  rw [lost] at whole
  exact absurd (Except.ok.inj whole) (by decide)

end Transcript

end Kvy.Web.UnmanagedSessions
