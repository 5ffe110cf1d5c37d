import Kvy.General.Utf8

/-!
# Reading UTF-8 in pieces

The bytes of a text are cut into pieces and every piece is read for itself. A byte that continues a
sequence but stands at the beginning of a piece adds a character, and no cut takes one away. The pieces
therefore make up the text exactly where every cut is at the boundary of a character.
-/

namespace Kvy.General.Utf8

/-- A byte that continues a sequence. -/
def Continues (byte : UInt8) : Prop := 128 ≤ byte.toNat ∧ byte.toNat < 192

instance (byte : UInt8) : Decidable (Continues byte) := inferInstanceAs (Decidable (_ ∧ _))

/-- How many bytes do not continue a sequence. -/
def leads (bytes : List UInt8) : Nat := bytes.countP (fun byte => decide ¬ Continues byte)

@[simp] theorem leads_nil : leads [] = 0 := rfl

theorem leads_cons (byte : UInt8) (rest : List UInt8) :
    leads (byte :: rest) = leads rest + if Continues byte then 0 else 1 := by
  by_cases continues : Continues byte <;> simp [leads, continues]

theorem leads_append (first rest : List UInt8) : leads (first ++ rest) = leads first + leads rest :=
  List.countP_append

/-! ## What is read -/

/-- One where something is pending. -/
def Pending.started (pending : Pending) : Nat := if pending.missing = 0 then 0 else 1

/-- A byte where nothing is pending writes a character or leaves one pending. -/
theorem start_counts (byte : Nat) : (start byte).2.length + (start byte).1.started = 1 := by
  unfold start
  split_ifs <;> rfl

/-- A byte that does not continue a sequence is worth a character more than what is pending; any other
byte takes nothing away. -/
theorem accept_counts (pending : Pending) (byte : UInt8) :
    pending.started + (if Continues byte then 0 else 1) ≤
      (accept pending byte.toNat).2.length + (accept pending byte.toNat).1.started := by
  have counted := start_counts byte.toNat
  have most : (if Continues byte then 0 else 1) ≤ 1 := by split_ifs <;> decide
  by_cases nothing : pending.missing = 0
  · have none : pending.started = 0 := if_pos nothing
    rw [accept, if_pos nothing, none, counted]
    omega
  · have one : pending.started = 1 := if_neg nothing
    by_cases outside : byte.toNat < pending.lower ∨ pending.upper < byte.toNat
    · simp only [accept, nothing, outside, ↓reduceIte, List.length_cons]
      omega
    · have continues : Continues byte := by
        have high := pending.high
        have low := pending.low
        exact ⟨by omega, by omega⟩
      by_cases last : pending.missing = 1
      · simp [accept, last, outside, continues, one]
      · have more : ¬ pending.missing - 1 = 0 := by omega
        simp [accept, nothing, last, outside, continues, Pending.started, more]

/-- At least a character is read for every byte that does not continue a sequence. -/
theorem leads_le_decodeFrom (pending : Pending) (bytes : List UInt8) :
    pending.started + leads bytes ≤ (decodeFrom pending bytes).length := by
  induction bytes generalizing pending with
  | nil =>
    unfold Pending.started decodeFrom
    split_ifs <;> simp
  | cons byte rest inductionHypothesis =>
    have now := accept_counts pending byte
    have later := inductionHypothesis (accept pending byte.toNat).1
    rw [decodeFrom, List.length_append, leads_cons]
    omega

theorem leads_le_decode (bytes : List UInt8) : leads bytes ≤ (decode bytes).length :=
  Nat.le_trans (Nat.le_add_left _ _) (leads_le_decodeFrom idle bytes)

/-- A piece does not begin inside of a character. -/
def Whole (piece : List UInt8) : Prop := ∀ byte ∈ piece.head?, ¬ Continues byte

/-- One character more is read where the first byte continues a sequence. -/
theorem leads_lt_decode {bytes : List UInt8} (inside : ¬ Whole bytes) :
    leads bytes < (decode bytes).length := by
  cases bytes with
  | nil => exact absurd (by simp [Whole]) inside
  | cons byte rest =>
    have continues : Continues byte := by simpa [Whole] using inside
    have later := leads_le_decodeFrom (accept idle byte.toNat).1 rest
    have counted := start_counts byte.toNat
    have same : accept idle byte.toNat = start byte.toNat := rfl
    rw [decode, decodeFrom, List.length_append, leads_cons, if_pos continues]
    rw [same] at later ⊢
    omega

/-! ## What is written -/

/-- The bytes of a character: one that does not continue a sequence, and some that do. A byte below 128
stands alone. -/
theorem encode_char (char : Char) : ∃ lead rest, String.utf8EncodeChar char = lead :: rest ∧
    ¬ Continues lead ∧ (∀ byte ∈ rest, Continues byte) ∧ (rest = [] ∨ 192 ≤ lead.toNat) := by
  have valid : char.toNat < 0xD800 ∨ 0xDFFF < char.toNat ∧ char.toNat < 0x110000 := char.valid
  have value : char.val.toNat = char.toNat := rfl
  have tail : ∀ v, Continues (UInt8.ofNat (v % 64 + 128)) := by
    intro v
    rw [Continues, byte_value (by omega)]
    omega
  have first : ∀ v, v < 256 → v < 128 ∨ 192 ≤ v → ¬ Continues (UInt8.ofNat v) := by
    intro v small outside
    rw [Continues, byte_value small]
    omega
  unfold String.utf8EncodeChar
  simp only [value]
  generalize char.toNat = v at valid
  split_ifs with one two three
  · exact ⟨_, _, rfl, first _ (by omega) (by omega), by simp, .inl rfl⟩
  all_goals
    refine ⟨_, _, rfl, first _ (by omega) (by omega), ?_, .inr ?_⟩
    · simp only [List.forall_mem_cons, List.not_mem_nil, false_implies, implies_true, tail,
        and_self]
    · rw [byte_value (by omega)]
      omega

/-- The bytes of a text that do not continue a sequence are as many as its characters. -/
theorem leads_encode (text : List Char) : leads (encode text) = text.length := by
  induction text with
  | nil => rfl
  | cons char rest inductionHypothesis =>
    obtain ⟨lead, tail, written, begins, continues, -⟩ := encode_char char
    have none : leads tail = 0 := by
      rw [leads, List.countP_eq_zero]
      intro byte member
      simp [continues byte member]
    rw [encode, List.flatMap_cons, written, ← encode, leads_append, leads_cons, none,
      if_neg begins, inductionHypothesis, List.length_cons]
    omega

variable {text : List Char}

/-- A cut before a byte that does not continue a sequence cuts the text. -/
theorem encode_cut {first rest : List UInt8} (whole : Whole rest)
    (bytes : first ++ rest = encode text) :
    ∃ before after, first = encode before ∧ rest = encode after ∧ before ++ after = text := by
  induction text generalizing first with
  | nil =>
    obtain ⟨rfl, rfl⟩ := List.append_eq_nil_iff.mp bytes
    exact ⟨[], [], rfl, rfl, rfl⟩
  | cons char tail inductionHypothesis =>
    obtain ⟨lead, more, written, begins, continues, -⟩ := encode_char char
    rcases first with _ | ⟨byte, first⟩
    · exact ⟨[], char :: tail, rfl, bytes, rfl⟩
    · rw [encode, List.flatMap_cons, written, ← encode, List.cons_append, List.cons_append,
        List.cons.injEq] at bytes
      obtain ⟨rfl, bytes⟩ := bytes
      rcases List.append_eq_append_iff.mp bytes with ⟨inside, split, rest'⟩ | ⟨first', split, rest'⟩
      · rcases inside with _ | ⟨byte', inside⟩
        · refine ⟨[char], tail, ?_, by simpa using rest', rfl⟩
          simp only [encode, List.flatMap_cons, written, split, List.append_nil, List.flatMap_nil]
        · have member : byte' ∈ more := by simp [split]
          exact absurd (continues byte' member) (whole byte' (by simp [rest']))
      · obtain ⟨before, after, rfl, same, joined⟩ := inductionHypothesis rest'.symm
        refine ⟨char :: before, after, ?_, same, by rw [List.cons_append, joined]⟩
        rw [encode, List.flatMap_cons, written, ← encode, split, List.cons_append]

/-- A text begins with a whole character. -/
theorem whole_encode (text : List Char) : Whole (encode text) := by
  cases text with
  | nil => simp [Whole, encode]
  | cons char tail =>
    obtain ⟨lead, more, written, begins, -⟩ := encode_char char
    intro byte held
    rw [encode, List.flatMap_cons, written, List.cons_append, List.head?_cons] at held
    cases held
    exact begins

/-- A whole character follows on a byte below 128. -/
theorem whole_after {first rest : List UInt8} {byte : UInt8}
    (low : byte.toNat < 128) (bytes : first ++ byte :: rest = encode text) : Whole rest := by
  have whole : Whole (byte :: rest) := by
    intro found held
    cases held
    exact fun continues => absurd continues.1 (by omega)
  obtain ⟨-, after, -, same, -⟩ := encode_cut whole bytes
  cases after with
  | nil => cases same
  | cons char tail =>
    obtain ⟨lead, more, written, -, -, none | high⟩ := encode_char char
    · rw [encode, List.flatMap_cons, written, none, List.cons_append, List.nil_append,
        List.cons.injEq] at same
      rw [same.2]
      exact whole_encode tail
    · rw [encode, List.flatMap_cons, written, List.cons_append, List.cons.injEq] at same
      rw [← same.1] at high
      omega

/-! ## Pieces -/

/-- The text that is read piece by piece. -/
def decodePieces (pieces : List (List UInt8)) : List Char := (pieces.map decode).flatten

variable {pieces : List (List UInt8)}

/-- Pieces that begin with whole characters do so together. -/
theorem whole_flatten (whole : ∀ piece ∈ pieces, Whole piece) :
    Whole pieces.flatten := by
  induction pieces with
  | nil => simp [Whole]
  | cons piece rest inductionHypothesis =>
    rcases piece with _ | ⟨byte, piece⟩
    · exact inductionHypothesis (fun piece member => whole piece (List.mem_cons_of_mem _ member))
    · intro found held
      exact whole (byte :: piece) List.mem_cons_self found (by simpa using held)

/-- Pieces that begin with whole characters make up the text. -/
theorem decodePieces_whole
    (whole : ∀ piece ∈ pieces, Whole piece) (bytes : pieces.flatten = encode text) :
    decodePieces pieces = text := by
  induction pieces generalizing text with
  | nil =>
    have none : decode (encode text) = decode [] := by rw [← bytes]; rfl
    rw [decode_encode] at none
    exact none.symm
  | cons piece rest inductionHypothesis =>
    have others : ∀ piece ∈ rest, Whole piece :=
      fun piece member => whole piece (List.mem_cons_of_mem _ member)
    obtain ⟨before, after, rfl, same, joined⟩ := encode_cut (whole_flatten others) bytes
    have tail : decodePieces rest = after := inductionHypothesis others same
    rw [decodePieces, List.map_cons, List.flatten_cons, decode_encode, ← decodePieces, tail, joined]

/-- At least a character is read for every byte that does not continue a sequence; one more where a
piece begins inside of a character. -/
theorem leads_le_decodePieces (pieces : List (List UInt8)) :
    leads pieces.flatten ≤ (decodePieces pieces).length := by
  induction pieces with
  | nil => exact Nat.le_refl _
  | cons piece rest inductionHypothesis =>
    have now := leads_le_decode piece
    rw [decodePieces, List.map_cons, List.flatten_cons, List.flatten_cons, ← decodePieces,
      leads_append, List.length_append]
    omega

theorem leads_lt_decodePieces {piece : List UInt8}
    (member : piece ∈ pieces) (inside : ¬ Whole piece) :
    leads pieces.flatten < (decodePieces pieces).length := by
  obtain ⟨before, after, rfl⟩ := List.append_of_mem member
  have first := leads_le_decodePieces before
  have here := leads_lt_decode inside
  have last := leads_le_decodePieces after
  have parts : decodePieces (before ++ piece :: after) =
      decodePieces before ++ (decode piece ++ decodePieces after) := by
    simp [decodePieces]
  rw [parts, List.flatten_append, List.flatten_cons, leads_append, leads_append]
  simp only [List.length_append]
  omega

/-- Pieces make up the text exactly where every one begins with a whole character. -/
theorem decodePieces_iff (bytes : pieces.flatten = encode text) :
    decodePieces pieces = text ↔ ∀ piece ∈ pieces, Whole piece := by
  constructor
  · intro same piece member
    by_contra inside
    have more := leads_lt_decodePieces member inside
    rw [same, bytes, leads_encode] at more
    exact Nat.lt_irrefl _ more
  · intro whole
    exact decodePieces_whole whole bytes

end Kvy.General.Utf8
