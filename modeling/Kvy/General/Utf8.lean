import Mathlib.Data.List.Basic

/-!
# Reading UTF-8

A decoder that goes through the bytes once. A sequence that breaks off is written as one
replacement character, and the byte that broke it is read anew. A byte below 128 therefore
always stands for itself and leaves nothing pending, so text can be cut into lines before
it is read.
-/

namespace Kvy.General.Utf8

/-- What a started sequence waits for: how many bytes, the code point so far and the range of
the next byte. -/
structure Pending where
  missing : Nat
  codePoint : Nat
  lower : Nat
  upper : Nat
  high : 128 ≤ lower
  low : upper < 192

/-- Nothing is pending. -/
def idle : Pending := ⟨0, 0, 0x80, 0xBF, by decide, by decide⟩

/-- What stands for a sequence that breaks off. -/
def replacement : Char := Char.ofNat 0xFFFD

/-- A byte where nothing is pending. -/
def start (byte : Nat) : Pending × List Char :=
  if byte < 0x80 then (idle, [Char.ofNat byte])
  else if 0xC2 ≤ byte ∧ byte ≤ 0xDF then (⟨1, byte % 32, 0x80, 0xBF, by decide, by decide⟩, [])
  else if byte = 0xE0 then (⟨2, 0, 0xA0, 0xBF, by decide, by decide⟩, [])
  else if byte = 0xED then (⟨2, 13, 0x80, 0x9F, by decide, by decide⟩, [])
  else if 0xE1 ≤ byte ∧ byte ≤ 0xEF then (⟨2, byte % 16, 0x80, 0xBF, by decide, by decide⟩, [])
  else if byte = 0xF0 then (⟨3, 0, 0x90, 0xBF, by decide, by decide⟩, [])
  else if byte = 0xF4 then (⟨3, 4, 0x80, 0x8F, by decide, by decide⟩, [])
  else if 0xF1 ≤ byte ∧ byte ≤ 0xF3 then (⟨3, byte % 8, 0x80, 0xBF, by decide, by decide⟩, [])
  else (idle, [replacement])

/-- The next byte. -/
def accept (pending : Pending) (byte : Nat) : Pending × List Char :=
  if pending.missing = 0 then start byte
  else if byte < pending.lower ∨ pending.upper < byte then
    ((start byte).1, replacement :: (start byte).2)
  else
    let codePoint := pending.codePoint * 64 + byte % 64
    if pending.missing = 1 then (idle, [Char.ofNat codePoint])
    else (⟨pending.missing - 1, codePoint, 0x80, 0xBF, by decide, by decide⟩, [])

/-- The characters of the bytes that follow. -/
def decodeFrom : Pending → List UInt8 → List Char
  | pending, [] => if pending.missing = 0 then [] else [replacement]
  | pending, byte :: rest =>
    (accept pending byte.toNat).2 ++ decodeFrom (accept pending byte.toNat).1 rest

/-- The text of some bytes. -/
def decode (bytes : List UInt8) : List Char := decodeFrom idle bytes

/-- The bytes of a text. -/
def encode (text : List Char) : List UInt8 := text.flatMap String.utf8EncodeChar

/-! ## Bytes below 128 -/

variable {byte : Nat}

/-- A byte below 128 ends what is pending and stands for itself. -/
theorem accept_low (pending : Pending) (low : byte < 128) :
    accept pending byte =
      (idle, (if pending.missing = 0 then [] else [replacement]) ++ [Char.ofNat byte]) := by
  have started : start byte = (idle, [Char.ofNat byte]) := by simp [start, low]
  have below : byte < pending.lower := Nat.lt_of_lt_of_le low pending.high
  unfold accept
  by_cases nothing : pending.missing = 0
  · simp [nothing, started]
  · simp [nothing, below, started]

/-- Text can be cut at a byte below 128. -/
theorem decode_from_cut (pending : Pending) (first rest : List UInt8) (byte : UInt8)
    (low : byte.toNat < 128) :
    decodeFrom pending (first ++ byte :: rest) =
      decodeFrom pending first ++ Char.ofNat byte.toNat :: decode rest := by
  induction first generalizing pending with
  | nil =>
    simp only [List.nil_append, decodeFrom, accept_low pending low, List.append_assoc,
      List.singleton_append]
    rfl
  | cons head tail inductionHypothesis =>
    simp only [List.cons_append, decodeFrom, inductionHypothesis, List.append_assoc]

theorem decode_cut (first rest : List UInt8) (byte : UInt8) (low : byte.toNat < 128) :
    decode (first ++ byte :: rest) = decode first ++ Char.ofNat byte.toNat :: decode rest :=
  decode_from_cut idle first rest byte low

/-! ## Where low characters come from -/

/-- The code point of a started sequence ends at 128 or above. -/
def Pending.Large (pending : Pending) : Prop :=
  pending.missing = 0 ∨ 2 ≤ pending.codePoint ∨
    2 ≤ pending.missing ∧ (1 ≤ pending.codePoint ∨ 2 ≤ pending.lower - 128)

/-- A character that is written for a byte is that byte's, or stands at 128 or above, or is the
zero character. -/
def Foreign (byte : Nat) (char : Char) : Prop :=
  char = Char.ofNat byte ∨ 128 ≤ char.toNat ∨ char.toNat = 0

/-- The number of a written code point. -/
theorem char_number (codePoint : Nat) :
    (Char.ofNat codePoint).toNat = if codePoint.isValidChar then codePoint else 0 := by
  by_cases valid : codePoint.isValidChar
  · rw [Char.ofNat, dif_pos valid, if_pos valid]
    rfl
  · rw [Char.ofNat, dif_neg valid, if_neg valid]
    rfl

/-- A code point that ends at 128 or above is not a low character. -/
theorem foreign_point {codePoint : Nat} (above : 128 ≤ codePoint) :
    Foreign byte (Char.ofNat codePoint) := by
  by_cases valid : codePoint.isValidChar
  · exact .inr (.inl (by rwa [char_number, if_pos valid]))
  · exact .inr (.inr (by rw [char_number, if_neg valid]))

theorem foreign_replacement (byte : Nat) : Foreign byte replacement :=
  foreign_point (by decide)

theorem start_large (small : byte < 256) :
    (start byte).1.Large ∧ ∀ char ∈ (start byte).2, Foreign byte char := by
  unfold start
  split_ifs with low two first surrogate three least most four
  · exact ⟨.inl rfl, by simp [Foreign]⟩
  · exact ⟨.inr (.inl (by simp only; omega)), by simp⟩
  · exact ⟨.inr (.inr (by decide)), by simp⟩
  · exact ⟨.inr (.inl (by decide)), by simp⟩
  · exact ⟨.inr (.inr ⟨Nat.le_refl _, .inl (by simp only; omega)⟩), by simp⟩
  · exact ⟨.inr (.inr (by decide)), by simp⟩
  · exact ⟨.inr (.inl (by decide)), by simp⟩
  · exact ⟨.inr (.inr ⟨Nat.le_succ _, .inl (by simp only; omega)⟩), by simp⟩
  · exact ⟨.inl rfl, by simp [foreign_replacement]⟩

/-- What one byte writes, and what it leaves pending. -/
theorem accept_large {pending : Pending} (large : pending.Large) (small : byte < 256) :
    (accept pending byte).1.Large ∧ ∀ char ∈ (accept pending byte).2, Foreign byte char := by
  obtain ⟨opened, written⟩ := start_large small
  unfold accept
  split_ifs with nothing outside last
  · exact ⟨opened, written⟩
  · refine ⟨opened, ?_⟩
    intro char member
    rcases List.mem_cons.mp member with rfl | later
    · exact foreign_replacement byte
    · exact written char later
  · refine ⟨.inl rfl, ?_⟩
    intro char member
    obtain rfl := List.mem_singleton.mp member
    rcases large with none | wide | ⟨more, _⟩
    · exact absurd none nothing
    · exact foreign_point (by omega)
    · omega
  · have low := pending.low
    have high := pending.high
    have wide : 2 ≤ pending.codePoint * 64 + byte % 64 := by
      rcases large with none | wide | ⟨_, wide | wide⟩
      · exact absurd none nothing
      all_goals omega
    exact ⟨.inr (.inl wide), by simp⟩

/-- A low character of the text is a byte. -/
theorem mem_decode_from {pending : Pending} (large : pending.Large) {value : Nat}
    (positive : 0 < value) (low : value < 128) {bytes : List UInt8}
    (member : Char.ofNat value ∈ decodeFrom pending bytes) :
    ∃ byte ∈ bytes, byte.toNat = value := by
  have number : (Char.ofNat value).toNat = value := by
    rw [char_number, if_pos (.inl (by omega))]
  induction bytes generalizing pending with
  | nil =>
    unfold decodeFrom at member
    split_ifs at member
    · exact absurd member List.not_mem_nil
    · rw [List.mem_singleton.mp member] at number
      exact absurd number (by simp [replacement, char_number, Nat.isValidChar]; omega)
  | cons byte rest inductionHypothesis =>
    obtain ⟨next, written⟩ := accept_large large byte.toNat_lt
    rcases List.mem_append.mp member with now | later
    · refine ⟨byte, List.mem_cons_self, ?_⟩
      rcases written _ now with same | above | zero
      · have bound : byte.toNat < 256 := byte.toNat_lt
        rw [same, char_number, if_pos (.inl (by omega))] at number
        exact number
      · omega
      · omega
    · obtain ⟨found, held, same⟩ := inductionHypothesis next later
      exact ⟨found, List.mem_cons_of_mem _ held, same⟩

/-- Text is cut into the same lines before and after it is read. -/
theorem decode_split (value : UInt8) (positive : 0 < value.toNat) (low : value.toNat < 128)
    (bytes : List UInt8) :
    (decode bytes).splitOn (Char.ofNat value.toNat) = (bytes.splitOn value).map decode := by
  by_cases member : value ∈ bytes
  · obtain ⟨first, rest, rfl, outside⟩ := List.eq_append_cons_of_mem member
    have inline : Char.ofNat value.toNat ∉ decode first := by
      intro held
      obtain ⟨byte, inside, same⟩ := mem_decode_from (.inl rfl) positive low held
      exact outside (UInt8.toNat_inj.mp same ▸ inside)
    rw [decode_cut first rest value low, List.splitOn_append_cons_self_of_not_mem inline,
      List.splitOn_append_cons_self_of_not_mem outside, List.map_cons,
      decode_split value positive low rest]
  · have inline : Char.ofNat value.toNat ∉ decode bytes := by
      intro held
      obtain ⟨byte, inside, same⟩ := mem_decode_from (.inl rfl) positive low held
      exact member (UInt8.toNat_inj.mp same ▸ inside)
    rw [List.splitOn_eq_singleton inline, List.splitOn_eq_singleton member]
    rfl
termination_by bytes.length
decreasing_by all_goals (subst_vars; simp only [List.length_append, List.length_cons]; omega)

/-! ## What was written -/

/-- The number of a byte written as a number. -/
theorem byte_value {value : Nat} (small : value < 256) : (UInt8.ofNat value).toNat = value := by
  rw [UInt8.toNat_ofNat']
  exact Nat.mod_eq_of_lt small

variable {lower upper : Nat}

/-- A byte in range continues a sequence. -/
theorem decode_next {missing codePoint : Nat} {high : 128 ≤ lower} {low : upper < 192}
    (small : byte < 256) (above : lower ≤ byte) (below : byte ≤ upper)
    (rest : List UInt8) :
    decodeFrom ⟨missing + 2, codePoint, lower, upper, high, low⟩ (UInt8.ofNat byte :: rest) =
      decodeFrom ⟨missing + 1, codePoint * 64 + byte % 64, 0x80, 0xBF, by decide, by decide⟩ rest := by
  have inside : ¬ (byte < lower ∨ upper < byte) := by omega
  simp [decodeFrom, byte_value small, accept, inside]

/-- A byte in range ends a sequence that misses one. -/
theorem decode_last {codePoint : Nat} {high : 128 ≤ lower} {low : upper < 192}
    (small : byte < 256) (above : lower ≤ byte) (below : byte ≤ upper)
    (rest : List UInt8) :
    decodeFrom ⟨1, codePoint, lower, upper, high, low⟩ (UInt8.ofNat byte :: rest) =
      Char.ofNat (codePoint * 64 + byte % 64) :: decode rest := by
  have inside : ¬ (byte < lower ∨ upper < byte) := by omega
  simp [decodeFrom, byte_value small, accept, inside, decode]

/-- A byte that starts a sequence. -/
theorem decode_start {pending : Pending} (small : byte < 256)
    (started : start byte = (pending, [])) (rest : List UInt8) :
    decode (UInt8.ofNat byte :: rest) = decodeFrom pending rest := by
  simp [decode, decodeFrom, byte_value small, accept, idle, started]

variable {v : Nat}

/-- Two bytes. -/
theorem decode_two (above : 0x7F < v) (below : v ≤ 0x7FF) (rest : List UInt8) :
    decode (UInt8.ofNat (v / 64 % 32 + 192) :: UInt8.ofNat (v % 64 + 128) :: rest) =
      Char.ofNat v :: decode rest := by
  have started : start (v / 64 % 32 + 192) =
      (⟨1, (v / 64 % 32 + 192) % 32, 0x80, 0xBF, by decide, by decide⟩, []) := by
    rw [start, if_neg (by omega), if_pos (by omega)]
  have joined : (v / 64 % 32 + 192) % 32 * 64 + (v % 64 + 128) % 64 = v := by omega
  rw [decode_start (by omega) started, decode_last (by omega) (by omega) (by omega), joined]

/-- What follows the lead of three bytes. -/
theorem decode_three_from {lead : Nat} {high : 128 ≤ lower} {low : upper < 192}
    (above : lower ≤ v / 64 % 64 + 128) (below : v / 64 % 64 + 128 ≤ upper)
    (joined : lead * 4096 + v / 64 % 64 * 64 + v % 64 = v) (rest : List UInt8) :
    decodeFrom ⟨2, lead, lower, upper, high, low⟩
        (UInt8.ofNat (v / 64 % 64 + 128) :: UInt8.ofNat (v % 64 + 128) :: rest) =
      Char.ofNat v :: decode rest := by
  have point : (lead * 64 + (v / 64 % 64 + 128) % 64) * 64 + (v % 64 + 128) % 64 = v := by omega
  rw [decode_next (by omega) above below, decode_last (by omega) (by omega) (by omega), point]

/-- Three bytes; the lead decides the range of the second one. -/
theorem decode_three (above : 0x7FF < v) (below : v ≤ 0xFFFF)
    (valid : v < 0xD800 ∨ 0xDFFF < v) (rest : List UInt8) :
    decode (UInt8.ofNat (v / 4096 % 16 + 224) :: UInt8.ofNat (v / 64 % 64 + 128) ::
      UInt8.ofNat (v % 64 + 128) :: rest) = Char.ofNat v :: decode rest := by
  by_cases first : v / 4096 = 0
  · have started : start (v / 4096 % 16 + 224) =
        (⟨2, 0, 0xA0, 0xBF, by decide, by decide⟩, []) := by
      rw [start, if_neg (by omega), if_neg (by omega), if_pos (by omega)]
    rw [decode_start (by omega) started, decode_three_from (by omega) (by omega) (by omega)]
  · by_cases surrogate : v / 4096 = 13
    · have started : start (v / 4096 % 16 + 224) =
          (⟨2, 13, 0x80, 0x9F, by decide, by decide⟩, []) := by
        rw [start, if_neg (by omega), if_neg (by omega), if_neg (by omega), if_pos (by omega)]
      rw [decode_start (by omega) started, decode_three_from (by omega) (by omega) (by omega)]
    · have started : start (v / 4096 % 16 + 224) =
          (⟨2, (v / 4096 % 16 + 224) % 16, 0x80, 0xBF, by decide, by decide⟩, []) := by
        rw [start, if_neg (by omega), if_neg (by omega), if_neg (by omega), if_neg (by omega),
          if_pos (by omega)]
      rw [decode_start (by omega) started, decode_three_from (by omega) (by omega) (by omega)]

/-- What follows the lead of four bytes. -/
theorem decode_four_from {lead : Nat} {high : 128 ≤ lower} {low : upper < 192}
    (above : lower ≤ v / 4096 % 64 + 128) (below : v / 4096 % 64 + 128 ≤ upper)
    (joined : lead * 262144 + v / 4096 % 64 * 4096 + v / 64 % 64 * 64 + v % 64 = v)
    (rest : List UInt8) :
    decodeFrom ⟨3, lead, lower, upper, high, low⟩ (UInt8.ofNat (v / 4096 % 64 + 128) ::
        UInt8.ofNat (v / 64 % 64 + 128) :: UInt8.ofNat (v % 64 + 128) :: rest) =
      Char.ofNat v :: decode rest := by
  have second : (v / 4096 % 64 + 128) % 64 = v / 4096 % 64 := by omega
  have small : v / 4096 % 64 + 128 < 256 := by omega
  have point : (lead * 64 + v / 4096 % 64) * 4096 + v / 64 % 64 * 64 + v % 64 = v := by
    rw [Nat.add_mul, Nat.mul_assoc]
    exact joined
  have least : 0x80 ≤ v / 64 % 64 + 128 := by omega
  have most : v / 64 % 64 + 128 ≤ 0xBF := by omega
  rw [decode_next small above below, second]
  exact decode_three_from least most point rest

/-- Four bytes; the lead decides the range of the second one. -/
theorem decode_four (above : 0xFFFF < v) (below : v < 0x110000) (rest : List UInt8) :
    decode (UInt8.ofNat (v / 262144 % 8 + 240) :: UInt8.ofNat (v / 4096 % 64 + 128) ::
      UInt8.ofNat (v / 64 % 64 + 128) :: UInt8.ofNat (v % 64 + 128) :: rest) =
      Char.ofNat v :: decode rest := by
  by_cases first : v / 262144 = 0
  · have started : start (v / 262144 % 8 + 240) =
        (⟨3, 0, 0x90, 0xBF, by decide, by decide⟩, []) := by
      rw [start, if_neg (by omega), if_neg (by omega), if_neg (by omega), if_neg (by omega),
        if_neg (by omega), if_pos (by omega)]
    rw [decode_start (by omega) started, decode_four_from (by omega) (by omega) (by omega)]
  · by_cases last : v / 262144 = 4
    · have started : start (v / 262144 % 8 + 240) =
          (⟨3, 4, 0x80, 0x8F, by decide, by decide⟩, []) := by
        rw [start, if_neg (by omega), if_neg (by omega), if_neg (by omega), if_neg (by omega),
          if_neg (by omega), if_neg (by omega), if_pos (by omega)]
      rw [decode_start (by omega) started, decode_four_from (by omega) (by omega) (by omega)]
    · have started : start (v / 262144 % 8 + 240) =
          (⟨3, (v / 262144 % 8 + 240) % 8, 0x80, 0xBF, by decide, by decide⟩, []) := by
        rw [start, if_neg (by omega), if_neg (by omega), if_neg (by omega), if_neg (by omega),
          if_neg (by omega), if_neg (by omega), if_neg (by omega), if_pos (by omega)]
      rw [decode_start (by omega) started, decode_four_from (by omega) (by omega) (by omega)]

/-- Reading a written character returns it. -/
theorem decode_char (char : Char) (rest : List UInt8) :
    decode (String.utf8EncodeChar char ++ rest) = char :: decode rest := by
  have valid : char.toNat < 0xD800 ∨ 0xDFFF < char.toNat ∧ char.toNat < 0x110000 := char.valid
  have whole : Char.ofNat char.toNat = char := Char.ofNat_toNat char
  have value : char.val.toNat = char.toNat := rfl
  unfold String.utf8EncodeChar
  simp only [value]
  generalize char.toNat = v at valid whole
  rw [← whole]
  by_cases one : v ≤ 0x7F
  · have byte : (UInt8.ofNat v).toNat = v := byte_value (by omega)
    have cut := decode_cut [] rest (UInt8.ofNat v) (by omega)
    rw [byte] at cut
    simp only [one, ↓reduceIte]
    exact cut
  · by_cases two : v ≤ 0x7FF
    · simp only [one, two, ↓reduceIte]
      exact decode_two (by omega) two rest
    · by_cases three : v ≤ 0xFFFF
      · simp only [one, two, three, ↓reduceIte]
        exact decode_three (by omega) three (by omega) rest
      · simp only [one, two, three, ↓reduceIte]
        exact decode_four (by omega) (by omega) rest

/-- Reading a written text returns it. -/
theorem decode_encode (text : List Char) : decode (encode text) = text := by
  induction text with
  | nil => rfl
  | cons char rest inductionHypothesis =>
    rw [encode, List.flatMap_cons, decode_char]
    exact congrArg (char :: ·) inductionHypothesis

end Kvy.General.Utf8
