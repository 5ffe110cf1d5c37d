import Kvy.General.Base64
import Mathlib.Data.BitVec
import Mathlib.Tactic.Cases
import Mathlib.Tactic.IntervalCases

/-!
# Base64 text of keys and ciphertexts

The codec of both entry points. A string is its sequence of sixteen-bit units, as `charCodeAt`
reads it. The decoder shifts a signed accumulator of thirty-two bits that nothing masks: a
byte is always cut out of its last twelve bits, and those survive every overflow.
-/

namespace Kvy.Crypto

open General

/-- The unit of an ASCII character. -/
def unitOf (char : Char) : UInt16 := UInt16.ofNat char.toNat

/-- The two spellings of the text. -/
inductive Variant where
  | base64
  | base64url
deriving DecidableEq

/-- `ALPHABET`: the digits in the order of their values. -/
def alphabet : List UInt16 :=
  "ABCDEFGHIJKLMNOPQRSTUVWXYZabcdefghijklmnopqrstuvwxyz0123456789+/".toList.map unitOf

/-- `LOOKUP`: the value of each of the first hundred and twenty-eight units, `-1` where there
is none, `-2` for padding. -/
def lookup : List Int :=
  let filled := alphabet.zipIdx.foldl
    (fun table (digit, value) => table.set digit.toNat (value : Int)) (List.replicate 128 (-1))
  filled.set (unitOf '=').toNat (-2)

/-- `ALPHABET[value]`. -/
def digit (value : Nat) : UInt16 := alphabet.getD value 0

/-- One round of the encoder's loop: the digits of up to three bytes. -/
def encodeGroup (b0 : UInt8) (b1 b2 : Option UInt8) : List UInt16 :=
  [digit (b0.toNat >>> 2),
    digit ((b0.toNat &&& 0x03) <<< 4 ||| (match b1 with | none => 0 | some b1 => b1.toNat >>> 4)),
    match b1 with
    | none => unitOf '='
    | some b1 =>
      digit ((b1.toNat &&& 0x0f) <<< 2 ||| (match b2 with | none => 0 | some b2 => b2.toNat >>> 6)),
    match b2 with
    | none => unitOf '='
    | some b2 => digit (b2.toNat &&& 0x3f)]

/-- The encoder's loop. -/
def encodeGroups : List UInt8 → List UInt16
  | b0 :: b1 :: b2 :: rest => encodeGroup b0 (some b1) (some b2) ++ encodeGroups rest
  | [b0, b1] => encodeGroup b0 (some b1) none
  | [b0] => encodeGroup b0 none none
  | [] => []

/-- `text.replaceAll` of one character by another. -/
def replaceAll (old new : Char) (text : List UInt16) : List UInt16 :=
  text.map fun unit => if unit = unitOf old then unitOf new else unit

/-- `encodeBase64`. -/
def encodeBase64 (buffer : List UInt8) (variant : Variant) : List UInt16 :=
  let result := encodeGroups buffer
  match variant with
  | .base64 => result
  | .base64url =>
    (replaceAll '/' '_' (replaceAll '+' '-' result)).filter (fun unit => unit != unitOf '=')

/-- The variables of the decoder's loop. -/
structure Decoding where
  bytes : List UInt8
  buffer : BitVec 32
  bits : Nat
deriving DecidableEq

/-- The value the loop takes from a unit. -/
def valueOf (code : UInt16) : Int := if code.toNat < 128 then lookup.getD code.toNat (-1) else -1

/-- The rest of a round, for a unit that is not skipped. -/
def Decoding.take (state : Decoding) (value : Int) : Decoding :=
  let buffer := (state.buffer <<< 6) ||| BitVec.ofInt 32 value
  let bits := state.bits + 6
  if 8 ≤ bits then
    { bytes := state.bytes ++ [UInt8.ofNat ((buffer.sshiftRight (bits - 8)) &&& 0xff).toNat]
      buffer := buffer
      bits := bits - 8 }
  else { state with buffer := buffer, bits := bits }

/-- One round of the decoder's loop. -/
def Decoding.round (state : Decoding) (code : UInt16) : Decoding :=
  let value := valueOf code
  if value = -2 ∨ value = -1 then state else state.take value

/-- `decodeBase64`. -/
def decodeBase64 (base64 : List UInt16) (variant : Variant) : List UInt8 :=
  let input :=
    match variant with
    | .base64url => replaceAll '_' '/' (replaceAll '-' '+' base64)
    | .base64 => base64
  (input.foldl Decoding.round ⟨[], 0, 0⟩).bytes

/-- A unit after the decoder's replacements. -/
def Variant.read (variant : Variant) (unit : UInt16) : UInt16 :=
  match variant with
  | .base64 => unit
  | .base64url =>
    let unit := if unit = unitOf '-' then unitOf '+' else unit
    if unit = unitOf '_' then unitOf '/' else unit

/-- A unit after the encoder's replacements. -/
def Variant.write (variant : Variant) (unit : UInt16) : UInt16 :=
  match variant with
  | .base64 => unit
  | .base64url =>
    let unit := if unit = unitOf '+' then unitOf '-' else unit
    if unit = unitOf '/' then unitOf '_' else unit

/-- The sixty-four digits of a variant. -/
def Variant.alphabet (variant : Variant) : List UInt16 := Crypto.alphabet.map variant.write

/-- The bits a unit stands for, if it is not skipped. -/
def Variant.sextet (variant : Variant) (unit : UInt16) : Option Nat :=
  let value := valueOf (variant.read unit)
  if value = -2 ∨ value = -1 then none else some value.toNat

/-- `t` is `s` with characters of `added` inserted. -/
inductive Inserted (added : UInt16 → Prop) : List UInt16 → List UInt16 → Prop where
  | nil : Inserted added [] []
  | keep (unit : UInt16) {s t : List UInt16} :
    Inserted added s t → Inserted added (unit :: s) (unit :: t)
  | insert (unit : UInt16) {s t : List UInt16} :
    added unit → Inserted added s t → Inserted added s (unit :: t)

/-- A skipped unit and a unit with a value are told by the table alone. -/
theorem lookup_values : ∀ code < 128, -2 ≤ lookup.getD code (-1) ∧ lookup.getD code (-1) < 64 := by
  decide +kernel

/-- A digit is read as the value it was written for. -/
theorem sextet_of_digit (variant : Variant) :
    ∀ value < 64, variant.sextet (variant.write (digit value)) = some value := by
  cases variant <;> decide +kernel

/-- Padding is skipped. -/
theorem sextet_of_padding (variant : Variant) : variant.sextet (unitOf '=') = none := by
  cases variant <;> decide +kernel

/-- Six bits pushed into the accumulator. Overflow takes bits off its upper end only. -/
theorem pushed (buffer : BitVec 32) (value : Nat) (bound : value < 64) :
    (buffer <<< 6 ||| BitVec.ofInt 32 value).toNat = (buffer.toNat * 64 + value) % 2 ^ 32 := by
  have small : value < 2 ^ 32 := by omega
  have lower : value < 2 ^ 6 := by omega
  have upper : buffer.toNat <<< 6 % 2 ^ 32 = (buffer.toNat % 2 ^ 26) <<< 6 := by
    rw [Nat.shiftLeft_eq, Nat.shiftLeft_eq]
    omega
  rw [BitVec.toNat_or, BitVec.toNat_shiftLeft, upper, BitVec.ofInt_natCast, BitVec.toNat_ofNat,
    Nat.mod_eq_of_lt small, ← Nat.shiftLeft_add_eq_or_of_lt lower, Nat.shiftLeft_eq]
  omega

/-- A byte is cut out of the lower end, where the sign is not seen. -/
theorem cut (buffer : BitVec 32) (bits : Nat) (bound : bits ≤ 24) :
    (buffer.sshiftRight bits &&& 0xff).toNat = buffer.toNat / 2 ^ bits % 256 := by
  have unsigned : buffer.sshiftRight bits &&& 0xff = buffer >>> bits &&& 0xff := by
    apply BitVec.eq_of_getLsbD_eq
    intro position inside
    have mask : (0xff : BitVec 32).getLsbD position = decide (position < 8) := by
      have positions : ∀ position < 32, (0xff : BitVec 32).getLsbD position = decide (position < 8) := by
        decide
      exact positions position inside
    rw [BitVec.getLsbD_and, BitVec.getLsbD_and, mask, BitVec.getLsbD_sshiftRight,
      BitVec.getLsbD_ushiftRight]
    by_cases low : position < 8
    · have stored : bits + position < 32 := by omega
      have within : ¬ 32 ≤ position := by omega
      simp [stored, within]
    · simp [low]
  rw [unsigned, BitVec.toNat_and, BitVec.toNat_ushiftRight, Nat.shiftRight_eq_div_pow]
  exact Nat.and_two_pow_sub_one_eq_mod _ 8

/-- Six bits that complete no byte. -/
theorem Decoding.take_first (bytes : List UInt8) (buffer : BitVec 32) (value : Nat) :
    (Decoding.take ⟨bytes, buffer, 0⟩ value) =
      ⟨bytes, buffer <<< 6 ||| BitVec.ofInt 32 value, 6⟩ := rfl

/-- Six bits that complete a byte. -/
theorem Decoding.take_later (bytes : List UInt8) (buffer : BitVec 32) (left value : Nat)
    (enough : 2 ≤ left) (few : left ≤ 6) (bound : value < 64) :
    (Decoding.take ⟨bytes, buffer, left⟩ value) =
      ⟨bytes ++ [UInt8.ofNat ((buffer.toNat * 64 + value) % 2 ^ 32 / 2 ^ (left - 2) % 256)],
        buffer <<< 6 ||| BitVec.ofInt 32 value, left - 2⟩ := by
  have complete : 8 ≤ left + 6 := by omega
  have rest : left + 6 - 8 = left - 2 := by omega
  simp only [take, complete, if_true, rest]
  rw [cut _ _ (by omega), pushed buffer value bound]

/-- The rounds of units with the given values. -/
def Decoding.takeAll (state : Decoding) (values : List Nat) : Decoding :=
  values.foldl (fun (state : Decoding) (value : Nat) => state.take value) state

@[simp] theorem Decoding.take_all_nil (state : Decoding) : state.takeAll [] = state := rfl

@[simp] theorem Decoding.take_all_cons (state : Decoding) (value : Nat) (rest : List Nat) :
    state.takeAll (value :: rest) = (state.take value).takeAll rest := rfl

/-- Whatever the accumulator holds when no bit is pending, the first byte is of the next
twelve bits. -/
theorem first_byte {buffer first second : Nat} (low : first < 64) (next : second < 64) :
    ((buffer * 64 + first) % 2 ^ 32 * 64 + second) % 2 ^ 32 / 2 ^ (6 - 2) % 256 =
      first * 4 + second / 16 := by
  omega

/-- The second byte is of the twelve bits that end with the third digit. -/
theorem second_byte {buffer second third : Nat} (low : second < 64) (next : third < 64) :
    ((buffer * 64 + second) % 2 ^ 32 * 64 + third) % 2 ^ 32 / 2 ^ (4 - 2) % 256 =
      second % 16 * 16 + third / 4 := by
  omega

/-- The third byte is of the twelve bits that end with the fourth digit. -/
theorem third_byte {buffer third fourth : Nat} (low : third < 64) (next : fourth < 64) :
    ((buffer * 64 + third) % 2 ^ 32 * 64 + fourth) % 2 ^ 32 / 2 ^ (2 - 2) % 256 =
      third % 4 * 64 + fourth := by
  omega

/-- Two digits from a state without pending bits. -/
theorem Decoding.take_two (read : List UInt8) (buffer : BitVec 32) {first second : Nat}
    (low : first < 64) (next : second < 64) :
    ((Decoding.mk read buffer 0).take first).take second =
      ⟨read ++ [UInt8.ofNat (first * 4 + second / 16)],
        (buffer <<< 6 ||| BitVec.ofInt 32 first) <<< 6 ||| BitVec.ofInt 32 second, 4⟩ := by
  rw [take_first, take_later _ _ 6 second (by omega) (by omega) next, pushed buffer first low,
    first_byte low next]

/-- A third digit. -/
theorem Decoding.take_third (read : List UInt8) (buffer : BitVec 32) {second third : Nat}
    (low : second < 64) (next : third < 64) :
    (Decoding.mk read (buffer <<< 6 ||| BitVec.ofInt 32 second) 4).take third =
      ⟨read ++ [UInt8.ofNat (second % 16 * 16 + third / 4)],
        (buffer <<< 6 ||| BitVec.ofInt 32 second) <<< 6 ||| BitVec.ofInt 32 third, 2⟩ := by
  rw [take_later _ _ 4 third (by omega) (by omega) next, pushed buffer second low,
    second_byte low next]

/-- A fourth digit leaves no bit pending. -/
theorem Decoding.take_fourth (read : List UInt8) (buffer : BitVec 32) {third fourth : Nat}
    (low : third < 64) (next : fourth < 64) :
    (Decoding.mk read (buffer <<< 6 ||| BitVec.ofInt 32 third) 2).take fourth =
      ⟨read ++ [UInt8.ofNat (third % 4 * 64 + fourth)],
        (buffer <<< 6 ||| BitVec.ofInt 32 third) <<< 6 ||| BitVec.ofInt 32 fourth, 0⟩ := by
  rw [take_later _ _ 2 fourth (by omega) (by omega) next, pushed buffer third low,
    third_byte low next]

/-- The loop joins the bits of the digits to come, whatever the accumulator holds. -/
theorem joined (values : List Nat) : (∀ value ∈ values, value < 64) →
    ∀ (read : List UInt8) (buffer : BitVec 32),
      ((Decoding.mk read buffer 0).takeAll values).bytes = read ++ Base64.bytes values := by
  fun_induction Base64.bytes values with
  | case1 first second third fourth rest inductionHypothesis =>
    intro bound read buffer
    simp only [List.forall_mem_cons] at bound
    obtain ⟨firstBound, secondBound, thirdBound, fourthBound, restBound⟩ := bound
    rw [Decoding.take_all_cons, Decoding.take_all_cons, Decoding.take_all_cons,
      Decoding.take_all_cons, Decoding.take_two read buffer firstBound secondBound,
      Decoding.take_third _ _ secondBound thirdBound, Decoding.take_fourth _ _ thirdBound fourthBound,
      inductionHypothesis restBound]
    simp
  | case2 first second third =>
    intro bound read buffer
    simp only [List.forall_mem_cons] at bound
    obtain ⟨firstBound, secondBound, thirdBound, -⟩ := bound
    rw [Decoding.take_all_cons, Decoding.take_all_cons, Decoding.take_all_cons,
      Decoding.take_two read buffer firstBound secondBound,
      Decoding.take_third _ _ secondBound thirdBound, Decoding.take_all_nil]
    simp
  | case3 first second =>
    intro bound read buffer
    simp only [List.forall_mem_cons] at bound
    obtain ⟨firstBound, secondBound, -⟩ := bound
    rw [Decoding.take_all_cons, Decoding.take_all_cons,
      Decoding.take_two read buffer firstBound secondBound, Decoding.take_all_nil]
  | case4 values longer middle shorter =>
    intro bound read buffer
    match values with
    | [] => simp
    | [value] => rw [Decoding.take_all_cons, Decoding.take_first, Decoding.take_all_nil, List.append_nil]
    | [first, second] => exact absurd rfl (shorter first second)
    | [first, second, third] => exact absurd rfl (middle first second third)
    | first :: second :: third :: fourth :: rest => exact absurd rfl (longer first second third fourth rest)

/-- The replacements of the decoder work unit by unit. -/
theorem decode_reads (text : List UInt16) (variant : Variant) :
    decodeBase64 text variant = ((text.map variant.read).foldl Decoding.round ⟨[], 0, 0⟩).bytes := by
  cases variant with
  | base64 =>
    have unchanged : text.map (Variant.read .base64) = text := List.map_id text
    rw [unchanged]
    rfl
  | base64url =>
    simp only [decodeBase64, replaceAll, List.map_map]
    rfl

/-- The replacements of the encoder work unit by unit, and padding is left out. -/
theorem encode_writes (input : List UInt8) :
    encodeBase64 input .base64url = ((encodeGroups input).map (Variant.write .base64url)).filter
      (fun unit => unit != unitOf '=') := by
  simp only [encodeBase64, replaceAll, List.map_map]
  rfl

/-- A value that is not skipped is six bits. -/
theorem value_bounds (unit : UInt16) (kept : ¬ (valueOf unit = -2 ∨ valueOf unit = -1)) :
    0 ≤ valueOf unit ∧ valueOf unit < 64 := by
  unfold valueOf at *
  split at kept
  · rename_i small
    rw [if_pos small]
    have bounds := lookup_values unit.toNat small
    omega
  · exact absurd (Or.inr rfl) kept

/-- A round takes the bits of its unit, or skips it. -/
theorem round_read (variant : Variant) (state : Decoding) (unit : UInt16) :
    state.round (variant.read unit) = state.takeAll (variant.sextet unit).toList := by
  unfold Decoding.round Variant.sextet
  simp only
  split
  · rfl
  · rename_i kept
    have bounds := value_bounds _ kept
    rw [Option.toList_some, Decoding.take_all_cons, Decoding.take_all_nil,
      Int.toNat_of_nonneg bounds.1]

/-- Units have six bits. -/
theorem sextet_bound {variant : Variant} {unit : UInt16} {value : Nat}
    (read : variant.sextet unit = some value) : value < 64 := by
  unfold Variant.sextet at read
  simp only at read
  split at read
  · exact absurd read (by simp)
  · rename_i kept
    have bounds := value_bounds _ kept
    have same := Option.some.inj read
    omega

/-- The loop is a run over the digits of the text. -/
theorem rounds_take (variant : Variant) (text : List UInt16) (state : Decoding) :
    (text.map variant.read).foldl Decoding.round state =
      state.takeAll (text.filterMap variant.sextet) := by
  induction text generalizing state with
  | nil => rfl
  | cons unit rest inductionHypothesis =>
    rw [List.map_cons, List.foldl_cons, round_read, inductionHypothesis, List.filterMap_cons]
    cases variant.sextet unit <;> rfl

/-- Decoding joins the bits of the digits in the text. -/
theorem decode_joins (text : List UInt16) (variant : Variant) :
    decodeBase64 text variant = Base64.bytes (text.filterMap variant.sextet) := by
  have bound : ∀ value ∈ text.filterMap variant.sextet, value < 64 := by
    intro value member
    obtain ⟨unit, -, read⟩ := List.mem_filterMap.mp member
    exact sextet_bound read
  rw [decode_reads, rounds_take, joined _ bound, List.nil_append]

/-- The first digit of a group. -/
theorem first_digit (b0 : UInt8) : b0.toNat >>> 2 = b0.toNat / 4 := Nat.shiftRight_eq_div_pow _ 2

/-- A digit that ends a byte, without a byte after it. -/
theorem last_digit (byte width height : Nat) :
    (byte &&& (2 ^ width - 1)) <<< height ||| 0 = byte % 2 ^ width * 2 ^ height := by
  rw [Nat.or_zero, Nat.and_two_pow_sub_one_eq_mod, Nat.shiftLeft_eq]

/-- A digit made of the end of a byte and the start of the next one. -/
theorem middle_digit (byte next width height drop : Nat) (fits : next / 2 ^ drop < 2 ^ height) :
    (byte &&& (2 ^ width - 1)) <<< height ||| next >>> drop =
      byte % 2 ^ width * 2 ^ height + next / 2 ^ drop := by
  rw [Nat.and_two_pow_sub_one_eq_mod, Nat.shiftRight_eq_div_pow,
    ← Nat.shiftLeft_add_eq_or_of_lt fits, Nat.shiftLeft_eq]

/-- A full group. -/
theorem group_of_three (b0 b1 b2 : UInt8) :
    encodeGroup b0 (some b1) (some b2) =
      [digit (b0.toNat / 4), digit (b0.toNat % 4 * 16 + b1.toNat / 16),
        digit (b1.toNat % 16 * 4 + b2.toNat / 64), digit (b2.toNat % 64)] := by
  have second := middle_digit b0.toNat b1.toNat 2 4 4 (by have := b1.toNat_lt; omega)
  have third := middle_digit b1.toNat b2.toNat 4 2 6 (by have := b2.toNat_lt; omega)
  have fourth : b2.toNat &&& 0x3f = b2.toNat % 64 := Nat.and_two_pow_sub_one_eq_mod _ 6
  simp only [encodeGroup, first_digit, fourth]
  exact congrArg₂ (fun second third => [_, digit second, digit third, _]) second third

/-- A group of two bytes. -/
theorem group_of_two (b0 b1 : UInt8) :
    encodeGroup b0 (some b1) none =
      [digit (b0.toNat / 4), digit (b0.toNat % 4 * 16 + b1.toNat / 16),
        digit (b1.toNat % 16 * 4), unitOf '='] := by
  have second := middle_digit b0.toNat b1.toNat 2 4 4 (by have := b1.toNat_lt; omega)
  have third := last_digit b1.toNat 4 2
  simp only [encodeGroup, first_digit]
  exact congrArg₂ (fun second third => [_, digit second, digit third, _]) second third

/-- A group of one byte. -/
theorem group_of_one (b0 : UInt8) :
    encodeGroup b0 none none =
      [digit (b0.toNat / 4), digit (b0.toNat % 4 * 16), unitOf '=', unitOf '='] := by
  have second := last_digit b0.toNat 2 4
  simp only [encodeGroup, first_digit]
  exact congrArg (fun second => [_, digit second, _, _]) second

/-- What the decoder takes from a unit the encoder wrote. -/
def Variant.through (variant : Variant) (unit : UInt16) : Option Nat :=
  variant.sextet (variant.write unit)

theorem Variant.through_digit (variant : Variant) {value : Nat} (bound : value < 64) :
    variant.through (digit value) = some value :=
  sextet_of_digit variant value bound

@[simp] theorem Variant.through_padding (variant : Variant) : variant.through (unitOf '=') = none := by
  cases variant <;> decide +kernel

/-- The written digits are the bits of the bytes, in groups of six. -/
theorem groups_through (variant : Variant) (input : List UInt8) :
    (encodeGroups input).filterMap variant.through = Base64.sextets input := by
  fun_induction Base64.sextets input with
  | case1 b0 b1 b2 rest inductionHypothesis =>
    have first := b0.toNat_lt
    have second := b1.toNat_lt
    have third := b2.toNat_lt
    rw [encodeGroups, group_of_three, List.filterMap_append, inductionHypothesis]
    simp only [List.filterMap_cons, List.filterMap_nil]
    rw [variant.through_digit (by omega), variant.through_digit (by omega),
      variant.through_digit (by omega), variant.through_digit (by omega)]
    rfl
  | case2 b0 b1 =>
    have first := b0.toNat_lt
    have second := b1.toNat_lt
    rw [encodeGroups, group_of_two]
    simp only [List.filterMap_cons, List.filterMap_nil]
    rw [variant.through_digit (by omega), variant.through_digit (by omega),
      variant.through_digit (by omega), variant.through_padding]
  | case3 b0 =>
    have first := b0.toNat_lt
    rw [encodeGroups, group_of_one]
    simp only [List.filterMap_cons, List.filterMap_nil]
    rw [variant.through_digit (by omega), variant.through_digit (by omega), variant.through_padding]
  | case4 => rfl

/-- Leaving padding out changes no digit. -/
theorem without_padding (variant : Variant) (text : List UInt16) :
    (text.filter (fun unit => unit != unitOf '=')).filterMap variant.sextet =
      text.filterMap variant.sextet := by
  rw [List.filterMap_filter]
  refine List.filterMap_congr fun unit member => ?_
  by_cases padding : unit = unitOf '='
  · simp [padding, sextet_of_padding]
  · simp [padding]

/-- Decoding returns the bytes that were encoded. -/
theorem decode_encode (input : List UInt8) (variant : Variant) :
    decodeBase64 (encodeBase64 input variant) variant = input := by
  have digits : (encodeBase64 input variant).filterMap variant.sextet = Base64.sextets input := by
    cases variant with
    | base64 => exact groups_through .base64 input
    | base64url =>
      rw [encode_writes, without_padding, List.filterMap_map]
      exact groups_through .base64url input
  rw [decode_joins, digits, Base64.bytes_sextets]

/-- Units that stand for no bits may be inserted anywhere. -/
theorem inserted_sextets {variant : Variant} {added : UInt16 → Prop} {s t : List UInt16}
    (inserted : Inserted added s t) (skipped : ∀ unit, added unit → variant.sextet unit = none) :
    t.filterMap variant.sextet = s.filterMap variant.sextet := by
  induction inserted with
  | nil => rfl
  | keep unit _ inductionHypothesis => rw [List.filterMap_cons, List.filterMap_cons, inductionHypothesis]
  | insert unit chosen _ inductionHypothesis =>
    rw [List.filterMap_cons, skipped unit chosen]
    exact inductionHypothesis

/-- The units of the table outside a variant's alphabet. -/
theorem skipped_in_table (variant : Variant) :
    ∀ code < 128, UInt16.ofNat code ∉ variant.alphabet →
      (variant = .base64url → UInt16.ofNat code ≠ unitOf '+' ∧ UInt16.ofNat code ≠ unitOf '/') →
      variant.sextet (UInt16.ofNat code) = none := by
  cases variant <;> decide +kernel

/-- A unit outside the table is skipped. -/
theorem skipped_above (variant : Variant) (unit : UInt16) (large : 128 ≤ unit.toNat) :
    variant.sextet unit = none := by
  have spelled : ∀ char ∈ ['-', '_'], unit ≠ unitOf char := by
    intro char member same
    have small : ∀ char ∈ ['-', '_'], (unitOf char).toNat < 128 := by
      simp only [List.forall_mem_cons]
      exact ⟨by decide, by decide, fun _ none => absurd none List.not_mem_nil⟩
    have below := small char member
    rw [same] at large
    omega
  have unchanged : variant.read unit = unit := by
    cases variant with
    | base64 => rfl
    | base64url =>
      simp [Variant.read, spelled '-' (by decide), spelled '_' (by decide)]
  have nothing : valueOf unit = -1 := if_neg (by omega)
  simp [Variant.sextet, unchanged, nothing]

/-- A unit outside a variant's alphabet is skipped, but `base64url` still takes the two digits
that it spells otherwise. -/
theorem skipped_outside (variant : Variant) (unit : UInt16) (outside : unit ∉ variant.alphabet)
    (spelled : variant = .base64url → unit ≠ unitOf '+' ∧ unit ≠ unitOf '/') :
    variant.sextet unit = none := by
  by_cases small : unit.toNat < 128
  · have same : UInt16.ofNat unit.toNat = unit := UInt16.ofNat_toNat
    have told := skipped_in_table variant unit.toNat small
    rw [same] at told
    exact told outside spelled
  · exact skipped_above variant unit (by omega)

/-- Inserting characters of `added` that are outside the variant's alphabet leaves the bytes of
every text. -/
def IgnoresInserted (variant : Variant) (added : UInt16 → Prop) : Prop :=
  ∀ s t, Inserted (fun unit => added unit ∧ unit ∉ variant.alphabet) s t →
    decodeBase64 t variant = decodeBase64 s variant

/-- A text of four digits of no bits. -/
def zeros : List UInt16 := "AAAA".toList.map unitOf

/-- A character put in front of a text. -/
theorem inserted_in_front {added : UInt16 → Prop} (unit : UInt16) (chosen : added unit)
    (text : List UInt16) : Inserted added text (unit :: text) := by
  refine .insert unit chosen ?_
  induction text with
  | nil => exact .nil
  | cons first rest inductionHypothesis => exact .keep first inductionHypothesis

/-- Decoding undoes encoding in both variants. Inserted characters outside the variant's alphabet
change nothing exactly when, in `base64url`, neither `+` nor `/` is among them. -/
theorem decoding_undoes_encoding (variant : Variant) (added : UInt16 → Prop) :
    (∀ input, decodeBase64 (encodeBase64 input variant) variant = input) ∧
      (IgnoresInserted variant added ↔
        (variant = .base64url → ¬ added (unitOf '+') ∧ ¬ added (unitOf '/'))) := by
  refine ⟨fun input => decode_encode input variant, fun ignores url =>
    ⟨fun plus => ?_, fun slash => ?_⟩, fun spared s t inserted => ?_⟩
  · subst url
    have same := ignores zeros _ (inserted_in_front (unitOf '+') ⟨plus, by decide +kernel⟩ zeros)
    exact absurd same (by decide +kernel)
  · subst url
    have same := ignores zeros _ (inserted_in_front (unitOf '/') ⟨slash, by decide +kernel⟩ zeros)
    exact absurd same (by decide +kernel)
  · have skipped : ∀ unit, added unit ∧ unit ∉ variant.alphabet → variant.sextet unit = none := by
      rintro unit ⟨chosen, outside⟩
      refine skipped_outside variant unit outside fun url => ⟨?_, ?_⟩
      · rintro rfl
        exact (spared url).1 chosen
      · rintro rfl
        exact (spared url).2 chosen
    rw [decode_joins, decode_joins, inserted_sextets inserted skipped]

/-- `+` is no digit of `base64url`, and in front of four digits it becomes part of the bytes. -/
theorem plus_is_decoded :
    unitOf '+' ∉ Variant.base64url.alphabet ∧
      Inserted (fun unit => unit ∉ Variant.base64url.alphabet) ("AAAA".toList.map unitOf)
        ("+AAAA".toList.map unitOf) ∧
      decodeBase64 ("AAAA".toList.map unitOf) .base64url = [0, 0, 0] ∧
      decodeBase64 ("+AAAA".toList.map unitOf) .base64url = [248, 0, 0] :=
  ⟨by decide +kernel, inserted_in_front _ (by decide +kernel) zeros, by decide +kernel,
    by decide +kernel⟩

end Kvy.Crypto
