import Kvy.General.Decimal

/-!
# Dates as text

A date is a number of milliseconds since 1970. `toISOString` writes it with all fields, and
`parse` reads the texts written so; the other formats that a date can be read from are left
out. Days are counted from the first of March, so that a leap day ends its year and four
hundred years make an era.
-/

namespace Kvy.General

/-- A point in time, in milliseconds. -/
structure Date where
  ms : Int
  within : ms.natAbs ≤ 8640000000000000
deriving DecidableEq

/-! ## Days -/

/-- The year of an era that a day falls in. -/
def yearOfEra (day : Nat) : Nat :=
  let century := min (day / 36524) 3
  let ofCentury := day - 36524 * century
  100 * century + 4 * (ofCentury / 1461) + min (ofCentury % 1461 / 365) 3

/-- The days of an era before a year. -/
def daysBefore (year : Nat) : Nat := 36524 * (year / 100) + 1461 * (year % 100 / 4) + 365 * (year % 4)

/-- The month that a day of a year falls in, March being zero. -/
def monthOfYear (day : Nat) : Nat := (5 * day + 2) / 153

/-- The days of a year before a month. -/
def daysBeforeMonth (month : Nat) : Nat := (153 * month + 2) / 5

/-- A day lies in its year. -/
theorem year_of_era {day : Nat} (within : day < 146097) :
    yearOfEra day < 400 ∧ daysBefore (yearOfEra day) ≤ day ∧
      day - daysBefore (yearOfEra day) ≤ 365 := by
  unfold yearOfEra
  simp only
  obtain ⟨century, centuryIs⟩ : ∃ century, century = min (day / 36524) 3 := ⟨_, rfl⟩
  rw [← centuryIs]
  have centuryLow : 36524 * century ≤ day := by omega
  have centuryHigh : day - 36524 * century ≤ 36524 := by omega
  have centuryBound : century ≤ 3 := by omega
  obtain ⟨ofCentury, ofCenturyIs⟩ : ∃ ofCentury, ofCentury = day - 36524 * century := ⟨_, rfl⟩
  rw [← ofCenturyIs] at centuryHigh ⊢
  obtain ⟨cycle, cycleIs⟩ : ∃ cycle, cycle = ofCentury / 1461 := ⟨_, rfl⟩
  obtain ⟨year, yearIs⟩ : ∃ year, year = min (ofCentury % 1461 / 365) 3 := ⟨_, rfl⟩
  rw [← cycleIs, ← yearIs]
  have cycleBound : cycle ≤ 24 := by omega
  have yearBound : year ≤ 3 := by omega
  have hundreds : (100 * century + 4 * cycle + year) / 100 = century := by omega
  have fours : (100 * century + 4 * cycle + year) % 100 / 4 = cycle := by omega
  have ones : (100 * century + 4 * cycle + year) % 4 = year := by omega
  unfold daysBefore
  rw [hundreds, fours, ones]
  omega

/-- A day lies in its month. -/
theorem month_of_year {day : Nat} (within : day ≤ 365) :
    monthOfYear day ≤ 11 ∧ daysBeforeMonth (monthOfYear day) ≤ day ∧
      day - daysBeforeMonth (monthOfYear day) ≤ 30 := by
  unfold monthOfYear daysBeforeMonth
  omega

/-- A day of the calendar. -/
structure CivilDay where
  year : Int
  month : Nat
  day : Nat

namespace CivilDay

/-- The day of the calendar so many days after the first of 1970. -/
def ofDays (days : Int) : CivilDay :=
  let ofEra := ((days + 719468) % 146097).toNat
  let ofYear := ofEra - daysBefore (yearOfEra ofEra)
  let month := monthOfYear ofYear
  { year := (days + 719468) / 146097 * 400 + yearOfEra ofEra + (if month < 10 then 0 else 1)
    month := if month < 10 then month + 3 else month - 9
    day := ofYear - daysBeforeMonth month + 1 }

/-- How many days after the first of 1970 a day of the calendar is. -/
def toDays (civil : CivilDay) : Int :=
  let year := if 2 < civil.month then civil.year else civil.year - 1
  let month := if 2 < civil.month then civil.month - 3 else civil.month + 9
  year / 400 * 146097 + daysBefore (year % 400).toNat +
    (daysBeforeMonth month + civil.day - 1 : Nat) - 719468

/-- The fields of a day are in their ranges. -/
theorem of_days_bounds (days : Int) :
    1 ≤ (ofDays days).month ∧ (ofDays days).month ≤ 12 ∧ 1 ≤ (ofDays days).day ∧
      (ofDays days).day ≤ 31 := by
  have eraBound : ((days + 719468) % 146097).toNat < 146097 := by omega
  obtain ⟨_, _, yearHigh⟩ := year_of_era eraBound
  obtain ⟨monthBound, _, monthHigh⟩ := month_of_year yearHigh
  simp only [ofDays]
  split
  · omega
  · omega

/-- The day with these fields is counted from them. -/
theorem to_days_fields (era : Int) {year day month : Nat} (yearBound : year < 400)
    (monthBound : month ≤ 11) (monthLow : daysBeforeMonth month ≤ day) :
    toDays { year := era * 400 + year + (if month < 10 then 0 else 1)
             month := if month < 10 then month + 3 else month - 9
             day := day - daysBeforeMonth month + 1 } =
      era * 146097 + daysBefore year + day - 719468 := by
  have eraBack : (era * 400 + (year : Int)) / 400 = era := by omega
  have yearBack : ((era * 400 + (year : Int)) % 400).toNat = year := by omega
  have dayBack : daysBeforeMonth month + (day - daysBeforeMonth month + 1) - 1 = day := by omega
  unfold toDays
  by_cases early : month < 10
  · have late : 2 < month + 3 := by omega
    have monthBack : month + 3 - 3 = month := Nat.add_sub_cancel month 3
    simp only [early, ↓reduceIte, late, Int.add_zero, eraBack, yearBack, monthBack, dayBack]
  · have first : ¬ 2 < month - 9 := by omega
    have monthBack : month - 9 + 9 = month := by omega
    have same : era * 400 + (year : Int) + 1 - 1 = era * 400 + year := by omega
    simp only [early, ↓reduceIte, first, same, eraBack, yearBack, monthBack, dayBack]

/-- A day of the calendar is counted back to its number. -/
theorem to_days_of_days (days : Int) : (ofDays days).toDays = days := by
  have eraBound : ((days + 719468) % 146097).toNat < 146097 := by omega
  obtain ⟨yearBound, yearLow, yearHigh⟩ := year_of_era eraBound
  obtain ⟨monthBound, monthLow, _⟩ := month_of_year yearHigh
  unfold ofDays
  rw [to_days_fields _ yearBound monthBound monthLow]
  omega

end CivilDay

/-! ## Text -/

/-- The last digits of a number, as many as asked for. -/
def fixedDigits : Nat → Nat → List Char
  | 0, _ => []
  | width + 1, value => fixedDigits width (value / 10) ++ [Nat.digitChar (value % 10)]

/-- Read as many digits as asked for. -/
def readFixed (width : Nat) (input : List Char) : Option (Nat × List Char) :=
  let digits := input.take width
  if digits.length = width ∧ digits.all Char.isDigit then
    some (Nat.ofDigitChars 10 digits 0, input.drop width)
  else none

/-- Read one character. -/
def readMark (mark : Char) : List Char → Option (List Char)
  | [] => none
  | char :: rest => if char = mark then some rest else none

/-- The year, with a sign and six digits when four do not hold it. -/
def yearText (year : Int) : List Char :=
  if 0 ≤ year ∧ year ≤ 9999 then fixedDigits 4 year.toNat
  else if 0 ≤ year then '+' :: fixedDigits 6 year.toNat
  else '-' :: fixedDigits 6 year.natAbs

/-- Read a year. -/
def readYear : List Char → Option (Int × List Char)
  | '+' :: rest => (readFixed 6 rest).map (fun (year, rest) => ((year : Int), rest))
  | '-' :: rest => do
    let (year, rest) ← readFixed 6 rest
    if year = 0 then none else some (-(year : Int), rest)
  | input => (readFixed 4 input).map (fun (year, rest) => ((year : Int), rest))

namespace Date

/-- `Date.prototype.toISOString`. -/
def toISOString (date : Date) : List Char :=
  let civil := CivilDay.ofDays (date.ms / 86400000)
  let time := (date.ms % 86400000).toNat
  yearText civil.year ++ '-' :: fixedDigits 2 civil.month ++ '-' :: fixedDigits 2 civil.day ++
    'T' :: fixedDigits 2 (time / 3600000) ++ ':' :: fixedDigits 2 (time / 60000 % 60) ++
    ':' :: fixedDigits 2 (time / 1000 % 60) ++ '.' :: fixedDigits 3 (time % 1000) ++ ['Z']

/-- `Date.parse`, for the texts that `toISOString` writes. -/
def parse (input : List Char) : Option Date := do
  let (year, rest) ← readYear input
  let (month, rest) ← readFixed 2 (← readMark '-' rest)
  let (day, rest) ← readFixed 2 (← readMark '-' rest)
  let (hour, rest) ← readFixed 2 (← readMark 'T' rest)
  let (minute, rest) ← readFixed 2 (← readMark ':' rest)
  let (second, rest) ← readFixed 2 (← readMark ':' rest)
  let (milli, rest) ← readFixed 3 (← readMark '.' rest)
  let rest ← readMark 'Z' rest
  let ms := CivilDay.toDays ⟨year, month, day⟩ * 86400000 +
    (hour * 3600000 + minute * 60000 + second * 1000 + milli : Nat)
  if within : rest = [] ∧ 1 ≤ month ∧ month ≤ 12 ∧ 1 ≤ day ∧ day ≤ 31 ∧ hour < 24 ∧ minute < 60 ∧
      second < 60 ∧ ms.natAbs ≤ 8640000000000000 then
    some ⟨ms, within.2.2.2.2.2.2.2.2⟩
  else none

end Date

/-- Digits as many as asked for. -/
theorem fixed_digits_length (width value : Nat) : (fixedDigits width value).length = width := by
  induction width generalizing value with
  | zero => rfl
  | succ width inductionHypothesis => simp [fixedDigits, inductionHypothesis]

theorem fixed_digits_digits (width value : Nat) :
    ∀ char ∈ fixedDigits width value, char.isDigit = true := by
  induction width generalizing value with
  | zero => simp [fixedDigits]
  | succ width inductionHypothesis =>
    intro char member
    rcases List.mem_append.mp member with before | last
    · exact inductionHypothesis _ char before
    · obtain rfl := List.mem_singleton.mp last
      rw [Nat.isDigit_digitChar]
      exact decide_eq_true (Nat.mod_lt value (by decide))

/-- The digits of a number that fits denote it. -/
theorem fixed_digits_value {width value : Nat} (fits : value < 10 ^ width) :
    Nat.ofDigitChars 10 (fixedDigits width value) 0 = value := by
  induction width generalizing value with
  | zero =>
    obtain rfl : value = 0 := by omega
    rfl
  | succ width inductionHypothesis =>
    rw [Nat.pow_succ] at fits
    have higher : value / 10 < 10 ^ width := by omega
    rw [fixedDigits, Nat.ofDigitChars_append, inductionHypothesis higher,
      Nat.ofDigitChars_cons_digitChar_of_lt_ten (Nat.mod_lt value (by decide)), Nat.ofDigitChars_nil]
    omega

/-- A number that fits is read back. -/
theorem read_fixed_text {width value : Nat} (fits : value < 10 ^ width) (rest : List Char) :
    readFixed width (fixedDigits width value ++ rest) = some (value, rest) := by
  have length := fixed_digits_length width value
  have digits : (fixedDigits width value).all Char.isDigit = true :=
    List.all_eq_true.mpr (fixed_digits_digits width value)
  have taken : (fixedDigits width value ++ rest).take width = fixedDigits width value := by
    rw [List.take_append_of_le_length (by omega), List.take_of_length_le (by omega)]
  have dropped : (fixedDigits width value ++ rest).drop width = rest := by
    rw [List.drop_append_of_le_length (by omega), List.drop_of_length_le (by omega), List.nil_append]
  simp [readFixed, taken, dropped, length, digits, fixed_digits_value fits]

/-- A year without a sign has four digits. -/
theorem read_year_plain {char : Char} (digit : char.isDigit = true) (rest : List Char) :
    readYear (char :: rest) =
      (readFixed 4 (char :: rest)).map (fun (year, rest) => ((year : Int), rest)) := by
  unfold readYear
  split
  · rename_i same
    rw [(List.cons.inj same).1] at digit
    contradiction
  · rename_i same
    rw [(List.cons.inj same).1] at digit
    contradiction
  · rfl

/-- A mark is read back. -/
theorem read_mark_text (mark : Char) (rest : List Char) : readMark mark (mark :: rest) = some rest :=
  if_pos rfl

/-- Reading goes on after a part that is read. -/
theorem bind_read {α β : Type} {part : Option α} {value : α} (read : part = some value)
    (next : α → Option β) : (part >>= next) = next value := by
  rw [read]
  rfl

/-- A year of at most six digits is read back. -/
theorem read_year_text {year : Int} (fits : year.natAbs < 10 ^ 6) (rest : List Char) :
    readYear (yearText year ++ rest) = some (year, rest) := by
  unfold yearText
  split
  · rename_i four
    have plain := @read_fixed_text 4 year.toNat (by omega) rest
    have back : ((year.toNat : Nat) : Int) = year := by omega
    have length := fixed_digits_length 4 year.toNat
    have digits := fixed_digits_digits 4 year.toNat
    cases shape : fixedDigits 4 year.toNat with
    | nil => simp [shape] at length
    | cons char tail =>
      have digit : char.isDigit = true := digits char (by simp [shape])
      rw [shape] at plain
      rw [List.cons_append, read_year_plain digit, ← List.cons_append, plain]
      simp [back]
  · split
    · rename_i positive
      have back : ((year.toNat : Nat) : Int) = year := by omega
      rw [List.cons_append, readYear, read_fixed_text (by omega)]
      simp [back]
    · rename_i negative
      have nonzero : year.natAbs ≠ 0 := by omega
      have back : -((year.natAbs : Nat) : Int) = year := by omega
      rw [List.cons_append, readYear, read_fixed_text fits]
      simp only [Option.bind_eq_bind, Option.bind_some, nonzero, ↓reduceIte, back]

namespace Date

/-- The year of a date has at most six digits. -/
theorem year_bound (date : Date) : (CivilDay.ofDays (date.ms / 86400000)).year.natAbs < 10 ^ 6 := by
  have bound := date.within
  have eraBound : ((date.ms / 86400000 + 719468) % 146097).toNat < 146097 := by omega
  obtain ⟨yearBound, _, _⟩ := year_of_era eraBound
  unfold CivilDay.ofDays
  simp only
  split
  · omega
  · omega

/-- A date is read back from its text. -/
theorem parse_toISOString (date : Date) : parse date.toISOString = some date := by
  obtain ⟨monthLow, monthHigh, dayLow, dayHigh⟩ :=
    CivilDay.of_days_bounds (date.ms / 86400000)
  have days := CivilDay.to_days_of_days (date.ms / 86400000)
  have year := date.year_bound
  have timeBound : (date.ms % 86400000).toNat < 86400000 := by omega
  unfold toISOString parse
  generalize CivilDay.ofDays (date.ms / 86400000) = civil at *
  generalize timeIs : (date.ms % 86400000).toNat = time at *
  have month2 : civil.month < 10 ^ 2 := by omega
  have day2 : civil.day < 10 ^ 2 := by omega
  have hour2 : time / 3600000 < 10 ^ 2 := by omega
  have minute2 : time / 60000 % 60 < 10 ^ 2 := by omega
  have second2 : time / 1000 % 60 < 10 ^ 2 := by omega
  have milli3 : time % 1000 < 10 ^ 3 := by omega
  have timeBack : time / 3600000 * 3600000 + time / 60000 % 60 * 60000 + time / 1000 % 60 * 1000 +
      time % 1000 = time := by omega
  have back : date.ms / 86400000 * 86400000 + (time : Int) = date.ms := by omega
  have inRange : 1 ≤ civil.month ∧ civil.month ≤ 12 ∧ 1 ≤ civil.day ∧ civil.day ≤ 31 ∧
      time / 3600000 < 24 ∧ time / 60000 % 60 < 60 ∧ time / 1000 % 60 < 60 ∧
      date.ms.natAbs ≤ 8640000000000000 := by
    have within := date.within
    omega
  simp only [List.append_assoc, List.cons_append]
  rw [bind_read (read_year_text year _), bind_read (read_mark_text '-' _),
    bind_read (read_fixed_text month2 _), bind_read (read_mark_text '-' _),
    bind_read (read_fixed_text day2 _), bind_read (read_mark_text 'T' _),
    bind_read (read_fixed_text hour2 _), bind_read (read_mark_text ':' _),
    bind_read (read_fixed_text minute2 _), bind_read (read_mark_text ':' _),
    bind_read (read_fixed_text second2 _), bind_read (read_mark_text '.' _),
    bind_read (read_fixed_text milli3 _), bind_read (read_mark_text 'Z' _)]
  simp only [days, timeBack, back, inRange, and_self, ↓reduceDIte]

/-- The characters of a date's text. -/
theorem iso_chars (date : Date) : ∀ char ∈ date.toISOString, char.isDigit = true ∨
    char ∈ ['+', '-', 'T', ':', '.', 'Z'] := by
  have digits (width value : Nat) : ∀ char ∈ fixedDigits width value, char.isDigit = true ∨
      char ∈ ['+', '-', 'T', ':', '.', 'Z'] :=
    fun char member => Or.inl (fixed_digits_digits width value char member)
  have year (year : Int) : ∀ char ∈ yearText year, char.isDigit = true ∨
      char ∈ ['+', '-', 'T', ':', '.', 'Z'] := by
    unfold yearText
    split
    · exact digits _ _
    · split
      · exact List.forall_mem_cons.mpr ⟨Or.inr (by decide), digits _ _⟩
      · exact List.forall_mem_cons.mpr ⟨Or.inr (by decide), digits _ _⟩
  unfold toISOString
  simp only [List.append_assoc, List.forall_mem_append, List.cons_append, List.forall_mem_cons]
  exact ⟨year _, Or.inr (by decide), digits _ _, Or.inr (by decide), digits _ _, Or.inr (by decide),
    digits _ _, Or.inr (by decide), digits _ _, Or.inr (by decide), digits _ _, Or.inr (by decide),
    digits _ _, Or.inr (by decide), by simp⟩

end Date

end Kvy.General
