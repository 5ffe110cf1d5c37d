import Kvy.General.CommonSubsequence
import Mathlib

/-!
# The difference of two texts

Texts are compared line by line. A table holds the length of a longest common subsequence of any
two beginnings of the lists of lines, and the way back through it from its last cell gives the
difference. Over a cap all lines are removed and added.
-/

namespace Kvy.Web.Lib.Diff

open General

/-- A text, in the code units of a string. -/
abbrev Text := List UInt16

/-- `DiffLineType`. -/
inductive DiffLineType where
  | context
  | add
  | remove
deriving DecidableEq

/-- `DiffLine`; its text is missing where it has been read outside of an array. -/
structure DiffLine where
  type : DiffLineType
  text : Option Text
deriving DecidableEq

/-- `MAX_LCS_CELLS`. -/
def maxLcsCells : Nat := 4000000

/-- `splitLines`. -/
def splitLines (text : Text) : List Text := if text = [] then [] else text.splitOn 10

/-! ## The table -/

/-- A cell of the table; missing ones count as zero. -/
def tableAt (table : List UInt32) (index : Nat) : Nat := (table.getD index 0).toNat

/-- What is written to a cell. -/
def cell (a b : List Text) (table : List UInt32) (i j : Nat) : Nat :=
  let cols := b.length + 1
  if a[i - 1]? = b[j - 1]? then tableAt table ((i - 1) * cols + (j - 1)) + 1
  else max (tableAt table ((i - 1) * cols + j)) (tableAt table (i * cols + (j - 1)))

/-- A cell is written; numbers are stored modulo `2 ^ 32`. -/
def fillCell (a b : List Text) (i : Nat) (table : List UInt32) (j : Nat) : List UInt32 :=
  table.set (i * (b.length + 1) + j) (UInt32.ofNat (cell a b table i j))

/-- A row is written. -/
def fillRow (a b : List Text) (table : List UInt32) (i : Nat) : List UInt32 :=
  (List.range' 1 b.length).foldl (fillCell a b i) table

/-- `buildLcsTable`. -/
def buildLcsTable (a b : List Text) : List UInt32 :=
  (List.range' 1 a.length).foldl (fillRow a b)
    (List.replicate ((a.length + 1) * (b.length + 1)) 0)

/-! ## The way back -/

/-- The variables of `backtrack`. -/
structure Backtrack where
  i : Int
  j : Int
  out : List DiffLine

/-- A line of an array; outside of it there is none. -/
def lineAt (lines : List Text) (index : Int) : Option Text :=
  if 0 ≤ index then lines[index.toNat]? else none

/-- A cell of the table at an index that may be outside. -/
def cellAt (table : List UInt32) (index : Int) : Int :=
  if 0 ≤ index then tableAt table index.toNat else 0

/-- One turn of the loop. -/
def turn (a b : List Text) (table : List UInt32) (state : Backtrack) : Backtrack :=
  let cols : Int := b.length + 1
  let aLine := lineAt a (state.i - 1)
  let bLine := lineAt b (state.j - 1)
  if 0 < state.i ∧ 0 < state.j ∧ aLine = bLine then
    ⟨state.i - 1, state.j - 1, state.out ++ [⟨.context, aLine⟩]⟩
  else
    let up := if 0 < state.i then cellAt table ((state.i - 1) * cols + state.j) else -1
    let left := if 0 < state.j then cellAt table (state.i * cols + (state.j - 1)) else -1
    if 0 < state.j ∧ up ≤ left then
      ⟨state.i, state.j - 1, state.out ++ [⟨.add, bLine⟩]⟩
    else ⟨state.i - 1, state.j, state.out ++ [⟨.remove, aLine⟩]⟩

/-- The loop has ended. -/
def Backtrack.ended (state : Backtrack) : Bool := state.i ≤ 0 && state.j ≤ 0

/-- The loop, for a number of turns. -/
def loop (a b : List Text) (table : List UInt32) : Nat → Backtrack → Option Backtrack
  | 0, state => if state.ended then some state else none
  | turns + 1, state =>
    if state.ended then some state else loop a b table turns (turn a b table state)

/-- `backtrack`. -/
def backtrack (a b : List Text) (table : List UInt32) : Option (List DiffLine) :=
  (loop a b table (a.length + b.length) ⟨a.length, b.length, []⟩).map
    (fun state => state.out.reverse)

/-- All lines are removed or added, or are of both texts. -/
def all (type : DiffLineType) (lines : List Text) : List DiffLine :=
  lines.map (fun text => ⟨type, some text⟩)

/-- `diffLines`; nothing where the loop does not end. -/
def diffLines (oldText newText : Text) : Option (List DiffLine) :=
  if oldText = newText then some (all .context (splitLines oldText))
  else
    let oldLines := splitLines oldText
    let newLines := splitLines newText
    if maxLcsCells < oldLines.length * newLines.length then
      some (all .remove oldLines ++ all .add newLines)
    else backtrack oldLines newLines (buildLcsTable oldLines newLines)

/-! ## What the loop reads -/

/-- A place that the loop reads. -/
inductive Access where
  | old (index : Int)
  | new (index : Int)
  | table (index : Int)
deriving DecidableEq

/-- What a turn of the loop reads. -/
def accesses (a b : List Text) (state : Backtrack) : List Access :=
  let cols : Int := b.length + 1
  [.old (state.i - 1), .new (state.j - 1)] ++
    if 0 < state.i ∧ 0 < state.j ∧ lineAt a (state.i - 1) = lineAt b (state.j - 1) then []
    else (if 0 < state.i then [.table ((state.i - 1) * cols + state.j)] else []) ++
      if 0 < state.j then [.table (state.i * cols + (state.j - 1))] else []

/-- What the loop reads in a number of turns. -/
def loopAccesses (a b : List Text) (table : List UInt32) : Nat → Backtrack → List Access
  | 0, _ => []
  | turns + 1, state =>
    if state.ended then []
    else accesses a b state ++ loopAccesses a b table turns (turn a b table state)

/-- What `backtrack` reads for two texts. -/
def backtrackAccesses (oldText newText : Text) : List Access :=
  let a := splitLines oldText
  let b := splitLines newText
  loopAccesses a b (buildLcsTable a b) (a.length + b.length) ⟨a.length, b.length, []⟩

/-- A place inside of its array. -/
def Access.Inside (a b : List Text) : Access → Prop
  | .old index => 0 ≤ index ∧ index < a.length
  | .new index => 0 ≤ index ∧ index < b.length
  | .table index => 0 ≤ index ∧ index < (a.length + 1) * (b.length + 1)

/-! ## The table holds lengths of longest common subsequences -/

/-- An index names one row and one column. -/
theorem index_inj {cols i j row column : Nat} (inside : j < cols) (also : column < cols)
    (same : i * cols + j = row * cols + column) : i = row ∧ j = column := by
  have columns : j = column := by
    have rests := congrArg (· % cols) same
    simpa only [Nat.mul_add_mod_self_right, Nat.mod_eq_of_lt inside, Nat.mod_eq_of_lt also]
      using rests
  subst columns
  exact ⟨Nat.eq_of_mul_eq_mul_right (by omega) (Nat.add_right_cancel same), rfl⟩

/-- The cells before a place, and those of the first row and column, hold their lengths. -/
structure Filled (a b : List Text) (i j : Nat) (table : List UInt32) : Prop where
  length : table.length = (a.length + 1) * (b.length + 1)
  holds : ∀ row ≤ a.length, ∀ column ≤ b.length,
    row < i ∨ row = i ∧ column < j ∨ row = 0 ∨ column = 0 →
    LongestCommon (a.take row) (b.take column) (tableAt table (row * (b.length + 1) + column))

variable {a b : List Text}

/-- The length of a cell, from the cells before it. -/
theorem cell_longest {i j : Nat} {table : List UInt32} (row : i < a.length) (column : j < b.length)
    (filled : Filled a b (i + 1) (j + 1) table) :
    LongestCommon (a.take (i + 1)) (b.take (j + 1)) (cell a b table (i + 1) (j + 1)) := by
  have diagonal := filled.holds i (by omega) j (by omega) (.inl (by omega))
  have up := filled.holds i (by omega) (j + 1) (by omega) (.inl (by omega))
  have left := filled.holds (i + 1) (by omega) j (by omega) (.inr (.inl (by omega)))
  rw [List.take_succ_eq_append_getElem row] at left ⊢
  rw [List.take_succ_eq_append_getElem column] at up ⊢
  simp only [cell, Nat.add_sub_cancel, List.getElem?_eq_getElem row,
    List.getElem?_eq_getElem column, Option.some.injEq]
  split
  · next same => exact same ▸ diagonal.snoc_same _
  · next different => exact LongestCommon.snoc_different different up left

/-- A length is at most as long as either list. -/
theorem cell_bound {i j length : Nat} (small : min a.length b.length < 2 ^ 32)
    (longest : LongestCommon (a.take i) (b.take j) length) : length < 2 ^ 32 := by
  obtain ⟨common, inFirst, inSecond, rfl⟩ := longest.attained
  have first := (inFirst.trans (List.take_sublist i a)).length_le
  have second := (inSecond.trans (List.take_sublist j b)).length_le
  omega

/-- Writing a cell fills it. -/
theorem filled_cell {i j : Nat} {table : List UInt32} (small : min a.length b.length < 2 ^ 32)
    (row : i < a.length) (column : j < b.length) (filled : Filled a b (i + 1) (j + 1) table) :
    Filled a b (i + 1) (j + 2) (fillCell a b (i + 1) table (j + 1)) := by
  have longest := cell_longest row column filled
  have inside : (i + 1) * (b.length + 1) + (j + 1) < table.length := by
    rw [filled.length]
    calc (i + 1) * (b.length + 1) + (j + 1) < (i + 1 + 1) * (b.length + 1) := by
          rw [Nat.add_mul (i + 1) 1, Nat.one_mul]; omega
      _ ≤ (a.length + 1) * (b.length + 1) := Nat.mul_le_mul_right _ (by omega)
  refine ⟨by rw [fillCell, List.length_set, filled.length], ?_⟩
  intro other otherRow othersColumn inColumn before
  rw [tableAt, fillCell, List.getD_eq_getElem?_getD, List.getElem?_set]
  split
  · next same =>
    obtain ⟨rfl, rfl⟩ := index_inj (by omega) (by omega) same
    rw [Option.getD_some, UInt32.toNat_ofNat_of_lt' (cell_bound small longest)]
    exact longest
  · next different =>
    rw [← List.getD_eq_getElem?_getD]
    refine filled.holds other otherRow othersColumn inColumn ?_
    rcases before with earlier | ⟨rfl, earlier⟩ | first
    · exact .inl earlier
    · by_cases last : othersColumn = j + 1
      · exact absurd (by rw [last]) different
      · exact .inr (.inl ⟨rfl, by omega⟩)
    · exact .inr (.inr first)

/-- Writing the first cells of a row fills them. -/
theorem filled_columns {i : Nat} {table : List UInt32} (small : min a.length b.length < 2 ^ 32)
    (row : i < a.length) (filled : Filled a b (i + 1) 1 table) (count : Nat)
    (inside : count ≤ b.length) :
    Filled a b (i + 1) (count + 1)
      ((List.range' 1 count).foldl (fillCell a b (i + 1)) table) := by
  induction count with
  | zero => exact filled
  | succ count inductionHypothesis =>
    rw [List.range'_1_concat, List.foldl_concat, Nat.add_comm 1 count]
    exact filled_cell small row inside (inductionHypothesis (Nat.le_of_succ_le inside))

/-- A row that is filled up to its end is the start of the next one. -/
theorem filled_next {i : Nat} {table : List UInt32} (filled : Filled a b i (b.length + 1) table) :
    Filled a b (i + 1) 1 table := by
  refine ⟨filled.length, fun row inRow column inColumn before => ?_⟩
  refine filled.holds row inRow column inColumn ?_
  omega

/-- Writing the first rows fills them. -/
theorem filled_rows (small : min a.length b.length < 2 ^ 32) (count : Nat)
    (inside : count ≤ a.length) :
    Filled a b (count + 1) 1 ((List.range' 1 count).foldl (fillRow a b)
      (List.replicate ((a.length + 1) * (b.length + 1)) 0)) := by
  induction count with
  | zero =>
    refine ⟨List.length_replicate, fun row _ column _ before => ?_⟩
    have zero : tableAt (List.replicate ((a.length + 1) * (b.length + 1)) 0)
        (row * (b.length + 1) + column) = 0 := by
      rw [tableAt, List.getD_eq_getElem?_getD, List.getElem?_replicate]
      split <;> rfl
    rw [List.range'_zero, List.foldl_nil, zero]
    have edge : row = 0 ∨ column = 0 := by omega
    rcases edge with rfl | rfl
    · exact LongestCommon.nil_left
    · exact LongestCommon.nil_right
  | succ count inductionHypothesis =>
    rw [List.range'_1_concat, List.foldl_concat, Nat.add_comm 1 count]
    exact filled_next (filled_columns small inside (inductionHypothesis (Nat.le_of_succ_le inside))
      b.length (Nat.le_refl _))

/-- Every cell of the table holds the length of its beginnings. -/
theorem table_longest (small : min a.length b.length < 2 ^ 32) {row column : Nat}
    (inRow : row ≤ a.length) (inColumn : column ≤ b.length) :
    LongestCommon (a.take row) (b.take column)
      (tableAt (buildLcsTable a b) (row * (b.length + 1) + column)) :=
  (filled_rows small a.length (Nat.le_refl _)).holds row inRow column inColumn (.inl (by omega))

/-! ## The way back follows the table -/

/-- The cell of a row and a column. -/
def longestAt (a b : List Text) (row column : Nat) : Nat :=
  tableAt (buildLcsTable a b) (row * (b.length + 1) + column)

section Cells

variable (small : min a.length b.length < 2 ^ 32)
include small

theorem longestAt_row_zero {column : Nat} (inColumn : column ≤ b.length) :
    longestAt a b 0 column = 0 :=
  (table_longest small (Nat.zero_le _) inColumn).unique LongestCommon.nil_left

theorem longestAt_column_zero {row : Nat} (inRow : row ≤ a.length) : longestAt a b row 0 = 0 :=
  (table_longest small inRow (Nat.zero_le _)).unique LongestCommon.nil_right

theorem longestAt_same {row column : Nat} (inRow : row < a.length) (inColumn : column < b.length)
    (same : a[row]? = b[column]?) :
    longestAt a b (row + 1) (column + 1) = longestAt a b row column + 1 := by
  have diagonal := table_longest small (Nat.le_of_lt inRow) (Nat.le_of_lt inColumn)
  have corner := @table_longest a b small (row + 1) (column + 1) inRow inColumn
  rw [List.take_succ_eq_append_getElem inRow, List.take_succ_eq_append_getElem inColumn] at corner
  rw [List.getElem?_eq_getElem inRow, List.getElem?_eq_getElem inColumn] at same
  rw [Option.some.inj same] at corner
  exact corner.unique (diagonal.snoc_same _)

theorem longestAt_different {row column : Nat} (inRow : row < a.length)
    (inColumn : column < b.length) (different : a[row]? ≠ b[column]?) :
    longestAt a b (row + 1) (column + 1) =
      max (longestAt a b row (column + 1)) (longestAt a b (row + 1) column) := by
  have up := @table_longest a b small row (column + 1) (Nat.le_of_lt inRow) inColumn
  have left := @table_longest a b small (row + 1) column inRow (Nat.le_of_lt inColumn)
  have corner := @table_longest a b small (row + 1) (column + 1) inRow inColumn
  rw [List.take_succ_eq_append_getElem inRow] at left corner
  rw [List.take_succ_eq_append_getElem inColumn] at up corner
  rw [List.getElem?_eq_getElem inRow, List.getElem?_eq_getElem inColumn] at different
  exact corner.unique (LongestCommon.snoc_different (fun same => different (congrArg some same))
    up left)

end Cells

/-- The texts of the lines that are not of a type. -/
def without (type : DiffLineType) (lines : List DiffLine) : List (Option Text) :=
  (lines.filter (fun line => line.type ≠ type)).map DiffLine.text

/-- How many lines both texts have. -/
def contexts (lines : List DiffLine) : Nat :=
  (lines.filter (fun line => line.type = .context)).length

/-- The way back has come to a row and a column. -/
structure Walked (a b : List Text) (row column : Nat) (out : List DiffLine) : Prop where
  inRow : row ≤ a.length
  inColumn : column ≤ b.length
  removed : without .add out.reverse = (a.drop row).map some
  added : without .remove out.reverse = (b.drop column).map some
  contexts : contexts out + longestAt a b row column = longestAt a b a.length b.length

theorem lineAt_cast (lines : List Text) (index : Nat) : lineAt lines index = lines[index]? := by
  simp [lineAt]

/-- A cell at an index inside of the table. -/
theorem cellAt_cast (row column : Nat) :
    cellAt (buildLcsTable a b) (row * ((b.length : Int) + 1) + column) = longestAt a b row column := by
  have index : (row * ((b.length : Int) + 1) + column) =
      ((row * (b.length + 1) + column : Nat) : Int) := by
    push_cast
    rfl
  rw [index, cellAt, if_pos (Int.natCast_nonneg _), Int.toNat_natCast, longestAt]

theorem drop_pred {lines : List Text} {index : Nat} (inside : index < lines.length) :
    (lines.drop index).map some = lines[index]? :: (lines.drop (index + 1)).map some := by
  rw [List.drop_eq_getElem_cons inside, List.map_cons, List.getElem?_eq_getElem inside]

/-- Equal lines are taken. -/
theorem walked_context {row column : Nat} {out : List DiffLine}
    (small : min a.length b.length < 2 ^ 32) (walked : Walked a b (row + 1) (column + 1) out)
    (same : a[row]? = b[column]?) :
    Walked a b row column (out ++ [⟨.context, a[row]?⟩]) where
  inRow := Nat.le_of_lt walked.inRow
  inColumn := Nat.le_of_lt walked.inColumn
  removed := by
    rw [drop_pred walked.inRow, ← walked.removed]
    simp [without]
  added := by
    rw [drop_pred walked.inColumn, ← walked.added, same]
    simp [without]
  contexts := by
    rw [← walked.contexts, longestAt_same small walked.inRow walked.inColumn same]
    simp [Diff.contexts]
    omega

/-- A line of the new text is left out. -/
theorem walked_add {row column : Nat} {out : List DiffLine}
    (walked : Walked a b row (column + 1) out)
    (longest : longestAt a b row (column + 1) = longestAt a b row column) :
    Walked a b row column (out ++ [⟨.add, b[column]?⟩]) where
  inRow := walked.inRow
  inColumn := Nat.le_of_lt walked.inColumn
  removed := by
    rw [← walked.removed]
    simp [without]
  added := by
    rw [drop_pred walked.inColumn, ← walked.added]
    simp [without]
  contexts := by
    rw [← walked.contexts, longest]
    simp [Diff.contexts]

/-- A line of the old text is left out. -/
theorem walked_remove {row column : Nat} {out : List DiffLine}
    (walked : Walked a b (row + 1) column out)
    (longest : longestAt a b (row + 1) column = longestAt a b row column) :
    Walked a b row column (out ++ [⟨.remove, a[row]?⟩]) where
  inRow := Nat.le_of_lt walked.inRow
  inColumn := walked.inColumn
  removed := by
    rw [drop_pred walked.inRow, ← walked.removed]
    simp [without]
  added := by
    rw [← walked.added]
    simp [without]
  contexts := by
    rw [← walked.contexts, longest]
    simp [Diff.contexts]

/-- A turn takes equal lines, or leaves out a line that the table does not count. -/
structure Turned (a b : List Text) (row column : Nat) (next : Backtrack) : Prop where
  walked : ∃ nextRow nextColumn out, next = ⟨(nextRow : Nat), (nextColumn : Nat), out⟩ ∧
    Walked a b nextRow nextColumn out ∧ nextRow + nextColumn < row + column

theorem pred_cast (index : Nat) : ((index + 1 : Nat) : Int) - 1 = index := by omega

theorem cast_pos (index : Nat) : 0 < ((index + 1 : Nat) : Int) := by omega

theorem turn_first_row {column : Nat} {out : List DiffLine} (small : min a.length b.length < 2 ^ 32)
    (walked : Walked a b 0 (column + 1) out) :
    Turned a b 0 (column + 1)
      (turn a b (buildLcsTable a b) ⟨(0 : Nat), (column + 1 : Nat), out⟩) := by
  have left := cellAt_cast (a := a) (b := b) 0 column
  have taken : turn a b (buildLcsTable a b) ⟨(0 : Nat), (column + 1 : Nat), out⟩ =
      ⟨(0 : Nat), (column : Nat), out ++ [⟨.add, b[column]?⟩]⟩ := by
    have never : ¬0 < ((0 : Nat) : Int) := by omega
    simp only [turn, lineAt_cast, pred_cast, left]
    have bound : 0 < ((column + 1 : Nat) : Int) ∧ -1 ≤ (longestAt a b 0 column : Int) :=
      ⟨cast_pos column, by omega⟩
    rw [if_neg (fun both => never both.1), if_neg never, if_pos (cast_pos column), if_pos bound]
  refine ⟨0, column, _, taken, walked_add walked ?_, by omega⟩
  rw [longestAt_row_zero small walked.inColumn,
    longestAt_row_zero small (Nat.le_of_lt walked.inColumn)]

theorem turn_first_column {row : Nat} {out : List DiffLine} (small : min a.length b.length < 2 ^ 32)
    (walked : Walked a b (row + 1) 0 out) :
    Turned a b (row + 1) 0
      (turn a b (buildLcsTable a b) ⟨(row + 1 : Nat), (0 : Nat), out⟩) := by
  have taken : turn a b (buildLcsTable a b) ⟨(row + 1 : Nat), (0 : Nat), out⟩ =
      ⟨(row : Nat), (0 : Nat), out ++ [⟨.remove, a[row]?⟩]⟩ := by
    have never : ¬0 < ((0 : Nat) : Int) := by omega
    simp only [turn, lineAt_cast, pred_cast]
    rw [if_neg (fun both => never both.2.1), if_neg (fun both => never both.1)]
  refine ⟨row, 0, _, taken, walked_remove walked ?_, by omega⟩
  rw [longestAt_column_zero small walked.inRow,
    longestAt_column_zero small (Nat.le_of_lt walked.inRow)]

theorem turn_inside {row column : Nat} {out : List DiffLine}
    (small : min a.length b.length < 2 ^ 32) (walked : Walked a b (row + 1) (column + 1) out) :
    Turned a b (row + 1) (column + 1)
      (turn a b (buildLcsTable a b) ⟨(row + 1 : Nat), (column + 1 : Nat), out⟩) := by
  have up := cellAt_cast (a := a) (b := b) row (column + 1)
  have left := cellAt_cast (a := a) (b := b) (row + 1) column
  simp only [turn, lineAt_cast, pred_cast, up, left, cast_pos, true_and, if_true]
  by_cases same : a[row]? = b[column]?
  · rw [if_pos same]
    exact ⟨row, column, _, rfl, walked_context small walked same, by omega⟩
  · have longest := longestAt_different small walked.inRow walked.inColumn same
    rw [if_neg same]
    split
    · next bound =>
      have least : longestAt a b row (column + 1) ≤ longestAt a b (row + 1) column := by omega
      refine ⟨row + 1, column, _, rfl, walked_add walked ?_, by omega⟩
      rw [longest, Nat.max_eq_right least]
    · next bound =>
      have least : longestAt a b (row + 1) column ≤ longestAt a b row (column + 1) := by omega
      refine ⟨row, column + 1, _, rfl, walked_remove walked ?_, by omega⟩
      rw [longest, Nat.max_eq_left least]

/-- A turn of the loop gets nearer to the start of both lists. -/
theorem turn_turned {row column : Nat} {out : List DiffLine}
    (small : min a.length b.length < 2 ^ 32) (walked : Walked a b row column out)
    (more : 0 < row + column) :
    Turned a b row column (turn a b (buildLcsTable a b) ⟨row, column, out⟩) := by
  match row, column, walked with
  | 0, 0, _ => contradiction
  | 0, column + 1, walked => exact turn_first_row small walked
  | row + 1, 0, walked => exact turn_first_column small walked
  | row + 1, column + 1, walked => exact turn_inside small walked

theorem ended_iff (row column : Nat) (out : List DiffLine) :
    (Backtrack.ended ⟨row, column, out⟩) = true ↔ row = 0 ∧ column = 0 := by
  simp only [Backtrack.ended, Bool.and_eq_true, decide_eq_true_eq]
  omega

/-- The loop comes to the start of both lists. -/
theorem loop_walks {row column turns : Nat} {out : List DiffLine}
    (small : min a.length b.length < 2 ^ 32) (walked : Walked a b row column out)
    (enough : row + column ≤ turns) :
    ∃ final, loop a b (buildLcsTable a b) turns ⟨row, column, out⟩ = some final ∧
      Walked a b 0 0 final.out := by
  induction turns generalizing row column out with
  | zero =>
    obtain ⟨rfl, rfl⟩ : row = 0 ∧ column = 0 := by omega
    exact ⟨_, if_pos rfl, walked⟩
  | succ turns inductionHypothesis =>
    rw [loop]
    split
    · next ended =>
      obtain ⟨rfl, rfl⟩ := (ended_iff row column out).mp ended
      exact ⟨_, rfl, walked⟩
    · next going =>
      have more : 0 < row + column := by
        by_contra none
        exact going ((ended_iff row column out).mpr (by omega))
      obtain ⟨nextRow, nextColumn, nextOut, taken, nextWalked, nearer⟩ :=
        (turn_turned small walked more).walked
      rw [taken]
      exact inductionHypothesis nextWalked (by omega)

/-! ## What the loop reads -/

/-- A read that is inside of its array, or one line before its first. -/
def Access.Allowed (a b : List Text) (access : Access) : Prop :=
  access.Inside a b ∨ access = .old (-1) ∨ access = .new (-1)

/-- A cell of a row and a column is inside of the table. -/
theorem cell_inside {row column : Nat} (inRow : row ≤ a.length) (inColumn : column ≤ b.length) :
    (Access.table (row * ((b.length : Int) + 1) + column)).Inside a b := by
  have below : row * (b.length + 1) + column < (a.length + 1) * (b.length + 1) :=
    calc row * (b.length + 1) + column < (row + 1) * (b.length + 1) := by
          rw [Nat.add_mul, Nat.one_mul]; omega
      _ ≤ (a.length + 1) * (b.length + 1) := Nat.mul_le_mul_right _ (by omega)
  have cast := Int.ofNat_lt.mpr below
  have positive := Int.natCast_nonneg (row * (b.length + 1) + column)
  push_cast at cast positive
  exact ⟨positive, cast⟩

/-- A turn reads inside of the arrays, or lines before their first. -/
theorem turn_reads {row column : Nat} {out : List DiffLine} (inRow : row ≤ a.length)
    (inColumn : column ≤ b.length) :
    ∀ access ∈ accesses a b ⟨row, column, out⟩, access.Allowed a b := by
  have old : (Access.old ((row : Int) - 1)).Allowed a b := by
    cases row with
    | zero => exact .inr (.inl rfl)
    | succ row =>
      rw [pred_cast]
      exact .inl ⟨Int.natCast_nonneg _, Int.ofNat_lt.mpr inRow⟩
  have new : (Access.new ((column : Int) - 1)).Allowed a b := by
    cases column with
    | zero => exact .inr (.inr rfl)
    | succ column =>
      rw [pred_cast]
      exact .inl ⟨Int.natCast_nonneg _, Int.ofNat_lt.mpr inColumn⟩
  have up : 0 < (row : Int) →
      (Access.table (((row : Int) - 1) * ((b.length : Int) + 1) + column)).Allowed a b := by
    intro positive
    obtain ⟨before, rfl⟩ := Nat.exists_eq_succ_of_ne_zero (n := row) (by omega)
    rw [Nat.succ_eq_add_one, pred_cast]
    exact .inl (cell_inside (Nat.le_of_succ_le inRow) inColumn)
  have left : 0 < (column : Int) →
      (Access.table ((row : Int) * ((b.length : Int) + 1) + ((column : Int) - 1))).Allowed a b := by
    intro positive
    obtain ⟨before, rfl⟩ := Nat.exists_eq_succ_of_ne_zero (n := column) (by omega)
    rw [Nat.succ_eq_add_one, pred_cast]
    exact .inl (cell_inside inRow (Nat.le_of_succ_le inColumn))
  intro access member
  simp only [accesses, List.mem_append, List.mem_cons, List.not_mem_nil, or_false] at member
  rcases member with (rfl | rfl) | member
  · exact old
  · exact new
  · split at member
    · exact absurd member List.not_mem_nil
    · rcases List.mem_append.mp member with member | member
      · split at member
        · next positive =>
          obtain rfl := List.mem_singleton.mp member
          exact up positive
        · exact absurd member List.not_mem_nil
      · split at member
        · next positive =>
          obtain rfl := List.mem_singleton.mp member
          exact left positive
        · exact absurd member List.not_mem_nil

/-- So does the loop. -/
theorem loop_reads {row column turns : Nat} {out : List DiffLine}
    (small : min a.length b.length < 2 ^ 32) (walked : Walked a b row column out) :
    ∀ access ∈ loopAccesses a b (buildLcsTable a b) turns ⟨row, column, out⟩,
      access.Allowed a b := by
  induction turns generalizing row column out with
  | zero => exact fun _ member => absurd member List.not_mem_nil
  | succ turns inductionHypothesis =>
    intro access member
    rw [loopAccesses] at member
    split at member
    · exact absurd member List.not_mem_nil
    · next going =>
      have more : 0 < row + column := by
        by_contra none
        exact going ((ended_iff row column out).mpr (by omega))
      rcases List.mem_append.mp member with now | later
      · exact turn_reads walked.inRow walked.inColumn access now
      · obtain ⟨nextRow, nextColumn, nextOut, taken, nextWalked, _⟩ :=
          (turn_turned small walked more).walked
        rw [taken] at later
        exact inductionHypothesis nextWalked access later

/-! ## Every two texts -/

/-- Within the cap one of the lists is short. -/
theorem small_of_cap (cap : a.length * b.length ≤ maxLcsCells) : min a.length b.length < 2 ^ 32 := by
  by_contra large
  have least : 2 ^ 32 * 2 ^ 32 ≤ a.length * b.length := Nat.mul_le_mul (by omega) (by omega)
  rw [maxLcsCells] at cap
  omega

theorem walked_start : Walked a b a.length b.length [] where
  inRow := Nat.le_refl _
  inColumn := Nat.le_refl _
  removed := by simp [without]
  added := by simp [without]
  contexts := by simp [contexts]

/-- The difference tells both texts, and within the cap it keeps as many lines as any can. -/
structure Minimal (oldText newText : Text) (lines : List DiffLine) : Prop where
  removed : without .add lines = (splitLines oldText).map some
  added : without .remove lines = (splitLines newText).map some
  contexts : (splitLines oldText).length * (splitLines newText).length ≤ maxLcsCells →
    LongestCommon (splitLines oldText) (splitLines newText) (contexts lines)

/-- Keeping the lines of one type keeps all or none of them. -/
theorem without_all (type other : DiffLineType) (lines : List Text) :
    without other (all type lines) = if type = other then [] else lines.map some := by
  split
  · next same => simp [without, all, List.filter_map, Function.comp_def, same]
  · next different => simp [without, all, List.filter_map, Function.comp_def, different]

/-- Putting two lists of lines together. -/
theorem without_append (type : DiffLineType) (first second : List DiffLine) :
    without type (first ++ second) = without type first ++ without type second := by
  simp [without]

/-- The way back through the table of two lists. -/
theorem backtrack_minimal (small : min a.length b.length < 2 ^ 32) :
    ∃ lines, backtrack a b (buildLcsTable a b) = some lines ∧ without .add lines = a.map some ∧
      without .remove lines = b.map some ∧ LongestCommon a b (contexts lines) := by
  obtain ⟨final, ends, walked⟩ := loop_walks small walked_start (Nat.le_refl _)
  refine ⟨final.out.reverse, by rw [backtrack, ends, Option.map_some], walked.removed,
    walked.added, ?_⟩
  have whole := table_longest small (Nat.le_refl a.length) (Nat.le_refl b.length)
  have counted := walked.contexts
  rw [longestAt_row_zero small (Nat.zero_le _), Nat.add_zero] at counted
  have reversed : contexts final.out.reverse = contexts final.out := by
    simp [contexts, List.filter_reverse]
  rw [reversed, counted]
  rwa [List.take_length, List.take_length] at whole

/-- The difference is there, is correct and within the cap minimal, and the way back reads nothing
outside of its arrays but lines before their first. -/
structure Correct (oldText newText : Text) : Prop where
  minimal : ∃ lines, diffLines oldText newText = some lines ∧ Minimal oldText newText lines
  reads : (splitLines oldText).length * (splitLines newText).length ≤ maxLcsCells →
    ∀ access ∈ backtrackAccesses oldText newText,
      access.Allowed (splitLines oldText) (splitLines newText)

/-- The difference of every two texts is correct. -/
theorem diff_lines_minimal (oldText newText : Text) : Correct oldText newText := by
  constructor
  · unfold diffLines
    split
    · next same =>
      subst same
      refine ⟨_, rfl, without_all _ _ _, without_all _ _ _, fun _ => ?_⟩
      have kept : contexts (all .context (splitLines oldText)) = (splitLines oldText).length := by
        simp [contexts, all, List.filter_map, Function.comp_def]
      rw [kept]
      exact LongestCommon.self
    · dsimp only
      split
      · next large =>
        refine ⟨_, rfl, ?_, ?_, fun cap => absurd large (Nat.not_lt.mpr cap)⟩
        · rw [without_append, without_all, without_all]
          simp
        · rw [without_append, without_all, without_all]
          simp
      · next cap =>
        obtain ⟨lines, ends, removed, added, longest⟩ :=
          backtrack_minimal (small_of_cap (Nat.not_lt.mp cap))
        exact ⟨lines, ends, removed, added, fun _ => longest⟩
  · intro cap
    exact loop_reads (small_of_cap cap) walked_start

/-- The way back reads nothing outside of its arrays: not so. Where the old text is empty it reads
the line before the first one, which is not used. -/
theorem line_before_first_read :
    ¬∀ oldText newText : Text, ∀ access ∈ backtrackAccesses oldText newText,
      access.Inside (splitLines oldText) (splitLines newText) := by
  intro inside
  have first := inside [] [120] (.old (-1)) (by decide)
  exact absurd first.1 (by decide)

end Kvy.Web.Lib.Diff
