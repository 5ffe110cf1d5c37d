import Mathlib.Data.List.Basic

/-!
# Paths

The operations on POSIX paths that work on text alone. A path is split at its slashes; empty parts and
`.` are dropped, and `..` takes the part before it back. Paths of plain parts are joined, resolved and
compared part by part.
-/

namespace Kvy.General.PosixPath

/-- The part that names the directory itself. -/
def here : List Char := ['.']

/-- The part that names the directory above. -/
def up : List Char := ['.', '.']

/-- Parts with slashes between them. -/
def slashed (parts : List (List Char)) : List Char := ['/'].intercalate parts

/-- The path from the root through parts. -/
def absolute (parts : List (List Char)) : List Char := '/' :: slashed parts

def isAbsolute (path : List Char) : Bool := path.head? = some '/'

/-- A part comes after the others, of which the last stands first. Only a path that is not absolute may
lead `above` where it starts. -/
def push (above : Bool) (before : List (List Char)) (part : List Char) : List (List Char) :=
  if part = [] ∨ part = here then before
  else if part = up then
    match before with
    | [] => if above then [up] else []
    | last :: rest => if last ≠ up then rest else if above then up :: last :: rest else last :: rest
  else part :: before

/-- The parts that are left of a path. -/
def reduce (above : Bool) (path : List Char) : List (List Char) :=
  ((path.splitOn '/').foldl (push above) []).reverse

/-- `path.normalize`. -/
def normalize (path : List Char) : List Char :=
  if path = [] then here
  else
    let parts := reduce (!isAbsolute path) path
    let trailing := if path.getLast? = some '/' then ['/'] else []
    if parts = [] then if isAbsolute path then ['/'] else here ++ trailing
    else (if isAbsolute path then absolute parts else slashed parts) ++ trailing

/-- `path.join`. -/
def join (paths : List (List Char)) : List Char :=
  normalize (slashed (paths.filter (fun path => path ≠ [])))

/-- The parts of a path that is resolved against a directory. -/
def segments (cwd path : List Char) : List (List Char) :=
  reduce false (if isAbsolute path then path else cwd ++ '/' :: path)

/-- `path.resolve`, of one path. -/
def resolve (cwd path : List Char) : List Char := absolute (segments cwd path)

/-- The way from one directory to another: up to where they part, and down. -/
def between : List (List Char) → List (List Char) → List (List Char)
  | first :: source, second :: target =>
    if first = second then between source target
    else (first :: source).map (fun _ => up) ++ second :: target
  | source, target => source.map (fun _ => up) ++ target

/-- `path.relative`. -/
def relative (cwd source target : List Char) : List Char :=
  slashed (between (segments cwd source) (segments cwd target))

/-- `path.dirname`. -/
def dirname (path : List Char) : List Char :=
  match (path.reverse.dropWhile (fun char => char = '/')).dropWhile (fun char => char ≠ '/') with
  | [] => if isAbsolute path then ['/'] else here
  | [_] => ['/']
  | [_, first] => if first = '/' then ['/', '/'] else [first]
  | _ :: rest => rest.reverse

/-- A part that names an entry of the directory before it. -/
structure Plain (part : List Char) : Prop where
  visible : part ≠ []
  below : part ≠ here ∧ part ≠ up
  whole : '/' ∉ part

/-! ## Plain parts -/

variable {above : Bool} {cwd : List Char} {parts root rest : List (List Char)}

theorem push_plain {part : List Char} (plain : Plain part) (before : List (List Char)) :
    push above before part = part :: before := by
  simp [push, plain.visible, plain.below.1, plain.below.2]

/-- Plain parts stay as they are. -/
theorem foldl_push_plain (plain : ∀ part ∈ parts, Plain part) (before : List (List Char)) :
    parts.foldl (push above) before = parts.reverse ++ before := by
  induction parts generalizing before with
  | nil => rfl
  | cons part parts inductionHypothesis =>
    rw [List.foldl_cons, push_plain (plain part List.mem_cons_self),
      inductionHypothesis (fun other member => plain other (List.mem_cons_of_mem part member))]
    simp

/-- Paths that are put together fall into the parts of each. -/
theorem splitOn_slashed {paths : List (List Char)} (some' : paths ≠ []) :
    (slashed paths).splitOn '/' = paths.flatMap (fun path => path.splitOn '/') := by
  induction paths with
  | nil => exact absurd rfl some'
  | cons path paths inductionHypothesis =>
    cases paths with
    | nil => simp [slashed]
    | cons next paths =>
      have tail := inductionHypothesis (List.cons_ne_nil next paths)
      have shape : slashed (path :: next :: paths) = path ++ '/' :: slashed (next :: paths) := by
        simp [slashed]
      rw [shape, List.splitOn_append_cons_self, tail]
      rfl

/-- A path of plain parts falls into them. -/
theorem splitOn_plain (plain : ∀ part ∈ parts, Plain part) (some' : parts ≠ []) :
    (slashed parts).splitOn '/' = parts :=
  List.splitOn_intercalate '/' (fun part member => (plain part member).whole) some'

/-- What a path of plain parts adds to the parts before it. -/
theorem foldl_splitOn_plain (plain : ∀ part ∈ parts, Plain part) (before : List (List Char)) :
    ((slashed parts).splitOn '/').foldl (push above) before = parts.reverse ++ before := by
  cases parts with
  | nil => simp [slashed, push]
  | cons part parts => rw [splitOn_plain plain (List.cons_ne_nil part parts), foldl_push_plain plain]

/-- What an absolute path of plain parts starts with. -/
theorem foldl_splitOn_absolute (plain : ∀ part ∈ parts, Plain part) :
    ((absolute parts).splitOn '/').foldl (push above) [] = parts.reverse := by
  have shape : (absolute parts).splitOn '/' = [] :: (slashed parts).splitOn '/' :=
    List.splitOn_append_cons_self_of_not_mem List.not_mem_nil (slashed parts)
  have first : push above [] [] = [] := by simp [push]
  rw [shape, List.foldl_cons, first, foldl_splitOn_plain plain, List.append_nil]

theorem segments_absolute (plain : ∀ part ∈ parts, Plain part) :
    segments cwd (absolute parts) = parts := by
  have at' : isAbsolute (absolute parts) = true := rfl
  rw [segments, at', if_pos rfl, reduce, foldl_splitOn_absolute plain, List.reverse_reverse]

/-- An absolute path of plain parts resolves to itself. -/
theorem resolve_absolute (plain : ∀ part ∈ parts, Plain part) :
    resolve cwd (absolute parts) = absolute parts := by
  rw [resolve, segments_absolute plain]

/-- Paths that are put together end as the last one does. -/
theorem slashed_append_last (paths : List (List Char)) (last : List Char) :
    ∃ before, slashed (paths ++ [last]) = before ++ last := by
  induction paths with
  | nil => exact ⟨[], by simp [slashed]⟩
  | cons path paths inductionHypothesis =>
    obtain ⟨before, shape⟩ := inductionHypothesis
    refine ⟨path ++ '/' :: before, ?_⟩
    have first : slashed (path :: (paths ++ [last])) = path ++ '/' :: slashed (paths ++ [last]) := by
      rw [slashed, List.intercalate_cons_of_ne_nil (by simp)]
      simp [slashed]
    rw [List.cons_append, first, shape]
    simp

/-- A path of plain parts does not end in a slash. -/
theorem getLast_plain (plain : ∀ part ∈ parts, Plain part) (some' : parts ≠ []) (before : List Char) :
    (before ++ slashed parts).getLast? ≠ some '/' := by
  have own := plain _ (List.getLast_mem some')
  obtain ⟨first, shape⟩ := slashed_append_last parts.dropLast (parts.getLast some')
  rw [List.dropLast_append_getLast] at shape
  rw [shape, ← List.append_assoc, List.getLast?_append_of_ne_nil _ own.visible]
  exact fun ends => own.whole (List.mem_of_getLast? ends)

theorem slashed_visible (plain : ∀ part ∈ parts, Plain part) (some' : parts ≠ []) :
    slashed parts ≠ [] := by
  intro empty
  have split := splitOn_plain plain some'
  rw [empty, List.splitOn_nil] at split
  exact (plain [] (split ▸ List.mem_cons_self)).visible rfl

/-- What paths of plain parts add to the parts before them. -/
theorem foldl_flatMap_plain {below : List (List (List Char))}
    (further : ∀ parts ∈ below, ∀ part ∈ parts, Plain part) (before : List (List Char)) :
    ((below.map slashed).flatMap (fun path => path.splitOn '/')).foldl (push above) before =
      below.flatten.reverse ++ before := by
  induction below generalizing before with
  | nil => rfl
  | cons parts below inductionHypothesis =>
    rw [List.map_cons, List.flatMap_cons, List.foldl_append,
      foldl_splitOn_plain (further parts List.mem_cons_self), inductionHypothesis
        (fun other member => further other (List.mem_cons_of_mem parts member))]
    simp

/-- Paths of plain parts below an absolute one are joined part by part. -/
theorem join_absolute (below : List (List (List Char))) (plain : ∀ part ∈ root, Plain part)
    (further : ∀ parts ∈ below, parts ≠ [] ∧ ∀ part ∈ parts, Plain part) (some' : below ≠ []) :
    join (absolute root :: below.map slashed) = absolute (root ++ below.flatten) := by
  have visible : (absolute root :: below.map slashed).filter (fun path => path ≠ []) =
      absolute root :: below.map slashed := by
    refine List.filter_eq_self.mpr ?_
    intro path member
    rcases List.mem_cons.mp member with rfl | listed
    · simp [absolute]
    · obtain ⟨parts, among, rfl⟩ := List.mem_map.mp listed
      simpa using slashed_visible (further parts among).2 (further parts among).1
  have reduced : reduce false (slashed (absolute root :: below.map slashed)) =
      root ++ below.flatten := by
    rw [reduce, splitOn_slashed (List.cons_ne_nil _ _), List.flatMap_cons, List.foldl_append,
      foldl_splitOn_absolute plain, foldl_flatMap_plain (fun parts among => (further parts among).2)]
    simp
  obtain ⟨init, last, rfl⟩ : ∃ init last, below = init ++ [last] :=
    ⟨below.dropLast, below.getLast some', (List.dropLast_append_getLast some').symm⟩
  have ending := further last (by simp)
  have through : root ++ (init ++ [last]).flatten ≠ [] := by
    simp [ending.1]
  obtain ⟨before, shape⟩ := slashed_append_last (absolute root :: init.map slashed) (slashed last)
  have unslashed : (slashed (absolute root :: (init ++ [last]).map slashed)).getLast? ≠ some '/' := by
    have whole : absolute root :: (init ++ [last]).map slashed =
        (absolute root :: init.map slashed) ++ [slashed last] := by simp
    rw [whole, shape]
    exact getLast_plain ending.2 ending.1 before
  have rooted : isAbsolute (slashed (absolute root :: (init ++ [last]).map slashed)) = true := by
    rw [slashed, List.intercalate_cons_of_ne_nil (by simp)]
    rfl
  have some'' : slashed (absolute root :: (init ++ [last]).map slashed) ≠ [] := by
    intro empty
    rw [empty] at rooted
    cases rooted
  rw [join, visible, normalize, if_neg some'', rooted]
  simp only [Bool.not_true, reduced, through, ↓reduceIte, unslashed, List.append_nil]

/-! ## Where paths lead -/

/-- What stands between slashes has none. -/
theorem splitOn_whole (path : List Char) : ∀ part ∈ path.splitOn '/', '/' ∉ part := by
  induction path with
  | nil => simp
  | cons char path inductionHypothesis =>
    rw [List.splitOn_cons_eq_if_modifyHead]
    obtain ⟨first, rest, shape⟩ := List.exists_cons_of_ne_nil (List.splitOn_ne_nil '/' path)
    rw [shape] at inductionHypothesis ⊢
    split
    · simpa using inductionHypothesis
    · rename_i other
      intro part member
      obtain rfl | later := List.mem_cons.mp member
      · have distinct : '/' ≠ char := fun same => other (by simpa using same.symm)
        simp [distinct, inductionHypothesis first]
      · exact inductionHypothesis part (List.mem_cons_of_mem first later)

/-- An absolute path has plain parts only. -/
theorem reduce_plain (path : List Char) : ∀ part ∈ reduce false path, Plain part := by
  have folded : ∀ (incoming before : List (List Char)), (∀ part ∈ incoming, '/' ∉ part) →
      (∀ part ∈ before, Plain part) → ∀ part ∈ incoming.foldl (push false) before, Plain part := by
    intro incoming
    induction incoming with
    | nil => exact fun before _ plain => plain
    | cons next incoming inductionHypothesis =>
      intro before whole plain
      refine inductionHypothesis _ (fun part member => whole part (List.mem_cons_of_mem next member)) ?_
      unfold push
      split
      · exact plain
      · rename_i named
        rw [not_or] at named
        split
        · cases before with
          | nil => simp
          | cons last rest =>
            have later : ∀ part ∈ rest, Plain part :=
              fun part member => plain part (List.mem_cons_of_mem last member)
            simpa [(plain last List.mem_cons_self).below.2] using later
        · rename_i notUp
          intro part member
          obtain rfl | earlier := List.mem_cons.mp member
          · exact ⟨named.1, ⟨named.2, notUp⟩, whole part List.mem_cons_self⟩
          · exact plain part earlier
  intro part member
  exact folded _ [] (splitOn_whole path) (by simp) part (List.mem_reverse.mp member)

/-- The parts of a resolved path are plain. -/
theorem segments_plain (cwd path : List Char) : ∀ part ∈ segments cwd path, Plain part :=
  reduce_plain _

/-- The way to what is not below begins upwards. -/
theorem between_outside {source target : List (List Char)} (outside : ¬ source <+: target) :
    ∃ rest, between source target = up :: rest := by
  induction source generalizing target with
  | nil => exact absurd List.nil_prefix outside
  | cons first source inductionHypothesis =>
    cases target with
    | nil => exact ⟨_, rfl⟩
    | cons second target =>
      unfold between
      split
      · rename_i same
        refine inductionHypothesis fun inside => outside ?_
        rw [same]
        exact (List.prefix_cons_inj second).mpr inside
      · exact ⟨_, rfl⟩

/-- The way from a directory to one below it is the parts between. -/
theorem between_append (source rest : List (List Char)) : between source (source ++ rest) = rest := by
  induction source with
  | nil =>
    cases rest <;> rfl
  | cons first source inductionHypothesis => simpa [between] using inductionHypothesis

theorem relative_absolute (plain : ∀ part ∈ root ++ rest, Plain part) :
    relative cwd (absolute root) (absolute (root ++ rest)) = slashed rest := by
  have first : ∀ part ∈ root, Plain part :=
    fun part member => plain part (List.mem_append_left rest member)
  rw [relative, segments_absolute first, segments_absolute plain, between_append]

end Kvy.General.PosixPath
