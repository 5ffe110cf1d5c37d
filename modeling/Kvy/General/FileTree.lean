import Kvy.General.PosixPath

/-!
# File trees with symbolic links

A tree tells what stands at a place, which is given by the names on the way from the root. A path is
followed name by name; a link continues with its target, and only so many links are followed. A place
that a path leads to is no link, and its own path leads to it.
-/

namespace Kvy.General

open PosixPath

/-- What stands at a place. -/
inductive FileNode where
  | file
  | directory
  | link (target : List Char)
deriving DecidableEq

/-- A file tree, the directory in which paths begin, and how many links are followed. -/
structure FileTree where
  node : List (List Char) → Option FileNode
  rooted : node [] = some .directory
  nested : ∀ place name, node (place ++ [name]) ≠ none → node place = some .directory
  named : ∀ place, node place ≠ none → ∀ name ∈ place, Plain name
  cwd : List (List Char)
  working : node cwd = some .directory
  maxLinks : Nat

namespace FileTree

variable {tree : FileTree}

/-- Follows the parts of a path; links are left to `follow`. -/
def walk (tree : FileTree) (follow : List (List Char) → List (List Char) → Option (List (List Char))) :
    List (List Char) → List (List Char) → Option (List (List Char))
  | place, [] => some place
  | place, part :: rest =>
    if part = [] ∨ part = here then
      if tree.node place = some .directory then walk tree follow place rest else none
    else if part = up then
      if tree.node place = some .directory then walk tree follow place.dropLast rest else none
    else
      match tree.node (place ++ [part]) with
      | none => none
      | some (.link target) =>
        if target = [] then none
        else follow (if isAbsolute target then [] else place) (target.splitOn '/' ++ rest)
      | some _ => walk tree follow (place ++ [part]) rest

/-- Follows the parts of a path through a number of links. -/
def through (tree : FileTree) : Nat → List (List Char) → List (List Char) → Option (List (List Char))
  | 0 => walk tree fun _ _ => none
  | links + 1 => walk tree (through tree links)

/-- The place that a path leads to. -/
def locate (tree : FileTree) (path : List Char) : Option (List (List Char)) :=
  if path = [] then none
  else tree.through tree.maxLinks (if isAbsolute path then [] else tree.cwd) (path.splitOn '/')

/-- `realpath`. -/
def realpath (tree : FileTree) (path : List Char) : Option (List Char) := (tree.locate path).map absolute

/-- `stat`. -/
def stat (tree : FileTree) (path : List Char) : Option FileNode := (tree.locate path).bind tree.node

/-- A place at which something stands that is no link. -/
def Real (tree : FileTree) (place : List (List Char)) : Prop :=
  tree.node place = some .file ∨ tree.node place = some .directory

variable {place : List (List Char)}

/-- The names on the way to a real place are plain. -/
theorem Real.plain (real : tree.Real place) : ∀ name ∈ place, Plain name := by
  refine tree.named place ?_
  obtain file | directory := real
  · simp [file]
  · simp [directory]

/-- The directory around a directory is one. -/
theorem above_directory (directory : tree.node place = some .directory) :
    tree.node place.dropLast = some .directory := by
  obtain rfl | nonempty := eq_or_ne place []
  · exact directory
  · apply tree.nested _ (place.getLast nonempty)
    rw [List.dropLast_append_getLast nonempty, directory]
    exact Option.some_ne_none _

/-- A walk ends at a real place when the walks behind links do. -/
theorem walk_real {follow : List (List Char) → List (List Char) → Option (List (List Char))}
    (behind : ∀ place parts found, tree.Real place → follow place parts = some found → tree.Real found)
    {parts found : List (List Char)} (real : tree.Real place)
    (walked : tree.walk follow place parts = some found) : tree.Real found := by
  induction parts generalizing place with
  | nil =>
    cases walked
    exact real
  | cons part rest inductionHypothesis =>
    unfold walk at walked
    split at walked
    · split at walked
      · exact inductionHypothesis real walked
      · exact absurd walked (by simp)
    split at walked
    · split at walked
      · rename_i directory
        exact inductionHypothesis (.inr (above_directory directory)) walked
      · exact absurd walked (by simp)
    split at walked
    · exact absurd walked (by simp)
    · rename_i target isLink
      split at walked
      · exact absurd walked (by simp)
      refine behind _ _ _ ?_ walked
      split
      · exact .inr tree.rooted
      · exact .inr (tree.nested place part (by simp [isLink]))
    · rename_i node isNode noLink
      refine inductionHypothesis ?_ walked
      cases node with
      | file => exact .inl noLink
      | directory => exact .inr noLink
      | link target => exact (isNode target rfl).elim

/-- What is reached through links is real. -/
theorem through_real (links : Nat) : ∀ {place parts found : List (List Char)}, tree.Real place →
    tree.through links place parts = some found → tree.Real found := by
  induction links with
  | zero => exact fun real found => walk_real (by simp) real found
  | succ links inductionHypothesis =>
    exact fun real found => walk_real (fun _ _ _ => inductionHypothesis) real found

/-- A path leads to a real place. -/
theorem locate_real {path : List Char} {found : List (List Char)}
    (located : tree.locate path = some found) : tree.Real found := by
  unfold locate at located
  split at located
  · exact absurd located (by simp)
  · refine through_real _ ?_ located
    split
    · exact .inr tree.rooted
    · exact .inr tree.working

/-- Around something there is a directory. -/
theorem Real.around {name : List Char} (real : tree.Real (place ++ [name])) :
    tree.node place = some .directory := by
  refine tree.nested place name ?_
  obtain file | directory := real
  · simp [file]
  · simp [directory]

/-- What is on the way to a real place is real. -/
theorem Real.before (names : List (List Char))
    (real : tree.Real (place ++ names)) : tree.Real place := by
  induction names generalizing place with
  | nil => simpa using real
  | cons name rest inductionHypothesis =>
    have next : tree.Real (place ++ [name]) := inductionHypothesis (by simpa using real)
    exact .inr next.around

/-- The names on the way to a real place are walked one by one. -/
theorem walk_names (follow : List (List Char) → List (List Char) → Option (List (List Char)))
    {names : List (List Char)} (real : tree.Real (place ++ names)) :
    tree.walk follow place names = some (place ++ names) := by
  induction names generalizing place with
  | nil => simp [walk]
  | cons name rest inductionHypothesis =>
    have plain := real.plain name (by simp)
    have shape : place ++ name :: rest = place ++ [name] ++ rest := by simp
    rw [shape] at real ⊢
    have later := inductionHypothesis real
    obtain file | directory := real.before rest
    · simp [walk, plain.visible, plain.below, file, later]
    · simp [walk, plain.visible, plain.below, directory, later]

/-- The path of a real place leads to it. -/
theorem locate_absolute (real : tree.Real place) :
    tree.locate (absolute place) = some place := by
  have names : ∀ links, tree.through links [] place = some place := by
    intro links
    cases links with
    | zero => exact walk_names _ real
    | succ links => exact walk_names _ real
  have around : ∀ links parts, tree.through links [] ([] :: parts) = tree.through links [] parts := by
    intro links parts
    cases links <;> simp [through, walk, tree.rooted]
  have split : (absolute place).splitOn '/' = [] :: (slashed place).splitOn '/' :=
    List.splitOn_append_cons_self_of_not_mem List.not_mem_nil (slashed place)
  have rooted : isAbsolute (absolute place) = true := rfl
  have some' : absolute place ≠ [] := List.cons_ne_nil _ _
  rw [locate, if_neg some', rooted, if_pos rfl, split, around]
  obtain rfl | nonempty := eq_or_ne place []
  · exact (around _ []).trans (names _)
  · rw [splitOn_plain real.plain nonempty, names]

/-- A path leads to a place whose path leads to it. -/
theorem locate_idempotent {path : List Char} {found : List (List Char)}
    (located : tree.locate path = some found) : tree.locate (absolute found) = some found :=
  locate_absolute (locate_real located)

end FileTree

end Kvy.General
