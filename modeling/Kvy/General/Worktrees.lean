import Kvy.General.KeyedRows

/-!
# Worktrees and branches

A repository has branches and worktrees. A worktree has a root of its own and at most one branch checked
out, and a branch is checked out in at most one worktree. An operation fails where it would break that.
-/

namespace Kvy.General

universe u v

/-- A worktree: where it is, and the branch that is checked out in it. -/
structure Worktree (Path : Type u) (Branch : Type v) where
  root : Path
  head : Option Branch
deriving DecidableEq

/-- A repository. No two worktrees have one root, or one branch checked out. -/
structure Repository (Path : Type u) (Branch : Type v) where
  branches : List Branch
  worktrees : List (Worktree Path Branch)
  distinct : (worktrees.map Worktree.root).Nodup
  exclusive : ∀ first ∈ worktrees, ∀ second ∈ worktrees, ∀ branch ∈ first.head, branch ∈ second.head →
    first.root = second.root

namespace Repository

variable {Path : Type u} {Branch : Type v} [DecidableEq Path] [DecidableEq Branch]
  (repository : Repository Path Branch)

/-- The worktree that has a branch checked out. -/
def checkedOut? (branch : Branch) : Option (Worktree Path Branch) :=
  repository.worktrees.find? (fun worktree => worktree.head = some branch)

/-- The worktree with a root has a branch checked out. -/
def Has (root : Path) (branch : Branch) : Prop :=
  ∃ worktree ∈ repository.worktrees, worktree.root = root ∧ worktree.head = some branch

instance (root : Path) (branch : Branch) : Decidable (repository.Has root branch) :=
  inferInstanceAs (Decidable (∃ worktree ∈ repository.worktrees, _))

/-- A branch is checked out in no worktree but, possibly, the one with a root. -/
def Free (root : Path) (branch : Branch) : Prop :=
  ∀ worktree ∈ repository.worktrees, worktree.head = some branch → worktree.root = root

instance (root : Path) (branch : Branch) : Decidable (repository.Free root branch) :=
  inferInstanceAs (Decidable (∀ worktree ∈ repository.worktrees, _))

/-- A branch is checked out nowhere. -/
def Idle (branch : Branch) : Prop := ∀ worktree ∈ repository.worktrees, worktree.head ≠ some branch

instance (branch : Branch) : Decidable (repository.Idle branch) :=
  inferInstanceAs (Decidable (∀ worktree ∈ repository.worktrees, _))

/-! ## Operations -/

/-- Another branch, or none, is checked out in a worktree. -/
def setHead (root : Path) (head : Option Branch) (free : ∀ branch ∈ head, repository.Free root branch) :
    Repository Path Branch where
  branches := repository.branches
  worktrees := Keyed.modify Worktree.root root (fun worktree => { worktree with head := head })
    repository.worktrees
  distinct := Keyed.nodup_modify Worktree.root root (fun worktree => { worktree with head := head })
    (fun _ => rfl) repository.distinct
  exclusive := by
    intro first among second among' branch one two
    obtain ⟨origin, from', rfl⟩ := List.mem_map.mp among
    obtain ⟨origin', from'', rfl⟩ := List.mem_map.mp among'
    by_cases own : origin.root = root <;> by_cases own' : origin'.root = root
    · simp [own, own']
    · simp only [own, own', ↓reduceIte] at one two ⊢
      exact absurd (free branch one origin' from'' two) own'
    · simp only [own, own', ↓reduceIte] at one two ⊢
      exact absurd (free branch two origin from' one) own
    · simp only [own, own', ↓reduceIte] at one two ⊢
      exact repository.exclusive origin from' origin' from'' branch one two

/-- `git checkout`, of a branch that exists. -/
def checkout (root : Path) (branch : Branch) : Option (Repository Path Branch) :=
  if legal : root ∈ repository.worktrees.map Worktree.root ∧ branch ∈ repository.branches ∧
      repository.Free root branch then
    some (repository.setHead root (some branch) (by rintro other ⟨⟩; exact legal.2.2))
  else none

/-- `git checkout --detach`. -/
def detach (root : Path) : Repository Path Branch := repository.setHead root none (by simp)

/-- A new branch, where the name may be given beside those that exist. -/
def create (lawful : Branch → List Branch → Bool) (branch : Branch) :
    Option (Repository Path Branch) :=
  if branch ∉ repository.branches ∧ lawful branch repository.branches = true then
    some { repository with branches := repository.branches ++ [branch] }
  else none

/-- `git worktree add`, with a branch that exists. -/
def add (root : Path) (branch : Branch) : Option (Repository Path Branch) :=
  if legal : root ∉ repository.worktrees.map Worktree.root ∧ branch ∈ repository.branches ∧
      repository.Idle branch then
    some {
      branches := repository.branches
      worktrees := ⟨root, some branch⟩ :: repository.worktrees
      distinct := List.nodup_cons.mpr ⟨legal.1, repository.distinct⟩
      exclusive := by
        intro first among second among' other one two
        rcases List.mem_cons.mp among with rfl | among <;>
          rcases List.mem_cons.mp among' with rfl | among'
        · rfl
        · cases one
          exact absurd two (legal.2.2 second among')
        · cases two
          exact absurd one (legal.2.2 first among)
        · exact repository.exclusive first among second among' other one two }
  else none

/-- `git worktree remove`. -/
def remove (root : Path) : Repository Path Branch where
  branches := repository.branches
  worktrees := Keyed.delete Worktree.root root repository.worktrees
  distinct := Keyed.nodup_delete Worktree.root root repository.distinct
  exclusive := by
    intro first among second among' branch one two
    exact repository.exclusive first (List.mem_filter.mp among).1 second (List.mem_filter.mp among').1
      branch one two

/-- `git branch -D`. -/
def delete (branch : Branch) : Option (Repository Path Branch) :=
  if branch ∈ repository.branches ∧ repository.Idle branch then
    some { repository with branches := repository.branches.filter (fun other => other ≠ branch) }
  else none

/-- `git branch -m`. The worktree that has the branch checked out follows. -/
def rename (lawful : Branch → List Branch → Bool) (branch name : Branch) :
    Option (Repository Path Branch) :=
  if legal : branch ∈ repository.branches ∧ name ∉ repository.branches ∧
      lawful name (repository.branches.filter (fun other => other ≠ branch)) = true ∧
      repository.Idle name then
    some {
      branches := repository.branches.map (fun other => if other = branch then name else other)
      worktrees := repository.worktrees.map (fun worktree =>
        { worktree with head := worktree.head.map (fun other => if other = branch then name else other) })
      distinct := by
        rw [List.map_map]
        exact repository.distinct
      exclusive := by
        have names : ∀ worktree ∈ repository.worktrees, ∀ other,
            worktree.head.map (fun other => if other = branch then name else other) = some other →
            worktree.head = some (if other = name then branch else other) := by
          intro worktree among other renamed
          obtain ⟨before, was, same⟩ := Option.map_eq_some_iff.mp renamed
          by_cases own : before = branch
          · simp_all
          · have differs : before ≠ name := fun same' =>
              legal.2.2.2 worktree among (same' ▸ was)
            simp_all
        intro first among second among' other one two
        obtain ⟨origin, from', rfl⟩ := List.mem_map.mp among
        obtain ⟨origin', from'', rfl⟩ := List.mem_map.mp among'
        exact repository.exclusive origin from' origin' from'' _ (names origin from' other one)
          (names origin' from'' other two) }
  else none

/-! ## What they do -/

variable {repository} {next : Repository Path Branch} {root : Path} {branch : Branch}

/-- The worktree that is added has the branch. -/
theorem has_add (done : repository.add root branch = some next) : next.Has root branch := by
  unfold add at done
  split at done
  · cases done
    exact ⟨⟨root, some branch⟩, List.mem_cons_self, rfl, rfl⟩
  · cases done

omit [DecidableEq Path] in
theorem delete_eq_some : repository.delete branch = some next ↔
    branch ∈ repository.branches ∧ repository.Idle branch ∧
      next = { repository with branches := repository.branches.filter (fun other => other ≠ branch) } := by
  unfold delete
  split
  · next legal => simp [legal, eq_comm]
  · next illegal =>
    constructor
    · intro done
      cases done
    · rintro ⟨exists', idle, -⟩
      exact absurd ⟨exists', idle⟩ illegal

omit [DecidableEq Branch] in
/-- A branch is checked out nowhere, once the one worktree that may have it is removed. -/
theorem idle_remove : (repository.remove root).Idle branch ↔ repository.Free root branch := by
  constructor
  · intro idle worktree among head
    by_contra differs
    exact idle worktree (List.mem_filter.mpr ⟨among, by simpa using differs⟩) head
  · intro free worktree among head
    obtain ⟨among, differs⟩ := List.mem_filter.mp among
    simp only [decide_eq_true_eq] at differs
    exact differs (free worktree among head)

end Repository

end Kvy.General
