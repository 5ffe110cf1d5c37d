import Kvy.Cli.Daemon.SpawnEngine
import Kvy.General.PosixPath
import Kvy.General.Text
import Kvy.General.Worktrees
import Mathlib.Data.List.MinMax

/-!
# Branches and worktrees of a spawn

A spawn may ask for a branch, checked out in the directory itself or in a worktree of its own below
`.worktrees`. A worktree can be removed again, and a branch of that name with it. Both work through git
commands that run in a directory of one repository; a command may fail for reasons of its own.
-/

namespace Kvy.Cli.Daemon

open General

/-- The parts of an absolute path. -/
abbrev Place := List (List Char)

inductive Entry where
  | file
  | directory
deriving DecidableEq

/-- The git commands that are run. -/
inductive GitCommand where
  | showRef
  | forEachRef
  | checkout
  | worktreeAdd
  | revParse
  | worktreeRemove
  | branchDelete
deriving DecidableEq

/-- What git decides: which names a new branch may have beside others, which start points it knows, and
what it says where it refuses a command. -/
structure Git where
  lawful : String → List String → Bool
  resolves : String → Bool
  refusal : GitCommand → String

/-- A repository on disk. `gitCommonDir` is where git keeps it, and `cwd` the directory of the daemon. -/
structure RepoHost where
  repository : Repository Place String
  entry : Place → Option Entry
  gitCommonDir : List Char
  cwd : List Char

/-- How the commands of a call fail that fail for reasons of their own. -/
abbrev GitFailures := GitCommand → Option String

namespace RepoHost

variable (git : Git) (fails : GitFailures) (host : RepoHost)

/-- The worktree that a directory is in: the innermost one above it. -/
def worktreeAt (directory : Place) : Option (Worktree Place String) :=
  (host.repository.worktrees.filter (fun worktree => worktree.root.isPrefixOf directory)).argmax
    (fun worktree => worktree.root.length)

/-- The worktree that a command runs in. -/
def runGit (command : GitCommand) (directory : Place) : Except String (Worktree Place String) :=
  match fails command with
  | some stderr => .error stderr
  | none =>
    if host.entry directory = some .directory then
      match host.worktreeAt directory with
      | some worktree => .ok worktree
      | none => .error (git.refusal command)
    else .error (git.refusal command)

/-- A command that changes the repository. -/
def apply (command : GitCommand) (changed : Option (Repository Place String)) : Except String RepoHost :=
  match changed with
  | some repository => .ok { host with repository := repository }
  | none => .error (git.refusal command)

/-- `mkdir`, with the directories above. -/
def mkdir (place : Place) : Except String RepoHost :=
  if ∀ above ∈ place.inits, host.entry above ≠ some .file then
    .ok { host with
      entry := fun other => if other.isPrefixOf place then some .directory else host.entry other }
  else .error "ENOTDIR"

/-! ## `ensureBranchWorkspace` -/

/-- `branchExists`. -/
def branchExists (directory : Place) (branchName : String) : Bool :=
  match host.runGit git fails .showRef directory with
  | .ok _ => branchName ∈ host.repository.branches
  | .error _ => false

/-- `findCheckedOutWorktree`. -/
def findCheckedOutWorktree (directory : Place) (branchName : String) :
    Except String (Option (List Char)) :=
  match host.runGit git fails .forEachRef directory with
  | .ok _ => .ok ((host.repository.checkedOut? branchName).map
      (fun worktree => PosixPath.absolute worktree.root))
  | .error stderr => .error stderr

/-- `assertNotCheckedOutElsewhere`. -/
def assertNotCheckedOutElsewhere (directory : Place) (branchName : String) (targetDir : List Char) :
    Except String Unit :=
  match host.findCheckedOutWorktree git fails directory branchName with
  | .error stderr => .error stderr
  | .ok (some checkedOutAt) =>
    if checkedOutAt ≠ targetDir then
      .error ("branch \"" ++ branchName ++ "\" is already checked out at " ++
        String.ofList checkedOutAt ++ ": a branch can only be checked out in one worktree")
    else .ok ()
  | .ok none => .ok ()

end RepoHost

/-- `startPointArgs`. -/
def startPointArgs : Option String → List String
  | none => []
  | some start => if Text.trimString start = "" then [] else [start]

/-- Whether `assertSafeBranchName` accepts a name. -/
def safeBranchName (branchName : String) : Bool :=
  Text.trimString branchName ≠ "" && branchName.toList.head? ≠ some '-' &&
    PosixPath.up ∉ branchName.toList.splitOn '/'

/-- `EnsureBranchWorkspaceParams`. The directory is absolute. -/
structure EnsureBranchWorkspaceParams where
  repoDirectory : List Char
  branch : SpawnBranch
  rooted : PosixPath.isAbsolute repoDirectory = true

structure BranchWorkspace where
  directory : List Char
  createdWorktree : Bool
deriving DecidableEq

/-- `.worktrees`. -/
def worktreesName : List Char := ".worktrees".toList

namespace EnsureBranchWorkspaceParams

variable (params : EnsureBranchWorkspaceParams)

/-- The directory of the worktree that is asked for. -/
def worktreeDir : List Char :=
  PosixPath.join [params.repoDirectory, worktreesName, params.branch.name.toList]

/-- The branch in the repository: it is made where it does not exist. -/
def branched (git : Git) (exists' : Bool) (repository : Repository Place String) :
    Option (Repository Place String) :=
  if exists' then some repository
  else if (startPointArgs params.branch.baseRef).all git.resolves then
    repository.create git.lawful params.branch.name
  else none

end EnsureBranchWorkspaceParams

/-- The result of a call, and what it leaves. -/
abbrev Called (α : Type) := Except String α × RepoHost

section calls

variable (git : Git) (fails : GitFailures) (host : RepoHost) (params : EnsureBranchWorkspaceParams)

/-- The branch is checked out in the directory itself. -/
def checkoutInPlace : Called BranchWorkspace :=
  let directory := PosixPath.segments host.cwd params.repoDirectory
  let exists' := host.branchExists git fails directory params.branch.name
  let asserted := if exists' then
      host.assertNotCheckedOutElsewhere git fails directory params.branch.name params.repoDirectory
    else .ok ()
  match asserted with
  | .error message => (.error message, host)
  | .ok () =>
    match host.runGit git fails .checkout directory with
    | .error stderr => (.error stderr, host)
    | .ok worktree =>
      match host.apply git .checkout ((params.branched git exists' host.repository).bind
        (fun repository => repository.checkout worktree.root params.branch.name)) with
      | .error stderr => (.error stderr, host)
      | .ok next => (.ok ⟨params.repoDirectory, false⟩, next)

/-- The worktree is added. Git takes an empty directory too, but does not meet one here. -/
def addWorktree (place : Place) (exists' : Bool) : Called BranchWorkspace :=
  match host.runGit git fails .worktreeAdd (PosixPath.segments host.cwd params.repoDirectory) with
  | .error stderr => (.error stderr, host)
  | .ok _ =>
    if host.entry place ≠ none then (.error (git.refusal .worktreeAdd), host)
    else
      match host.apply git .worktreeAdd ((params.branched git exists' host.repository).bind
        (fun repository => repository.add place params.branch.name)) with
      | .error stderr => (.error stderr, host)
      | .ok added =>
        match added.mkdir place with
        | .error message => (.error message, host)
        | .ok next => (.ok ⟨params.worktreeDir, true⟩, next)

/-- `ensureBranchWorkspace`. -/
def ensureBranchWorkspace : Called BranchWorkspace :=
  if !safeBranchName params.branch.name then
    (.error ("unsafe branch name: " ++ params.branch.name), host)
  else if !params.branch.createWorktree then checkoutInPlace git fails host params
  else
    let place := PosixPath.segments host.cwd params.worktreeDir
    if host.entry place = some .directory then (.ok ⟨params.worktreeDir, false⟩, host)
    else
      match host.mkdir (PosixPath.segments host.cwd (PosixPath.dirname params.worktreeDir)) with
      | .error message => (.error message, host)
      | .ok made =>
        let directory := PosixPath.segments host.cwd params.repoDirectory
        let exists' := made.branchExists git fails directory params.branch.name
        let asserted := if exists' then
            made.assertNotCheckedOutElsewhere git fails directory params.branch.name params.worktreeDir
          else .ok ()
        match asserted with
        | .error message => (.error message, made)
        | .ok () => addWorktree git fails made params place exists'

end calls

end Kvy.Cli.Daemon
