import Kvy.Cli.Daemon.GitWorktree
import Kvy.General.Runs

/-!
# Spawns and removals of worktrees

The removal of a worktree takes the name of its branch from its path. Spawns with a branch, removals,
and what people do in the worktrees themselves are interleaved.
-/

namespace Kvy.Cli.Daemon

open General General.Runs

/-- `WorktreeRemoveParams`. -/
structure WorktreeRemoveParams where
  worktree : List Char
  force : Bool
  deleteBranch : Bool

/-- `WorktreeRemoveResult`. -/
structure WorktreeRemoveResult where
  removed : Bool
  requiresForce : Option Bool
  branchDeleted : Option Bool
deriving DecidableEq

/-- Whether a text has another in it, in whatever case. -/
def mentions (text words : String) : Bool :=
  (Text.after? (words.toList.map Char.toLower) (text.toList.map Char.toLower)).isSome

/-- `REQUIRES_FORCE_RE`. -/
def requiresForce (message : String) : Bool :=
  mentions message "contains modified or untracked files" || mentions message "use --force"

namespace WorktreeRemoveParams

variable (params : WorktreeRemoveParams) (host : RepoHost)

/-- Where the worktree is. -/
def place : Place := PosixPath.segments host.cwd params.worktree

/-- What `resolveMainWorktreeRoot` finds in a worktree of the repository. -/
def mainRoot : List Char := PosixPath.dirname host.gitCommonDir

/-- The worktree that git removes. -/
def target : Place := PosixPath.segments (mainRoot host) params.worktree

/-- The branch whose name is the path of the worktree below `.worktrees`. -/
def branchName : String :=
  String.ofList (PosixPath.relative host.cwd (PosixPath.join [mainRoot host, worktreesName])
    (PosixPath.resolve host.cwd params.worktree))

end WorktreeRemoveParams

namespace RepoHost

variable (git : Git) (fails : GitFailures) (host : RepoHost)

/-- Without a worktree, and what is below its root. -/
def without (target : Place) : RepoHost := { host with
  repository := host.repository.remove target
  entry := fun other => if target.isPrefixOf other then none else host.entry other }

/-- The directory of the main worktree. -/
def mainPlace : Place := PosixPath.segments host.cwd (WorktreeRemoveParams.mainRoot host)

/-- Git removes no other worktree than a linked one. -/
def Linked (target : Place) : Prop :=
  target ∈ host.repository.worktrees.map Worktree.root ∧ target ≠ host.mainPlace

instance (target : Place) : Decidable (host.Linked target) := inferInstanceAs (Decidable (_ ∧ _))

/-- `git branch -D`. -/
def deleteBranch (branchName : String) : Option RepoHost :=
  match host.runGit git fails .branchDelete host.mainPlace with
  | .ok _ => (host.repository.delete branchName).map
      (fun repository => { host with repository := repository })
  | .error _ => none

end RepoHost

/-- What a removal that git refuses returns: it may be repeated with force, or has failed. -/
def removalRefused (host : RepoHost) (params : WorktreeRemoveParams) (stderr : String) :
    Called WorktreeRemoveResult :=
  if !params.force && requiresForce stderr then (.ok ⟨false, some true, none⟩, host)
  else (.error stderr, host)

/-- `removeWorktree`. -/
def removeWorktree (git : Git) (fails : GitFailures) (host : RepoHost) (authorized : Bool)
    (params : WorktreeRemoveParams) : Called WorktreeRemoveResult :=
  if !authorized then
    (.error ("worktree is not inside a registered workspace: " ++ String.ofList params.worktree), host)
  else if !(params.place host).contains worktreesName then
    (.error ("refusing to remove \"" ++ String.ofList params.worktree ++
      "\": it doesn't look like a Kvy-managed .worktrees/ directory"), host)
  else if host.entry (params.place host) = none then (.ok ⟨true, none, none⟩, host)
  else
    match host.runGit git fails .revParse (params.place host) with
    | .error stderr => (.error stderr, host)
    | .ok _ =>
      match host.runGit git fails .worktreeRemove host.mainPlace with
      | .error stderr => removalRefused host params stderr
      | .ok _ =>
        if host.Linked (params.target host) then
          let removed := host.without (params.target host)
          if !params.deleteBranch then (.ok ⟨true, none, none⟩, removed)
          else
            match removed.deleteBranch git fails (params.branchName host) with
            | some next => (.ok ⟨true, none, some true⟩, next)
            | none => (.ok ⟨true, none, some false⟩, removed)
        else removalRefused host params (git.refusal .worktreeRemove)

/-! ## Histories -/

/-- What happens in the repository: a call of one of the two functions; in a worktree, another branch is
checked out, a new one, or none; a branch is renamed. -/
inductive WorktreeEvent where
  | ensure (params : EnsureBranchWorkspaceParams) (fails : GitFailures)
  | remove (params : WorktreeRemoveParams) (authorized : Bool) (fails : GitFailures)
  | checkout (root : Place) (branch : String)
  | checkoutNew (root : Place) (branch : String)
  | detach (root : Place)
  | rename (branch name : String)

namespace RepoHost

variable (git : Git) (host next : RepoHost)

/-- A step of a history. -/
def step : WorktreeEvent → Option RepoHost
  | .ensure params fails => some (ensureBranchWorkspace git fails host params).2
  | .remove params authorized fails => some (removeWorktree git fails host authorized params).2
  | .checkout root branch =>
    (host.repository.checkout root branch).map (fun repository => { host with repository := repository })
  | .checkoutNew root branch =>
    ((host.repository.create git.lawful branch).bind (fun created => created.checkout root branch)).map
      (fun repository => { host with repository := repository })
  | .detach root => some { host with repository := host.repository.detach root }
  | .rename branch name =>
    (host.repository.rename git.lawful branch name).map
      (fun repository => { host with repository := repository })

/-- What is claimed of a step. A directory that is returned for a worktree is the root of one that has
the branch checked out; a removal deletes no branch but the one of the worktree that it removes. -/
def NamedOnly : WorktreeEvent → Prop
  | .ensure params fails => params.branch.createWorktree = true →
      ∀ workspace, (ensureBranchWorkspace git fails host params).1 = .ok workspace →
        next.repository.Has (PosixPath.segments host.cwd workspace.directory) params.branch.name
  | .remove params _ _ => params.deleteBranch = true →
      ∀ branch ∈ host.repository.branches, branch ∉ next.repository.branches →
        host.repository.Has (params.target host) branch ∧
          params.target host ∉ next.repository.worktrees.map Worktree.root
  | _ => True

/-- A removal gets as far as the branch: it is authorized, the path leads through `.worktrees` to a
directory of the repository, which is the root of a linked worktree, and no command fails for reasons of
its own. -/
structure Reaches (params : WorktreeRemoveParams) (authorized : Bool) (fails : GitFailures) : Prop where
  authorized : authorized = true
  below : worktreesName ∈ params.place host
  inside : ∃ worktree, host.runGit git fails .revParse (params.place host) = .ok worktree
  main : ∃ worktree, host.runGit git fails .worktreeRemove host.mainPlace = .ok worktree
  linked : host.Linked (params.target host)
  kept : ∃ worktree, (host.without (params.target host)).runGit git fails .branchDelete host.mainPlace =
    .ok worktree

/-- Where a worktree is asked for and its directory is there, it is the root of one that has the branch
checked out. Where a removal gets as far as the branch, and its name is that of one that no other worktree
has checked out, the removed worktree has it checked out. -/
def NamesAgree : WorktreeEvent → Prop
  | .ensure params _ => params.branch.createWorktree = true → safeBranchName params.branch.name = true →
      host.entry (PosixPath.segments host.cwd params.worktreeDir) = some .directory →
      host.repository.Has (PosixPath.segments host.cwd params.worktreeDir) params.branch.name
  | .remove params authorized fails => params.deleteBranch = true →
      host.Reaches git params authorized fails → params.branchName host ∈ host.repository.branches →
      host.repository.Free (params.target host) (params.branchName host) →
      host.repository.Has (params.target host) (params.branchName host)
  | _ => True

/-! ## Steps -/

variable {git host next} {fails : GitFailures}

theorem mkdir_repository {place : Place} (made : host.mkdir place = .ok next) :
    next.repository = host.repository ∧ next.cwd = host.cwd := by
  unfold mkdir at made
  split at made
  · cases made
    exact ⟨rfl, rfl⟩
  · cases made

/-- A worktree that is added has the branch checked out. -/
theorem addWorktree_has {params : EnsureBranchWorkspaceParams} {place : Place} {exists' : Bool}
    {workspace : BranchWorkspace}
    (called : addWorktree git fails host params place exists' = (.ok workspace, next)) :
    next.repository.Has place params.branch.name ∧ workspace.directory = params.worktreeDir := by
  unfold addWorktree at called
  split at called
  · cases called
  · split at called
    · cases called
    · split at called
      · cases called
      · next added applied =>
        split at called
        · cases called
        · next made =>
          cases called
          refine ⟨?_, rfl⟩
          rw [(mkdir_repository made).1]
          unfold apply at applied
          split at applied
          · next repository changed =>
            cases applied
            obtain ⟨branched, -, done⟩ := Option.bind_eq_some_iff.mp changed
            exact Repository.has_add done
          · cases applied

/-- A worktree that is asked for has the branch checked out, if its directory is not there before. -/
theorem ensure_named (params : EnsureBranchWorkspaceParams) :
    host.NamedOnly git (ensureBranchWorkspace git fails host params).2 (.ensure params fails) ↔
      host.NamesAgree git (.ensure params fails) := by
  unfold NamedOnly NamesAgree
  refine imp_congr_right (fun worktree => ?_)
  generalize called : ensureBranchWorkspace git fails host params = result
  obtain ⟨outcome, next⟩ := result
  unfold ensureBranchWorkspace at called
  cases safe : safeBranchName params.branch.name with
  | false =>
    rw [safe] at called
    cases called
    simp
  | true =>
    simp only [safe, worktree, Bool.not_true, Bool.false_eq_true, ↓reduceIte] at called
    by_cases there : host.entry (PosixPath.segments host.cwd params.worktreeDir) = some .directory
    · rw [if_pos there] at called
      cases called
      simp [there]
    · rw [if_neg there] at called
      simp only [there, false_implies, implies_true, iff_true]
      intro workspace returned
      subst returned
      split at called
      · cases called
      · next made created =>
        obtain ⟨-, same⟩ := mkdir_repository created
        split at called
        · cases called
        · obtain ⟨has, returned⟩ := addWorktree_has called
          rw [returned]
          exact has

/-- A command runs in a directory that is there. -/
theorem runGit_there {command : GitCommand} {directory : Place} {worktree : Worktree Place String}
    (ran : host.runGit git fails command directory = .ok worktree) :
    host.entry directory = some .directory := by
  unfold runGit at ran
  split at ran
  · cases ran
  · split at ran
    · assumption
    · cases ran

theorem deleteBranch_eq_some {branchName : String} : host.deleteBranch git fails branchName = some next ↔
    (∃ worktree, host.runGit git fails .branchDelete host.mainPlace = .ok worktree) ∧
      ∃ repository, host.repository.delete branchName = some repository ∧
        next = { host with repository := repository } := by
  unfold deleteBranch
  cases host.runGit git fails .branchDelete host.mainPlace with
  | error stderr => simp
  | ok worktree => simp [eq_comm]

/-- A removal that gets as far as the branch deletes it, where it exists and no other worktree has it
checked out. -/
theorem remove_reaches {params : WorktreeRemoveParams} {authorized : Bool}
    (deletes : params.deleteBranch = true) (reaches : host.Reaches git params authorized fails)
    (exists' : params.branchName host ∈ host.repository.branches)
    (free : host.repository.Free (params.target host) (params.branchName host)) :
    (removeWorktree git fails host authorized params).2.repository.branches =
        host.repository.branches.filter (fun other => other ≠ params.branchName host) ∧
      (removeWorktree git fails host authorized params).2.repository.worktrees =
        (host.repository.remove (params.target host)).worktrees := by
  obtain ⟨inside, ran⟩ := reaches.inside
  obtain ⟨main, ran'⟩ := reaches.main
  have there : host.entry (params.place host) ≠ none := by
    rw [runGit_there ran]
    simp
  have deleted : (host.without (params.target host)).deleteBranch git fails (params.branchName host) =
      some { host.without (params.target host) with
        repository := { host.repository.remove (params.target host) with
          branches := host.repository.branches.filter
            (fun other => other ≠ params.branchName host) } } :=
    deleteBranch_eq_some.mpr ⟨reaches.kept, _,
      Repository.delete_eq_some.mpr ⟨exists', Repository.idle_remove.mpr free, rfl⟩, rfl⟩
  simp only [removeWorktree, reaches.authorized, List.contains_iff_mem.mpr reaches.below, there, ran, ran', reaches.linked,
    deletes, deleted, Bool.not_true, Bool.false_eq_true, ↓reduceIte, and_self]

/-- Elsewhere a removal deletes no branch. -/
theorem remove_keeps {params : WorktreeRemoveParams} {authorized : Bool}
    (stops : ¬ (host.Reaches git params authorized fails ∧
      params.branchName host ∈ host.repository.branches ∧
      host.repository.Free (params.target host) (params.branchName host))) :
    (removeWorktree git fails host authorized params).2.repository.branches =
      host.repository.branches := by
  have refused : ∀ stderr, (removalRefused host params stderr).2 = host := by
    intro stderr
    unfold removalRefused
    split <;> rfl
  unfold removeWorktree
  cases may : authorized with
  | false => rfl
  | true =>
    by_cases below : (params.place host).contains worktreesName = true
    swap
    · simp only [below, Bool.not_true, Bool.not_false, Bool.false_eq_true, ↓reduceIte]
    by_cases gone : host.entry (params.place host) = none
    · simp only [below, gone, Bool.not_true, Bool.false_eq_true, ↓reduceIte]
    simp only [below, gone, Bool.not_true, Bool.false_eq_true, ↓reduceIte]
    cases inside : host.runGit git fails .revParse (params.place host) with
    | error stderr => rfl
    | ok _ =>
      cases main : host.runGit git fails .worktreeRemove host.mainPlace with
      | error stderr => simp only [refused]
      | ok _ =>
        by_cases linked : host.Linked (params.target host)
        swap
        · simp only [linked, ↓reduceIte, refused]
        simp only [linked, ↓reduceIte]
        split
        · rfl
        · cases deleted : (host.without (params.target host)).deleteBranch git fails
              (params.branchName host) with
          | none => rfl
          | some next =>
            -- the branch is deleted, so the removal has got that far
            obtain ⟨kept, repository, done, -⟩ := deleteBranch_eq_some.mp deleted
            obtain ⟨exists', idle, -⟩ := Repository.delete_eq_some.mp done
            exact absurd ⟨⟨may, List.contains_iff_mem.mp below, ⟨_, inside⟩, ⟨_, main⟩, linked, kept⟩, exists',
              Repository.idle_remove.mp idle⟩ stops

/-- A removal deletes no other branch exactly where the names agree. -/
theorem remove_named (params : WorktreeRemoveParams) (authorized : Bool) :
    host.NamedOnly git (removeWorktree git fails host authorized params).2
        (.remove params authorized fails) ↔
      host.NamesAgree git (.remove params authorized fails) := by
  refine imp_congr_right (fun deletes => ?_)
  by_cases goes : host.Reaches git params authorized fails ∧
      params.branchName host ∈ host.repository.branches ∧
      host.repository.Free (params.target host) (params.branchName host)
  · obtain ⟨reaches, exists', free⟩ := goes
    obtain ⟨branches, worktrees⟩ := remove_reaches deletes reaches exists' free
    rw [branches, worktrees]
    constructor
    · intro own _ _ _
      exact (own (params.branchName host) exists' (by simp)).1
    · intro agree branch was deleted
      have same : branch = params.branchName host := by
        by_contra differs
        exact deleted (List.mem_filter.mpr ⟨was, by simpa using differs⟩)
      subst same
      refine ⟨agree reaches exists' free, ?_⟩
      simp [Repository.remove, Keyed.delete]
  · rw [remove_keeps goes]
    constructor
    · intro _ reaches exists' free
      exact absurd ⟨reaches, exists', free⟩ goes
    · intro _ branch was deleted
      exact absurd was deleted

/-- In a history, every call acts on the branch that it names exactly where the names agree at every
call. -/
theorem named_only_iff (git : Git) (host : RepoHost) (events : List WorktreeEvent) :
    Always (step git) (fun host event next => host.NamedOnly git next event) host events ↔
      Always (step git) (fun host event _ => host.NamesAgree git event) host events := by
  refine always_congr (fun _ => True) _ _ (fun _ _ _ _ _ => trivial) ?_ events trivial
  intro host event next _ taken
  cases event with
  | ensure params fails =>
    obtain rfl := Option.some.inj taken
    exact ensure_named params
  | remove params authorized fails =>
    obtain rfl := Option.some.inj taken
    exact remove_named params authorized
  | checkout _ _ | checkoutNew _ _ | detach _ | rename _ _ => exact Iff.rfl

/-- A directory with one worktree. -/
def oneWorktree : RepoHost where
  repository := {
    branches := ["main"]
    worktrees := [⟨[['r']], some "main"⟩]
    distinct := by decide
    exclusive := by decide }
  entry := fun place => if place = [] ∨ place = [['r']] then some .directory else none
  gitCommonDir := "/r/.git".toList
  cwd := ['/']

/-- Git, where every new branch is lawful. -/
def plainGit : Git := ⟨fun _ _ => true, fun _ => true, fun _ => "fatal"⟩

/-- A request for a worktree below the directory. -/
def spawnOn (branchName : String) : EnsureBranchWorkspaceParams :=
  ⟨"/r".toList, ⟨branchName, true, none⟩, by decide⟩

/-- A worktree for `a/b` makes the directory that is then returned for `a`. -/
theorem nested_name_returned :
    ¬ ∀ git host events,
      Always (step git) (fun host event next => host.NamedOnly git next event) host events := by
  intro always
  have named := ((always plainGit oneWorktree
    [.ensure (spawnOn "a/b") (fun _ => none), .ensure (spawnOn "a") (fun _ => none)] _ rfl).2 _ rfl).1
  have has := named rfl ⟨"/r/.worktrees/a".toList, false⟩ (by decide)
  exact absurd has (by decide)

end RepoHost

/-- The directory that a spawn makes for a branch of plain parts gives the name of the branch back. -/
theorem branchName_worktreeDir {host : RepoHost} {params : EnsureBranchWorkspaceParams}
    {root parts : List (List Char)} (plain : ∀ part ∈ root ++ parts, PosixPath.Plain part)
    (main : WorktreeRemoveParams.mainRoot host = PosixPath.absolute root)
    (at' : params.repoDirectory = PosixPath.absolute root) (some' : parts ≠ [])
    (name : params.branch.name.toList = PosixPath.slashed parts) (force deleteBranch : Bool) :
    WorktreeRemoveParams.branchName ⟨params.worktreeDir, force, deleteBranch⟩ host =
      params.branch.name := by
  have above : ∀ part ∈ root, PosixPath.Plain part :=
    fun part member => plain part (List.mem_append_left parts member)
  have below : ∀ part ∈ parts, PosixPath.Plain part :=
    fun part member => plain part (List.mem_append_right root member)
  have dot : PosixPath.Plain worktreesName := ⟨by decide, by decide, by decide⟩
  have dots : ∀ part ∈ [worktreesName], PosixPath.Plain part := by simpa using dot
  have through : ∀ part ∈ root ++ [worktreesName], PosixPath.Plain part := by
    intro part member
    exact (List.mem_append.mp member).elim (above part) (dots part)
  have container : PosixPath.join [PosixPath.absolute root, worktreesName] =
      PosixPath.absolute (root ++ [worktreesName]) := by
    have joined := PosixPath.join_absolute [[worktreesName]] above
      (by simpa using dot) (by simp)
    simpa [PosixPath.slashed] using joined
  have directory : params.worktreeDir =
      PosixPath.absolute ((root ++ [worktreesName]) ++ parts) := by
    have joined := PosixPath.join_absolute [[worktreesName], parts] above
      (by simpa [some', dot] using below) (by simp)
    rw [EnsureBranchWorkspaceParams.worktreeDir, at', name]
    simpa [PosixPath.slashed] using joined
  have whole : ∀ part ∈ (root ++ [worktreesName]) ++ parts, PosixPath.Plain part := by
    intro part member
    exact (List.mem_append.mp member).elim (through part) (below part)
  rw [WorktreeRemoveParams.branchName, main, container, directory, PosixPath.resolve_absolute whole,
    PosixPath.relative_absolute whole, ← name, String.ofList_toList]

/-- The name `a/b` comes back from the directory of its worktree. -/
theorem nested_name_restored :
    WorktreeRemoveParams.branchName ⟨(RepoHost.spawnOn "a/b").worktreeDir, false, true⟩
      RepoHost.oneWorktree = "a/b" :=
  have plain : ∀ part ∈ [['r']] ++ [['a'], ['b']], PosixPath.Plain part := by
    simp only [List.cons_append, List.nil_append, List.forall_mem_cons]
    exact ⟨⟨by decide, by decide, by decide⟩, ⟨by decide, by decide, by decide⟩,
      ⟨by decide, by decide, by decide⟩, fun _ none => absurd none List.not_mem_nil⟩
  branchName_worktreeDir plain (by decide) (by decide) (by simp) (by decide) false true

end Kvy.Cli.Daemon
