import Kvy.General.FileTree

/-!
# Paths that stay inside a root

Three checks compare a requested path with a root: of the files that are read for the web, of the
directories in which sessions are spawned, and of the directories that were registered. Each follows
the links on the way first, and each asks whether the way from the root begins with two dots.
-/

namespace Kvy.Cli.Daemon.WorkspacePath

open General PosixPath FileTree

/-- `startsWith`. -/
def startsWith (marker text : List Char) : Bool := marker.isPrefixOf text

/-- The way leads out, as far as the checks can see. -/
def leaves (relative : List Char) : Bool := startsWith "..".toList relative || isAbsolute relative

/-! ## `fsRead.ts` -/

/-- `resolveSafePath`. -/
def resolveSafePath (tree : FileTree) (worktree relativePath : List Char) :
    Except (List Char) (List Char) :=
  if isAbsolute relativePath then
    .error ("path must be relative to the worktree: ".toList ++ relativePath)
  else
    match tree.realpath worktree with
    | none => .error ("worktree not found: ".toList ++ worktree)
    | some resolvedWorktree =>
      let joined := resolve resolvedWorktree relativePath
      if leaves (relative (absolute tree.cwd) resolvedWorktree joined) then
        .error ("path escapes the worktree: ".toList ++ relativePath)
      else
        match tree.realpath joined with
        | none => .error ("file not found: ".toList ++ relativePath)
        | some resolved =>
          if leaves (relative (absolute tree.cwd) resolvedWorktree resolved) then
            .error ("path escapes the worktree: ".toList ++ relativePath)
          else .ok resolved

/-! ## `workspacePath.ts` -/

/-- The reasons of `ValidateSpawnWorkspaceResult`. -/
inductive SpawnWorkspaceRefusal where
  | notAbsolute
  | unknownWorkspace
  | notFound
  | notDirectory
  | outsideWorkspaceRoot
deriving DecidableEq

/-- The way from a root stays below it, as far as the checks can see. -/
def isInsideRoot (relative : List Char) : Bool :=
  relative = [] || (!startsWith "..".toList relative && !isAbsolute relative)

/-- `validateSpawnWorkspace`. -/
def validateSpawnWorkspace (tree : FileTree) (lookupRoot : List Char → Option (List Char))
    (workspaceId directory : List Char) : Except SpawnWorkspaceRefusal (List Char) :=
  if !isAbsolute directory then .error .notAbsolute
  else
    match lookupRoot workspaceId with
    | none => .error .unknownWorkspace
    | some root =>
      match tree.realpath root with
      | none => .error .unknownWorkspace
      | some realRoot =>
        match tree.realpath directory with
        | none => .error .notFound
        | some realDirectory =>
          if tree.stat realDirectory ≠ some .directory then .error .notDirectory
          else if !isInsideRoot (relative (absolute tree.cwd) realRoot realDirectory) then
            .error .outsideWorkspaceRoot
          else .ok realDirectory

/-! ## `registry.ts` -/

/-- `RegisteredWorkspaceEntry`. -/
structure RegisteredWorkspaceEntry where
  path : List Char
  displayName : Option (List Char)
  registeredAt : List Char
deriving DecidableEq

/-- `isWithinRegisteredWorkspace`, of the workspaces that the registry holds. -/
def isWithinRegisteredWorkspace (tree : FileTree) (workspaces : List RegisteredWorkspaceEntry)
    (directory : List Char) : Option RegisteredWorkspaceEntry :=
  match tree.realpath (resolve (absolute tree.cwd) directory) with
  | none => none
  | some real =>
    workspaces.find? fun entry => isInsideRoot (relative (absolute tree.cwd) entry.path real)

/-! ## What the checks see -/

/-- The first name below a root begins with two dots. -/
def DottedBelow (root target : List (List Char)) : Prop :=
  ∃ name rest, target = root ++ name :: rest ∧ startsWith "..".toList name = true

/-- Whether a way begins with two dots shows in its first part. -/
theorem starts_with_dots (name : List Char) (rest : List (List Char)) :
    startsWith "..".toList (slashed (name :: rest)) = startsWith "..".toList name := by
  have dots : "..".toList = ['.', '.'] := rfl
  cases rest with
  | nil => simp [slashed]
  | cons next rest =>
    have shape : slashed (name :: next :: rest) = name ++ '/' :: slashed (next :: rest) := by
      simp [slashed]
    rw [shape, dots]
    cases name with
    | nil => simp [startsWith, List.isPrefixOf]
    | cons first others => cases others <;> simp [startsWith, List.isPrefixOf]

/-- The way from a root to a target is seen to stay below the root just when the target does, unless
it begins with a dotted name. -/
theorem leaves_iff (cwd : List Char) {root target : List (List Char)}
    (rootPlain : ∀ part ∈ root, Plain part) (targetPlain : ∀ part ∈ target, Plain part) :
    leaves (relative cwd (absolute root) (absolute target)) = true ↔
      ¬ root <+: target ∨ DottedBelow root target := by
  rw [relative, segments_absolute rootPlain, segments_absolute targetPlain]
  by_cases inside : root <+: target
  · obtain ⟨rest, rfl⟩ := inside
    rw [between_append]
    cases rest with
    | nil => simp [leaves, startsWith, slashed, isAbsolute, DottedBelow]
    | cons name rest =>
      have plain := targetPlain name (by simp)
      have notRooted : isAbsolute (slashed (name :: rest)) = false := by
        obtain ⟨char, name, rfl⟩ := List.exists_cons_of_ne_nil plain.visible
        have other : char ≠ '/' := fun same => plain.whole (by simp [same])
        cases rest <;> simp [slashed, isAbsolute, other]
      rw [leaves, starts_with_dots, notRooted]
      simp [DottedBelow]
  · obtain ⟨rest, upwards⟩ := between_outside inside
    rw [upwards, leaves, starts_with_dots]
    simp [inside, startsWith, up]

/-- The check for spawns and the registry sees the same. -/
theorem is_inside_root_eq (relative : List Char) : isInsideRoot relative = !leaves relative := by
  cases relative with
  | nil => rfl
  | cons char relative => simp [isInsideRoot, leaves]

variable {tree : FileTree}

/-- A path leads to a place at or below a root. -/
def LeadsInside (tree : FileTree) (root : List (List Char)) (path : List Char)
    (target : List (List Char)) : Prop :=
  tree.locate path = some target ∧ root <+: target

/-- What a real path is. -/
theorem realpath_iff {path real : List Char} :
    tree.realpath path = some real ↔ ∃ place, tree.locate path = some place ∧ real = absolute place := by
  rw [realpath, Option.map_eq_some_iff]
  simp only [eq_comm]

/-- The way from a real root is seen to stay below just when it does and is not dotted. -/
theorem stays_iff {path : List Char} {root target : List (List Char)}
    (rootAt : tree.locate path = some root) (plain : ∀ part ∈ target, Plain part) :
    leaves (relative (absolute tree.cwd) (absolute root) (absolute target)) = false ↔
      root <+: target ∧ ¬ DottedBelow root target := by
  have seen := leaves_iff (absolute tree.cwd) (locate_real rootAt).plain plain
  rw [← Bool.not_eq_true, seen, not_or, not_not]

/-- When a file may be read. -/
theorem resolve_safe_path_ok {worktree relativePath real : List Char} :
    resolveSafePath tree worktree relativePath = .ok real ↔
      isAbsolute relativePath = false ∧ ∃ root target, tree.locate worktree = some root ∧
        root <+: segments (absolute root) relativePath ∧
        ¬ DottedBelow root (segments (absolute root) relativePath) ∧
        LeadsInside tree root (resolve (absolute root) relativePath) target ∧
        ¬ DottedBelow root target ∧ real = absolute target := by
  constructor
  · intro accepted
    unfold resolveSafePath at accepted
    split at accepted
    · cases accepted
    rename_i rooted
    split at accepted
    · cases accepted
    rename_i resolvedWorktree rootReal
    obtain ⟨root, rootAt, rfl⟩ := realpath_iff.mp rootReal
    have before := stays_iff rootAt (segments_plain (absolute root) relativePath)
    dsimp only at accepted
    split at accepted
    · cases accepted
    rename_i staysBefore
    split at accepted
    · cases accepted
    rename_i resolved targetReal
    obtain ⟨target, targetAt, rfl⟩ := realpath_iff.mp targetReal
    have after := stays_iff rootAt (locate_real targetAt).plain
    split at accepted
    · cases accepted
    rename_i staysAfter
    obtain ⟨joinedInside, joinedUndotted⟩ := before.mp (Bool.eq_false_iff.mpr staysBefore)
    obtain ⟨targetInside, targetUndotted⟩ := after.mp (Bool.eq_false_iff.mpr staysAfter)
    exact ⟨Bool.eq_false_iff.mpr rooted, root, target, rootAt, joinedInside, joinedUndotted,
      ⟨targetAt, targetInside⟩, targetUndotted, (Except.ok.inj accepted).symm⟩
  · rintro ⟨rooted, root, target, rootAt, joinedInside, joinedUndotted, ⟨targetAt, targetInside⟩,
      targetUndotted, rfl⟩
    have before := (stays_iff rootAt (segments_plain (absolute root) relativePath)).mpr
      ⟨joinedInside, joinedUndotted⟩
    have after := (stays_iff rootAt (locate_real targetAt).plain).mpr ⟨targetInside, targetUndotted⟩
    rw [← resolve] at before
    rw [resolveSafePath, if_neg (Bool.eq_false_iff.mp rooted), realpath_iff.mpr ⟨root, rootAt, rfl⟩]
    dsimp only
    rw [if_neg (Bool.eq_false_iff.mp before), realpath_iff.mpr ⟨target, targetAt, rfl⟩]
    exact if_neg (Bool.eq_false_iff.mp after)

/-- When a directory may be spawned in. -/
theorem validate_spawn_workspace_ok {lookupRoot : List Char → Option (List Char)}
    {workspaceId directory real : List Char} :
    validateSpawnWorkspace tree lookupRoot workspaceId directory = .ok real ↔
      isAbsolute directory = true ∧ ∃ registered root target, lookupRoot workspaceId = some registered ∧
        tree.locate registered = some root ∧ LeadsInside tree root directory target ∧
        tree.node target = some .directory ∧ ¬ DottedBelow root target ∧ real = absolute target := by
  constructor
  · intro accepted
    unfold validateSpawnWorkspace at accepted
    split at accepted
    · cases accepted
    rename_i rooted
    split at accepted
    · cases accepted
    rename_i registered known
    split at accepted
    · cases accepted
    rename_i realRoot rootReal
    obtain ⟨root, rootAt, rfl⟩ := realpath_iff.mp rootReal
    split at accepted
    · cases accepted
    rename_i realDirectory targetReal
    obtain ⟨target, targetAt, rfl⟩ := realpath_iff.mp targetReal
    rw [is_inside_root_eq, Bool.not_not, stat, locate_idempotent targetAt, Option.bind_some] at accepted
    split at accepted
    · cases accepted
    rename_i isDirectory
    split at accepted
    · cases accepted
    rename_i stays
    obtain ⟨inside, undotted⟩ :=
      (stays_iff rootAt (locate_real targetAt).plain).mp (Bool.eq_false_iff.mpr stays)
    exact ⟨by simpa using rooted, registered, root, target, known, rootAt, ⟨targetAt, inside⟩,
      not_not.mp isDirectory, undotted, (Except.ok.inj accepted).symm⟩
  · rintro ⟨rooted, registered, root, target, known, rootAt, ⟨targetAt, inside⟩, isDirectory, undotted,
      rfl⟩
    have stays := (stays_iff rootAt (locate_real targetAt).plain).mpr ⟨inside, undotted⟩
    simp [validateSpawnWorkspace, rooted, known, realpath, rootAt, targetAt, stat,
      locate_idempotent targetAt, isDirectory, is_inside_root_eq, stays]

/-- The place that a registered path names. -/
def RegisteredWorkspaceEntry.root (tree : FileTree) (entry : RegisteredWorkspaceEntry) :
    List (List Char) :=
  segments (absolute tree.cwd) entry.path

/-- A path that was registered as a real one names its root. -/
theorem registered_root {entry : RegisteredWorkspaceEntry} {root : List (List Char)}
    (rootAt : tree.locate entry.path = some root) (real : entry.path = absolute root) :
    entry.root tree = root := by
  rw [RegisteredWorkspaceEntry.root, real, segments_absolute (locate_real rootAt).plain]

/-- Which entries are seen around a directory. -/
theorem entry_seen_iff {path : List Char} {target : List (List Char)} (entry : RegisteredWorkspaceEntry)
    (targetAt : tree.locate path = some target) :
    isInsideRoot (relative (absolute tree.cwd) entry.path (absolute target)) = true ↔
      entry.root tree <+: target ∧ ¬ DottedBelow (entry.root tree) target := by
  have plain := segments_plain (absolute tree.cwd) entry.path
  have seen := leaves_iff (absolute tree.cwd) plain (locate_real targetAt).plain
  have resolved : relative (absolute tree.cwd) (absolute (segments (absolute tree.cwd) entry.path))
      (absolute target) = relative (absolute tree.cwd) entry.path (absolute target) := by
    rw [relative, segments_absolute plain, relative]
  rw [resolved] at seen
  rw [is_inside_root_eq, Bool.not_eq_true', ← Bool.not_eq_true, seen, not_or, not_not]
  rfl

/-- Which workspace a directory is found in. -/
theorem within_registered_iff {workspaces : List RegisteredWorkspaceEntry} {directory : List Char} :
    (isWithinRegisteredWorkspace tree workspaces directory = none ↔
      ∀ target, tree.locate (resolve (absolute tree.cwd) directory) = some target →
        ∀ entry ∈ workspaces, entry.root tree <+: target → DottedBelow (entry.root tree) target) ∧
    ∀ entry, isWithinRegisteredWorkspace tree workspaces directory = some entry →
      entry ∈ workspaces ∧ ∃ target,
        LeadsInside tree (entry.root tree) (resolve (absolute tree.cwd) directory) target := by
  cases targetAt : tree.locate (resolve (absolute tree.cwd) directory) with
  | none => simp [isWithinRegisteredWorkspace, realpath, targetAt]
  | some target =>
    have seen := fun entry => entry_seen_iff entry targetAt
    simp only [isWithinRegisteredWorkspace, realpath, targetAt, Option.map_some]
    constructor
    · rw [List.find?_eq_none]
      simp only [seen, not_and, not_not, Option.some.injEq, forall_eq']
    · intro entry found
      have held := List.find?_some found
      obtain ⟨inside, -⟩ := (seen entry).mp held
      exact ⟨List.mem_of_find?_eq_some found, target, targetAt, inside⟩

/-! ## The three checks -/

/-- A request for a file meets no dotted name below the worktree, as it is written and as it leads. -/
def ReadUndotted (tree : FileTree) (worktree relativePath : List Char) : Prop :=
  ∀ root, tree.locate worktree = some root →
    ¬ DottedBelow root (segments (absolute root) relativePath) ∧
    ∀ target, tree.locate (resolve (absolute root) relativePath) = some target → ¬ DottedBelow root target

/-- A path leads to no dotted name below a root. -/
def LeadsUndotted (tree : FileTree) (root : List (List Char)) (path : List Char) : Prop :=
  ∀ target, tree.locate path = some target → ¬ DottedBelow root target

/-- None of the checks accepts a path that leads out of its root. Where no name directly below the root
begins with two dots, a file is read just when its path is relative, does not climb out of the worktree
and leads to something in it; a session is spawned just in the directories below the known root; and a
directory is within a workspace just when it leads to a place below a registered one. -/
theorem containment_checks (tree : FileTree) :
    (∀ worktree relativePath,
      (∀ real, resolveSafePath tree worktree relativePath = .ok real → ∃ root target,
        tree.locate worktree = some root ∧
        LeadsInside tree root (resolve (absolute root) relativePath) target ∧ real = absolute target) ∧
      (ReadUndotted tree worktree relativePath → ∀ real,
        resolveSafePath tree worktree relativePath = .ok real ↔
          isAbsolute relativePath = false ∧ ∃ root target, tree.locate worktree = some root ∧
            root <+: segments (absolute root) relativePath ∧
            LeadsInside tree root (resolve (absolute root) relativePath) target ∧
            real = absolute target)) ∧
    (∀ lookupRoot workspaceId directory,
      (∀ real, validateSpawnWorkspace tree lookupRoot workspaceId directory = .ok real →
        ∃ registered root target, lookupRoot workspaceId = some registered ∧
          tree.locate registered = some root ∧ LeadsInside tree root directory target ∧
          real = absolute target) ∧
      ((∀ registered root, lookupRoot workspaceId = some registered →
          tree.locate registered = some root → LeadsUndotted tree root directory) → ∀ real,
        validateSpawnWorkspace tree lookupRoot workspaceId directory = .ok real ↔
          isAbsolute directory = true ∧ ∃ registered root target,
            lookupRoot workspaceId = some registered ∧ tree.locate registered = some root ∧
            LeadsInside tree root directory target ∧ tree.node target = some .directory ∧
            real = absolute target)) ∧
    (∀ workspaces directory,
      (∀ entry, isWithinRegisteredWorkspace tree workspaces directory = some entry →
        entry ∈ workspaces ∧ ∃ target,
          LeadsInside tree (entry.root tree) (resolve (absolute tree.cwd) directory) target) ∧
      ((∀ entry ∈ workspaces,
          LeadsUndotted tree (entry.root tree) (resolve (absolute tree.cwd) directory)) →
        ((isWithinRegisteredWorkspace tree workspaces directory).isSome ↔
          ∃ entry ∈ workspaces, ∃ target,
            LeadsInside tree (entry.root tree) (resolve (absolute tree.cwd) directory) target)) ∧
      ∀ entry ∈ workspaces, ∀ root, tree.locate entry.path = some root →
        entry.path = absolute root → entry.root tree = root) := by
  refine ⟨fun worktree relativePath => ⟨?_, ?_⟩, fun lookupRoot workspaceId directory => ⟨?_, ?_⟩,
    fun workspaces directory => ⟨within_registered_iff.2, ?_, ?_⟩⟩
  · intro real accepted
    obtain ⟨-, root, target, rootAt, -, -, inside, -, same⟩ := resolve_safe_path_ok.mp accepted
    exact ⟨root, target, rootAt, inside, same⟩
  · intro undotted real
    rw [resolve_safe_path_ok]
    constructor
    · rintro ⟨rooted, root, target, rootAt, joined, -, inside, -, same⟩
      exact ⟨rooted, root, target, rootAt, joined, inside, same⟩
    · rintro ⟨rooted, root, target, rootAt, joined, inside, same⟩
      obtain ⟨joinedUndotted, targetUndotted⟩ := undotted root rootAt
      exact ⟨rooted, root, target, rootAt, joined, joinedUndotted, inside,
        targetUndotted target inside.1, same⟩
  · intro real accepted
    obtain ⟨-, registered, root, target, known, rootAt, inside, -, -, same⟩ :=
      validate_spawn_workspace_ok.mp accepted
    exact ⟨registered, root, target, known, rootAt, inside, same⟩
  · intro undotted real
    rw [validate_spawn_workspace_ok]
    constructor
    · rintro ⟨rooted, registered, root, target, known, rootAt, inside, directory, -, same⟩
      exact ⟨rooted, registered, root, target, known, rootAt, inside, directory, same⟩
    · rintro ⟨rooted, registered, root, target, known, rootAt, inside, isDirectory, same⟩
      exact ⟨rooted, registered, root, target, known, rootAt, inside, isDirectory,
        undotted registered root known rootAt target inside.1, same⟩
  · intro undotted
    rw [← Option.ne_none_iff_isSome, Ne, within_registered_iff.1]
    constructor
    · intro found
      push Not at found
      obtain ⟨target, targetAt, entry, member, inside, -⟩ := found
      exact ⟨entry, member, target, targetAt, inside⟩
    · rintro ⟨entry, member, target, targetAt, inside⟩ nothing
      exact undotted entry member target targetAt (nothing target targetAt entry member inside)
  · exact fun entry _ root => registered_root

/-- A workspace `/w`, which holds two files and a link to the root, and a link `/a` to the workspace. -/
def sampleNode : List (List Char) → Option FileNode
  | [] => some .directory
  | [['w']] => some .directory
  | [['w'], ['f']] => some .file
  | [['w'], ['.', '.', 'f']] => some .file
  | [['w'], ['l']] => some (.link ['/'])
  | [['a']] => some (.link ['/', 'w'])
  | _ => none

/-- Where something stands in the sample. -/
theorem sample_places {place : List (List Char)} (standing : sampleNode place ≠ none) :
    place ∈ [[], [['w']], [['w'], ['f']], [['w'], ['.', '.', 'f']], [['w'], ['l']], [['a']]] := by
  unfold sampleNode at standing
  split at standing
  case h_7 => exact absurd rfl standing
  all_goals decide

/-- The sample as a tree. -/
def sampleTree : FileTree where
  node := sampleNode
  rooted := rfl
  nested place name standing := by
    have among := sample_places standing
    simp only [List.mem_cons, List.not_mem_nil, or_false] at among
    have init : place = (place ++ [name]).dropLast := List.dropLast_concat.symm
    obtain shape | shape | shape | shape | shape | shape := among <;>
      rw [init, shape] <;> rfl
  named place standing := by
    have names : ∀ place ∈ [[], [['w']], [['w'], ['f']], [['w'], ['.', '.', 'f']], [['w'], ['l']], [['a']]],
        ∀ name ∈ place, name ≠ [] ∧ (name ≠ here ∧ name ≠ up) ∧ '/' ∉ name := by decide
    intro name member
    obtain ⟨visible, below, whole⟩ := names place (sample_places standing) name member
    exact ⟨visible, below, whole⟩
  cwd := []
  working := rfl
  maxLinks := 40

/-- A file in the worktree is not read by its absolute path or through a link beside the worktree, and
one is read by a path that leads nowhere; no session is spawned in a file or by a relative path; a path
that was registered as a link has nothing within; and a file whose name begins with two dots is not
read. -/
theorem inside_not_accepted :
    sampleTree.locate "/w/f".toList = some [['w'], ['f']] ∧
      sampleTree.locate "/w".toList = some [['w']] ∧
      resolveSafePath sampleTree "/w".toList "/w/f".toList ≠ .ok "/w/f".toList ∧
      sampleTree.locate "/w/../a/f".toList = some [['w'], ['f']] ∧
      resolveSafePath sampleTree "/w".toList "../a/f".toList ≠ .ok "/w/f".toList ∧
      sampleTree.locate "/w/l/../f".toList = none ∧
      resolveSafePath sampleTree "/w".toList "l/../f".toList = .ok "/w/f".toList ∧
      validateSpawnWorkspace sampleTree some "/w".toList "/w/f".toList = .error .notDirectory ∧
      sampleTree.locate "w".toList = some [['w']] ∧
      validateSpawnWorkspace sampleTree some "/w".toList "w".toList = .error .notAbsolute ∧
      sampleTree.locate "/a".toList = some [['w']] ∧
      isWithinRegisteredWorkspace sampleTree [⟨"/a".toList, none, []⟩] "/w/f".toList = none ∧
      sampleTree.locate "/w/..f".toList = some [['w'], ['.', '.', 'f']] ∧
      resolveSafePath sampleTree "/w".toList "..f".toList ≠ .ok "/w/..f".toList := by
  decide +kernel

end Kvy.Cli.Daemon.WorkspacePath
