import Mathlib.Logic.Function.Basic

/-!
# The run state of the directories

One file holds, for each directory, the run process and the setup run that were recorded last. Updates of
the file come one after the other, and each reads the whole file and writes it again; a file that cannot
be read counts as empty.
-/

namespace Kvy.Cli.Daemon

open Function

inductive RunLaunchMethod where
  | tmux
  | detached
deriving DecidableEq

/-- `RunEntry`. -/
structure RunEntry where
  pid : Nat
  method : RunLaunchMethod
  tmuxSessionName : Option String
  startedAt : Nat
  logFile : String
  script : String
deriving DecidableEq

inductive SetupState where
  | running
  | succeeded
  | failed
deriving DecidableEq

/-- `SetupEntry`. -/
structure SetupEntry where
  state : SetupState
  exitCode : Option Int
  pid : Option Nat
  startedAt : Nat
  finishedAt : Option Nat
  logFile : String
deriving DecidableEq

/-- `DirectoryRunState`. -/
structure DirectoryRunState where
  run : Option RunEntry := none
  setup : Option SetupEntry := none
deriving DecidableEq

/-- The entries of the file, by the resolved paths of the directories. -/
abbrev RunStates := String → DirectoryRunState

namespace RunStates

/-- `readRunState`. -/
def readRunState (states : RunStates) (readable : Bool) : RunStates :=
  if readable then states else fun _ => {}

/-- `readDirectoryRunState`. -/
def readDirectoryRunState (states : RunStates) (readable : Bool) (directoryKey : String) :
    DirectoryRunState :=
  states.readRunState readable directoryKey

/-- `updateDirectoryRunState`, once it is its turn: what the patch has replaces what was there. -/
def updateDirectoryRunState (states : RunStates) (readable : Bool) (directoryKey : String)
    (patch : DirectoryRunState) : RunStates :=
  let all := states.readRunState readable
  update all directoryKey
    ⟨patch.run <|> (all directoryKey).run, patch.setup <|> (all directoryKey).setup⟩

/-- `clearRunEntry`, once it is its turn. Nothing is written where there is nothing to clear. -/
def clearRunEntry (states : RunStates) (readable : Bool) (directoryKey : String) : RunStates :=
  let all := states.readRunState readable
  if (all directoryKey).run = none then states
  else update all directoryKey { all directoryKey with run := none }

variable (states : RunStates)

@[simp] theorem readRunState_true : states.readRunState true = states := rfl

/-- A run process is cleared in one directory only. -/
theorem run_clear (directoryKey other : String) :
    (states.clearRunEntry true directoryKey other).run =
      if other = directoryKey then none else (states other).run := by
  unfold clearRunEntry
  by_cases same : other = directoryKey
  · subst same
    by_cases empty : (states other).run = none <;> simp [empty]
  · by_cases empty : (states directoryKey).run = none
    · simp [empty, same]
    · simp [empty, same]

/-- A setup run is recorded in one directory only. -/
theorem setup_update (directoryKey other : String) (entry : SetupEntry) :
    (states.updateDirectoryRunState true directoryKey { setup := some entry } other).setup =
      if other = directoryKey then some entry else (states other).setup := by
  unfold updateDirectoryRunState
  by_cases same : other = directoryKey
  · simp [same]
  · simp [same]

end RunStates

end Kvy.Cli.Daemon
