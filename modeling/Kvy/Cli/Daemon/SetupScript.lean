import Kvy.Cli.Daemon.RunStateStore
import Kvy.General.Runs

/-!
# The setup script of a directory

A call reads what is recorded for the directory, starts the script unless it already runs, records that,
and only then listens to the child; the end of the script is recorded when the child says so. Updates of
the run state wait for each other in a queue. Calls, updates and the events of the children are
interleaved. Runs are numbered by the order in which they are spawned.
-/

namespace Kvy.Cli.Daemon

open General.Runs Function

/-! ## Calls -/

/-- `RunSetupScriptParams`. -/
structure RunSetupScriptParams where
  workspaceRoot : String
  directory : String

/-- `RunSetupScriptResult`. -/
structure RunSetupScriptResult where
  started : Bool
  alreadyRunning : Option Bool
deriving DecidableEq

/-- What the call asks the file system. -/
structure SetupPaths where
  resolveWorkspaceKey : String → String
  setupLogFilePath : String → String

/-- Where a call is, by the step it does next. In `updating` it waits for its turn in the queue. -/
inductive SetupPhase where
  | absent
  | configuring (params : RunSetupScriptParams)
  | resolving (directory : String)
  | reading (directoryKey : String)
  | checking (directoryKey : String) (persisted : Option SetupEntry)
  | creating (directoryKey : String) (startedAt : Nat)
  | updating
  | returned (result : RunSetupScriptResult)

/-- How a spawn comes out: it throws; it returns a child that could not be started and will say so; it
returns a child that runs. -/
inductive SpawnOutcome where
  | throws
  | fails
  | runs (pid : Nat)

/-- What a step of a call meets: whether an awaited operation rejects, whether the file of the run state
can be read, the configured script, whether a process of others has the pid that is probed, the time, and
how the spawn comes out. -/
structure SetupAnswers where
  failure : Bool
  readable : Bool
  setupScript : Option String
  outside : Bool
  now : Nat
  spawn : SpawnOutcome

/-- The child of a run, and what it has said of itself. -/
structure SetupChild where
  directory : String
  startedAt : Nat
  pid : Option Nat
  alive : Bool
  errored : Bool
  closed : Bool

/-- An update that waits for its turn: of the call that waits for it, or of an event of the child. -/
structure SetupWrite where
  directory : String
  run : Nat
  call : Option Nat
  entry : SetupEntry

/-- The recorded state and who wrote it; the calls; the runs with their children, those whose listeners
are attached, and the latest of each directory; the updates that wait; whether an event without a listener
has ended the daemon. -/
structure SetupMachine where
  states : RunStates
  author : String → Option Nat
  phase : Nat → SetupPhase
  calls : Nat
  child : Nat → Option SetupChild
  attached : Nat → Bool
  latest : String → Option Nat
  runs : Nat
  queue : List SetupWrite
  crashed : Bool

/-- A call; its next step; the next update; the end of a child; the events of a child. -/
inductive SetupEvent where
  | request (params : RunSetupScriptParams)
  | advance (call : Nat) (answers : SetupAnswers)
  | write (failure readable : Bool)
  | exit (run : Nat)
  | error (run now : Nat)
  | close (run : Nat) (code : Option Int) (now : Nat)

namespace SetupMachine

variable (paths : SetupPaths) (machine : SetupMachine)

def goOn (call : Nat) (phase : SetupPhase) : SetupMachine :=
  { machine with phase := update machine.phase call phase }

/-- `isAlive`. -/
def isAlive (pid : Nat) (outside : Bool) : Bool :=
  outside || (List.range machine.runs).any (fun run =>
    (machine.child run).any (fun child => child.alive && child.pid = some pid))

/-- Whether the recorded run still goes on. -/
def alreadyRunning (persisted : Option SetupEntry) (outside : Bool) : Bool :=
  persisted.any (fun setup => setup.state = .running &&
    setup.pid.any (fun pid => machine.isAlive pid outside))

/-- A run is spawned, and the update that records it is put in the queue. -/
def launch (call : Nat) (directoryKey : String) (child : Option SetupChild) (entry : SetupEntry) :
    SetupMachine :=
  { machine.goOn call .updating with
    child := update machine.child machine.runs child
    latest := update machine.latest directoryKey (some machine.runs)
    runs := machine.runs + 1
    queue := machine.queue ++ [⟨directoryKey, machine.runs, some call, entry⟩] }

/-- The spawn of a call. -/
def spawn (call : Nat) (directoryKey : String) (startedAt : Nat) (answers : SetupAnswers) :
    SetupMachine :=
  let logFile := paths.setupLogFilePath directoryKey
  match answers.spawn with
  | .throws => machine.launch call directoryKey none
      ⟨.failed, none, none, startedAt, some answers.now, logFile⟩
  | .fails => machine.launch call directoryKey
      (some ⟨directoryKey, startedAt, none, false, false, false⟩)
      ⟨.running, none, none, startedAt, none, logFile⟩
  | .runs pid => machine.launch call directoryKey
      (some ⟨directoryKey, startedAt, some pid, true, false, false⟩)
      ⟨.running, none, some pid, startedAt, none, logFile⟩

/-- The next step of `runSetupScript`. What rejects is caught. -/
def advance (call : Nat) (answers : SetupAnswers) : Option SetupMachine :=
  match machine.phase call with
  | .configuring params =>
    if answers.failure then some (machine.goOn call (.returned ⟨false, none⟩))
    else match answers.setupScript with
      | none | some "" => some (machine.goOn call (.returned ⟨false, none⟩))
      | some _ => some (machine.goOn call (.resolving params.directory))
  | .resolving directory => some (machine.goOn call (.reading (paths.resolveWorkspaceKey directory)))
  | .reading directoryKey => some (machine.goOn call (.checking directoryKey
      (machine.states.readDirectoryRunState answers.readable directoryKey).setup))
  | .checking directoryKey persisted =>
    if machine.alreadyRunning persisted answers.outside then
      some (machine.goOn call (.returned ⟨false, some true⟩))
    else some (machine.goOn call (.creating directoryKey answers.now))
  | .creating directoryKey startedAt =>
    if answers.failure then some (machine.goOn call (.returned ⟨false, none⟩))
    else some (machine.spawn paths call directoryKey startedAt answers)
  | _ => none

/-- A call whose update is done goes on: it attaches the listeners of its child, if the update was
written. -/
def resume (write : SetupWrite) (failure : Bool) : SetupMachine :=
  match write.call with
  | none => machine
  | some call =>
    let started := !failure && (machine.child write.run).isSome
    { machine.goOn call (.returned ⟨started, none⟩) with
      attached := if started then update machine.attached write.run true else machine.attached }

/-- The update whose turn it is. -/
def write (failure readable : Bool) : Option SetupMachine :=
  match machine.queue with
  | [] => none
  | write :: queue =>
    let written := if failure then machine else { machine with
      states := machine.states.updateDirectoryRunState readable write.directory
        { setup := some write.entry }
      author := update machine.author write.directory (some write.run) }
    some { written.resume write failure with queue := queue }

/-- The update that an event of a child asks for. -/
def record (run : Nat) (child : SetupChild) (state : SetupState) (exitCode : Option Int) (now : Nat) :
    SetupWrite :=
  ⟨child.directory, run, none,
    ⟨state, exitCode, none, child.startedAt, some now, paths.setupLogFilePath child.directory⟩⟩

/-- A step. -/
def step (event : SetupEvent) : Option SetupMachine :=
  if machine.crashed then none
  else match event with
  | .request params => some { machine.goOn machine.calls (.configuring params) with
      calls := machine.calls + 1 }
  | .advance call answers => machine.advance paths call answers
  | .write failure readable => machine.write failure readable
  | .exit run => (machine.child run).bind (fun child =>
      if child.alive then
        some { machine with child := update machine.child run (some { child with alive := false }) }
      else none)
  | .error run now => (machine.child run).bind (fun child =>
      if child.pid = none ∧ child.errored = false ∧ child.closed = false then
        let said := { machine with
          child := update machine.child run (some { child with errored := true }) }
        if machine.attached run then
          some { said with queue := machine.queue ++ [record paths run child .failed none now] }
        else some { said with crashed := true }
      else none)
  | .close run code now => (machine.child run).bind (fun child =>
      if child.alive = false ∧ child.closed = false ∧ (child.pid = none → child.errored = true) then
        let said := { machine with
          child := update machine.child run (some { child with closed := true }) }
        if machine.attached run then
          some { said with queue := machine.queue ++
            [record paths run child (if code = some 0 then .succeeded else .failed) code now] }
        else some said
      else none)

/-! ## What is claimed -/

/-- The setup that is recorded for a directory is over, and that of a run that started at some time. -/
def Finished (directory : String) (startedAt : Nat) : Prop :=
  ∃ entry ∈ (machine.states directory).setup, entry.state ≠ .running ∧ entry.startedAt = startedAt

/-- Once the child of the latest run of a directory has closed and its updates are done, the end of that
run is recorded; at most one child of a directory runs. -/
structure Settles : Prop where
  finished : ∀ directory, ∀ run ∈ machine.latest directory, ∀ child ∈ machine.child run,
    child.closed = true → (∀ write ∈ machine.queue, write.directory ≠ directory) →
    machine.Finished directory child.startedAt
  single : ∀ first second, ∀ one ∈ machine.child first, ∀ other ∈ machine.child second,
    one.alive = true → other.alive = true → one.directory = other.directory → first = second

/-- An event of a child comes when its listener is attached; an update of an older run does not replace
what a newer one has written. -/
def Heard : SetupEvent → Prop
  | .error run _ | .close run _ _ => machine.attached run = true
  | .write failure _ => ∀ write ∈ machine.queue.head?, write.call = none → failure = false →
      ∀ written ∈ machine.author write.directory, written ≤ write.run
  | _ => True

/-- A child speaks when the update that records its run is done; an update of a run with a child is written,
to a file that can be read; a script is spawned when the earlier children of the directory have closed. -/
def InOrder : SetupEvent → Prop
  | .error run _ | .close run _ _ => ∀ write ∈ machine.queue, write.run = run → write.call = none
  | .write failure readable => (failure = false → readable = true) ∧
      ∀ write ∈ machine.queue.head?, (machine.child write.run).isSome → failure = false
  | .advance call answers => ∀ directoryKey startedAt, machine.phase call = .creating directoryKey startedAt →
      answers.failure = false → ∀ run, ∀ child ∈ machine.child run, child.directory = directoryKey →
        child.closed = true
  | _ => True

/-! ## What holds in every run -/

/-- Runs are numbered as they are spawned. No update belongs to a run after the latest of its directory;
updates of a directory wait in the order of its runs, and none replaces what a newer run has written. -/
structure Numbered (machine : SetupMachine) : Prop where
  numbered : ∀ run, machine.runs ≤ run → machine.child run = none ∧ machine.attached run = false
  known : ∀ directory, ∀ last ∈ machine.latest directory, last < machine.runs
  queued : ∀ write ∈ machine.queue, ∃ last ∈ machine.latest write.directory, write.run ≤ last
  authored : ∀ directory, ∀ written ∈ machine.author directory, ∃ last ∈ machine.latest directory,
    written ≤ last
  newest : ∀ write ∈ machine.queue, ∀ written ∈ machine.author write.directory, written ≤ write.run
  order : machine.queue.Pairwise (fun first second => (second.call ≠ none → first.run < second.run) ∧
    (first.directory = second.directory → first.run ≤ second.run))

/-- A child that has not closed is of the latest run of its directory, and one that has closed does not
run. -/
structure Homed (machine : SetupMachine) : Prop where
  home : ∀ directory, ∀ run ∈ machine.latest directory, ∀ child ∈ machine.child run,
    child.directory = directory
  unclosed : ∀ run, ∀ child ∈ machine.child run, child.closed = false →
    machine.latest child.directory = some run
  ended : ∀ run, ∀ child ∈ machine.child run, child.closed = true → child.alive = false
  own : ∀ write ∈ machine.queue, ∀ child ∈ machine.child write.run,
    write.directory = child.directory ∧ write.entry.startedAt = child.startedAt

/-- Listeners are attached when the update of the call is done; from then on the entry is of the run. Once
its child has closed the end is recorded, or waits to be. -/
structure Followed (machine : SetupMachine) : Prop where
  events : ∀ write ∈ machine.queue, write.call = none →
    machine.attached write.run = true ∧ write.entry.state ≠ .running
  joined : ∀ run, ∀ child ∈ machine.child run, machine.attached run = true ∨
    ∃ write ∈ machine.queue, write.run = run ∧ write.call ≠ none
  passed : ∀ run, machine.attached run = true → (∃ child, machine.child run = some child) ∧
    ∀ write ∈ machine.queue, write.call ≠ none → run < write.run
  written : ∀ directory, ∀ run ∈ machine.latest directory, machine.attached run = true →
    machine.author directory = some run ∧
      ∃ entry ∈ (machine.states directory).setup, ∀ child ∈ machine.child run,
        entry.startedAt = child.startedAt
  heard : ∀ run, ∀ child ∈ machine.child run, child.closed = true → machine.attached run = true
  finished : ∀ directory, ∀ run ∈ machine.latest directory, ∀ child ∈ machine.child run,
    child.closed = true → (∃ write ∈ machine.queue, write.run = run ∧ write.call = none) ∨
      machine.Finished directory child.startedAt

/-- What holds of the runs and their updates, of the children, and of what is recorded. -/
structure Sound (machine : SetupMachine) : Prop extends Numbered machine, Homed machine, Followed machine

variable {paths : SetupPaths} {machine next : SetupMachine}

/-- What holds does not depend on where the calls are. -/
theorem Sound.calls (sound : Sound machine) (phase : Nat → SetupPhase) (calls : Nat) :
    Sound { machine with phase := phase, calls := calls } :=
  ⟨⟨sound.numbered, sound.known, sound.queued, sound.authored, sound.newest, sound.order⟩,
    ⟨sound.home, sound.unclosed, sound.ended, sound.own⟩,
    ⟨sound.events, sound.joined, sound.passed, sound.written, sound.heard, sound.finished⟩⟩

variable {write : SetupWrite}

/-- An update belongs to a run that was spawned. -/
theorem Sound.write_known (sound : Sound machine) (waits : write ∈ machine.queue) :
    write.run < machine.runs := by
  obtain ⟨last, isLast, before⟩ := sound.queued write waits
  exact Nat.lt_of_le_of_lt before (sound.known _ last isLast)

variable {directory : String}

/-- A run that has written was spawned. -/
theorem Sound.author_known (sound : Sound machine) {written : Nat}
    (wrote : written ∈ machine.author directory) : written < machine.runs := by
  obtain ⟨last, isLast, before⟩ := sound.authored directory written wrote
  exact Nat.lt_of_le_of_lt before (sound.known _ last isLast)

variable {run : Nat}

/-- A run with a child was spawned. -/
theorem Sound.child_known (sound : Sound machine) {child : SetupChild}
    (has : machine.child run = some child) : run < machine.runs := by
  by_contra beyond
  rw [(sound.numbered run (Nat.not_lt.mp beyond)).1] at has
  cases has

/-- A child that runs has not closed, so it is of the latest run of its directory. -/
theorem Sound.alive_latest (sound : Sound machine) {child : SetupChild}
    (has : machine.child run = some child) (runs : child.alive = true) :
    machine.latest child.directory = some run := by
  refine sound.unclosed run child has (Bool.eq_false_iff.mpr fun closed => ?_)
  rw [sound.ended run child has closed] at runs
  cases runs

/-- What is claimed of a state follows. -/
theorem Sound.settles (sound : Sound machine) : machine.Settles where
  finished := by
    intro directory run isLast child has closed done
    rcases sound.finished directory run isLast child has closed with ⟨write, waits, rfl, -⟩ | finished
    · have same := (sound.own write waits child has).1
      rw [sound.home directory write.run isLast child has] at same
      exact absurd same (done write waits)
    · exact finished
  single := by
    intro first second one has other has' runs runs' same
    have isLast := sound.alive_latest has runs
    rw [same, sound.alive_latest has' runs'] at isLast
    exact (Option.some.inj isLast).symm

/-- A child has said something, and what is to be recorded of it waits. -/
def hear (machine : SetupMachine) (run : Nat) (said : SetupChild) (extra : List SetupWrite) :
    SetupMachine :=
  { machine with child := update machine.child run (some said), queue := machine.queue ++ extra }

/-- What a child that could not be started says to its listeners. -/
theorem step_error {now : Nat} (taken : machine.step paths (.error run now) = some next) :
    ∃ child, machine.child run = some child ∧ child.closed = false ∧ (machine.attached run = true →
      next = machine.hear run { child with errored := true }
        [record paths run child .failed none now]) := by
  unfold step at taken
  split at taken
  · cases taken
  obtain ⟨child, has, taken⟩ := Option.bind_eq_some_iff.mp taken
  refine ⟨child, has, ?_⟩
  split at taken
  · next speaks =>
    refine ⟨speaks.2.2, fun attached => ?_⟩
    rw [if_pos attached] at taken
    exact (Option.some.inj taken).symm
  · cases taken

/-- A child that closes. -/
theorem step_close {now : Nat} {code : Option Int}
    (taken : machine.step paths (.close run code now) = some next) :
    ∃ child, machine.child run = some child ∧ child.alive = false ∧ child.closed = false ∧
      (machine.attached run = true → next = machine.hear run { child with closed := true }
        [record paths run child (if code = some 0 then .succeeded else .failed) code now]) := by
  unfold step at taken
  split at taken
  · cases taken
  obtain ⟨child, has, taken⟩ := Option.bind_eq_some_iff.mp taken
  refine ⟨child, has, ?_⟩
  split at taken
  · next speaks =>
    refine ⟨speaks.1, speaks.2.1, fun attached => ?_⟩
    rw [if_pos attached] at taken
    exact (Option.some.inj taken).symm
  · cases taken

/-- A child that ends. -/
theorem step_exit (taken : machine.step paths (.exit run) = some next) :
    ∃ child, machine.child run = some child ∧ child.alive = true ∧
      next = machine.hear run { child with alive := false } [] := by
  unfold step at taken
  split at taken
  · cases taken
  obtain ⟨child, has, taken⟩ := Option.bind_eq_some_iff.mp taken
  refine ⟨child, has, ?_⟩
  split at taken
  · next runs =>
    refine ⟨runs, ?_⟩
    rw [hear, List.append_nil]
    exact (Option.some.inj taken).symm
  · cases taken

/-- A child speaks to its listeners, where the update that records its run is done. -/
theorem Sound.speaks (sound : Sound machine) {child : SetupChild}
    (has : machine.child run = some child)
    (done : ∀ write ∈ machine.queue, write.run = run → write.call = none) :
    machine.attached run = true := by
  rcases sound.joined run child has with attached | ⟨write, waits, is, launches⟩
  · exact attached
  · exact absurd (done write waits is) launches

/-- What is claimed of a step follows where the step is in order. -/
theorem Sound.heard_step
    (sound : Sound machine) {event : SetupEvent} (inOrder : machine.InOrder event)
    (taken : machine.step paths event = some next) : machine.Heard event := by
  cases event with
  | error run now =>
    obtain ⟨child, has, -⟩ := step_error taken
    exact sound.speaks has inOrder
  | close run code now =>
    obtain ⟨child, has, -⟩ := step_close taken
    exact sound.speaks has inOrder
  | write failure readable =>
    intro write isHead _ _
    exact sound.newest write (List.mem_of_mem_head? isHead)
  | request | advance | exit => trivial

section launch

variable {call : Nat} {directoryKey : String} {child : Option SetupChild} {entry : SetupEntry}

/-- The children after a spawn. -/
theorem mem_child_launch {made : SetupChild} :
    made ∈ (machine.launch call directoryKey child entry).child run ↔
      run = machine.runs ∧ made ∈ child ∨ run ≠ machine.runs ∧ made ∈ machine.child run := by
  by_cases new : run = machine.runs <;> simp [SetupMachine.launch, new]

/-- The latest runs after a spawn. -/
theorem mem_latest_launch :
    run ∈ (machine.launch call directoryKey child entry).latest directory ↔
      directory = directoryKey ∧ run = machine.runs ∨
        directory ≠ directoryKey ∧ run ∈ machine.latest directory := by
  by_cases same : directory = directoryKey <;> simp [SetupMachine.launch, same, eq_comm]

/-- The updates that wait after a spawn. -/
theorem mem_queue_launch :
    write ∈ (machine.launch call directoryKey child entry).queue ↔
      write ∈ machine.queue ∨ write = ⟨directoryKey, machine.runs, some call, entry⟩ := by
  simp [SetupMachine.launch]

/-- A spawn keeps the runs numbered. -/
theorem Sound.numbered_launch (sound : Sound machine) :
    Numbered (machine.launch call directoryKey child entry) := by
  refine ⟨?_, ?_, ?_, ?_, ?_, ?_⟩
  · intro run beyond
    have beyond : machine.runs + 1 ≤ run := beyond
    have differs : run ≠ machine.runs := by omega
    simpa [SetupMachine.launch, goOn, differs] using sound.numbered run (by omega)
  · intro directory last isLast
    refine Nat.lt_succ_of_le ?_
    rcases mem_latest_launch.mp isLast with ⟨-, rfl⟩ | ⟨-, isLast⟩
    · exact Nat.le_refl _
    · exact Nat.le_of_lt (sound.known directory last isLast)
  · intro write waits
    rcases mem_queue_launch.mp waits with waits | rfl
    · by_cases same : write.directory = directoryKey
      · exact ⟨machine.runs, mem_latest_launch.mpr (.inl ⟨same, rfl⟩),
          Nat.le_of_lt (sound.write_known waits)⟩
      · obtain ⟨last, isLast, before⟩ := sound.queued write waits
        exact ⟨last, mem_latest_launch.mpr (.inr ⟨same, isLast⟩), before⟩
    · exact ⟨machine.runs, mem_latest_launch.mpr (.inl ⟨rfl, rfl⟩), Nat.le_refl _⟩
  · intro directory written wrote
    by_cases same : directory = directoryKey
    · exact ⟨machine.runs, mem_latest_launch.mpr (.inl ⟨same, rfl⟩),
        Nat.le_of_lt (sound.author_known wrote)⟩
    · obtain ⟨last, isLast, before⟩ := sound.authored directory written wrote
      exact ⟨last, mem_latest_launch.mpr (.inr ⟨same, isLast⟩), before⟩
  · intro write waits written wrote
    rcases mem_queue_launch.mp waits with waits | rfl
    · exact sound.newest write waits written wrote
    · exact Nat.le_of_lt (sound.author_known wrote)
  · refine List.pairwise_append.mpr ⟨sound.order, List.pairwise_singleton _ _, ?_⟩
    intro first waits second isNew
    obtain rfl := List.mem_singleton.mp isNew
    have before : first.run < machine.runs := sound.write_known waits
    exact ⟨fun _ => before, fun _ => Nat.le_of_lt before⟩

/-- A spawn keeps the children homed, where the earlier ones of the directory have closed. -/
theorem Sound.homed_launch (sound : Sound machine)
    (fits : ∀ made ∈ child, made.directory = directoryKey ∧ entry.startedAt = made.startedAt ∧
      made.closed = false)
    (closed : ∀ run, ∀ made ∈ machine.child run, made.directory = directoryKey → made.closed = true) :
    Homed (machine.launch call directoryKey child entry) := by
  refine ⟨?_, ?_, ?_, ?_⟩
  · intro directory run isLast made has
    rcases mem_latest_launch.mp isLast with ⟨rfl, rfl⟩ | ⟨-, isLast⟩ <;>
      rcases mem_child_launch.mp has with ⟨new, has⟩ | ⟨old, has⟩
    · exact (fits made has).1
    · exact absurd rfl old
    · exact absurd (sound.known directory run isLast) (by omega)
    · exact sound.home directory run isLast made has
  · intro run made has isOpen
    rcases mem_child_launch.mp has with ⟨rfl, new⟩ | ⟨-, has⟩
    · exact mem_latest_launch.mpr (.inl ⟨(fits made new).1, rfl⟩)
    · refine mem_latest_launch.mpr (.inr ⟨fun same => ?_, sound.unclosed run made has isOpen⟩)
      rw [closed run made has same] at isOpen
      cases isOpen
  · intro run made has shut
    rcases mem_child_launch.mp has with ⟨-, new⟩ | ⟨-, has⟩
    · rw [(fits made new).2.2] at shut
      cases shut
    · exact sound.ended run made has shut
  · intro write waits made has
    rcases mem_queue_launch.mp waits with waits | rfl <;>
      rcases mem_child_launch.mp has with ⟨new, has⟩ | ⟨old, has⟩
    · exact absurd (sound.write_known waits) (by omega)
    · exact sound.own write waits made has
    · exact ⟨(fits made has).1.symm, (fits made has).2.1⟩
    · exact absurd rfl old

/-- A spawn leaves what is recorded as it is: the new run has no listeners yet. -/
theorem Sound.followed_launch (sound : Sound machine) (fits : ∀ made ∈ child, made.closed = false) :
    Followed (machine.launch call directoryKey child entry) := by
  have fresh : machine.attached machine.runs = false := (sound.numbered machine.runs (Nat.le_refl _)).2
  refine ⟨?_, ?_, ?_, ?_, ?_, ?_⟩
  · intro write waits event
    rcases mem_queue_launch.mp waits with waits | rfl
    · exact sound.events write waits event
    · cases event
  · intro run made has
    rcases mem_child_launch.mp has with ⟨rfl, -⟩ | ⟨-, has⟩
    · exact .inr ⟨_, mem_queue_launch.mpr (.inr rfl), rfl, by simp⟩
    · refine (sound.joined run made has).imp_right ?_
      rintro ⟨write, waits, is⟩
      exact ⟨write, mem_queue_launch.mpr (.inl waits), is⟩
  · intro run attached
    obtain ⟨⟨made, has⟩, before⟩ := sound.passed run attached
    have known := sound.child_known has
    refine ⟨⟨made, mem_child_launch.mpr (.inr ⟨Nat.ne_of_lt known, has⟩)⟩, ?_⟩
    intro write waits launches
    rcases mem_queue_launch.mp waits with waits | rfl
    · exact before write waits launches
    · exact known
  · intro directory run isLast attached
    rcases mem_latest_launch.mp isLast with ⟨-, rfl⟩ | ⟨-, isLast⟩
    · have attached : machine.attached machine.runs = true := attached
      rw [fresh] at attached
      cases attached
    · obtain ⟨author, recorded, is, started⟩ := sound.written directory run isLast attached
      refine ⟨author, recorded, is, fun made has => ?_⟩
      rcases mem_child_launch.mp has with ⟨new, -⟩ | ⟨-, has⟩
      · exact absurd (sound.known directory run isLast) (by omega)
      · exact started made has
  · intro run made has shut
    rcases mem_child_launch.mp has with ⟨-, new⟩ | ⟨-, has⟩
    · rw [fits made new] at shut
      cases shut
    · exact sound.heard run made has shut
  · intro directory run isLast made has shut
    rcases mem_child_launch.mp has with ⟨-, new⟩ | ⟨old, has⟩
    · rw [fits made new] at shut
      cases shut
    · rcases mem_latest_launch.mp isLast with ⟨-, new⟩ | ⟨-, isLast⟩
      · exact absurd new old
      · refine (sound.finished directory run isLast made has shut).imp_left ?_
        rintro ⟨write, waits, is⟩
        exact ⟨write, mem_queue_launch.mpr (.inl waits), is⟩

/-- A spawn keeps what holds, where the earlier children of the directory have closed. -/
theorem Sound.launch (sound : Sound machine)
    (fits : ∀ made ∈ child, made.directory = directoryKey ∧ entry.startedAt = made.startedAt ∧
      made.closed = false)
    (closed : ∀ run, ∀ made ∈ machine.child run, made.directory = directoryKey → made.closed = true) :
    Sound (machine.launch call directoryKey child entry) :=
  ⟨sound.numbered_launch, sound.homed_launch fits closed,
    sound.followed_launch fun made new => (fits made new).2.2⟩

end launch

section hear

/-- A child that has not closed says something: it is the same otherwise, and closes only when it is heard;
what waits to be recorded of it are events of its run. -/
structure Says (machine : SetupMachine) (run : Nat) (child said : SetupChild) (extra : List SetupWrite) :
    Prop where
  has : machine.child run = some child
  stays : child.closed = false
  same : said.directory = child.directory ∧ said.startedAt = child.startedAt
  closes : said.closed = true → said.alive = false ∧ machine.attached run = true ∧
    ∃ write ∈ extra, write.run = run ∧ write.call = none
  records : ∀ write ∈ extra, write.run = run ∧ write.call = none ∧
    write.directory = child.directory ∧ write.entry.startedAt = child.startedAt ∧
    machine.attached run = true ∧ write.entry.state ≠ .running

variable {run : Nat} {child said : SetupChild} {extra : List SetupWrite}

/-- A child is as it was, or it is the one that has said something. -/
theorem Says.before (speech : Says machine run child said extra) {other : Nat} {made : SetupChild}
    (has : (machine.hear run said extra).child other = some made) :
    ∃ was, machine.child other = some was ∧ made.directory = was.directory ∧
      made.startedAt = was.startedAt ∧ (other = run ∧ made = said ∨ other ≠ run ∧ made = was) := by
  have has : update machine.child run (some said) other = some made := has
  by_cases own : other = run
  · subst own
    rw [update_self] at has
    cases has
    exact ⟨child, speech.has, speech.same.1, speech.same.2, .inl ⟨rfl, rfl⟩⟩
  · rw [update_of_ne own] at has
    exact ⟨made, has, rfl, rfl, .inr ⟨own, rfl⟩⟩

/-- What waits was there before, or is to be recorded of the child. -/
theorem mem_queue_hear :
    write ∈ (machine.hear run said extra).queue ↔ write ∈ machine.queue ∨ write ∈ extra :=
  List.mem_append

/-- What a child says keeps the runs numbered: the child is of the latest run of its directory. -/
theorem Sound.numbered_hear (sound : Sound machine) (speech : Says machine run child said extra) :
    Numbered (machine.hear run said extra) := by
  have isLast := sound.unclosed run child speech.has speech.stays
  refine ⟨?_, sound.known, ?_, sound.authored, ?_, ?_⟩
  · intro other beyond
    have differs : other ≠ run := by
      rintro rfl
      exact absurd (sound.child_known speech.has) (Nat.not_lt.mpr beyond)
    simpa [SetupMachine.hear, differs] using sound.numbered other beyond
  · intro write waits
    rcases mem_queue_hear.mp waits with waits | new
    · exact sound.queued write waits
    · obtain ⟨rfl, -, named, -⟩ := speech.records write new
      exact ⟨write.run, by rw [named]; exact isLast, Nat.le_refl _⟩
  · intro write waits written wrote
    rcases mem_queue_hear.mp waits with waits | new
    · exact sound.newest write waits written wrote
    · obtain ⟨rfl, -, named, -⟩ := speech.records write new
      obtain ⟨last, isLast', before⟩ := sound.authored write.directory written wrote
      rw [named, isLast] at isLast'
      exact (Option.some.inj isLast').symm ▸ before
  · refine List.pairwise_append.mpr ⟨sound.order, ?_, ?_⟩
    · refine List.pairwise_of_forall_mem_list fun first new second new' => ?_
      obtain ⟨is, -⟩ := speech.records first new
      obtain ⟨is', event, -⟩ := speech.records second new'
      exact ⟨fun launches => absurd event launches, fun _ => Nat.le_of_eq (is.trans is'.symm)⟩
    intro first waits second new
    obtain ⟨rfl, event, named, -⟩ := speech.records second new
    refine ⟨fun launches => absurd event launches, fun home => ?_⟩
    obtain ⟨last, isLast', before⟩ := sound.queued first waits
    rw [home, named, isLast] at isLast'
    exact (Option.some.inj isLast').symm ▸ before

/-- What a child says leaves it in its directory. -/
theorem Sound.homed_hear (sound : Sound machine) (speech : Says machine run child said extra) :
    Homed (machine.hear run said extra) := by
  refine ⟨?_, ?_, ?_, ?_⟩
  · intro directory other isLast' made has'
    obtain ⟨was, had, directory', -⟩ := speech.before has'
    exact directory'.trans (sound.home directory other isLast' was had)
  · intro other made has' stays
    obtain ⟨was, had, directory', -, ⟨rfl, rfl⟩ | ⟨-, rfl⟩⟩ := speech.before has'
    · rw [speech.same.1]
      exact sound.unclosed other child speech.has speech.stays
    · exact sound.unclosed other made had stays
  · intro other made has' shut
    obtain ⟨was, had, -, -, ⟨rfl, rfl⟩ | ⟨-, rfl⟩⟩ := speech.before has'
    · exact (speech.closes shut).1
    · exact sound.ended other made had shut
  · intro write waits made has'
    obtain ⟨was, had, directory', started, -⟩ := speech.before has'
    rw [directory', started]
    rcases mem_queue_hear.mp waits with waits | new
    · exact sound.own write waits was had
    · obtain ⟨rfl, -, named, at', -⟩ := speech.records write new
      obtain rfl := Option.some.inj (speech.has.symm.trans had)
      exact ⟨named, at'⟩

/-- What a child says waits to be recorded. -/
theorem Sound.followed_hear (sound : Sound machine) (speech : Says machine run child said extra) :
    Followed (machine.hear run said extra) := by
  refine ⟨?_, ?_, ?_, ?_, ?_, ?_⟩
  · intro write waits event
    rcases mem_queue_hear.mp waits with waits | new
    · exact sound.events write waits event
    · obtain ⟨rfl, -, -, -, attached, terminal⟩ := speech.records write new
      exact ⟨attached, terminal⟩
  · intro other made has'
    obtain ⟨was, had, -⟩ := speech.before has'
    refine (sound.joined other was had).imp_right ?_
    rintro ⟨write, waits, is⟩
    exact ⟨write, mem_queue_hear.mpr (.inl waits), is⟩
  · intro other attached
    obtain ⟨⟨made, has'⟩, later⟩ := sound.passed other attached
    refine ⟨?_, ?_⟩
    · by_cases own : other = run
      · exact ⟨said, by rw [own]; exact update_self _ _ _⟩
      · exact ⟨made, by simpa [SetupMachine.hear, own] using has'⟩
    · intro write waits launches
      rcases mem_queue_hear.mp waits with waits | new
      · exact later write waits launches
      · exact absurd (speech.records write new).2.1 launches
  · intro directory other isLast' attached
    obtain ⟨author, recorded, is, started⟩ := sound.written directory other isLast' attached
    refine ⟨author, recorded, is, fun made has' => ?_⟩
    obtain ⟨was, had, -, started', -⟩ := speech.before has'
    rw [started']
    exact started was had
  · intro other made has' shut
    obtain ⟨was, had, -, -, ⟨rfl, rfl⟩ | ⟨-, rfl⟩⟩ := speech.before has'
    · exact (speech.closes shut).2.1
    · exact sound.heard other made had shut
  · intro directory other isLast' made has' shut
    obtain ⟨was, had, -, -, ⟨rfl, rfl⟩ | ⟨-, rfl⟩⟩ := speech.before has'
    · obtain ⟨write, new, is⟩ := (speech.closes shut).2.2
      exact .inl ⟨write, mem_queue_hear.mpr (.inr new), is⟩
    · refine (sound.finished directory other isLast' made had shut).imp_left ?_
      rintro ⟨write, waits, is⟩
      exact ⟨write, mem_queue_hear.mpr (.inl waits), is⟩

/-- What a child says keeps what holds. -/
theorem Sound.hear (sound : Sound machine) (speech : Says machine run child said extra) :
    Sound (machine.hear run said extra) :=
  ⟨sound.numbered_hear speech, sound.homed_hear speech, sound.followed_hear speech⟩

end hear

/-! ## Updates -/

variable {rest : List SetupWrite}

/-- An update that is done keeps what holds, where what is recorded of the latest runs does. The child of its
run has its listeners then. -/
theorem Sound.pop
    (sound : Sound machine)     (queue : machine.queue = write :: rest) {states : RunStates} {author : String → Option Nat}
    {phase : Nat → SetupPhase} {attached : Nat → Bool}
    (authors : ∀ directory, author directory = machine.author directory ∨
      directory = write.directory ∧ author directory = some write.run)
    (grows : ∀ run, machine.attached run = true → attached run = true)
    (joins : ∀ run, attached run = true → machine.attached run = true ∨
      run = write.run ∧ write.call ≠ none ∧ ∃ child, machine.child run = some child)
    (joined : ∀ child ∈ machine.child write.run, attached write.run = true)
    (written : ∀ directory, ∀ run ∈ machine.latest directory, attached run = true →
      author directory = some run ∧ ∃ entry ∈ (states directory).setup,
        ∀ child ∈ machine.child run, entry.startedAt = child.startedAt)
    (finished : ∀ directory, ∀ run ∈ machine.latest directory, ∀ child ∈ machine.child run,
      child.closed = true → (∃ waiting ∈ rest, waiting.run = run ∧ waiting.call = none) ∨
        ∃ entry ∈ (states directory).setup, entry.state ≠ .running ∧
          entry.startedAt = child.startedAt) :
    Sound { machine with
      states := states, author := author, phase := phase, attached := attached, queue := rest } := by
  have waits : write ∈ machine.queue := by
    rw [queue]
    exact List.mem_cons_self
  have among : ∀ waiting ∈ rest, waiting ∈ machine.queue := by
    intro waiting waits
    rw [queue]
    exact List.mem_cons_of_mem write waits
  have order := sound.order
  rw [queue] at order
  obtain ⟨first, order⟩ := List.pairwise_cons.mp order
  refine ⟨⟨?_, sound.known, fun waiting waits => sound.queued waiting (among waiting waits), ?_, ?_, order⟩,
    ⟨sound.home, sound.unclosed, sound.ended, fun waiting waits => sound.own waiting (among waiting waits)⟩,
    ⟨?_, ?_, ?_, written, ?_, finished⟩⟩
  · intro run beyond
    obtain ⟨none, silent⟩ := sound.numbered run beyond
    refine ⟨none, Bool.eq_false_iff.mpr fun listens => ?_⟩
    rcases joins run listens with was | ⟨-, -, child, has⟩
    · rw [silent] at was
      cases was
    · rw [none] at has
      cases has
  · intro directory wrote is
    rcases authors directory with same | ⟨rfl, new⟩
    · exact sound.authored directory wrote (same ▸ is)
    · obtain rfl := Option.some.inj (new.symm.trans is)
      exact sound.queued write waits
  · intro waiting waits' wrote is
    rcases authors waiting.directory with same | ⟨home, new⟩
    · exact sound.newest waiting (among waiting waits') wrote (same ▸ is)
    · obtain rfl := Option.some.inj (new.symm.trans is)
      exact (first waiting waits').2 home.symm
  · intro waiting waits event
    obtain ⟨listens, terminal⟩ := sound.events waiting (among waiting waits) event
    exact ⟨grows waiting.run listens, terminal⟩
  · intro run child has
    rcases sound.joined run child has with listens | ⟨waiting, waits', rfl, launches⟩
    · exact .inl (grows run listens)
    · rw [queue] at waits'
      rcases List.mem_cons.mp waits' with rfl | waits'
      · exact .inl (joined child has)
      · exact .inr ⟨waiting, waits', rfl, launches⟩
  · intro run listens
    rcases joins run listens with was | ⟨rfl, launches, has⟩
    · obtain ⟨has, later⟩ := sound.passed run was
      exact ⟨has, fun waiting waits => later waiting (among waiting waits)⟩
    · exact ⟨has, fun waiting waits launches => (first waiting waits).1 launches⟩
  · intro run child has closed
    exact grows run (sound.heard run child has closed)

/-- Where the listeners of the latest run of a directory are attached, an update of the directory that waits
is an event of that run. -/
theorem Sound.latest_event (sound : Sound machine) (waits : write ∈ machine.queue)
    (isLast : run ∈ machine.latest write.directory) (listens : machine.attached run = true) :
    write.run = run ∧ write.call = none := by
  obtain ⟨last, isLast', after⟩ := sound.queued write waits
  obtain rfl := Option.some.inj (isLast.symm.trans isLast')
  have before := sound.newest write waits run (sound.written write.directory run isLast listens).1
  refine ⟨Nat.le_antisymm after before, ?_⟩
  by_contra launches
  have later := (sound.passed run listens).2 write waits launches
  omega

/-- What is recorded in another directory is not touched. -/
theorem setup_other {states : RunStates} {other : String} {entry : SetupEntry}
    (differs : other ≠ directory) :
    (states.updateDirectoryRunState true directory { setup := some entry } other).setup =
      (states other).setup := by
  rw [RunStates.setup_update, if_neg differs]

/-- What is recorded in the directory. -/
theorem mem_setup_own {states : RunStates} {entry : SetupEntry} :
    entry ∈ (states.updateDirectoryRunState true directory { setup := some entry } directory).setup := by
  simp [RunStates.setup_update]

/-- A run that has written is the author of its directory only. -/
theorem author_update (write : SetupWrite) (directory : String) :
    update machine.author write.directory (some write.run) directory = machine.author directory ∨
      directory = write.directory ∧
        update machine.author write.directory (some write.run) directory = some write.run := by
  by_cases same : directory = write.directory
  · exact .inr ⟨same, by rw [same, update_self]⟩
  · exact .inl (update_of_ne same _ _)

/-- An event of a child that is recorded keeps what holds. -/
theorem Sound.write_event
    (sound : Sound machine)     (queue : machine.queue = write :: rest) (event : write.call = none) :
    Sound { machine with
      states := machine.states.updateDirectoryRunState true write.directory { setup := some write.entry }
      author := update machine.author write.directory (some write.run)
      queue := rest } := by
  have waits : write ∈ machine.queue := by
    rw [queue]
    exact List.mem_cons_self
  obtain ⟨listens, terminal⟩ := sound.events write waits event
  refine sound.pop queue (author_update write) (fun _ => id) (fun _ => .inl) (fun _ _ => listens) ?_ ?_
  · intro directory run isLast attached
    by_cases same : directory = write.directory
    · subst same
      obtain ⟨rfl, -⟩ := sound.latest_event waits isLast attached
      exact ⟨update_self _ _ _, write.entry, mem_setup_own,
        fun child has => (sound.own write waits child has).2⟩
    · rw [update_of_ne same, setup_other same]
      exact sound.written directory run isLast attached
  · intro directory run isLast child has closed
    by_cases same : directory = write.directory
    · subst same
      obtain ⟨rfl, -⟩ := sound.latest_event waits isLast (sound.heard run child has closed)
      exact .inr ⟨write.entry, mem_setup_own, terminal, (sound.own write waits child has).2⟩
    · rw [setup_other same]
      refine (sound.finished directory run isLast child has closed).imp_left ?_
      rintro ⟨waiting, waits', rfl, event'⟩
      rw [queue] at waits'
      rcases List.mem_cons.mp waits' with rfl | waits'
      · have home := sound.home directory _ isLast child has
        exact absurd (home.symm.trans (sound.own _ waits child has).1.symm) same
      · exact ⟨waiting, waits', rfl, event'⟩

/-- The events that wait after the update of a call is done waited before. -/
theorem event_rest (queue : machine.queue = write :: rest) (launches : write.call ≠ none)
    (waits : ∃ waiting ∈ machine.queue, waiting.run = run ∧ waiting.call = none) :
    ∃ waiting ∈ rest, waiting.run = run ∧ waiting.call = none := by
  obtain ⟨waiting, waits, is, event⟩ := waits
  rw [queue] at waits
  rcases List.mem_cons.mp waits with rfl | waits
  · exact absurd event launches
  · exact ⟨waiting, waits, is, event⟩

/-- An update of a call without a child that fails keeps what holds. -/
theorem Sound.write_failed
    (sound : Sound machine)     (queue : machine.queue = write :: rest) (launches : write.call ≠ none)
    (childless : machine.child write.run = none) (phase : Nat → SetupPhase) :
    Sound { machine with phase := phase, queue := rest } := by
  refine sound.pop queue (fun _ => .inl rfl) (fun _ => id) (fun _ => .inl) ?_ sound.written ?_
  · intro child has
    rw [childless] at has
    cases has
  · intro directory run isLast child has closed
    exact (sound.finished directory run isLast child has closed).imp_left (event_rest queue launches)

/-- An update of a call that is written keeps what holds. -/
theorem Sound.write_call
    (sound : Sound machine)     (queue : machine.queue = write :: rest) (launches : write.call ≠ none) (phase : Nat → SetupPhase) :
    Sound { machine with
      states := machine.states.updateDirectoryRunState true write.directory { setup := some write.entry }
      author := update machine.author write.directory (some write.run)
      phase := phase
      attached := if (machine.child write.run).isSome then update machine.attached write.run true
        else machine.attached
      queue := rest } := by
  have waits : write ∈ machine.queue := by
    rw [queue]
    exact List.mem_cons_self
  have joins : ∀ run, (if (machine.child write.run).isSome then update machine.attached write.run true
      else machine.attached) run = true → machine.attached run = true ∨
        run = write.run ∧ write.call ≠ none ∧ ∃ child, machine.child run = some child := by
    intro run joined
    split at joined
    · next has =>
      by_cases own : run = write.run
      · subst own
        exact .inr ⟨rfl, launches, Option.isSome_iff_exists.mp has⟩
      · rw [update_of_ne own] at joined
        exact .inl joined
    · exact .inl joined
  -- the listeners of the latest run of the directory are not attached before this update is done
  have early : ∀ run ∈ machine.latest write.directory, machine.attached run = true → False :=
    fun run isLast listens => launches (sound.latest_event waits isLast listens).2
  refine sound.pop queue (author_update write) ?_ joins ?_ ?_ ?_
  · intro run listens
    split
    · by_cases own : run = write.run
      · rw [own, update_self]
      · rwa [update_of_ne own]
    · exact listens
  · intro child has
    rw [if_pos (Option.isSome_of_mem has), update_self]
  · intro directory run isLast joined
    by_cases same : directory = write.directory
    · subst same
      rcases joins run joined with listens | ⟨rfl, -, -⟩
      · exact (early run isLast listens).elim
      · exact ⟨update_self _ _ _, write.entry, mem_setup_own,
          fun child has => (sound.own write waits child has).2⟩
    · rw [update_of_ne same, setup_other same]
      rcases joins run joined with listens | ⟨rfl, -, child, has⟩
      · exact sound.written directory run isLast listens
      · have home := sound.home directory _ isLast child has
        exact absurd (home.symm.trans (sound.own write waits child has).1.symm) same
  · intro directory run isLast child has closed
    by_cases same : directory = write.directory
    · subst same
      exact (early run isLast (sound.heard run child has closed)).elim
    · rw [setup_other same]
      exact (sound.finished directory run isLast child has closed).imp_left (event_rest queue launches)

/-- The update of a call whose turn it is keeps what holds, where it is written if its run has a child. -/
theorem Sound.resume
    (sound : Sound machine)     (queue : machine.queue = write :: rest) {failure readable : Bool}
    (read : failure = false → readable = true)
    (writes : (machine.child write.run).isSome → failure = false)
    (taken : machine.write failure readable = some next) : Sound next := by
  unfold SetupMachine.write at taken
  rw [queue] at taken
  cases taken
  cases failure with
  | false =>
    rw [read rfl]
    cases call : write.call with
    | none => simpa [SetupMachine.resume, call] using sound.write_event queue call
    | some call' =>
      simpa [SetupMachine.resume, call, goOn] using sound.write_call queue (by simp [call])
        (update machine.phase call' (.returned ⟨(machine.child write.run).isSome, none⟩))
  | true =>
    have childless : machine.child write.run = none := by
      by_contra has
      cases writes (Option.isSome_iff_ne_none.mpr has)
    cases call : write.call with
    | none =>
      obtain ⟨listens, -⟩ := sound.events write (by rw [queue]; exact List.mem_cons_self) call
      obtain ⟨⟨child, has⟩, -⟩ := sound.passed write.run listens
      rw [childless] at has
      cases has
    | some call' =>
      simpa [SetupMachine.resume, call, goOn] using sound.write_failed queue (by simp [call]) childless
        (update machine.phase call' (.returned ⟨false, none⟩))

/-! ## Steps -/

/-- A spawn keeps what holds, where the earlier children of the directory have closed. -/
theorem Sound.spawn (sound : Sound machine) {call : Nat} {directoryKey : String} {startedAt : Nat}
    {answers : SetupAnswers}
    (closed : ∀ run, ∀ made ∈ machine.child run, made.directory = directoryKey → made.closed = true) :
    Sound (machine.spawn paths call directoryKey startedAt answers) := by
  unfold SetupMachine.spawn
  cases answers.spawn with
  | throws => exact sound.launch (fun made new => by cases new) closed
  | fails =>
    refine sound.launch (fun made new => ?_) closed
    cases new
    exact ⟨rfl, rfl, rfl⟩
  | runs pid =>
    refine sound.launch (fun made new => ?_) closed
    cases new
    exact ⟨rfl, rfl, rfl⟩

/-- A step of a call spawns or only goes on. -/
theorem Sound.advance (sound : Sound machine) {call : Nat} {answers : SetupAnswers}
    (inOrder : machine.InOrder (.advance call answers))
    (taken : machine.advance paths call answers = some next) : Sound next := by
  have moves : ∀ phase, Sound (machine.goOn call phase) := fun phase => sound.calls _ machine.calls
  unfold SetupMachine.advance at taken
  cases phase : machine.phase call with
  | creating directoryKey startedAt =>
    simp only [phase] at taken
    cases failure : answers.failure with
    | true =>
      rw [failure, if_pos rfl] at taken
      exact Option.some.inj taken ▸ moves _
    | false =>
      rw [failure, if_neg Bool.false_ne_true] at taken
      exact Option.some.inj taken ▸ sound.spawn (inOrder directoryKey startedAt phase failure)
  | configuring params =>
    simp only [phase] at taken
    split at taken
    · exact Option.some.inj taken ▸ moves _
    · split at taken <;> exact Option.some.inj taken ▸ moves _
  | checking directoryKey persisted =>
    simp only [phase] at taken
    split at taken <;> exact Option.some.inj taken ▸ moves _
  | resolving | reading =>
    simp only [phase] at taken
    exact Option.some.inj taken ▸ moves _
  | absent | updating | returned =>
    simp only [phase] at taken
    cases taken

/-- A step that is in order keeps what holds. -/
theorem Sound.step (sound : Sound machine) {event : SetupEvent} (inOrder : machine.InOrder event)
    (taken : machine.step paths event = some next) : Sound next := by
  have heard := sound.heard_step inOrder taken
  cases event with
  | error run now =>
    obtain ⟨child, has, stays, hears⟩ := step_error taken
    have attached : machine.attached run = true := heard
    rw [hears attached]
    refine sound.hear ⟨has, stays, ⟨rfl, rfl⟩, fun closed => ?_, fun write new => ?_⟩
    · rw [stays] at closed
      cases closed
    · obtain rfl := List.mem_singleton.mp new
      exact ⟨rfl, rfl, rfl, rfl, attached, by simp [record]⟩
  | close run code now =>
    obtain ⟨child, has, dead, stays, hears⟩ := step_close taken
    have attached : machine.attached run = true := heard
    rw [hears attached]
    refine sound.hear ⟨has, stays, ⟨rfl, rfl⟩,
      fun _ => ⟨dead, attached, _, List.mem_singleton_self _, rfl, rfl⟩, fun write new => ?_⟩
    obtain rfl := List.mem_singleton.mp new
    refine ⟨rfl, rfl, rfl, rfl, attached, ?_⟩
    simp only [record]
    split <;> simp
  | exit run =>
    obtain ⟨child, has, runs, rfl⟩ := step_exit taken
    have stays : child.closed = false := Bool.eq_false_iff.mpr fun closed => by
      rw [sound.ended run child has closed] at runs
      cases runs
    refine sound.hear ⟨has, stays, ⟨rfl, rfl⟩, fun closed => ?_, fun _ new => by cases new⟩
    rw [stays] at closed
    cases closed
  | request params =>
    unfold SetupMachine.step at taken
    split at taken
    · cases taken
    · exact Option.some.inj taken ▸ sound.calls _ _
  | advance call answers =>
    unfold SetupMachine.step at taken
    split at taken
    · cases taken
    · exact sound.advance inOrder taken
  | write failure readable =>
    unfold SetupMachine.step at taken
    split at taken
    · cases taken
    · cases queue : machine.queue with
      | nil => simp [SetupMachine.write, queue] at taken
      | cons write rest =>
        exact sound.resume queue inOrder.1 (inOrder.2 write (by simp [queue])) taken

/-! ## Runs -/

/-- Before any call, over what earlier daemons have recorded. -/
def start (states : RunStates) : SetupMachine where
  states := states
  author := fun _ => none
  phase := fun _ => .absent
  calls := 0
  child := fun _ => none
  attached := fun _ => false
  latest := fun _ => none
  runs := 0
  queue := []
  crashed := false

theorem sound_start (states : RunStates) : Sound (start states) where
  numbered := by simp [start]
  known := by simp [start]
  queued := by simp [start]
  authored := by simp [start]
  newest := by simp [start]
  order := List.Pairwise.nil
  home := by simp [start]
  unclosed := by simp [start]
  ended := by simp [start]
  own := by simp [start]
  events := by simp [start]
  joined := by simp [start]
  passed := by simp [start]
  written := by simp [start]
  heard := by simp [start]
  finished := by simp [start]

/-- In a run whose steps are in order, every event of a child is heard and no newer entry is replaced; the
end of the latest run of a directory is recorded, and at most one child of a directory runs. -/
theorem runSetupScript_settles (paths : SetupPaths) (states : RunStates) (events : List SetupEvent)
    (met : Always (step paths) (fun machine event _ => machine.InOrder event) (start states) events) :
    Always (step paths) (fun machine event next => machine.Heard event ∧ next.Settles) (start states)
      events := by
  refine always_under Sound InOrder _ ?_ (sound_start states) met
  intro machine event next sound inOrder taken
  have kept := sound.step inOrder taken
  exact ⟨kept, sound.heard_step inOrder taken, kept.settles⟩

/-- Where the calls of one directory go. -/
def plainPaths : SetupPaths where
  resolveWorkspaceKey := id
  setupLogFilePath := fun _ => "/h/setup.log"

/-- What a step meets when nothing is in its way. -/
def plainStep (spawn : SpawnOutcome) : SetupAnswers := ⟨false, true, some "npm ci", false, 100, spawn⟩

/-- A call up to its spawn. -/
def upToSpawn (spawn : SpawnOutcome) : List SetupEvent :=
  .request ⟨"/w", "/w"⟩ :: List.replicate 5 (.advance 0 (plainStep spawn))

/-- A script that runs and is recorded, and ends. -/
theorem script_settles :
    Always (step plainPaths) (fun machine event next => machine.Heard event ∧ next.Settles)
      (start fun _ => {})
      (upToSpawn (.runs 7) ++ [.write false true, .exit 0, .close 0 (some 0) 200, .write false true]) := by
  refine runSetupScript_settles plainPaths _ _ ?_
  refine always_cons rfl trivial ?_
  refine always_cons rfl (fun _ _ is => by cases is) ?_
  refine always_cons rfl (fun _ _ is => by cases is) ?_
  refine always_cons rfl (fun _ _ is => by cases is) ?_
  refine always_cons rfl (fun _ _ is => by cases is) ?_
  refine always_cons rfl (fun _ _ _ _ _ _ has => by cases has) ?_
  refine always_cons rfl ⟨fun _ => rfl, fun _ _ _ => rfl⟩ ?_
  refine always_cons rfl trivial ?_
  refine always_cons rfl (fun _ waits => by cases waits) ?_
  exact always_cons rfl ⟨fun _ => rfl, fun _ _ _ => rfl⟩ trivial

/-- A child that could not be started says so before the update that records its run is done. -/
theorem error_before_listener :
    ¬ ∀ paths states events, Always (step paths)
      (fun machine event next => machine.Heard event ∧ next.Settles) (start states) events := by
  intro always
  have claimed := always_step (always plainPaths (fun _ => {}) (upToSpawn .fails ++ [.error 0 101])) rfl rfl
  have attached : false = true := claimed.1
  cases attached

end SetupMachine

end Kvy.Cli.Daemon
