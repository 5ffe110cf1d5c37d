import Kvy.Cli.Daemon.RunStateStore
import Kvy.General.Runs

/-!
# The run script of a directory

A start reads what is recorded for the directory, asks whether that process runs, launches the script and
records it; a stop reads, asks, kills and clears. Each of these is a step of its own, and calls are
interleaved. A repeated request joins the call that was made for it; a start also joins a start that is
going on for the same text of the path, while the recorded state belongs to the directory that the path
leads to.
-/

namespace Kvy.Cli.Daemon

open General.Runs Function

/-! ## Calls -/

/-- `RunContext`. -/
structure RunContext where
  directoryKey : String
  workspaceRoot : String

/-- What the handlers ask the file system: where a path leads, if it is in a registered workspace, and
the names that belong to a directory. -/
structure RunPaths where
  resolveRunContext : String → Option RunContext
  directoryHash : String → String
  runLogFilePath : String → String

/-- `RunStartResult`. -/
structure RunStartResult where
  started : Bool
  alreadyRunning : Option Bool
  method : Option RunLaunchMethod
  pid : Option Nat
  tmuxSessionName : Option String

/-- `RunStopResult`. -/
structure RunStopResult where
  stopped : Bool
  wasRunning : Bool

/-- How a call ends. -/
inductive RunAnswer where
  | start (result : RunStartResult)
  | stop (result : RunStopResult)
  | rejected (message : String)

inductive RunKind where
  | start
  | stop
deriving DecidableEq

/-- Where a call is, by the step it does next. -/
inductive RunPhase where
  | absent
  | resolving (kind : RunKind) (worktree : String)
  | configuring (context : RunContext)
  | startReading (directory script : String)
  | startProbing (directory script : String) (existing : RunEntry)
  | logging (directory script : String) (startedAt : Nat)
  | launching (directory script : String) (startedAt : Nat)
  | launched (directory : String) (entry : RunEntry)
  | recording (directory : String) (entry : RunEntry)
  | stopReading (directory : String)
  | stopProbing (directory : String) (entry : RunEntry)
  | killing (directory : String) (entry : RunEntry)
  | clearing (directory : String) (result : RunStopResult)
  | settled (answer : RunAnswer)

/-- What a step meets: the message with which an awaited operation rejects; whether the file of the run
state can be read; whether a process or a session of others answers to a probe; the configured script;
the time; whether tmux is there; the pid of a new process. -/
structure RunAnswers where
  failure : Option String
  readable : Bool
  outside : Bool
  runScript : Option String
  now : Nat
  tmux : Bool
  pid : Nat

/-- A process that a call has launched. -/
structure RunningScript where
  call : Nat
  directory : String
  entry : RunEntry
deriving DecidableEq

/-- The recorded state, the processes that run, the calls, and what `withIdempotencyCache` and
`withResourceGuard` remember of them. -/
structure RunMachine where
  states : RunStates
  live : List RunningScript
  phase : Nat → RunPhase
  next : Nat
  cache : List (RunKind × String × String × Nat)
  inFlight : List (String × Nat)

/-- A request; the next step of a call; the end of a process. -/
inductive RunEvent where
  | request (kind : RunKind) (idempotencyKey worktree : String)
  | advance (call : Nat) (answers : RunAnswers)
  | exit (call : Nat)

namespace RunMachine

variable (paths : RunPaths) (machine : RunMachine)

/-- A call goes on with another step. -/
def goOn (call : Nat) (phase : RunPhase) : RunMachine :=
  { machine with phase := update machine.phase call phase }

/-- A call ends. Where it is rejected, it is not remembered. -/
def settle (call : Nat) (answer : RunAnswer) : RunMachine :=
  { machine.goOn call (.settled answer) with
    inFlight := machine.inFlight.filter (fun guarded => guarded.2 ≠ call)
    cache := match answer with
      | .rejected _ => machine.cache.filter (fun cached => cached.2.2.2 ≠ call)
      | _ => machine.cache }

/-- Whether a tmux session runs. -/
def hasSession (name : String) (outside : Bool) : Bool :=
  outside || machine.live.any (fun script =>
    script.entry.method = .tmux && script.entry.tmuxSessionName = some name)

/-- `isRunEntryLive`. -/
def isRunEntryLive (entry : RunEntry) (outside : Bool) : Bool :=
  match entry.method, entry.tmuxSessionName with
  | .tmux, none => false
  | .tmux, some name => name ≠ "" && machine.hasSession name outside
  | .detached, _ => outside || machine.live.any (fun script => script.entry.pid = entry.pid)

/-- The tmux session of a directory. -/
def sessionName (directory : String) : String := "kvy-" ++ "run-" ++ paths.directoryHash directory

/-- The entry of a process that is launched in a directory. -/
def launchedEntry (directory script : String) (startedAt : Nat) (answers : RunAnswers) : RunEntry where
  pid := answers.pid
  method := if answers.tmux then .tmux else .detached
  tmuxSessionName := if answers.tmux then some (sessionName paths directory) else none
  startedAt := startedAt
  logFile := paths.runLogFilePath directory
  script := script

/-- Whether a launch makes a process: there is no session of that name, and the system gives a pid that no
running process has. -/
def launches (directory : String) (answers : RunAnswers) : Bool :=
  answers.failure = none && !(answers.tmux && machine.hasSession (sessionName paths directory) answers.outside)

/-- `launchProviderProcess`, until a process runs. -/
def launchProviderProcess (call : Nat) (directory script : String) (startedAt : Nat)
    (answers : RunAnswers) : Option RunMachine :=
  if machine.launches paths directory answers then
    if machine.live.all (fun script => script.entry.pid ≠ answers.pid) then
      let entry := launchedEntry paths directory script startedAt answers
      some { machine.goOn call (.launched directory entry) with
        live := ⟨call, directory, entry⟩ :: machine.live }
    else none
  else some (machine.settle call (.rejected (answers.failure.getD "tmux new-session exited 1")))

/-- The next step of `handleRunStart` or `handleRunStop`. -/
def advance (call : Nat) (answers : RunAnswers) : Option RunMachine :=
  let orElse := fun done => match answers.failure with
    | some message => some (machine.settle call (.rejected message))
    | none => some done
  match machine.phase call with
  | .resolving kind worktree =>
    match paths.resolveRunContext worktree with
    | none => some (machine.settle call
        (.rejected ("worktree is not inside a registered workspace: " ++ worktree)))
    | some context => orElse (machine.goOn call (match kind with
        | .start => .configuring context
        | .stop => .stopReading context.directoryKey))
  | .configuring context => orElse (match answers.runScript with
      | none | some "" => machine.settle call
          (.rejected ("no run script configured for this workspace: " ++ context.workspaceRoot))
      | some script => machine.goOn call (.startReading context.directoryKey script))
  | .startReading directory script =>
    match (machine.states.readDirectoryRunState answers.readable directory).run with
    | none => some (machine.goOn call (.logging directory script answers.now))
    | some existing => some (machine.goOn call (.startProbing directory script existing))
  | .startProbing directory script existing =>
    if machine.isRunEntryLive existing answers.outside then
      some (machine.settle call (.start ⟨false, some true, some existing.method, some existing.pid,
        existing.tmuxSessionName⟩))
    else some (machine.goOn call (.logging directory script answers.now))
  | .logging directory script startedAt =>
    orElse (machine.goOn call (.launching directory script startedAt))
  | .launching directory script startedAt =>
    machine.launchProviderProcess paths call directory script startedAt answers
  | .launched directory entry =>
    match entry.method with
    | .tmux => orElse (machine.goOn call (.recording directory entry))
    | .detached => some (machine.goOn call (.recording directory entry))
  | .recording directory entry => orElse { machine.settle call (.start ⟨true, none, some entry.method,
        some entry.pid, entry.tmuxSessionName⟩) with
      states := machine.states.updateDirectoryRunState answers.readable directory { run := some entry } }
  | .stopReading directory =>
    match (machine.states.readDirectoryRunState answers.readable directory).run with
    | none => some (machine.settle call (.stop ⟨false, false⟩))
    | some entry => some (machine.goOn call (.stopProbing directory entry))
  | .stopProbing directory entry =>
    some (machine.goOn call (if machine.isRunEntryLive entry answers.outside then .killing directory entry
      else .clearing directory ⟨false, false⟩))
  | .killing directory _ => orElse (machine.goOn call (.clearing directory ⟨true, true⟩))
  | .clearing directory result => orElse { machine.settle call (.stop result) with
      states := machine.states.clearRunEntry answers.readable directory }
  | .settled _ | .absent => none

/-- A new call is made for a request, unless the request joins one. -/
def request (kind : RunKind) (idempotencyKey worktree : String) : RunMachine :=
  let remember := fun machine call => { machine with
    cache := (kind, idempotencyKey, worktree, call) :: RunMachine.cache machine }
  if machine.cache.any (fun cached => cached.1 = kind && cached.2.1 = idempotencyKey &&
      cached.2.2.1 = worktree) then machine
  else
    match kind, machine.inFlight.find? (fun guarded => guarded.1 = worktree) with
    | .start, some (_, call) => remember machine call
    | kind, _ =>
      remember { machine with
        phase := update machine.phase machine.next (.resolving kind worktree)
        next := machine.next + 1
        inFlight := match kind with
          | .start => (worktree, machine.next) :: machine.inFlight
          | .stop => machine.inFlight } machine.next

/-- A step. -/
def step : RunEvent → Option RunMachine
  | .request kind idempotencyKey worktree => some (machine.request kind idempotencyKey worktree)
  | .advance call answers => machine.advance paths call answers
  | .exit call => some { machine with live := machine.live.filter (fun script => script.call ≠ call) }

end RunMachine

/-- The directory and the entry of the process that a start has launched and not yet recorded. -/
def RunPhase.carried : RunPhase → Option (String × RunEntry)
  | .launched directory entry | .recording directory entry => some (directory, entry)
  | _ => none

namespace RunMachine

variable (paths : RunPaths) (machine : RunMachine)

/-- The start that has launched a process is still going on. -/
def InProgress (script : RunningScript) : Prop := (machine.phase script.call).carried.isSome = true

/-- What is claimed: a process that runs is the recorded one of its directory, once its start is over,
and the only one of its directory. -/
structure Tracked : Prop where
  recorded : ∀ script ∈ machine.live, machine.InProgress script ∨
    (machine.states script.directory).run = some script.entry
  single : ∀ first ∈ machine.live, ∀ second ∈ machine.live, first.directory = second.directory →
    first = second

/-- A step of a call leaves every process that runs the recorded one. Where a launch makes a process, none
runs in the directory. Where a launch or an update fails, the process that was launched has ended, or is
recorded all the same. Where an entry is written, no process of the directory runs whose start is over,
but one with that very entry, and none in another directory if the file could not be read. Where an entry
is cleared, no process of the directory runs whose start is over. -/
def Orderly : RunEvent → Prop
  | .advance call answers =>
    match machine.phase call with
    | .launching directory _ _ => machine.launches paths directory answers = true →
        ∀ script ∈ machine.live, script.directory ≠ directory
    | .launched directory entry => entry.method = .tmux → answers.failure ≠ none →
        ∀ script ∈ machine.live, script.call = call → (machine.states directory).run = some entry
    | .recording directory entry =>
      if answers.failure = none then
        ∀ script ∈ machine.live, script.call = call ∨ machine.InProgress script ∨
          if script.directory = directory then script.entry = entry else answers.readable = true
      else ∀ script ∈ machine.live, script.call = call → (machine.states directory).run = some entry
    | .clearing directory _ => answers.failure = none → answers.readable = true →
        ∀ script ∈ machine.live, script.directory = directory → machine.InProgress script
    | _ => True
  | _ => True

end RunMachine

/-! ## What a step can do -/

/-- No process of a call runs before it has got this far. -/
def RunPhase.past : RunPhase → Bool
  | .absent | .launched _ _ | .recording _ _ | .settled _ => true
  | _ => false

namespace RunMachine

variable {paths : RunPaths} {machine next : RunMachine}

/-- What the next step of a call does: it goes on without a process, launches one, comes to write its
entry, loses it, writes its entry, or clears the entry of the directory. -/
inductive Effect (paths : RunPaths) (machine : RunMachine) (call : Nat) (answers : RunAnswers) :
    RunMachine → Prop where
  | quiet {phase : RunPhase} {cache : List (RunKind × String × String × Nat)}
      {inFlight : List (String × Nat)} (waits : (machine.phase call).past = false)
      (plain : phase.carried = none) (orderly : machine.Orderly paths (.advance call answers)) :
      Effect paths machine call answers { machine with
        phase := update machine.phase call phase, cache := cache, inFlight := inFlight }
  | launch {directory script : String} {startedAt : Nat}
      (was : machine.phase call = .launching directory script startedAt)
      (launches : machine.launches paths directory answers = true) :
      Effect paths machine call answers { machine with
        phase := update machine.phase call
          (.launched directory (launchedEntry paths directory script startedAt answers))
        live := ⟨call, directory, launchedEntry paths directory script startedAt answers⟩ :: machine.live }
  | launched {directory : String} {entry : RunEntry} (was : machine.phase call = .launched directory entry)
      (well : entry.method = .tmux → answers.failure = none) :
      Effect paths machine call answers { machine with
        phase := update machine.phase call (.recording directory entry) }
  | lose {directory : String} {entry : RunEntry} {message : String}
      {cache : List (RunKind × String × String × Nat)} {inFlight : List (String × Nat)}
      (was : machine.phase call = .launched directory entry ∧ entry.method = .tmux ∨
        machine.phase call = .recording directory entry)
      (failed : answers.failure ≠ none) :
      Effect paths machine call answers { machine with
        phase := update machine.phase call (.settled (.rejected message))
        cache := cache
        inFlight := inFlight }
  | record {directory : String} {entry : RunEntry} {result : RunStartResult}
      {inFlight : List (String × Nat)} (was : machine.phase call = .recording directory entry)
      (done : answers.failure = none) :
      Effect paths machine call answers { machine with
        states := machine.states.updateDirectoryRunState answers.readable directory { run := some entry }
        phase := update machine.phase call (.settled (.start result))
        inFlight := inFlight }
  | clear {directory : String} {result : RunStopResult} {inFlight : List (String × Nat)}
      (was : machine.phase call = .clearing directory result) (done : answers.failure = none) :
      Effect paths machine call answers { machine with
        states := machine.states.clearRunEntry answers.readable directory
        phase := update machine.phase call (.settled (.stop result))
        inFlight := inFlight }

variable {call : Nat} {phase : RunPhase}

/-- A step of a call that has launched nothing. -/
theorem Effect.of_waiting (paths : RunPaths) (answers : RunAnswers)
    (was : machine.phase call = phase) (waits : phase.past = false)
    (orderly : machine.Orderly paths (.advance call answers)) :
    (∀ done : RunPhase, done.carried = none →
      Effect paths machine call answers (machine.goOn call done)) ∧
      ∀ answer, Effect paths machine call answers (machine.settle call answer) := by
  have waits : (machine.phase call).past = false := by rw [was]; exact waits
  exact ⟨fun done plain => .quiet waits plain orderly, fun answer => .quiet waits rfl orderly⟩

variable {answers : RunAnswers}

theorem advance_effect (taken : machine.advance paths call answers = some next) :
    Effect paths machine call answers next := by
  unfold advance at taken
  cases was : machine.phase call with
  | absent => simp [was] at taken
  | settled answer => simp [was] at taken
  | resolving kind worktree =>
    obtain ⟨goes, ends⟩ := Effect.of_waiting paths answers was rfl
      (by simp [Orderly, was])
    simp only [was] at taken
    split at taken
    · cases taken
      exact ends _
    · next context _ =>
      split at taken
      · cases taken
        exact ends _
      · cases taken
        exact goes _ (by cases kind <;> rfl)
  | configuring context =>
    obtain ⟨goes, ends⟩ := Effect.of_waiting paths answers was rfl
      (by simp [Orderly, was])
    simp only [was] at taken
    split at taken
    · cases taken
      exact ends _
    · cases taken
      split
      · exact ends _
      · exact ends _
      · exact goes _ rfl
  | startReading directory script =>
    obtain ⟨goes, ends⟩ := Effect.of_waiting paths answers was rfl
      (by simp [Orderly, was])
    simp only [was] at taken
    split at taken <;> cases taken
    · exact goes _ rfl
    · exact goes _ rfl
  | startProbing directory script existing =>
    obtain ⟨goes, ends⟩ := Effect.of_waiting paths answers was rfl
      (by simp [Orderly, was])
    simp only [was] at taken
    split at taken <;> cases taken
    · exact ends _
    · exact goes _ rfl
  | logging directory script startedAt =>
    obtain ⟨goes, ends⟩ := Effect.of_waiting paths answers was rfl
      (by simp [Orderly, was])
    simp only [was] at taken
    split at taken <;> cases taken
    · exact ends _
    · exact goes _ rfl
  | launching directory script startedAt =>
    simp only [was] at taken
    unfold launchProviderProcess at taken
    split at taken
    · next launches =>
      split at taken
      · cases taken
        exact .launch was launches
      · cases taken
    · next fails =>
      cases taken
      exact (Effect.of_waiting paths answers was rfl (by simp [Orderly, was, fails])).2 _
  | launched directory entry =>
    simp only [was] at taken
    split at taken
    · next method =>
      split at taken <;> cases taken
      · next failed => exact .lose (.inl ⟨was, method⟩) (by simp [failed])
      · next done => exact .launched was (fun _ => done)
    · next method =>
      cases taken
      exact .launched was (fun other => by rw [method] at other; cases other)
  | recording directory entry =>
    simp only [was] at taken
    split at taken <;> cases taken
    · next failed => exact .lose (.inr was) (by simp [failed])
    · next done => exact .record was done
  | stopReading directory =>
    obtain ⟨goes, ends⟩ := Effect.of_waiting paths answers was rfl
      (by simp [Orderly, was])
    simp only [was] at taken
    split at taken <;> cases taken
    · exact ends _
    · exact goes _ rfl
  | stopProbing directory entry =>
    obtain ⟨goes, ends⟩ := Effect.of_waiting paths answers was rfl
      (by simp [Orderly, was])
    simp only [was] at taken
    cases taken
    exact goes _ (by split <;> rfl)
  | killing directory entry =>
    obtain ⟨goes, ends⟩ := Effect.of_waiting paths answers was rfl
      (by simp [Orderly, was])
    simp only [was] at taken
    split at taken <;> cases taken
    · exact ends _
    · exact goes _ rfl
  | clearing directory result =>
    simp only [was] at taken
    split at taken <;> cases taken
    · next failed => exact (Effect.of_waiting paths answers was rfl (by simp [Orderly, was, failed])).2 _
    · next done => exact .clear was done

/-! ## What holds in every run -/

/-- A call that has not been made does nothing; a process that runs was launched by a call that has got
that far, and a call that carries a process carries its own. -/
structure Sound (machine : RunMachine) : Prop where
  absent : ∀ call, machine.next ≤ call → machine.phase call = .absent
  known : ∀ script ∈ machine.live, script.call < machine.next
  past : ∀ script ∈ machine.live, (machine.phase script.call).past = true
  own : ∀ script ∈ machine.live, ∀ carried ∈ (machine.phase script.call).carried,
    carried = (script.directory, script.entry)

/-- A call that has launched nothing yet has no process that runs. -/
theorem Sound.waiting (sound : Sound machine) (waits : (machine.phase call).past = false)
    {script : RunningScript} (runs : script ∈ machine.live) : script.call ≠ call := by
  rintro rfl
  rw [sound.past script runs] at waits
  cases waits

variable {inFlight : List (String × Nat)}

/-- A call that moves on keeps what holds, where its process may be in the new phase. -/
theorem Sound.move
    (sound : Sound machine)     {states : RunStates} {cache : List (RunKind × String × String × Nat)}
    (was : machine.phase call ≠ .absent)
    (fits : ∀ script ∈ machine.live, script.call = call → phase.past = true ∧
      ∀ carried ∈ phase.carried, carried = (script.directory, script.entry)) :
    Sound { machine with
      states := states, phase := update machine.phase call phase, cache := cache, inFlight := inFlight } where
  absent := by
    intro other beyond
    have differs : other ≠ call := by
      rintro rfl
      exact was (sound.absent other beyond)
    simpa [update_of_ne differs] using sound.absent other beyond
  known := sound.known
  past := by
    intro script runs
    by_cases own : script.call = call
    · simpa [own] using (fits script runs own).1
    · simpa [update_of_ne own] using sound.past script runs
  own := by
    intro script runs carried carries
    by_cases own : script.call = call
    · simp only [own, update_self] at carries
      exact (fits script runs own).2 carried carries
    · simp only [update_of_ne own] at carries
      exact sound.own script runs carried carries

theorem Sound.advance
    (sound : Sound machine)     (effect : Effect paths machine call answers next) : Sound next := by
  cases effect with
  | quiet waits plain =>
    refine sound.move (fun was => by rw [was] at waits; cases waits) ?_
    intro script runs own
    exact absurd own (sound.waiting waits runs)
  | @launch directory script startedAt was launches =>
    have made : machine.phase call ≠ .absent := by simp [was]
    have waits : (machine.phase call).past = false := by
      rw [was]
      rfl
    have moved : Sound (machine.goOn call
        (.launched directory (launchedEntry paths directory script startedAt answers))) :=
      sound.move made (fun script runs own => absurd own (sound.waiting waits runs))
    refine ⟨moved.absent, ?_, ?_, ?_⟩
    · intro script runs
      rcases List.mem_cons.mp runs with rfl | runs
      · by_contra beyond
        exact made (sound.absent call (Nat.not_lt.mp beyond))
      · exact sound.known script runs
    · intro script runs
      rcases List.mem_cons.mp runs with rfl | runs
      · simp [RunPhase.past]
      · exact moved.past script runs
    · intro script runs carried carries
      rcases List.mem_cons.mp runs with rfl | runs
      · simpa [RunPhase.carried, eq_comm] using carries
      · exact moved.own script runs carried carries
  | launched was well =>
    refine sound.move (by simp [was]) ?_
    intro script runs own
    have carries := sound.own script runs
    rw [own, was] at carries
    exact ⟨rfl, carries⟩
  | lose was failed =>
    refine sound.move ?_ (fun _ _ _ => ⟨rfl, by simp [RunPhase.carried]⟩)
    rcases was with ⟨was, -⟩ | was <;> simp [was]
  | record was done => exact sound.move (by simp [was]) (fun _ _ _ => ⟨rfl, by simp [RunPhase.carried]⟩)
  | clear was done => exact sound.move (by simp [was]) (fun _ _ _ => ⟨rfl, by simp [RunPhase.carried]⟩)

/-- A request keeps what holds. -/
theorem Sound.request (sound : Sound machine) (kind : RunKind) (idempotencyKey worktree : String) :
    Sound (machine.request kind idempotencyKey worktree) := by
  have made : ∀ cache inFlight, Sound { machine with
      phase := update machine.phase machine.next (.resolving kind worktree)
      next := machine.next + 1
      cache := cache
      inFlight := inFlight } := by
    intro cache inFlight
    have other : ∀ script ∈ machine.live, script.call ≠ machine.next :=
      fun script runs => Nat.ne_of_lt (sound.known script runs)
    refine ⟨?_, ?_, ?_, ?_⟩
    · intro call beyond
      have differs : call ≠ machine.next := by
        simp only at beyond
        omega
      simpa [update_of_ne differs] using sound.absent call (by simp only at beyond; omega)
    · exact fun script runs => Nat.lt_succ_of_lt (sound.known script runs)
    · intro script runs
      simpa [update_of_ne (other script runs)] using sound.past script runs
    · intro script runs
      simpa [update_of_ne (other script runs)] using sound.own script runs
  unfold RunMachine.request
  split
  · exact sound
  · split
    · exact ⟨sound.absent, sound.known, sound.past, sound.own⟩
    · exact made _ _

theorem Sound.step (sound : Sound machine) {event : RunEvent}
    (taken : machine.step paths event = some next) : Sound next := by
  cases event with
  | request kind idempotencyKey worktree =>
    cases taken
    exact sound.request kind idempotencyKey worktree
  | advance call answers => exact sound.advance (advance_effect taken)
  | exit call =>
    cases taken
    exact ⟨sound.absent, fun script runs => sound.known script (List.mem_filter.mp runs).1,
      fun script runs => sound.past script (List.mem_filter.mp runs).1,
      fun script runs => sound.own script (List.mem_filter.mp runs).1⟩

/-! ## When the processes stay tracked -/

/-- Where the same processes run, the claim stands if each of them is in progress or recorded. -/
theorem tracked_iff (tracked : machine.Tracked) (live : next.live = machine.live) :
    next.Tracked ↔ ∀ script ∈ machine.live, next.InProgress script ∨
      (next.states script.directory).run = some script.entry := by
  constructor
  · intro after script runs
    exact after.recorded script (live ▸ runs)
  · intro recorded
    refine ⟨fun script runs => recorded script (live ▸ runs), ?_⟩
    rw [live]
    exact tracked.single

/-- Another call that moves on leaves a process in progress, or not. -/
theorem inProgress_of_ne
    {script : RunningScript}     {states : RunStates} {cache : List (RunKind × String × String × Nat)}
    (other : script.call ≠ call) :
    InProgress { machine with
      states := states, phase := update machine.phase call phase, cache := cache, inFlight := inFlight }
      script ↔ machine.InProgress script := by
  simp [InProgress, update_of_ne other]

/-- The processes stay tracked where those of the other calls do and the one of the call is recorded. -/
theorem tracked_settle (cache : List (RunKind × String × String × Nat)) (tracked : machine.Tracked)
    {states : RunStates}
    (plain : phase.carried = none) :
    Tracked { machine with
      states := states, phase := update machine.phase call phase, cache := cache, inFlight := inFlight } ↔
    ∀ script ∈ machine.live, script.call ≠ call ∧ machine.InProgress script ∨
      (states script.directory).run = some script.entry := by
  refine (tracked_iff tracked (?_ : _ = machine.live)).trans (forall₂_congr fun script runs => ?_)
  · rfl
  by_cases own : script.call = call
  · simp [InProgress, own, plain]
  · rw [inProgress_of_ne own]
    simp [own]

variable {directory : String}

/-- A launch leaves its process the only one of its directory exactly where none runs there. -/
theorem tracked_launch (tracked : machine.Tracked) (sound : Sound machine)
    {script : String} {startedAt : Nat}
    (was : machine.phase call = .launching directory script startedAt) :
    Tracked { machine with
      phase := update machine.phase call
        (.launched directory (launchedEntry paths directory script startedAt answers))
      live := ⟨call, directory, launchedEntry paths directory script startedAt answers⟩ :: machine.live } ↔
    ∀ other ∈ machine.live, other.directory ≠ directory := by
  have others : ∀ other ∈ machine.live, other.call ≠ call :=
    fun other runs => sound.waiting (by rw [was]; rfl) runs
  constructor
  · intro after other runs same
    have one := after.single other (List.mem_cons_of_mem _ runs) _ List.mem_cons_self same
    exact others other runs (by rw [one])
  · intro alone
    refine ⟨?_, ?_⟩
    · intro other runs
      rcases List.mem_cons.mp runs with rfl | runs
      · left
        simp [InProgress, RunPhase.carried]
      · exact (tracked.recorded other runs).imp_left fun before => by
          simpa [InProgress, update_of_ne (others other runs)] using before
    · intro first runs second runs' same
      rcases List.mem_cons.mp runs with rfl | runs <;> rcases List.mem_cons.mp runs' with rfl | runs'
      · rfl
      · exact absurd same.symm (alone second runs')
      · exact absurd same (alone first runs)
      · exact tracked.single first runs second runs' same

/-- An entry that is written keeps the processes tracked exactly where the step is orderly. -/
theorem tracked_record (tracked : machine.Tracked) (sound : Sound machine) {entry : RunEntry}
    (was : machine.phase call = .recording directory entry) (done : answers.failure = none)
    (plain : phase.carried = none) :
    Tracked { machine with
      states := machine.states.updateDirectoryRunState answers.readable directory { run := some entry }
      phase := update machine.phase call phase
      inFlight := inFlight } ↔ machine.Orderly paths (.advance call answers) := by
  have orderly : machine.Orderly paths (.advance call answers) ↔ ∀ script ∈ machine.live,
      script.call = call ∨ machine.InProgress script ∨
        if script.directory = directory then script.entry = entry else answers.readable = true := by
    simp [Orderly, was, done]
  rw [orderly]
  refine (tracked_settle machine.cache tracked plain).trans
    (forall₂_congr fun script runs => ?_)
  by_cases own : script.call = call
  · have carries := sound.own script runs
    rw [own, was] at carries
    obtain ⟨same, same'⟩ := Prod.mk.inj (carries _ rfl)
    simp [own, ← same, ← same', RunStates.updateDirectoryRunState]
  · by_cases progress : machine.InProgress script
    · simp [own, progress]
    · have was := (tracked.recorded script runs).resolve_left progress
      simp only [own, progress, and_false, false_or]
      by_cases same : script.directory = directory
      · simp [same, RunStates.updateDirectoryRunState, eq_comm]
      · cases answers.readable with
        | true => simp [same, RunStates.updateDirectoryRunState, was]
        | false => simp [same, RunStates.updateDirectoryRunState, RunStates.readRunState]

/-- An entry that is cleared keeps the processes tracked exactly where the step is orderly. -/
theorem tracked_clear (tracked : machine.Tracked) (sound : Sound machine) {result : RunStopResult}
    (was : machine.phase call = .clearing directory result) (done : answers.failure = none)
    (plain : phase.carried = none) :
    Tracked { machine with
      states := machine.states.clearRunEntry answers.readable directory
      phase := update machine.phase call phase
      inFlight := inFlight } ↔ machine.Orderly paths (.advance call answers) := by
  have orderly : machine.Orderly paths (.advance call answers) ↔ (answers.readable = true →
      ∀ script ∈ machine.live, script.directory = directory → machine.InProgress script) := by
    simp [Orderly, was, done]
  rw [orderly]
  refine (tracked_settle machine.cache tracked plain).trans ?_
  cases readable : answers.readable with
  | false =>
    have same : machine.states.clearRunEntry false directory = machine.states := by
      simp [RunStates.clearRunEntry, RunStates.readRunState]
    rw [same]
    refine iff_of_true (fun script runs => ?_) (fun impossible => by cases impossible)
    exact (tracked.recorded script runs).imp_left
      (fun progress => ⟨sound.waiting (by rw [was]; rfl) runs, progress⟩)
  | true =>
    simp only [RunStates.run_clear, forall_const]
    refine forall₂_congr fun script runs => ?_
    have other : script.call ≠ call := sound.waiting (by rw [was]; rfl) runs
    by_cases same : script.directory = directory
    · simp [same, other]
    · simpa [same, other] using tracked.recorded script runs

/-- A process that is lost keeps the processes tracked exactly where the step is orderly. -/
theorem tracked_lose (tracked : machine.Tracked) (sound : Sound machine) {entry : RunEntry}
    (was : machine.phase call = .launched directory entry ∧ entry.method = .tmux ∨
      machine.phase call = .recording directory entry) (failed : answers.failure ≠ none)
    (plain : phase.carried = none)
    {cache : List (RunKind × String × String × Nat)} :
    Tracked { machine with
      phase := update machine.phase call phase, cache := cache, inFlight := inFlight } ↔
    machine.Orderly paths (.advance call answers) := by
  have orderly : machine.Orderly paths (.advance call answers) ↔ ∀ script ∈ machine.live,
      script.call = call → (machine.states directory).run = some entry := by
    rcases was with ⟨was, method⟩ | was
    · simp [Orderly, was, method, failed]
    · simp [Orderly, was, failed]
  have carries : (machine.phase call).carried = some (directory, entry) := by
    rcases was with ⟨was, -⟩ | was <;> simp [was, RunPhase.carried]
  rw [orderly]
  refine (tracked_settle _ tracked plain).trans (forall₂_congr fun script runs => ?_)
  by_cases own : script.call = call
  · have named := sound.own script runs (directory, entry) (by rw [own]; exact carries)
    obtain ⟨same, same'⟩ := Prod.mk.inj named
    simp [own, same, same']
  · simpa [own] using tracked.recorded script runs

/-- A request launches and records nothing. -/
theorem tracked_request (tracked : machine.Tracked) (sound : Sound machine) (kind : RunKind)
    (idempotencyKey worktree : String) : (machine.request kind idempotencyKey worktree).Tracked := by
  have made : ∀ cache inFlight, Tracked { machine with
      phase := update machine.phase machine.next (.resolving kind worktree)
      next := machine.next + 1
      cache := cache
      inFlight := inFlight } := by
    intro cache inFlight
    refine ⟨fun script runs => ?_, tracked.single⟩
    have other : script.call ≠ machine.next := Nat.ne_of_lt (sound.known script runs)
    simpa [InProgress, update_of_ne other] using tracked.recorded script runs
  unfold RunMachine.request
  split
  · exact tracked
  · split
    · exact ⟨tracked.recorded, tracked.single⟩
    · exact made _ _

/-- A step keeps the processes tracked exactly where it is orderly. -/
theorem step_tracked_iff (tracked : machine.Tracked) (sound : Sound machine) {event : RunEvent}
    (taken : machine.step paths event = some next) : next.Tracked ↔ machine.Orderly paths event := by
  cases event with
  | request kind idempotencyKey worktree =>
    cases taken
    exact iff_of_true (tracked_request tracked sound kind idempotencyKey worktree) trivial
  | exit call =>
    refine iff_of_true ?_ trivial
    cases taken
    refine ⟨fun script runs => tracked.recorded script (List.mem_filter.mp runs).1, ?_⟩
    intro first runs second runs'
    exact tracked.single first (List.mem_filter.mp runs).1 second (List.mem_filter.mp runs').1
  | advance call answers =>
    cases advance_effect taken with
    | quiet waits plain orderly =>
      refine iff_of_true ((tracked_settle _ tracked plain).mpr fun script runs => ?_) orderly
      exact (tracked.recorded script runs).imp_left
        (fun progress => ⟨sound.waiting waits runs, progress⟩)
    | launch was launches =>
      refine (tracked_launch tracked sound was).trans ?_
      simp [Orderly, was, launches]
    | launched was well =>
      have orderly : machine.Orderly paths (.advance call answers) := by
        simp only [Orderly, was]
        exact fun method failed => absurd (well method) failed
      refine iff_of_true ⟨fun script runs => ?_, tracked.single⟩ orderly
      by_cases own : script.call = call
      · left
        simp [InProgress, own, RunPhase.carried]
      · exact (tracked.recorded script runs).imp_left (inProgress_of_ne own).mpr
    | lose was failed => exact tracked_lose tracked sound was failed rfl
    | record was done => exact tracked_record tracked sound was done rfl
    | clear was done => exact tracked_clear tracked sound was done rfl

end RunMachine

/-! ## Runs -/

/-- What an earlier daemon has left: the recorded state, and processes that still run, each the recorded
one of its directory and the only one there. `calls` have been made of it. -/
structure LeftRunning where
  states : RunStates
  live : List RunningScript
  calls : Nat
  made : ∀ script ∈ live, script.call < calls
  recorded : ∀ script ∈ live, (states script.directory).run = some script.entry
  single : ∀ first ∈ live, ∀ second ∈ live, first.directory = second.directory → first = second

namespace RunMachine

/-- Before any request. -/
def start (left : LeftRunning) : RunMachine where
  states := left.states
  live := left.live
  phase := fun _ => .absent
  next := left.calls
  cache := []
  inFlight := []

theorem sound_start (left : LeftRunning) : Sound (start left) where
  absent := fun _ _ => rfl
  known := left.made
  past := fun _ _ => rfl
  own := fun _ _ _ carries => by cases carries

theorem tracked_start (left : LeftRunning) : (start left).Tracked where
  recorded := fun script runs => .inr (left.recorded script runs)
  single := left.single

/-- In a run, the processes that starts launch stay tracked exactly where every step is orderly. -/
theorem runs_tracked_iff (paths : RunPaths) (left : LeftRunning) (events : List RunEvent) :
    Always (step paths) (fun _ _ next => next.Tracked) (start left) events ↔
      Always (step paths) (fun machine event _ => machine.Orderly paths event) (start left) events :=
  always_state_iff Sound Tracked (fun machine event => machine.Orderly paths event)
    (fun _ _ _ sound taken => sound.step taken)
    (fun _ _ _ sound tracked taken => step_tracked_iff tracked sound taken)
    events (sound_start left) (tracked_start left)

/-- A directory that two paths lead to. -/
def linkedPaths : RunPaths where
  resolveRunContext := fun _ => some ⟨"/w", "/w"⟩
  directoryHash := fun _ => "w"
  runLogFilePath := fun _ => "/h/run.log"

/-- Nothing is left running or recorded. -/
def nothingLeft : LeftRunning := ⟨fun _ => {}, [], 1, by simp, by simp, by simp⟩

/-- What a step meets without tmux. -/
def plainAnswers (pid : Nat) : RunAnswers := ⟨none, true, false, some "npm run dev", 100, false, pid⟩

/-- Two starts for two paths of one directory launch two processes. -/
theorem linked_paths_launch_twice :
    ¬ ∀ paths left events, Always (step paths) (fun _ _ next => next.Tracked) (start left) events := by
  intro always
  have tracked := always_step (always linkedPaths nothingLeft
    ([.request .start "k1" "/w", .request .start "k2" "/link",
      .advance 1 (plainAnswers 7), .advance 1 (plainAnswers 7), .advance 1 (plainAnswers 7),
      .advance 1 (plainAnswers 7), .advance 2 (plainAnswers 8), .advance 2 (plainAnswers 8),
      .advance 2 (plainAnswers 8), .advance 2 (plainAnswers 8), .advance 1 (plainAnswers 7)] ++
      [.advance 2 (plainAnswers 8)])) rfl rfl
  have same := tracked.single _ List.mem_cons_self _ (List.mem_cons_of_mem _ List.mem_cons_self) rfl
  exact absurd (congrArg RunningScript.call same) (by decide)

end RunMachine

end Kvy.Cli.Daemon
