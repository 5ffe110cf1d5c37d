import Kvy.Cli.Adopt.Liveness

/-!
# Taking over a session

A takeover ends the process that is presumed to run on the transcript and then starts a managed session
on it. The process gets a SIGTERM and some time; if it is still there after that, it gets a SIGKILL, and
the session is started at once. A run of the handler is computed from the processes of the machine, from
when each of them ends, and from how long the steps of the handler take.
-/

namespace Kvy.Cli.Daemon

open General Adopt

/-- `DEFAULT_GRACEFUL_TIMEOUT_MS`. -/
def defaultGracefulTimeoutMs : Nat := 5000

/-- `MID_TURN_WARNING`. -/
def midTurnWarning : String :=
  "the original session was still running and may have been mid-turn. That step was interrupted by takeover"

/-- What the handler is given besides the machine. -/
structure AdoptTakeDeps where
  claudeConfigDir : Option String
  homedir : String
  gracefulTimeoutMs : Nat := defaultGracefulTimeoutMs

inductive AdoptMode where
  | takeover
  | fork
deriving DecidableEq

/-- `AdoptTakeParams`. -/
structure AdoptTakeParams where
  idempotencyKey : String
  providerSessionId : String
  mode : AdoptMode

/-- `ResolvedProviderSession`. -/
structure ResolvedProviderSession where
  workspaceId : String
  directory : String

/-- The parameters of the session that is started. -/
structure ContinueParams where
  idempotencyKey : String
  workspaceId : String
  directory : String
  provider : String
  permissionMode : String
  continueFrom : String

/-- A call of `spawnSession`: its time, the signals that were sent before, and the warning that the result
will carry. -/
structure SpawnCall where
  params : ContinueParams
  time : Nat
  sent : List SentSignal
  warning : Option String

/-- A character that a project identifier keeps. -/
def isProjectChar (char : Char) : Bool := char.isAlphanum || char = '-'

/-- `getProjectPath`. A character outside the basic plane is two code units, and each is replaced. -/
def getProjectPath (cwd : List Char) (deps : AdoptTakeDeps) (workingDirectory : String) : List Char :=
  let projectId := (PosixPath.resolve cwd workingDirectory.toList).flatMap (fun char =>
    if isProjectChar char then [char] else if char.toNat < 0x10000 then ['-'] else ['-', '-'])
  let claudeConfigDir := match deps.claudeConfigDir with
    | none | some "" => PosixPath.join [deps.homedir.toList, ".claude".toList]
    | some configured => configured.toList
  PosixPath.join [claudeConfigDir, "projects".toList, projectId]

/-- `waitForExit`: the time at which the wait is over. The `n`-th pause comes next. -/
def waitForExit (isAlive : Nat → Bool) (late : Nat → Nat) (deadline n now : Nat) : Nat :=
  if isAlive now = true ∧ now < deadline then
    waitForExit isAlive late deadline (n + 1) (now + (200 + late n))
  else now
termination_by deadline - now
decreasing_by omega

/-- `killGracefully`: the time at which it is over, and what was sent. -/
def killGracefully (machine : Machine) (timing : Timing) (gracefulTimeoutMs pid : Nat) :
    Nat × List SentSignal :=
  let sent := [⟨pid, .sigterm, timing.decided⟩]
  let last := waitForExit (machine.isAlive sent pid) timing.late (timing.decided + gracefulTimeoutMs) 0
    timing.decided
  if machine.isAlive sent pid last then (last, sent ++ [⟨pid, .sigkill, last⟩]) else (last, sent)

/-- What a takeover does before the session is started, and the warning it leaves. -/
def takeOver (machine : Machine) (timing : Timing) (deps : AdoptTakeDeps) (providerSessionId : String)
    (resolved : ResolvedProviderSession) : (Nat × List SentSignal) × Option String :=
  let projectDir := getProjectPath machine.cwd deps resolved.directory
  match findOwningClaudeProcess machine timing resolved.directory projectDir with
  | none => ((timing.decided, []), none)
  | some owning =>
    if owning.providerSessionId = providerSessionId then
      (killGracefully machine timing deps.gracefulTimeoutMs owning.pid, some midTurnWarning)
    else ((timing.decided, []), none)

/-- `handleAdoptTake`, up to its call of `spawnSession`. -/
def handleAdoptTake (machine : Machine) (timing : Timing) (deps : AdoptTakeDeps)
    (params : AdoptTakeParams) (resolved : Option ResolvedProviderSession) : Except String SpawnCall :=
  match resolved with
  | none => .error ("adopt.take: could not resolve provider session \"" ++ params.providerSessionId ++
      "\" to a registered workspace")
  | some resolved =>
    let ((time, sent), warning) := match params.mode with
      | .takeover => takeOver machine timing deps params.providerSessionId resolved
      | .fork => ((timing.decided, []), none)
    .ok ⟨⟨params.idempotencyKey, resolved.workspaceId, resolved.directory, "claude-code", "default",
      params.providerSessionId⟩, time, sent, warning⟩

/-! ## What is claimed -/

/-- At a call of `spawnSession`, no `claude` process that Kvy has not launched runs on the transcript of
the session. -/
def SpawnCall.LeavesNone (call : SpawnCall) (machine : Machine) : Prop :=
  ∀ process ∈ machine.processes, process.session = some call.params.continueFrom →
    process.alive call.sent call.time = false

/-- How long after the SIGTERM the `n`-th check is made. -/
def elapsed (late : Nat → Nat) : Nat → Nat
  | 0 => 0
  | n + 1 => elapsed late n + (200 + late n)

/-- The wait for a process ends with the `n`-th check: the process has outlived the checks before, which
belong to the time it is given, and has ended by this one, or its time is over. -/
structure LastCheck (timing : Timing) (gracefulTimeoutMs : Nat) (owner : Process) (n : Nat) : Prop where
  earlier : ∀ k < n, elapsed timing.late k < gracefulTimeoutMs ∧
    ¬ owner.EndsOnTerm timing.decided (timing.decided + elapsed timing.late k)
  passed : gracefulTimeoutMs ≤ elapsed timing.late n ∨
    owner.EndsOnTerm timing.decided (timing.decided + elapsed timing.late n)

/-- The session of the newest transcript of a directory. -/
def NewestIn (machine : Machine) (deps : AdoptTakeDeps) (directory providerSessionId : String) : Prop :=
  ∃ entries ∈ machine.readdir (getProjectPath machine.cwd deps directory),
    Newest entries providerSessionId

/-- The first process in a directory. -/
def FirstIn (machine : Machine) (timing : Timing) (directory : String) (owner : Process) : Prop :=
  machine.First timing (PosixPath.resolve machine.cwd directory.toList) owner

/-- The processes that run on the transcript of a session end in time. Where its transcript is the newest
and some process is the first in the directory, that process has until the last check of the wait, with
the help of a SIGTERM, and every other one ends by itself by then. Elsewhere each of them ends by itself
before the transcripts have been read. -/
structure EndInTime (machine : Machine) (timing : Timing) (deps : AdoptTakeDeps)
    (providerSessionId directory : String) : Prop where
  waited : ∀ owner, FirstIn machine timing directory owner →
    NewestIn machine deps directory providerSessionId →
    ∀ n, LastCheck timing deps.gracefulTimeoutMs owner n →
    ∀ process ∈ machine.processes, process.session = some providerSessionId →
      process.EndsBy (timing.decided + elapsed timing.late n) ∨
      process = owner ∧ owner.EndsOnTerm timing.decided (timing.decided + elapsed timing.late n)
  unseen : ¬ (NewestIn machine deps directory providerSessionId ∧
      ∃ owner, FirstIn machine timing directory owner) →
    ∀ process ∈ machine.processes, process.session = some providerSessionId →
      process.EndsBy timing.decided

/-! ## Signals -/

variable {machine : Machine}

section signals

variable {process : Process} {sent : List SentSignal} {start time : Nat}

theorem alive_nil : process.alive [] time = false ↔ process.EndsBy time := by
  cases ends : process.ends with
  | none => simp [Process.alive, Process.EndsBy, ends]
  | some last => simp [Process.alive, Process.EndsBy, ends]

/-- Signals to other processes leave a process as it is. -/
theorem alive_other (others : ∀ signal ∈ sent, signal.pid ≠ process.entry.pid) :
    process.alive sent time = process.alive [] time := by
  have none : sent.filter (fun signal => signal.pid = process.entry.pid) = [] :=
    List.filter_eq_nil_iff.mpr (fun signal member => by simpa using others signal member)
  rw [Process.alive, none]
  rfl

theorem alive_term :
    process.alive [⟨process.entry.pid, .sigterm, start⟩] time = false ↔
      process.EndsOnTerm start time := by
  have own : process.alive [⟨process.entry.pid, .sigterm, start⟩] time =
      (process.alive [] time && process.onTerm.all (fun delay => time < start + delay)) := by
    simp [Process.alive, Process.survives]
  rw [own, Bool.and_eq_false_iff, alive_nil]
  cases heeds : process.onTerm with
  | none => simp [Process.EndsOnTerm, heeds]
  | some delay => simp [Process.EndsOnTerm, heeds]

/-- A process does not end at the moment at which it gets a SIGKILL. -/
theorem alive_kill :
    process.alive (sent ++ [⟨process.entry.pid, .sigkill, time⟩]) time = process.alive sent time := by
  simp [Process.alive, Process.survives]

/-- The pid of a process is its own. -/
theorem isAlive_eq (member : process ∈ machine.processes) :
    machine.isAlive sent process.entry.pid time = process.alive sent time := by
  have own : ∀ other ∈ machine.processes, other.entry.pid = process.entry.pid → other = process :=
    fun other among same => List.inj_on_of_nodup_map machine.distinct among member same
  rw [Bool.eq_iff_iff, Machine.isAlive, List.any_eq_true]
  constructor
  · rintro ⟨other, among, runs⟩
    rw [Bool.and_eq_true, decide_eq_true_eq] at runs
    obtain ⟨same, runs⟩ := runs
    rwa [own other among same] at runs
  · intro runs
    exact ⟨process, member, by simpa using runs⟩

end signals

/-! ## The wait -/

/-- The wait ends with the first check at which the process has ended or its time is over. -/
theorem waitForExit_ends
    (isAlive : Nat → Bool) (late : Nat → Nat) {start : Nat} (grace : Nat) {n now : Nat}
    (at' : now = start + elapsed late n)
    (earlier : ∀ k < n, elapsed late k < grace ∧ isAlive (start + elapsed late k) = true) :
    ∃ m, (∀ k < m, elapsed late k < grace ∧ isAlive (start + elapsed late k) = true) ∧
      (grace ≤ elapsed late m ∨ isAlive (start + elapsed late m) = false) ∧
      waitForExit isAlive late (start + grace) n now = start + elapsed late m := by
  fun_induction waitForExit isAlive late (start + grace) n now with
  | case1 n now goes inductionHypothesis =>
    subst at'
    refine inductionHypothesis (by rw [elapsed, Nat.add_assoc]) ?_
    intro k before
    by_cases last : k = n
    · subst last
      exact ⟨by omega, goes.1⟩
    · exact earlier k (by omega)
  | case2 n now stays =>
    subst at'
    refine ⟨n, earlier, ?_, rfl⟩
    by_cases late' : grace ≤ elapsed late n
    · exact .inl late'
    · right
      cases runs : isAlive (start + elapsed late n) with
      | true => exact absurd ⟨runs, by omega⟩ stays
      | false => rfl

variable {owner : Process}

/-- The wait has one last check. -/
theorem LastCheck.unique {timing : Timing} {grace : Nat} {first second : Nat}
    (one : LastCheck timing grace owner first) (two : LastCheck timing grace owner second) :
    first = second := by
  have least : ∀ {first second}, LastCheck timing grace owner first →
      LastCheck timing grace owner second → ¬ first < second := by
    intro first second one two before
    obtain ⟨within, outlives⟩ := two.earlier first before
    rcases one.passed with late | ends
    · omega
    · exact outlives ends
  have forth := least one two
  have back := least two one
  omega

/-- What has ended after a SIGTERM to one process, and at the moment at which it gets a SIGKILL too. -/
theorem alive_after_signals {process : Process} {start time : Nat}
    {sent : List SentSignal} (member : owner ∈ machine.processes) (among : process ∈ machine.processes)
    (was : sent = [⟨owner.entry.pid, .sigterm, start⟩] ∨
      sent = [⟨owner.entry.pid, .sigterm, start⟩] ++ [⟨owner.entry.pid, .sigkill, time⟩]) :
    process.alive sent time = false ↔
      process.EndsBy time ∨ process = owner ∧ owner.EndsOnTerm start time := by
  by_cases same : process = owner
  · subst same
    have term : process.alive sent time = false ↔ process.EndsOnTerm start time := by
      rcases was with rfl | rfl
      · exact alive_term
      · rw [alive_kill, alive_term]
    rw [term]
    exact ⟨fun ends => .inr ⟨rfl, ends⟩, fun ends => ends.elim .inl And.right⟩
  · have differs : owner.entry.pid ≠ process.entry.pid := fun same' =>
      same (List.inj_on_of_nodup_map machine.distinct among member same'.symm)
    have others : ∀ signal ∈ sent, signal.pid ≠ process.entry.pid := by
      rcases was with rfl | rfl <;> simpa using differs
    rw [alive_other others, alive_nil]
    exact ⟨.inl, fun ends => ends.elim id (fun own => absurd own.1 same)⟩

/-- A process that is killed gracefully has until the last check. -/
theorem killGracefully_ends (timing : Timing) (grace : Nat) (member : owner ∈ machine.processes) :
    ∃ n, LastCheck timing grace owner n ∧
      (killGracefully machine timing grace owner.entry.pid).1 =
        timing.decided + elapsed timing.late n ∧
      ∀ process ∈ machine.processes,
        (process.alive (killGracefully machine timing grace owner.entry.pid).2
          (timing.decided + elapsed timing.late n) = false ↔
        process.EndsBy (timing.decided + elapsed timing.late n) ∨ process = owner ∧
          owner.EndsOnTerm timing.decided (timing.decided + elapsed timing.late n)) := by
  obtain ⟨n, earlier, passed, ended⟩ := waitForExit_ends
    (machine.isAlive [⟨owner.entry.pid, .sigterm, timing.decided⟩] owner.entry.pid) timing.late grace
    (Nat.add_zero timing.decided).symm (fun k before => absurd before (Nat.not_lt_zero k))
  have owns : ∀ time, machine.isAlive [⟨owner.entry.pid, .sigterm, timing.decided⟩] owner.entry.pid
      time = false ↔ owner.EndsOnTerm timing.decided time := by
    intro time
    rw [isAlive_eq member, alive_term]
  have last : LastCheck timing grace owner n := by
    refine ⟨?_, passed.imp_right (owns _).mp⟩
    intro k before
    obtain ⟨within, runs⟩ := earlier k before
    refine ⟨within, fun ends => ?_⟩
    rw [(owns _).mpr ends] at runs
    cases runs
  refine ⟨n, last, ?_, fun process among => alive_after_signals member among ?_⟩
  · rw [killGracefully, ended]
    split <;> rfl
  · rw [killGracefully, ended]
    split
    · exact .inr rfl
    · exact .inl rfl

/-- A process that is listed is one of the machine. -/
theorem First.member {timing : Timing} {workspace : List Char}
    (first : machine.First timing workspace owner) : owner ∈ machine.processes := by
  obtain ⟨before, after, shape, -⟩ := first
  refine (List.mem_filter.mp (?_ : owner ∈ machine.listProcesses timing)).1
  rw [shape]
  simp

/-! ## Takeovers -/

/-- When a takeover starts the session, and what has ended by then. -/
theorem takeOver_ends (machine : Machine) (timing : Timing) (deps : AdoptTakeDeps)
    (providerSessionId : String) (resolved : ResolvedProviderSession) :
    (∀ process ∈ machine.processes, process.session = some providerSessionId →
      process.alive (takeOver machine timing deps providerSessionId resolved).1.2
        (takeOver machine timing deps providerSessionId resolved).1.1 = false) ↔
      EndInTime machine timing deps providerSessionId resolved.directory := by
  by_cases seen : NewestIn machine deps resolved.directory providerSessionId ∧
      ∃ owner, FirstIn machine timing resolved.directory owner
  · obtain ⟨newest, owner, first⟩ := seen
    have member := First.member first
    have found : findOwningClaudeProcess machine timing resolved.directory
        (getProjectPath machine.cwd deps resolved.directory) =
          some ⟨owner.entry.pid, providerSessionId⟩ :=
      findOwningClaudeProcess_eq_some.mpr ⟨⟨owner, first, rfl⟩, newest⟩
    have shape : (takeOver machine timing deps providerSessionId resolved).1 =
        killGracefully machine timing deps.gracefulTimeoutMs owner.entry.pid := by
      simp only [takeOver, found, ↓reduceIte]
    obtain ⟨n, last, time, ends⟩ := killGracefully_ends timing deps.gracefulTimeoutMs member
    rw [shape, time]
    constructor
    · intro gone
      refine ⟨?_, fun unseen => absurd ⟨newest, owner, first⟩ unseen⟩
      intro other first' _ m last' process among runsOn
      have same : other = owner := by
        have names : findOwningClaudeProcess machine timing resolved.directory
            (getProjectPath machine.cwd deps resolved.directory) =
              some ⟨other.entry.pid, providerSessionId⟩ :=
          findOwningClaudeProcess_eq_some.mpr ⟨⟨other, first', rfl⟩, newest⟩
        rw [found] at names
        have pid : owner.entry.pid = other.entry.pid := congrArg OwningProcess.pid (Option.some.inj names)
        exact List.inj_on_of_nodup_map machine.distinct (First.member first') member pid.symm
      subst same
      obtain rfl := last.unique last'
      exact (ends process among).mp (gone process among runsOn)
    · intro inTime process among runsOn
      exact (ends process among).mpr (inTime.waited owner first newest n last process among runsOn)
  · have shape : (takeOver machine timing deps providerSessionId resolved).1 = (timing.decided, []) := by
      cases found : findOwningClaudeProcess machine timing resolved.directory
          (getProjectPath machine.cwd deps resolved.directory) with
      | none => simp only [takeOver, found]
      | some owning =>
        obtain ⟨⟨owner, first, -⟩, newest⟩ := findOwningClaudeProcess_eq_some.mp found
        have differs : owning.providerSessionId ≠ providerSessionId := by
          rintro rfl
          exact seen ⟨newest, owner, first⟩
        simp only [takeOver, found, if_neg differs]
    rw [shape]
    simp only [alive_nil]
    constructor
    · intro gone
      refine ⟨fun owner first newest => absurd ⟨newest, owner, first⟩ seen, fun _ => gone⟩
    · intro inTime
      exact inTime.unseen seen

/-- A takeover leaves no other process on the transcript of its session exactly where those that run on it
end in time. -/
theorem takeover_leaves_none_iff (machine : Machine) (timing : Timing) (deps : AdoptTakeDeps)
    (idempotencyKey providerSessionId : String) (resolved : ResolvedProviderSession) :
    (∀ call, handleAdoptTake machine timing deps ⟨idempotencyKey, providerSessionId, .takeover⟩
      (some resolved) = .ok call → call.LeavesNone machine) ↔
      EndInTime machine timing deps providerSessionId resolved.directory := by
  rw [← takeOver_ends]
  constructor
  · intro leaves
    exact leaves _ rfl
  · rintro gone call ⟨⟩
    exact gone

/-- A machine with one process, which ignores the SIGTERM. -/
def stubbornMachine : Machine where
  processes := [⟨⟨42, 1, "claude"⟩, some "/w", some "p", none, none, 10⟩]
  distinct := by decide
  readdir := fun _ => some [("p.jsonl", some 1)]
  cwd := ['/']

/-- A pause that ends late. -/
def slowTiming : Timing where
  listed := 0
  asked := fun _ => 0
  decided := 0
  late := fun _ => 4800
  inOrder := fun _ _ _ => Nat.le_refl 0
  before := fun _ => ⟨Nat.le_refl 0, Nat.le_refl 0⟩

/-- A process that ignores the SIGTERM is still there when the session is started. -/
theorem sigkill_not_awaited :
    ¬ ∀ machine timing deps idempotencyKey providerSessionId resolved call,
      handleAdoptTake machine timing deps ⟨idempotencyKey, providerSessionId, .takeover⟩
        (some resolved) = .ok call → call.LeavesNone machine := by
  intro leaves
  have found : findOwningClaudeProcess stubbornMachine slowTiming "/w"
      (getProjectPath stubbornMachine.cwd ⟨none, "/h", 5000⟩ "/w") = some ⟨42, "p"⟩ := by decide
  have waits : waitForExit (stubbornMachine.isAlive [⟨42, .sigterm, 0⟩] 42) slowTiming.late (0 + 5000) 0
      0 = 5000 := by
    rw [waitForExit, if_pos (by decide), waitForExit, if_neg (by decide)]
    rfl
  have kills : killGracefully stubbornMachine slowTiming 5000 42 =
      (5000, [⟨42, .sigterm, 0⟩, ⟨42, .sigkill, 5000⟩]) := by
    have shape : slowTiming.decided = 0 := rfl
    rw [killGracefully, shape, waits]
    decide
  have takes : takeOver stubbornMachine slowTiming ⟨none, "/h", 5000⟩ "p" ⟨"w1", "/w"⟩ =
      ((5000, [⟨42, .sigterm, 0⟩, ⟨42, .sigkill, 5000⟩]), some midTurnWarning) := by
    simp only [takeOver, found, kills, ↓reduceIte]
  have calls : handleAdoptTake stubbornMachine slowTiming ⟨none, "/h", 5000⟩ ⟨"k", "p", .takeover⟩
      (some ⟨"w1", "/w"⟩) = .ok ⟨⟨"k", "w1", "/w", "claude-code", "default", "p"⟩, 5000,
        [⟨42, .sigterm, 0⟩, ⟨42, .sigkill, 5000⟩], some midTurnWarning⟩ := by
    simp only [handleAdoptTake, takes]
  have gone := leaves _ _ _ _ _ _ _ calls _ List.mem_cons_self rfl
  exact absurd gone (by decide)

end Kvy.Cli.Daemon
