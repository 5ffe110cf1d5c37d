import Kvy.Cli.Daemon.ResumeSession
import Kvy.Cli.Daemon.SessionOwnerRuns

/-!
# Runs of resumed sessions

A call that finds every running process of the session waits for the only pid under which one runs.
As long as no other call gets between and no other process reports the session meanwhile, nothing of
the session runs when the new process is launched.
-/

namespace Kvy.Cli.Daemon.Registry.ResumeWorld

open General General.Runs

variable {world next : ResumeWorld} {event : ResumeEvent}

/-! ## What is kept -/

/-- What is kept: one owner; one call in flight; and a call in flight has nothing of the session beside
the pid that it waits for, and no process of another call when it is at the launcher. -/
structure Sound (world : ResumeWorld) : Prop where
  one : world.OneOwner
  alone : ∀ call other, world.InFlight call → world.InFlight other → call = other
  stopping : ∀ (call : Nat) (persisted : PersistedSession) (directory : String) (pid : Nat),
    world.calls[call]? = some (.stopping persisted directory pid) → ∀ process ∈ world.processes,
      process.running = true → process.owns = true → process.pid = pid
  launching : ∀ (call : Nat) (directory : String) (launch : ResumeLaunch),
    world.calls[call]? = some (.launching directory launch) →
    world.hasStarted call = false → ∀ process ∈ world.processes, process.running = true →
      process.launchedBy = none

/-- The stage of a call after one call has moved. -/
theorem stage_move {call other : Nat} {stage reached : ResumeStage}
    (held : (world.move call stage).calls[other]? = some reached) :
    (call = other ∧ reached = stage) ∨ (call ≠ other ∧ world.calls[other]? = some reached) := by
  rw [move, List.getElem?_set] at held
  split at held
  · split at held
    · exact Or.inl ⟨‹_›, (Option.some.inj held).symm⟩
    · contradiction
  · exact Or.inr ⟨‹_›, held⟩

/-- A call that is in flight after another has moved was in flight. -/
theorem in_flight_other {call other : Nat} {stage : ResumeStage} (apart : call ≠ other)
    (flight : (world.move call stage).InFlight other) : world.InFlight other := by
  rcases flight with ⟨persisted, directory, pid, held⟩ | ⟨⟨directory, launch, held⟩, new⟩
  · obtain ⟨same, _⟩ | ⟨_, held⟩ := stage_move held
    · exact absurd same apart
    · exact Or.inl ⟨persisted, directory, pid, held⟩
  · obtain ⟨same, _⟩ | ⟨_, held⟩ := stage_move held
    · exact absurd same apart
    · exact Or.inr ⟨⟨directory, launch, held⟩, new⟩

/-- A call moves to a stage. Where that is in flight no other call is, and nothing of the session runs
beside what it may wait for. -/
theorem Sound.moved (sound : Sound world) {call : Nat} {stage : ResumeStage}
    (stops : ∀ persisted directory pid, stage = .stopping persisted directory pid →
      (∀ other, other ≠ call → ¬ world.InFlight other) ∧
        ∀ process ∈ world.processes, process.running = true → process.owns = true →
          process.pid = pid)
    (launches : ∀ directory launch, stage = .launching directory launch →
      (∀ other, other ≠ call → ¬ world.InFlight other) ∧
        ∀ process ∈ world.processes, process.running = true → process.owns = false) :
    Sound (world.move call stage) := by
  have only {other : Nat} (flight : (world.move call stage).InFlight call) (apart : other ≠ call) :
      ¬ (world.move call stage).InFlight other := by
    intro otherFlight
    have before := in_flight_other (Ne.symm apart) otherFlight
    rcases flight with ⟨persisted, directory, pid, held⟩ | ⟨⟨directory, launch, held⟩, _⟩
    · obtain ⟨_, same⟩ | ⟨differ, _⟩ := stage_move held
      · exact (stops persisted directory pid same.symm).1 other apart before
      · exact differ rfl
    · obtain ⟨_, same⟩ | ⟨differ, _⟩ := stage_move held
      · exact (launches directory launch same.symm).1 other apart before
      · exact differ rfl
  refine ⟨sound.one, ?_, ?_, ?_⟩
  · intro first second one two
    by_cases isFirst : first = call
    · subst isFirst
      by_contra apart
      exact only one (Ne.symm apart) two
    · by_cases isSecond : second = call
      · subst isSecond
        exact absurd one (only two isFirst)
      · exact sound.alone first second (in_flight_other (Ne.symm isFirst) one)
          (in_flight_other (Ne.symm isSecond) two)
  · intro other persisted directory pid held
    obtain ⟨_, same⟩ | ⟨_, before⟩ := stage_move held
    · exact (stops persisted directory pid same.symm).2
    · exact sound.stopping other persisted directory pid before
  · intro other directory launch held new process member running
    obtain ⟨_, same⟩ | ⟨_, before⟩ := stage_move held
    · have unowned := (launches directory launch same.symm).2 process member running
      simp only [OwnedProcess.owns, Bool.or_eq_false_iff, Option.isSome_eq_false_iff,
        Option.isNone_iff_eq_none] at unowned
      exact unowned.1
    · exact sound.launching other directory launch before new process member running

/-- The processes change: each keeps its pid and its call and may end; one that comes to own the session
and runs is what the calls wait for. -/
theorem Sound.changed (sound : Sound world) {changed : Nat → OwnedProcess → OwnedProcess}
    (same : ∀ index process, (changed index process).pid = process.pid ∧
      (changed index process).launchedBy = process.launchedBy ∧
      ((changed index process).running = true → process.running = true))
    (owns : ∀ (call : Nat) (persisted : PersistedSession) (directory : String) (pid : Nat),
      world.calls[call]? = some (.stopping persisted directory pid) →
        ∀ (index : Nat) (process : OwnedProcess), world.processes[index]? = some process → (changed index process).running = true →
        (changed index process).owns = true → process.pid = pid) :
    Sound (world.change changed) := by
  have started (call : Nat) : (world.change changed).hasStarted call = world.hasStarted call := by
    have launched : (world.change changed).processes.map OwnedProcess.launchedBy =
        world.processes.map OwnedProcess.launchedBy := by
      apply List.ext_getElem?
      intro index
      rw [change, List.getElem?_map, List.getElem?_map, List.getElem?_mapIdx]
      cases world.processes[index]? with
      | none => rfl
      | some process => exact congrArg some (same index process).2.1
    have through (processes : List OwnedProcess) :
        processes.any (fun process => process.launchedBy = some call) =
          (processes.map OwnedProcess.launchedBy).any (fun by' => by' = some call) := by
      rw [List.any_map]
      rfl
    simp only [hasStarted, through, launched]
  have was {index : Nat} {process : OwnedProcess}
      (held : (world.change changed).processes[index]? = some process) :
      ∃ before, world.processes[index]? = some before ∧ process = changed index before := by
    rw [change, List.getElem?_mapIdx] at held
    obtain ⟨before, isBefore, same⟩ := Option.map_eq_some_iff.mp held
    exact ⟨before, isBefore, same.symm⟩
  have flight {call : Nat} (after : (world.change changed).InFlight call) : world.InFlight call :=
    after.imp_right (fun ⟨at', new⟩ => ⟨at', started call ▸ new⟩)
  refine ⟨?_, fun call other one two => sound.alone call other (flight one) (flight two), ?_, ?_⟩
  · intro first second one other isOne isOther oneLaunched otherLaunched oneRuns otherRuns
    obtain ⟨before, isBefore, rfl⟩ := was isOne
    obtain ⟨again, isAgain, rfl⟩ := was isOther
    exact sound.one first second before again isBefore isAgain
      ((same first before).2.1 ▸ oneLaunched) ((same second again).2.1 ▸ otherLaunched)
      ((same first before).2.2 oneRuns) ((same second again).2.2 otherRuns)
  · intro call persisted directory pid at' process member runs isOwner
    obtain ⟨index, held⟩ := List.mem_iff_getElem?.mp member
    obtain ⟨before, isBefore, rfl⟩ := was held
    exact (same index before).1.trans (owns call persisted directory pid at' index before isBefore runs
      isOwner)
  · intro call directory launch at' new process member runs
    obtain ⟨index, held⟩ := List.mem_iff_getElem?.mp member
    obtain ⟨before, isBefore, rfl⟩ := was held
    exact (same index before).2.1.trans (sound.launching call directory launch at' (started call ▸ new)
      before (List.mem_of_getElem? isBefore) ((same index before).2.2 runs))

/-- A process that has started. -/
theorem started_process {process held : OwnedProcess} {index : Nat}
    (isHeld : (world.starts process).processes[index]? = some held) :
    world.processes[index]? = some held ∨ (index = world.processes.length ∧ held = process) := by
  rw [starts, List.getElem?_append] at isHeld
  split at isHeld
  · exact Or.inl isHeld
  · obtain ⟨inside, same⟩ := List.getElem?_eq_some_iff.mp isHeld
    simp only [List.length_singleton] at inside
    have last : index = world.processes.length := by omega
    subst last
    simp only [Nat.sub_self, List.getElem_cons_zero] at same
    exact Or.inr ⟨rfl, same.symm⟩

theorem started_for (process : OwnedProcess) (call : Nat) :
    (world.starts process).hasStarted call =
      (world.hasStarted call || decide (process.launchedBy = some call)) := by
  simp [hasStarted, starts, List.any_append]

/-- A process that is not the session's starts. -/
theorem Sound.start_other (sound : Sound world) (pid : Nat) :
    Sound (world.starts ⟨pid, none, false, true⟩) := by
  have started (call : Nat) :
      (world.starts ⟨pid, none, false, true⟩).hasStarted call = world.hasStarted call := by
    simp [started_for]
  have flight {call : Nat} (after : (world.starts ⟨pid, none, false, true⟩).InFlight call) :
      world.InFlight call := after.imp_right (fun ⟨at', new⟩ => ⟨at', started call ▸ new⟩)
  refine ⟨?_, fun call other one two => sound.alone call other (flight one) (flight two), ?_, ?_⟩
  · intro first second one other isOne isOther oneLaunched otherLaunched oneRuns otherRuns
    obtain isOne | ⟨_, rfl⟩ := started_process isOne
    · obtain isOther | ⟨_, rfl⟩ := started_process isOther
      · exact sound.one first second one other isOne isOther oneLaunched otherLaunched oneRuns
          otherRuns
      · contradiction
    · contradiction
  · intro call persisted directory tested at' process member runs isOwner
    obtain ⟨index, held⟩ := List.mem_iff_getElem?.mp member
    obtain held | ⟨_, rfl⟩ := started_process held
    · exact sound.stopping call persisted directory tested at' process (List.mem_of_getElem? held) runs
        isOwner
    · contradiction
  · intro call directory launch at' new process member runs
    obtain ⟨index, held⟩ := List.mem_iff_getElem?.mp member
    obtain held | ⟨_, rfl⟩ := started_process held
    · exact sound.launching call directory launch at' (started call ▸ new) process
        (List.mem_of_getElem? held) runs
    · rfl

/-- The process of a call starts. -/
theorem Sound.start (sound : Sound world) {call pid : Nat} {directory : String}
    {launch : ResumeLaunch} (at' : world.calls[call]? = some (.launching directory launch))
    (new : world.hasStarted call = false) : Sound (world.starts ⟨pid, some call, false, true⟩) := by
  have mine : world.InFlight call := Or.inr ⟨⟨directory, launch, at'⟩, new⟩
  have flight {other : Nat} (after : (world.starts ⟨pid, some call, false, true⟩).InFlight other) :
      other ≠ call ∧ world.InFlight other := by
    rcases after with ⟨persisted, place, tested, held⟩ | ⟨isLaunching, unstarted⟩
    · refine ⟨?_, Or.inl ⟨persisted, place, tested, held⟩⟩
      rintro rfl
      have differ := at'.symm.trans held
      simp at differ
    · rw [started_for, Bool.or_eq_false_iff] at unstarted
      refine ⟨?_, Or.inr ⟨isLaunching, unstarted.1⟩⟩
      rintro rfl
      simp at unstarted
  have none' (other : Nat) : ¬ (world.starts ⟨pid, some call, false, true⟩).InFlight other :=
    fun after => (flight after).1 (sound.alone other call (flight after).2 mine)
  refine ⟨?_, fun other _ one _ => absurd one (none' other), ?_, ?_⟩
  · intro first second one other isOne isOther oneLaunched otherLaunched oneRuns otherRuns
    have before {process : OwnedProcess} {index : Nat} (held : world.processes[index]? = some process)
        (launched : process.launchedBy.isSome = true) (runs : process.running = true) : False := by
      have unlaunched := sound.launching call directory launch at' new process
        (List.mem_of_getElem? held) runs
      simp [unlaunched] at launched
    obtain isOne | ⟨isLast, _⟩ := started_process isOne
    · exact (before isOne oneLaunched oneRuns).elim
    · obtain isOther | ⟨isSecond, _⟩ := started_process isOther
      · exact (before isOther otherLaunched otherRuns).elim
      · exact isLast.trans isSecond.symm
  · intro other persisted place tested held
    exact absurd (Or.inl ⟨persisted, place, tested, held⟩) (none' other)
  · intro other place launches held unstarted
    exact absurd (Or.inr ⟨⟨place, launches, held⟩, unstarted⟩) (none' other)

/-- The registry and the calls that are not in flight do not matter. -/
theorem Sound.calls (sound : Sound world) (sameProcesses : next.processes = world.processes)
    (before : ∀ (call : Nat) (stage : ResumeStage), next.calls[call]? = some stage →
      world.calls[call]? = some stage ∨ (∃ persisted, stage = .resolving persisted) ∨
        ∃ result, stage = .ended result) : Sound next := by
  have started (call : Nat) : next.hasStarted call = world.hasStarted call := by
    simp only [hasStarted, sameProcesses]
  have stops {call : Nat} {persisted : PersistedSession} {directory : String} {pid : Nat}
      (held : next.calls[call]? = some (.stopping persisted directory pid)) :
      world.calls[call]? = some (.stopping persisted directory pid) := by
    obtain held | ⟨_, differ⟩ | ⟨_, differ⟩ := before call _ held
    · exact held
    · contradiction
    · contradiction
  have launches {call : Nat} {directory : String} {launch : ResumeLaunch}
      (held : next.calls[call]? = some (.launching directory launch)) :
      world.calls[call]? = some (.launching directory launch) := by
    obtain held | ⟨_, differ⟩ | ⟨_, differ⟩ := before call _ held
    · exact held
    · contradiction
    · contradiction
  have flight {call : Nat} (after : next.InFlight call) : world.InFlight call := by
    rcases after with ⟨persisted, directory, pid, held⟩ | ⟨⟨directory, launch, held⟩, new⟩
    · exact Or.inl ⟨persisted, directory, pid, stops held⟩
    · exact Or.inr ⟨⟨directory, launch, launches held⟩, started call ▸ new⟩
  refine ⟨?_, fun call other one two => sound.alone call other (flight one) (flight two), ?_, ?_⟩
  · intro first second one other isOne isOther
    exact sound.one first second one other (sameProcesses ▸ isOne) (sameProcesses ▸ isOther)
  · intro call persisted directory pid held process member
    exact sound.stopping call persisted directory pid (stops held) process (sameProcesses ▸ member)
  · intro call directory launch held new process member
    exact sound.launching call directory launch (launches held) (started call ▸ new) process
      (sameProcesses ▸ member)

/-! ## What the calls come to -/

/-- Past the directory, a call waits for the pid that is looked up. -/
theorem resolved_stopping {persisted held : PersistedSession} {place : Option String}
    {directory : String} {pid : Nat}
    (reached : world.resolved persisted place = .stopping held directory pid) :
    world.registry.getLivePid world.sessionId = some pid := by
  cases place with
  | none => contradiction
  | some place =>
    simp only [resolved] at reached
    split at reached
    · split at reached
      · rename_i looked
        injection reached with _ _ same
        exact same ▸ looked
      · unfold launch at reached
        split at reached <;> contradiction
    · unfold launch at reached
      split at reached <;> contradiction

/-- It comes to the launcher when no pid is looked up. -/
theorem resolved_launching {persisted : PersistedSession} {place : Option String}
    {directory : String} {launch : ResumeLaunch}
    (reached : world.resolved persisted place = .launching directory launch) :
    world.registry.getLivePid world.sessionId = none := by
  cases place with
  | none => contradiction
  | some place =>
    simp only [resolved, SessionRegistry.stop_session_live] at reached
    cases looked : world.registry.getLivePid world.sessionId with
    | none => rfl
    | some pid => simp [looked] at reached

/-- At the launcher no process is waited for. -/
theorem launch_not_stopping {persisted held : PersistedSession} {directory place : String}
    {pid : Nat} : world.launch persisted directory ≠ .stopping held place pid := by
  unfold launch
  split <;> simp

/-- A call that has waited for the last process under its pid leaves nothing of the session running. -/
theorem Sound.replaced (sound : Sound world) {call pid : Nat} {persisted : PersistedSession}
    {directory : String} (stage : ResumeStage)
    (at' : world.calls[call]? = some (.stopping persisted directory pid))
    (dead : ∀ process ∈ world.processes, process.running = true → process.pid ≠ pid)
    (past : ∀ held place tested, stage ≠ .stopping held place tested) :
    Sound (world.move call stage) ∧
      ∀ process ∈ world.processes, process.running = true → process.owns = false := by
  have mine : world.InFlight call := Or.inl ⟨persisted, directory, pid, at'⟩
  have unowned : ∀ process ∈ world.processes, process.running = true → process.owns = false := by
    intro process member runs
    cases isOwner : process.owns with
    | false => rfl
    | true =>
      exact absurd (sound.stopping call persisted directory pid at' process member runs isOwner)
        (dead process member runs)
  refine ⟨sound.moved (fun held place tested same => absurd same (past held place tested)) ?_, unowned⟩
  intro _ _ _
  exact ⟨fun other apart flight => apart (sound.alone other call flight mine), unowned⟩

/-- Where one call moves, it comes to the launcher alone when no process that has reported runs. -/
theorem alone_moved {call : Nat} {stage : ResumeStage}
    (moved : next.calls = world.calls.set call stage)
    (dead : ∀ directory launch, stage = .launching directory launch →
      ∀ process ∈ next.processes, process.running = true → process.owns = false) :
    LaunchesAlone world next := by
  intro other directory launch held new process member reported
  rw [moved] at held
  obtain ⟨_, same⟩ | ⟨_, before⟩ := stage_move held
  · cases runs : process.running with
    | false => rfl
    | true =>
      have unowned := dead directory launch same.symm process member runs
      simp [OwnedProcess.owns, reported] at unowned
  · exact absurd before (new directory launch)

/-- Where no call moves, none comes to the launcher. -/
theorem alone_kept (kept : next.calls = world.calls) : LaunchesAlone world next :=
  fun _ directory launch held new => absurd (kept ▸ held) (new directory launch)

/-- A pid that is not alive has no running process. -/
theorem dead_pid {pid : Nat} (dead : world.isAlive pid = false) :
    ∀ process ∈ world.processes, process.running = true → process.pid ≠ pid := by
  intro process member runs same
  have tested := List.any_eq_false.mp dead process member
  simp [same, runs] at tested

/-- Processes end. -/
theorem Sound.ended (sound : Sound world) (stays : Nat → OwnedProcess → Bool) :
    Sound (world.change (fun index process =>
      { process with running := process.running && stays index process })) := by
  have ran {index : Nat} {process : OwnedProcess}
      (runs : (process.running && stays index process) = true) : process.running = true :=
    (Bool.and_eq_true_iff.mp runs).1
  refine sound.changed (fun _ _ => ⟨rfl, rfl, ran⟩) ?_
  intro call persisted directory pid waits index process isHeld runs isOwner
  exact sound.stopping call persisted directory pid waits process (List.mem_of_getElem? isHeld)
    (ran runs) isOwner

/-- A careful call that resolves its directory waits for what runs of the session, or finds that nothing
runs and comes to the launcher. -/
theorem Sound.resolved (sound : Sound world) {call : Nat} {directory : Option String}
    (careful : world.Careful (.resolved call directory)) (persisted : PersistedSession)
    (place : Option String) :
    Sound (world.move call (world.resolved persisted place)) ∧
      LaunchesAlone world (world.move call (world.resolved persisted place)) := by
  obtain ⟨only, found⟩ := careful
  have unowned {where' : String} {launch : ResumeLaunch}
      (reached : world.resolved persisted place = .launching where' launch) :
      ∀ process ∈ world.processes, process.running = true → process.owns = false := by
    intro process member runs
    cases isOwner : process.owns with
    | false => rfl
    | true =>
      have looked := found process member runs isOwner
      rw [resolved_launching reached] at looked
      contradiction
  refine ⟨sound.moved ?_ ?_, alone_moved rfl (fun _ _ reached => unowned reached)⟩
  · intro held where' pid reached
    refine ⟨only, fun process member runs isOwner => ?_⟩
    have looked := found process member runs isOwner
    exact (Option.some.inj ((resolved_stopping reached).symm.trans looked)).symm
  · intro where' launch reached
    exact ⟨only, unowned reached⟩

/-- A careful report of the session is of the process that a call waits for. -/
theorem Sound.reported (sound : Sound world) {reporter : Nat} {sessionId : String}
    {metadata : Option Json} {encryption : Option SessionEncryptionData} {pid : Option Nat}
    (careful : world.Careful (.sessionStarted reporter sessionId metadata encryption pid)) :
    Sound (world.report reporter sessionId metadata encryption pid) := by
  have changed : Sound (world.change (fun index held => { held with
      reported := held.reported || decide (index = reporter ∧ sessionId = world.sessionId) })) := by
    refine sound.changed (fun _ _ => ⟨rfl, rfl, id⟩) ?_
    intro call persisted directory tested waits index owner isHeld runs isOwner
    by_cases isReporter : index = reporter ∧ sessionId = world.sessionId
    · obtain ⟨rfl, isOf⟩ := isReporter
      exact careful call persisted directory tested owner isOf waits isHeld runs
    · refine sound.stopping call persisted directory tested waits owner (List.mem_of_getElem? isHeld)
        runs ?_
      simpa [OwnedProcess.owns, isReporter] using isOwner
  exact changed.calls rfl (fun _ _ held => Or.inl held)

/-! ## Runs -/

/-- A new call is not in flight. -/
theorem Sound.call (sound : Sound world) (now : Nat) :
    Sound { world with calls := world.calls ++ [world.called now] } := by
  refine sound.calls rfl (fun call stage held => ?_)
  simp only [List.getElem?_append] at held
  split at held
  · exact Or.inl held
  · obtain ⟨_, same⟩ := List.getElem?_eq_some_iff.mp held
    rw [List.getElem_singleton] at same
    subst same
    unfold called
    split
    · exact Or.inr (Or.inl ⟨_, rfl⟩)
    · exact Or.inr (Or.inr ⟨_, rfl⟩)

/-- A call that has ended is in flight no more. -/
theorem Sound.ends (sound : Sound world) (call : Nat) (result : Except String String) :
    Sound (world.move call (.ended result)) ∧
      LaunchesAlone world (world.move call (.ended result)) :=
  ⟨sound.moved (by rintro _ _ _ ⟨⟩) (by rintro _ _ ⟨⟩), alone_moved rfl (by rintro _ _ ⟨⟩)⟩

/-- A careful step keeps what is kept, and comes to the launcher alone. -/
theorem step_sound (sound : Sound world) (careful : world.Careful event)
    (taken : world.step event = some next) : Sound next ∧ LaunchesAlone world next := by
  cases event with
  | call now =>
    cases taken
    refine ⟨sound.call now, fun call directory launch held new => ?_⟩
    simp only [List.getElem?_append] at held
    split at held
    · exact absurd held (new directory launch)
    · obtain ⟨_, same⟩ := List.getElem?_eq_some_iff.mp held
      rw [List.getElem_singleton] at same
      unfold called at same
      split at same <;> contradiction
  | resolved call directory =>
    simp only [step] at taken
    split at taken
    · cases taken
      exact sound.resolved careful _ _
    · contradiction
  | polled call =>
    simp only [step] at taken
    split at taken
    · rename_i persisted directory pid at'
      obtain ⟨dead, same⟩ := Option.ite_none_left_eq_some.mp taken
      cases same
      obtain ⟨kept, unowned⟩ := sound.replaced (world.launch persisted directory) at'
        (dead_pid (Bool.eq_false_iff.mpr dead)) (fun _ _ _ => launch_not_stopping)
      exact ⟨kept, alone_moved rfl (fun _ _ _ => unowned)⟩
    · contradiction
  | escalated call dies =>
    simp only [step] at taken
    split at taken
    · rename_i persisted directory pid at'
      obtain ⟨_, same⟩ := Option.ite_none_left_eq_some.mp taken
      split at same
      · cases same
        have killed : Sound (world.kill pid) := sound.ended (fun _ process => decide (process.pid ≠ pid))
        have dead : ∀ process ∈ (world.kill pid).processes, process.running = true →
            process.pid ≠ pid := by
          intro process member runs
          simp only [kill, change, List.mem_mapIdx] at member
          obtain ⟨index, inside, rfl⟩ := member
          simpa using (Bool.and_eq_true_iff.mp runs).2
        obtain ⟨kept, unowned⟩ := killed.replaced (world.launch persisted directory) at' dead
          (fun _ _ _ => launch_not_stopping)
        exact ⟨kept, alone_moved rfl (fun _ _ _ => unowned)⟩
      · cases same
        exact sound.ends call _
    · contradiction
  | startProcess call pid =>
    simp only [step] at taken
    split at taken
    · rename_i directory launch at'
      obtain ⟨free, same⟩ := Option.ite_none_left_eq_some.mp taken
      cases same
      rw [Bool.or_eq_true, not_or] at free
      exact ⟨sound.start at' (Bool.eq_false_iff.mpr free.1), alone_kept rfl⟩
    · contradiction
  | launched call process =>
    simp only [step] at taken
    split at taken
    · obtain ⟨_, same⟩ := Option.ite_none_right_eq_some.mp taken
      cases same
      have moved : Sound (world.move call (.waiting process)) :=
        sound.moved (by rintro _ _ _ ⟨⟩) (by rintro _ _ ⟨⟩)
      exact ⟨moved.calls rfl (fun _ _ held => Or.inl held), alone_moved rfl (by rintro _ _ ⟨⟩)⟩
    · contradiction
  | launchFailed call message =>
    simp only [step] at taken
    split at taken
    · cases taken
      exact sound.ends call _
    · contradiction
  | answered call report =>
    simp only [step] at taken
    split at taken
    · cases taken
      cases report with
      | ok sessionId => exact sound.ends call _
      | error message => exact sound.ends call _
    · contradiction
  | startOther pid =>
    obtain ⟨_, same⟩ := Option.ite_none_left_eq_some.mp taken
    cases same
    exact ⟨sound.start_other pid, alone_kept rfl⟩
  | exit process =>
    simp only [step] at taken
    split at taken
    · obtain ⟨_, same⟩ := Option.ite_none_right_eq_some.mp taken
      cases same
      exact ⟨sound.ended (fun index _ => decide (index ≠ process)), alone_kept rfl⟩
    · contradiction
  | sessionStarted process sessionId metadata encryption pid =>
    obtain ⟨_, same⟩ := Option.ite_none_right_eq_some.mp taken
    cases same
    exact ⟨sound.reported careful, alone_kept rfl⟩
  | trackSpawned pid directory =>
    cases taken
    exact ⟨sound.calls rfl (fun _ _ held => Or.inl held), alone_kept rfl⟩
  | pruneDeadSessions now =>
    cases taken
    exact ⟨sound.calls rfl (fun _ _ held => Or.inl held), alone_kept rfl⟩

/-- Nothing is launched at the start. -/
theorem boot_sound (sessionId : String) (kvyEntrypoint : List String) (registry : SessionRegistry)
    (processes : List (Nat × Bool × Bool)) :
    Sound (boot sessionId kvyEntrypoint registry processes) := by
  have idle {call : Nat} {stage : ResumeStage} :
      (boot sessionId kvyEntrypoint registry processes).calls[call]? ≠ some stage := by simp [boot]
  have none' (call : Nat) : ¬ (boot sessionId kvyEntrypoint registry processes).InFlight call := by
    rintro (⟨_, _, _, held⟩ | ⟨⟨_, _, held⟩, _⟩)
    · exact idle held
    · exact idle held
  refine ⟨?_, fun call _ one _ => absurd one (none' call), ?_, ?_⟩
  · intro first second one other isOne _ oneLaunched
    simp only [boot, List.getElem?_map, Option.map_eq_some_iff] at isOne
    obtain ⟨_, _, rfl⟩ := isOne
    contradiction
  · intro call persisted directory pid held
    exact absurd held idle
  · intro call directory launch held
    exact absurd held idle

/-- In a run of careful steps one process of the session runs at a time, and a call comes to the
launcher only when no process that has reported the session runs. -/
theorem one_owner (sessionId : String) (kvyEntrypoint : List String) (registry : SessionRegistry)
    (processes : List (Nat × Bool × Bool)) (events : List ResumeEvent)
    (careful : Always step (fun world event _ => world.Careful event)
      (boot sessionId kvyEntrypoint registry processes) events) :
    Always step (fun world _ next => next.OneOwner ∧ LaunchesAlone world next)
      (boot sessionId kvyEntrypoint registry processes) events := by
  refine always_under Sound Careful _ ?_ (boot_sound sessionId kvyEntrypoint registry processes)
    careful
  intro world event next sound careful taken
  obtain ⟨kept, alone⟩ := step_sound sound careful taken
  exact ⟨kept, kept.one, alone⟩

/-- The encryption data that a process reports. -/
def reportedData : SessionEncryptionData := ⟨"key", .ofInt 1, .ofInt 1, .ofInt 1⟩

/-- A process that has started under pid 10 before the daemon. -/
def oneProcess : ResumeWorld := boot "session" ["kvy"] .empty [(10, false, true)]

/-- The process reports the session, and is stopped and replaced. -/
def replacement : List ResumeEvent :=
  [.sessionStarted 0 "session" none (some reportedData) (some 10), .call 0,
    .resolved 0 (some "/workspace"), .exit 0, .polled 0, .startProcess 0 20,
    .launched 0 ⟨.detached, 20⟩, .sessionStarted 1 "session" none (some reportedData) (some 20)]

/-- Two calls wait for one process, and each replaces it. -/
def overlapping : List ResumeEvent :=
  [.sessionStarted 0 "session" none (some reportedData) (some 10), .call 0, .call 0,
    .resolved 0 (some "/workspace"), .resolved 1 (some "/workspace"), .exit 0, .polled 0, .polled 1,
    .startProcess 0 20, .startProcess 1 21]

/-- One call replaces the process. -/
theorem one_owner_replaced :
    Always step (fun world _ next => next.OneOwner ∧ LaunchesAlone world next) oneProcess
      replacement := by
  refine one_owner "session" ["kvy"] .empty [(10, false, true)] replacement ?_
  refine always_cons rfl ?_ ?_
  · rintro call persisted directory pid held - waits
    contradiction
  refine always_cons rfl trivial ?_
  refine always_cons rfl ?_ ?_
  · refine ⟨?_, ?_⟩
    · rintro other apart (⟨_, _, _, held⟩ | ⟨⟨_, _, held⟩, _⟩)
      · obtain ⟨inside, _⟩ := List.getElem?_eq_some_iff.mp held
        exact apart (Nat.lt_one_iff.mp inside)
      · obtain ⟨inside, _⟩ := List.getElem?_eq_some_iff.mp held
        exact apart (Nat.lt_one_iff.mp inside)
    · intro process member _ _
      obtain rfl := List.mem_singleton.mp member
      rfl
  refine always_cons rfl trivial ?_
  refine always_cons rfl trivial ?_
  refine always_cons rfl trivial ?_
  refine always_cons rfl trivial ?_
  refine always_cons rfl ?_ trivial
  intro call persisted directory pid held _ waits
  obtain ⟨inside, same⟩ := List.getElem?_eq_some_iff.mp waits
  obtain rfl : call = 0 := Nat.lt_one_iff.mp inside
  contradiction

/-- Two calls that wait at once leave two processes of the session running. -/
theorem two_owners :
    ¬ Always step (fun world _ next => next.OneOwner ∧ LaunchesAlone world next) oneProcess
      overlapping := by
  intro always
  have one := always_along (fun _ => True) _ (fun _ _ next => OneOwner next)
    (fun _ _ _ _ both _ => ⟨trivial, both.1⟩) trivial always
  obtain ⟨final, ran⟩ : ∃ final, run step oneProcess overlapping = some final := ⟨_, rfl⟩
  have processes : final.processes =
      [⟨10, none, true, false⟩, ⟨20, some 0, false, true⟩, ⟨21, some 1, false, true⟩] := by
    obtain rfl := Option.some.inj ran
    rfl
  have alone := always_run one (boot_sound "session" ["kvy"] .empty [(10, false, true)]).one ran
  have same := alone 1 2 ⟨20, some 0, false, true⟩ ⟨21, some 1, false, true⟩ (by rw [processes]; rfl)
    (by rw [processes]; rfl) rfl rfl rfl rfl
  contradiction

end Kvy.Cli.Daemon.Registry.ResumeWorld
