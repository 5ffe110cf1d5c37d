import Kvy.Cli.Daemon.SpawnDirectories

/-!
# Runs of the processes in a directory

An attempt that finds nothing in a directory where it sees what is there has the directory to itself
until its process starts. Other attempts that look meanwhile do not see it, and only they could start
a second process.
-/

namespace Kvy.Cli.Daemon

open General General.Runs SpawnDaemon

variable {pid : Nat}

namespace SpawnDaemon

variable {daemon next : SpawnDaemon} {event : Event} {id : Nat}

/-! ## Where attempts come from -/

variable {stage : AttemptStage}

/-- An attempt that stands somewhere after another was replaced. -/
theorem stands_set {attempts : OrderedMap Nat Attempt} {key : Nat} {moved : Attempt}
    (changed : next.attempts = attempts.set key moved)
    (stands : Stands next id stage) :
    (key = id ∧ moved.stage = stage) ∨
      ∃ attempt, attempts.get? id = some attempt ∧ attempt.stage = stage := by
  obtain ⟨attempt, held, stands⟩ := stands
  rw [changed, OrderedMap.get_set] at held
  split at held
  · cases held
    exact Or.inl ⟨Eq.symm ‹_›, stands⟩
  · exact Or.inr ⟨attempt, held, stands⟩

/-- A waiter that settles answers its attempt. -/
theorem stands_settle {key : Nat} {report : Except String String}
    (stands : Stands (daemon.settleWaiter pid key report) id stage) :
    Stands daemon id stage ∨ stage = .answered report := by
  unfold settleWaiter at stands
  dsimp only at stands
  split at stands
  · split at stands
    · obtain ⟨_, answered⟩ | before := stands_set rfl stands
      · exact Or.inr answered.symm
      · exact Or.inl before
    · exact Or.inl stands
  · exact Or.inl stands

theorem stands_report {report : Except String String}
    (stands : Stands (daemon.report pid report) id stage) :
    Stands daemon id stage ∨ stage = .answered report := by
  unfold SpawnDaemon.report at stands
  split at stands
  · exact stands_settle stands
  · exact Or.inl stands

/-- Where an event of the spawns alone takes an attempt: to an early stage, to the end of its own
attempt, or where a look into the directory takes it. -/
theorem OwnStep.stands (stepped : OwnStep daemon event next) (stands : Stands next id stage) :
    Stands daemon id stage ∨ Prepares daemon event id stage ∨ stage = .validating ∨
      (∃ report, stage = .answered report) ∨ ((∃ result, stage = .settled result) ∧
        daemon.scans event = none) := by
  cases stepped with
  | spawn params =>
    unfold handleSpawn at stands
    split at stands
    · exact Or.inl stands
    · obtain ⟨_, same⟩ | before := stands_set rfl stands
      · exact Or.inr (Or.inr (Or.inl same.symm))
      · exact Or.inl before
  | prepare held preparing prepares =>
    obtain ⟨same, isStage⟩ | before := stands_set rfl stands
    · exact Or.inr (Or.inl (same ▸ isStage ▸ prepares))
    · exact Or.inl before
  | refuse message held launching =>
    obtain ⟨_, same⟩ | before := stands_set rfl stands
    · exact Or.inr (Or.inr (Or.inr (Or.inr ⟨⟨_, same.symm⟩, rfl⟩)))
    · exact Or.inl before
  | fail error message waits =>
    exact (stands_settle stands).imp_right (fun same => Or.inr (Or.inr (Or.inl ⟨_, same⟩)))
  | unheard => exact Or.inl stands
  | timeOut message held waiting launched =>
    exact (stands_settle stands).imp_right (fun same => Or.inr (Or.inr (Or.inl ⟨_, same⟩)))
  | exit detail message held waiting launched =>
    exact (stands_settle stands).imp_right (fun same => Or.inr (Or.inr (Or.inl ⟨_, same⟩)))
  | replaced => exact Or.inl stands
  | @resume _ _ report process held answered =>
    unfold resumed at stands
    split at stands
    · obtain ⟨_, same⟩ | before := stands_set rfl stands
      · exact Or.inr (Or.inr (Or.inr (Or.inr ⟨⟨_, same.symm⟩, rfl⟩)))
      · exact Or.inl before
    · obtain ⟨_, same⟩ | before := stands_set rfl stands
      · exact Or.inr (Or.inr (Or.inr (Or.inr ⟨⟨_, same.symm⟩, rfl⟩)))
      · exact Or.inl before
  | @react _ attempt result held settled =>
    obtain ⟨_, same⟩ | before := stands_set (react_attempts daemon _ attempt result) stands
    · exact Or.inr (Or.inr (Or.inr (Or.inr ⟨⟨result, same ▸ settled⟩, rfl⟩)))
    · exact Or.inl before

end SpawnDaemon

namespace DirectoryWorld

variable {world next : DirectoryWorld} {event : Event}

/-! ## What is kept -/

/-- No process runs where an attempt is about to start its own, and no other attempt is about to. -/
structure Room (world : DirectoryWorld) (id : Nat) (directory : String) : Prop where
  empty : ∀ process pid, ¬ world.RunsIn process pid directory
  alone : ∀ other, other ≠ id → Stands world.spawns other (.launching directory) →
    world.hasStarted other = true

/-- What is kept: one process in a directory, and room for those that are about to start. -/
structure Sound (world : DirectoryWorld) : Prop where
  one : world.OnePerDirectory
  room : ∀ id directory, Stands world.spawns id (.launching directory) →
    world.hasStarted id = false → world.Room id directory

/-- Where no attempt comes to the launcher and the processes stay, everything is kept. -/
theorem Sound.quiet (sound : Sound world) (processes : next.processes = world.processes)
    (launching : ∀ id directory, Stands next.spawns id (.launching directory) →
      Stands world.spawns id (.launching directory)) : Sound next := by
  have runs {process pid : Nat} {directory : String} (running : next.RunsIn process pid directory) :
      world.RunsIn process pid directory := by
    obtain ⟨attempt, held⟩ := running
    exact ⟨attempt, processes ▸ held⟩
  have started (id : Nat) : next.hasStarted id = world.hasStarted id := by
    simp only [hasStarted, processes]
  refine ⟨fun first second pid other directory one two =>
    sound.one first second pid other directory (runs one) (runs two), fun id directory stands new => ?_⟩
  have room := sound.room id directory (launching id directory stands) (started id ▸ new)
  refine ⟨fun process pid running => room.empty process pid (runs running), fun other apart there => ?_⟩
  rw [started]
  exact room.alone other apart (launching other directory there)

variable {directory : String}

/-- A process that has started. -/
theorem runs_started {process : SpawnedProcess} {index : Nat}
    (runs : (world.starts process).RunsIn index pid directory) :
    world.RunsIn index pid directory ∨
      (index = world.processes.length ∧ process.pid = pid ∧ process.directory = some directory) := by
  obtain ⟨attempt, held⟩ := runs
  rw [starts, List.getElem?_append] at held
  split at held
  · exact Or.inl ⟨attempt, held⟩
  · rename_i beyond
    obtain ⟨inside, same⟩ := List.getElem?_eq_some_iff.mp held
    simp only [List.length_singleton] at inside
    have last : index = world.processes.length := by omega
    subst last
    simp only [Nat.sub_self, List.getElem_cons_zero] at same
    exact Or.inr ⟨rfl, by rw [same], by rw [same]⟩

/-- The process of an attempt starts where there is room for it. -/
theorem Sound.start (sound : Sound world) {id : Nat}
    (stands : Stands world.spawns id (.launching directory)) (new : world.hasStarted id = false) :
    Sound (world.starts ⟨pid, some id, some directory, true⟩) := by
  have room := sound.room id directory stands new
  have started (other : Nat) :
      (world.starts ⟨pid, some id, some directory, true⟩).hasStarted other =
        (world.hasStarted other || decide (id = other)) := by
    simp [hasStarted, starts, List.any_append]
  constructor
  · intro first second one two place firstRuns secondRuns
    rcases runs_started firstRuns with before | ⟨isLast, _, isPlace⟩
    · rcases runs_started secondRuns with again | ⟨_, _, isPlace⟩
      · exact sound.one first second one two place before again
      · cases isPlace
        exact absurd before (room.empty first one)
    · rcases runs_started secondRuns with again | ⟨isSecond, _, _⟩
      · cases isPlace
        exact absurd again (room.empty second two)
      · exact isLast.trans isSecond.symm
  · intro other place there unstarted
    rw [started, Bool.or_eq_false_iff] at unstarted
    have apart : other ≠ id := fun same => by simp [same] at unstarted
    have others := sound.room other place there unstarted.1
    have elsewhere : place ≠ directory := by
      rintro rfl
      have already := room.alone other apart there
      rw [unstarted.1] at already
      contradiction
    refine ⟨fun process tested running => ?_, fun third thirdApart stands => ?_⟩
    · rcases runs_started running with before | ⟨_, _, isPlace⟩
      · exact others.empty process tested before
      · exact elsewhere (Option.some.inj isPlace).symm
    · rw [started, others.alone third thirdApart stands]
      rfl

/-- An attempt that finds nothing where it sees what is there has room. -/
theorem Clear.room {id : Nat} (clear : world.Clear id directory)
    (free : scanForLiveSessionInDirectory world.spawns.getSessions directory = none) :
    world.Room id directory := by
  refine ⟨fun process pid running => ?_, clear.alone⟩
  obtain ⟨sessionId, isSession, session, held, isOf, placed⟩ := clear.reported process pid running
  have member : session ∈ world.spawns.getSessions :=
    List.mem_map.mpr ⟨(pid, session), (OrderedMap.mem_entries _ _ _).mpr held, rfl⟩
  have missed := List.findSome?_eq_none_iff.mp free session member
  simp [isOf, isSession, placed] at missed

/-- A session that is found is that of an entry in the directory. -/
theorem found_tracks {sessionId : String}
    (found : scanForLiveSessionInDirectory world.spawns.getSessions directory = some sessionId) :
    sessionId ≠ "" ∧ ∃ pid, world.Tracks pid sessionId directory := by
  obtain ⟨session, member, isFound⟩ := List.exists_of_findSome?_eq_some found
  obtain ⟨⟨pid, entry⟩, isEntry, rfl⟩ := List.mem_map.mp member
  have held := (OrderedMap.mem_entries _ _ _).mp isEntry
  dsimp only at isFound
  split at isFound
  · rename_i given isGiven
    obtain ⟨⟨isSession, placed⟩, ⟨⟩⟩ := Option.ite_none_right_eq_some.mp isFound
    exact ⟨isSession, pid, entry, held, isGiven, placed⟩
  · contradiction

/-- An event of the spawns alone keeps what is kept, where whoever looks sees what is there. -/
theorem Sound.own (sound : Sound world) {event : SpawnDaemon.Event} {spawns : SpawnDaemon}
    (stepped : OwnStep world.spawns event spawns)
    (sees : ∀ id directory, world.spawns.scans event = some (id, directory) →
      world.Clear id directory) : Sound { world with spawns } := by
  refine ⟨sound.one, fun id directory stands new => ?_⟩
  -- An attempt that comes to the launcher has looked in its directory.
  have comes {other : Nat} {place : String} (there : Stands spawns other (.launching place)) :
      Stands world.spawns other (.launching place) ∨
        world.spawns.scans event = some (other, place) ∧
          scanForLiveSessionInDirectory world.spawns.getSessions place = none := by
    obtain before | prepares | same | ⟨_, same⟩ | ⟨⟨_, same⟩, _⟩ := stepped.stands there
    · exact Or.inl before
    · exact Or.inr (prepares.launches place rfl)
    · contradiction
    · contradiction
    · contradiction
  rcases comes stands with before | ⟨looks, free⟩
  · have room := sound.room id directory before new
    refine ⟨room.empty, fun other apart there => ?_⟩
    rcases comes there with standing | ⟨looks, _⟩
    · exact room.alone other apart standing
    · have seen := (sees other directory looks).alone id (Ne.symm apart) before
      have unseen : world.hasStarted id = false := new
      rw [unseen] at seen
      contradiction
  · have room := (sees id directory looks).room free
    refine ⟨room.empty, fun other apart there => ?_⟩
    rcases comes there with standing | ⟨again, _⟩
    · exact room.alone other apart standing
    · exact absurd (congrArg Prod.fst (Option.some.inj (again.symm.trans looks))) apart

/-- An attempt that looks where it sees what is there is answered with a session that is alive. -/
theorem answers_alive {event : SpawnDaemon.Event} {spawns : SpawnDaemon}
    (stepped : OwnStep world.spawns event spawns)
    (sees : ∀ id directory, world.spawns.scans event = some (id, directory) →
      world.Clear id directory) : AnswersAlive world (.own event) { world with spawns } := by
  rintro _ id directory sessionId ⟨⟩ looks unanswered answered
  obtain before | prepares | same | ⟨_, same⟩ | ⟨_, blind⟩ := stepped.stands answered
  · exact absurd before unanswered
  · obtain ⟨place, again, found⟩ := prepares.finds sessionId rfl
    obtain rfl := congrArg Prod.snd (Option.some.inj (again.symm.trans looks))
    obtain ⟨isSession, pid, tracks⟩ := found_tracks found
    obtain ⟨process, running⟩ := (sees id place looks).alive pid sessionId isSession tracks
    exact ⟨process, pid, running, tracks⟩
  · contradiction
  · contradiction
  · rw [blind] at looks
    contradiction

/-- A process that is not spawned takes no room. -/
theorem Sound.start_other (sound : Sound world) (pid : Nat) :
    Sound (world.starts ⟨pid, none, none, true⟩) := by
  have runs {index tested : Nat} {directory : String}
      (running : (world.starts ⟨pid, none, none, true⟩).RunsIn index tested directory) :
      world.RunsIn index tested directory := by
    rcases runs_started running with before | ⟨_, _, isPlace⟩
    · exact before
    · contradiction
  have started (id : Nat) :
      (world.starts ⟨pid, none, none, true⟩).hasStarted id = world.hasStarted id := by
    simp [hasStarted, starts, List.any_append]
  refine ⟨fun first second one two place firstRuns secondRuns =>
    sound.one first second one two place (runs firstRuns) (runs secondRuns), fun id place stands new => ?_⟩
  have room := sound.room id place stands (started id ▸ new)
  exact ⟨fun process tested running => room.empty process tested (runs running),
    fun other apart there => (started other).trans (room.alone other apart there)⟩

/-- A process that ends leaves room. -/
theorem Sound.exit (sound : Sound world) {index : Nat} {process : SpawnedProcess}
    (held : world.processes[index]? = some process) : Sound (world.exits index process) := by
  have runs {tested pid : Nat} {directory : String}
      (running : (world.exits index process).RunsIn tested pid directory) :
      world.RunsIn tested pid directory := by
    obtain ⟨attempt, isHeld⟩ := running
    rw [exits, List.getElem?_set] at isHeld
    split at isHeld
    · split at isHeld <;> simp at isHeld
    · exact ⟨attempt, isHeld⟩
  have started (id : Nat) : (world.exits index process).hasStarted id = world.hasStarted id := by
    have attempts : (world.exits index process).processes.map SpawnedProcess.attempt =
        world.processes.map SpawnedProcess.attempt := by
      apply List.ext_getElem?
      intro other
      rw [exits, List.getElem?_map, List.getElem?_map, List.getElem?_set]
      split
      · subst other
        obtain ⟨inside, same⟩ := List.getElem?_eq_some_iff.mp held
        simp [inside, same]
      · rfl
    have through (processes : List SpawnedProcess) :
        processes.any (fun process => process.attempt = some id) =
          (processes.map SpawnedProcess.attempt).any (fun attempt => attempt = some id) := by
      rw [List.any_map]
      rfl
    simp only [hasStarted, through, attempts]
  refine ⟨fun first second one two place firstRuns secondRuns =>
    sound.one first second one two place (runs firstRuns) (runs secondRuns), fun id place stands new => ?_⟩
  have room := sound.room id place stands (started id ▸ new)
  exact ⟨fun process tested running => room.empty process tested (runs running),
    fun other apart there => (started other).trans (room.alone other apart there)⟩

/-- A step in which whoever looks sees what is there keeps one process in a directory. -/
theorem step_sound (sound : Sound world) (sees : world.SeesDirectory event)
    (taken : world.step event = some next) : Sound next ∧ AnswersAlive world event next := by
  have aside (other : ∀ own, event ≠ .own own) : AnswersAlive world event next :=
    fun own _ _ _ same => absurd same (other own)
  cases event with
  | own event =>
    obtain ⟨own, taken⟩ := Option.ite_none_right_eq_some.mp taken
    obtain ⟨spawns, stepped, rfl⟩ := Option.map_eq_some_iff.mp taken
    have stepped := own_step own stepped
    have clear (id : Nat) (directory : String)
        (looks : world.spawns.scans event = some (id, directory)) : world.Clear id directory :=
      sees event id directory rfl looks
    exact ⟨sound.own stepped clear, answers_alive stepped clear⟩
  | startProcess id pid =>
    refine ⟨?_, aside (by simp)⟩
    obtain ⟨attempt, held, taken⟩ := Option.bind_eq_some_iff.mp taken
    split at taken
    · rename_i directory launching
      obtain ⟨new, ⟨⟩⟩ := Option.ite_none_left_eq_some.mp taken
      have new : world.hasStarted id = false := by
        simp only [Bool.or_eq_true, not_or, Bool.not_eq_true] at new
        exact new.1
      exact sound.start ⟨attempt, held, launching⟩ new
    · contradiction
  | startOther pid =>
    obtain ⟨_, ⟨⟩⟩ := Option.ite_none_left_eq_some.mp taken
    exact ⟨sound.start_other pid, aside (by simp)⟩
  | exit process =>
    refine ⟨?_, aside (by simp)⟩
    obtain ⟨exited, held, taken⟩ := Option.bind_eq_some_iff.mp taken
    obtain ⟨_, ⟨⟩⟩ := Option.ite_none_right_eq_some.mp taken
    exact sound.exit held
  | launched id process =>
    refine ⟨?_, aside (by simp)⟩
    obtain ⟨attempt, held, taken⟩ := Option.bind_eq_some_iff.mp taken
    split at taken
    · obtain ⟨_, ⟨⟩⟩ := Option.ite_none_right_eq_some.mp taken
      refine sound.quiet rfl (fun other place stands => ?_)
      obtain ⟨_, same⟩ | before := stands_set rfl stands
      · contradiction
      · exact before
    · contradiction
  | sessionStarted sessionId pid =>
    cases taken
    refine ⟨sound.quiet rfl (fun other place stands => ?_), aside (by simp)⟩
    cases pid with
    | none => exact stands
    | some pid =>
      obtain before | same := stands_report stands
      · exact before
      · contradiction
  | pruneDeadSessions =>
    cases taken
    exact ⟨sound.quiet rfl (fun _ _ stands => stands), aside (by simp)⟩

/-! ## Runs -/

/-- In every run in which whoever looks in a directory sees what is there, at most one spawned process
runs in a directory, and a spawn that is answered with a session from the entries is answered with one
that is alive there. -/
theorem one_per_directory (deps : SpawnEngineDeps) (readopted : OrderedMap Nat TrackedSession)
    (processes : List SpawnedProcess)
    (one : OnePerDirectory (boot deps readopted processes)) (events : List Event)
    (sees : Always step (fun world event _ => SeesDirectory world event)
      (boot deps readopted processes) events) :
    Always step (fun world event next => OnePerDirectory next ∧ AnswersAlive world event next)
      (boot deps readopted processes) events := by
  have start : Sound (boot deps readopted processes) := by
    refine ⟨one, fun id directory stands => ?_⟩
    obtain ⟨attempt, held, _⟩ := stands
    simp [boot, SpawnDaemon.start] at held
  exact always_under Sound SeesDirectory _
    (fun _ _ _ sound sees taken =>
      have stepped := step_sound sound sees taken
      ⟨stepped.1, stepped.1.one, stepped.2⟩) start sees

/-- A spawn in a workspace. -/
def spawnOf (key : String) : SpawnParams where
  idempotencyKey := key
  workspaceId := "workspace"
  directory := "/workspace"
  provider := .claudeCode
  permissionMode := .default
  model := none
  branch := none
  continueFrom := none

/-- The second spawn looks when the process of the first has reported. -/
def oneAfterTheOther : List Event :=
  [.own (.spawn (spawnOf "first")), .own (.spawn (spawnOf "second")),
    .own (.validated 0 (.accepted "/workspace")), .startProcess 0 1, .launched 0 ⟨.detached, 1⟩,
    .sessionStarted "session" (some 1), .own (.validated 1 (.accepted "/workspace"))]

/-- Both spawns look before a process has started. -/
def bothAtOnce : List Event :=
  [.own (.spawn (spawnOf "first")), .own (.spawn (spawnOf "second")),
    .own (.validated 0 (.accepted "/workspace")), .own (.validated 1 (.accepted "/workspace")),
    .startProcess 0 1, .startProcess 1 2]

/-- Who looks sees what is there, read from the lists of a world. -/
theorem clear_of_lists {id : Nat} (alone : ∀ entry ∈ world.spawns.attempts.entries, entry.1 ≠ id →
      entry.2.stage ≠ .launching directory)
    (reported : ∀ process ∈ world.processes, process.running = true →
      process.directory = some directory →
      ∃ sessionId, sessionId ≠ "" ∧ world.Tracks process.pid sessionId directory)
    (alive : ∀ entry ∈ world.spawns.pidToSession.entries, entry.2.directory = some directory →
      ∃ process, world.RunsIn process entry.1 directory) :
    world.Clear id directory where
  alone other apart stands := by
    obtain ⟨attempt, held, launching⟩ := stands
    exact absurd launching (alone (other, attempt) ((OrderedMap.mem_entries _ _ _).mpr held) apart)
  reported process pid running := by
    obtain ⟨attempt, held⟩ := running
    exact reported _ (List.mem_of_getElem? held) rfl rfl
  alive pid _ _ tracks := by
    obtain ⟨session, held, _, placed⟩ := tracks
    exact alive (pid, session) ((OrderedMap.mem_entries _ _ _).mpr held) placed

/-- The second spawn is answered with the session of the first. -/
theorem one_per_directory_sequential :
    Always step (fun world event next => OnePerDirectory next ∧ AnswersAlive world event next)
      (boot ⟨["kvy"], [], 15000⟩ .empty []) oneAfterTheOther := by
  refine one_per_directory ⟨["kvy"], [], 15000⟩ .empty [] ?_ oneAfterTheOther ?_
  · rintro first second pid other directory ⟨_, held⟩
    contradiction
  have blind {world : DirectoryWorld} {event : Event}
      (aside : ∀ own, event = .own own → world.spawns.scans own = none) :
      world.SeesDirectory event := by
    intro own id directory isOwn looks
    rw [aside own isOwn] at looks
    contradiction
  refine always_cons rfl (blind (by rintro _ ⟨⟩; rfl)) ?_
  refine always_cons rfl (blind (by rintro _ ⟨⟩; rfl)) ?_
  refine always_cons rfl ?_ ?_
  · rintro _ id directory ⟨⟩ looks
    obtain ⟨rfl, rfl⟩ := Prod.mk.inj (Option.some.inj looks)
    refine clear_of_lists ?_ ?_ ?_
    · intro entry member apart
      rcases List.mem_cons.mp member with rfl | member
      · exact absurd rfl apart
      · obtain rfl := List.mem_singleton.mp member
        simp
    · exact fun _ member => absurd member List.not_mem_nil
    · exact fun _ member => absurd member List.not_mem_nil
  refine always_cons rfl (blind (by rintro _ ⟨⟩)) ?_
  refine always_cons rfl (blind (by rintro _ ⟨⟩)) ?_
  refine always_cons rfl (blind (by rintro _ ⟨⟩)) ?_
  refine always_cons rfl ?_ trivial
  rintro _ id directory ⟨⟩ looks
  obtain ⟨rfl, rfl⟩ := Prod.mk.inj (Option.some.inj looks)
  refine clear_of_lists ?_ ?_ ?_
  · intro entry member apart
    rcases List.mem_cons.mp member with rfl | member
    · simp
    · obtain rfl := List.mem_singleton.mp member
      exact absurd rfl apart
  · rintro process member running placed
    obtain rfl := List.mem_singleton.mp member
    exact ⟨"session", by decide, _, rfl, rfl, rfl⟩
  · rintro entry member placed
    obtain rfl := List.mem_singleton.mp member
    exact ⟨0, some 0, rfl⟩

/-- Two spawns that look before a process has started start two in one directory. -/
theorem two_in_one_directory :
    ¬ Always step (fun world event next => OnePerDirectory next ∧ AnswersAlive world event next)
      (boot ⟨["kvy"], [], 15000⟩ .empty []) bothAtOnce := by
  intro always
  have one := always_along (fun _ => True) _ (fun _ _ next => OnePerDirectory next)
    (fun _ _ _ _ both _ => ⟨trivial, both.1⟩) trivial always
  obtain ⟨final, ran⟩ : ∃ final, run step (boot ⟨["kvy"], [], 15000⟩ .empty []) bothAtOnce =
      some final := ⟨_, rfl⟩
  have processes : final.processes = [⟨1, some 0, some "/workspace", true⟩,
      ⟨2, some 1, some "/workspace", true⟩] := by
    obtain rfl := Option.some.inj ran
    rfl
  have alone := always_run one (by rintro _ _ _ _ _ ⟨_, held⟩; contradiction) ran
  have same := alone 0 1 1 2 "/workspace" ⟨some 0, by rw [processes]; rfl⟩
    ⟨some 1, by rw [processes]; rfl⟩
  contradiction

end DirectoryWorld

end Kvy.Cli.Daemon
