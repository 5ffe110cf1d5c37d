import Kvy.Cli.Daemon.SpawnEngine
import Kvy.General.Runs

/-!
# Runs of the spawning daemon

An attempt stays in the cache until it has ended without a session id. A key launches a second
process exactly when an attempt of it ended so after it had launched its own.
-/

namespace Kvy.Cli.Daemon.SpawnDaemon

open General General.Runs Wire

/-- An attempt that ended without a session id. -/
def Failed (attempt : Attempt) : Prop :=
  ∃ result, attempt.stage = .settled result ∧ genuine result = false

/-- An attempt that has not come to the launcher's answer. -/
def Early : AttemptStage → Prop
  | .validating => True
  | .branching => True
  | .launching _ => True
  | _ => False

/-- An attempt that has not ended. -/
def Running : AttemptStage → Prop
  | .settled _ => False
  | _ => True

/-- A launch for a key. -/
def Launch.isFor (key : String) (launch : Launch) : Bool := launch.options.sessionLabel = key

/-- What is kept of a daemon, whatever happens. -/
structure Sound (daemon : SpawnDaemon) : Prop where
  cached : ∀ id attempt, daemon.attempts.get? id = some attempt →
    ¬ (attempt.reacted = true ∧ Failed attempt) →
    daemon.spawnResults.get? attempt.params.idempotencyKey = some id
  fresh : ∀ id attempt, daemon.attempts.get? id = some attempt → id < daemon.next
  unlaunched : ∀ id attempt, daemon.attempts.get? id = some attempt → Early attempt.stage →
    attempt.launched = none
  logged : ∀ key, (∃ launch ∈ daemon.launches, Launch.isFor key launch = true) ↔
    ∃ id attempt, daemon.attempts.get? id = some attempt ∧ attempt.params.idempotencyKey = key ∧
      attempt.launched.isSome = true

theorem sound_start (deps : SpawnEngineDeps) (readopted : OrderedMap Nat TrackedSession) :
    Sound (start deps readopted) where
  cached := by simp [start]
  fresh := by simp [start]
  unlaunched := by simp [start]
  logged := by simp [start]

/-- No key has launched more than one process. -/
def AtMostOnce (daemon : SpawnDaemon) : Prop :=
  ∀ key, daemon.launches.countP (Launch.isFor key) ≤ 1

/-- An attempt of the key ended without a session id after it had launched its process. -/
def Abandoned (daemon : SpawnDaemon) (key : String) : Prop :=
  ∃ id attempt, daemon.attempts.get? id = some attempt ∧ attempt.params.idempotencyKey = key ∧
    attempt.launched.isSome = true ∧ Failed attempt

/-- The launcher succeeds for no key that has an abandoned attempt. -/
def Unabandoned (daemon : SpawnDaemon) (event : Event) : Prop :=
  ∀ id attempt process, event = .launched id (.ok process) →
    daemon.attempts.get? id = some attempt → ¬ Abandoned daemon attempt.params.idempotencyKey

/-! ## Steps -/

variable {daemon next : SpawnDaemon} {event : Event} {id : Nat} {attempt : Attempt}

/-- An attempt takes the place of an earlier state of its own. The cache keeps the other keys, and
the log gains its launch if it has one. -/
theorem Sound.replace (sound : Sound daemon) (held : daemon.attempts.get? id = some attempt)
    {moved : Attempt} (attempts : next.attempts = daemon.attempts.set id moved)
    (number : next.next = daemon.next) (params : moved.params = attempt.params)
    (mine : ¬ (moved.reacted = true ∧ Failed moved) →
      next.spawnResults.get? attempt.params.idempotencyKey = some id)
    (others : ∀ key other, other ≠ id → daemon.spawnResults.get? key = some other →
      next.spawnResults.get? key = some other)
    (early : Early moved.stage → moved.launched = none)
    (stays : attempt.launched.isSome = true → moved.launched.isSome = true)
    (launches : ∀ key, (∃ launch ∈ next.launches, Launch.isFor key launch = true) ↔
      (∃ launch ∈ daemon.launches, Launch.isFor key launch = true) ∨
        attempt.params.idempotencyKey = key ∧ moved.launched.isSome = true) : Sound next := by
  refine ⟨?_, ?_, ?_, ?_⟩
  · intro other found isFound kept
    rw [attempts, OrderedMap.get_set] at isFound
    split at isFound
    · cases isFound
      subst other
      rw [params]
      exact mine kept
    · rename_i apart
      exact others _ other apart (sound.cached other found isFound kept)
  · intro other found isFound
    rw [number]
    rw [attempts, OrderedMap.get_set] at isFound
    split at isFound
    · subst other
      exact sound.fresh id attempt held
    · exact sound.fresh other found isFound
  · intro other found isFound isEarly
    rw [attempts, OrderedMap.get_set] at isFound
    split at isFound
    · cases isFound
      exact early isEarly
    · exact sound.unlaunched other found isFound isEarly
  · intro key
    rw [launches, sound.logged key]
    constructor
    · rintro (⟨other, found, isFound, isKey, launched⟩ | ⟨isKey, launched⟩)
      · by_cases same : other = id
        · subst same
          obtain rfl := Option.some.inj (held.symm.trans isFound)
          exact ⟨other, moved, by simp [attempts], params ▸ isKey, stays launched⟩
        · exact ⟨other, found, by simpa [attempts, same] using isFound, isKey, launched⟩
      · exact ⟨id, moved, by simp [attempts], params ▸ isKey, launched⟩
    · rintro ⟨other, found, isFound, isKey, launched⟩
      rw [attempts, OrderedMap.get_set] at isFound
      split at isFound
      · cases isFound
        exact Or.inr ⟨params ▸ isKey, launched⟩
      · exact Or.inl ⟨other, found, isFound, isKey, launched⟩

/-- Where no launch is added, the log has those of the attempt already. -/
theorem Sound.logged_already (sound : Sound daemon) (held : daemon.attempts.get? id = some attempt)
    (key : String) :
    (∃ launch ∈ daemon.launches, Launch.isFor key launch = true) ↔
      (∃ launch ∈ daemon.launches, Launch.isFor key launch = true) ∨
        attempt.params.idempotencyKey = key ∧ attempt.launched.isSome = true := by
  constructor
  · exact Or.inl
  · rintro (logged | ⟨isKey, launched⟩)
    · exact logged
    · exact (sound.logged key).mpr ⟨id, attempt, held, isKey, launched⟩

/-- An attempt that has not ended moves on. -/
theorem sound_move (sound : Sound daemon) (held : daemon.attempts.get? id = some attempt)
    (running : Running attempt.stage) {stage : AttemptStage}
    (early : Early stage → Early attempt.stage) : Sound (daemon.move id attempt stage) := by
  have active : ¬ (attempt.reacted = true ∧ Failed attempt) := by
    rintro ⟨_, result, isSettled, _⟩
    rw [isSettled] at running
    exact running
  exact sound.replace held rfl rfl rfl (fun _ => sound.cached id attempt held active)
    (fun _ _ _ isOther => isOther) (fun isEarly => sound.unlaunched id attempt held (early isEarly))
    (fun launched => launched) (sound.logged_already held)

/-- Waiters and sessions are no part of what is kept. -/
theorem sound_outside (sound : Sound daemon) (waiters : OrderedMap Nat Nat)
    (sessions : OrderedMap Nat TrackedSession) :
    Sound { daemon with waiters := waiters, pidToSession := sessions } :=
  ⟨sound.cached, sound.fresh, sound.unlaunched, sound.logged⟩

/-- The step leaves what is kept sound and launches nothing. -/
def Quiet (daemon next : SpawnDaemon) : Prop := Sound next ∧ next.launches = daemon.launches

theorem quiet_move (sound : Sound daemon) (held : daemon.attempts.get? id = some attempt)
    (running : Running attempt.stage) {stage : AttemptStage}
    (early : Early stage → Early attempt.stage) : Quiet daemon (daemon.move id attempt stage) :=
  ⟨sound_move sound held running early, rfl⟩

theorem quiet_proceed (sound : Sound daemon) (held : daemon.attempts.get? id = some attempt)
    (running : Running attempt.stage) (early : Early attempt.stage) (spawnDirectory : String) :
    Quiet daemon (daemon.proceed id attempt spawnDirectory) := by
  unfold proceed
  split
  · exact quiet_move sound held running (fun _ => early)
  · split
    · exact quiet_move sound held running (fun _ => early)
    · split
      · exact quiet_move sound held running (fun _ => early)
      · exact quiet_move sound held running (fun _ => early)

theorem quiet_validated (sound : Sound daemon) (held : daemon.attempts.get? id = some attempt)
    (running : Running attempt.stage) (early : Early attempt.stage) (result : Validation) :
    Quiet daemon (daemon.validated id attempt result) := by
  cases result with
  | accepted realDirectory =>
    simp only [validated]
    split
    · exact quiet_move sound held running (fun _ => early)
    · exact quiet_proceed sound held running early realDirectory
  | refused reason => cases reason <;> exact quiet_move sound held running (fun _ => early)
  | thrown message => exact quiet_move sound held running (fun _ => early)

theorem quiet_branched (sound : Sound daemon) (held : daemon.attempts.get? id = some attempt)
    (running : Running attempt.stage) (early : Early attempt.stage) (result : Except String String) :
    Quiet daemon (daemon.branched id attempt result) := by
  cases result with
  | error message => exact quiet_move sound held running (fun _ => early)
  | ok spawnDirectory => exact quiet_proceed sound held running early spawnDirectory

theorem quiet_settleWaiter (sound : Sound daemon) (pid : Nat) (report : Except String String) :
    Quiet daemon (daemon.settleWaiter pid id report) := by
  have removed : Sound { daemon with waiters := daemon.waiters.delete pid } :=
    sound_outside sound _ daemon.pidToSession
  unfold settleWaiter
  dsimp only
  split
  · rename_i attempt held
    split
    · rename_i waiting
      exact quiet_move removed held (waiting ▸ trivial) False.elim
    · exact ⟨removed, rfl⟩
  · exact ⟨removed, rfl⟩

theorem quiet_report (sound : Sound daemon) (pid : Nat) (result : Except String String) :
    Quiet daemon (daemon.report pid result) := by
  unfold report
  split
  · exact quiet_settleWaiter sound pid result
  · exact ⟨sound, rfl⟩

theorem quiet_sessionStarted (sound : Sound daemon) (sessionId : String) (pid : Option Nat) :
    Quiet daemon (daemon.onSessionStarted sessionId pid) := by
  cases pid with
  | none => exact ⟨sound, rfl⟩
  | some pid => exact quiet_report (sound_outside sound daemon.waiters _) pid _

theorem quiet_spawn (sound : Sound daemon) (params : SpawnParams) :
    Quiet daemon (daemon.handleSpawn params) := by
  unfold handleSpawn
  cases cached : daemon.spawnResults.get? params.idempotencyKey with
  | some joined => exact ⟨sound, rfl⟩
  | none =>
    have unused : daemon.attempts.get? daemon.next = none := by
      by_contra present
      obtain ⟨attempt, held⟩ := Option.ne_none_iff_exists'.mp present
      exact Nat.lt_irrefl _ (sound.fresh _ attempt held)
    refine ⟨⟨?_, ?_, ?_, ?_⟩, rfl⟩
    · intro other attempt held kept
      rw [OrderedMap.get_set] at held
      split at held
      · cases held
        subst other
        simp
      · have before := sound.cached other attempt held kept
        have apart : attempt.params.idempotencyKey ≠ params.idempotencyKey := by
          intro same
          rw [same, cached] at before
          contradiction
        simpa [apart] using before
    · intro other attempt held
      rw [OrderedMap.get_set] at held
      split at held
      · subst other
        exact Nat.lt_succ_self _
      · exact Nat.lt_succ_of_lt (sound.fresh other attempt held)
    · intro other attempt held early
      rw [OrderedMap.get_set] at held
      split at held
      · cases held
        rfl
      · exact sound.unlaunched other attempt held early
    · intro key
      change (∃ launch ∈ daemon.launches, Launch.isFor key launch = true) ↔ _
      rw [sound.logged key]
      constructor
      · rintro ⟨other, attempt, held, isKey, launched⟩
        have apart : other ≠ daemon.next := by
          rintro rfl
          exact absurd (unused.symm.trans held) (by simp)
        exact ⟨other, attempt, by simpa [apart] using held, isKey, launched⟩
      · rintro ⟨other, attempt, held, isKey, launched⟩
        rw [OrderedMap.get_set] at held
        split at held
        · cases held
          contradiction
        · exact ⟨other, attempt, held, isKey, launched⟩

theorem quiet_react (sound : Sound daemon) (held : daemon.attempts.get? id = some attempt)
    {result : Except String SpawnResult} (settled : attempt.stage = .settled result)
    (unreacted : attempt.reacted = false) : Quiet daemon (daemon.react id attempt result) := by
  have mine : daemon.spawnResults.get? attempt.params.idempotencyKey = some id := by
    apply sound.cached id attempt held
    simp [unreacted]
  unfold react
  by_cases replayed : genuine result = true
  · simp only [if_pos replayed]
    refine ⟨?_, rfl⟩
    exact sound.replace held rfl rfl rfl (fun _ => mine) (fun _ _ _ isOther => isOther)
      (sound.unlaunched id attempt held) (fun launched => launched) (sound.logged_already held)
  · simp only [if_neg replayed]
    refine ⟨?_, rfl⟩
    refine sound.replace held rfl rfl rfl ?_ ?_ (sound.unlaunched id attempt held)
      (fun launched => launched) (sound.logged_already held)
    · intro kept
      exact absurd ⟨rfl, result, settled, by simpa using replayed⟩ kept
    · intro key other apart isOther
      have differ : key ≠ attempt.params.idempotencyKey := by
        rintro rfl
        exact apart (Option.some.inj (isOther.symm.trans mine))
      simpa [differ] using isOther

/-- An attempt at the launcher is the one its key is cached for. -/
theorem cached_launching (sound : Sound daemon) (held : daemon.attempts.get? id = some attempt)
    {directory : String} (launching : attempt.stage = .launching directory) :
    daemon.spawnResults.get? attempt.params.idempotencyKey = some id := by
  apply sound.cached id attempt held
  rintro ⟨_, result, settled, _⟩
  exact absurd (launching.symm.trans settled) (by simp)

/-- A launch that succeeds is logged with its attempt. -/
theorem sound_launched (sound : Sound daemon) (held : daemon.attempts.get? id = some attempt)
    {directory : String} (launching : attempt.stage = .launching directory)
    (process : LaunchedProcess) : Sound (daemon.launched id attempt directory (.ok process)) := by
  have mine := cached_launching sound held launching
  have attempts : (daemon.launched id attempt directory (.ok process)).attempts =
      daemon.attempts.set id { attempt with stage := .waiting, launched := some process } := rfl
  refine sound.replace held attempts rfl rfl (fun _ => mine) (fun _ _ _ isOther => isOther)
    False.elim (fun _ => rfl) ?_
  intro key
  constructor
  · rintro ⟨launch, member, isFor⟩
    rcases List.mem_append.mp member with before | added
    · exact Or.inl ⟨launch, before, isFor⟩
    · obtain rfl := List.mem_singleton.mp added
      exact Or.inr ⟨of_decide_eq_true isFor, rfl⟩
  · rintro (⟨launch, member, isFor⟩ | ⟨isKey, _⟩)
    · exact ⟨launch, List.mem_append_left _ member, isFor⟩
    · exact ⟨_, List.mem_append_right _ (List.mem_singleton_self _), decide_eq_true isKey⟩

/-- Before a launch, the processes its key has launched are those of abandoned attempts. -/
theorem launches_abandoned (sound : Sound daemon) (held : daemon.attempts.get? id = some attempt)
    {directory : String} (launching : attempt.stage = .launching directory) :
    (∃ launch ∈ daemon.launches, Launch.isFor attempt.params.idempotencyKey launch = true) ↔
      Abandoned daemon attempt.params.idempotencyKey := by
  rw [sound.logged]
  constructor
  · rintro ⟨other, moved, isMoved, isKey, launched⟩
    refine ⟨other, moved, isMoved, isKey, launched, ?_⟩
    by_contra active
    have theirs := sound.cached other moved isMoved (fun evicted => active evicted.2)
    rw [isKey, cached_launching sound held launching] at theirs
    cases theirs
    obtain rfl := Option.some.inj (held.symm.trans isMoved)
    have early : Early attempt.stage := by rw [launching]; trivial
    simp [sound.unlaunched _ attempt held early] at launched
  · rintro ⟨other, moved, isMoved, isKey, launched, _⟩
    exact ⟨other, moved, isMoved, isKey, launched⟩

/-- A launch keeps every key to one process exactly where its key has no abandoned attempt. -/
theorem atMostOnce_launched (sound : Sound daemon) (once : AtMostOnce daemon)
    (held : daemon.attempts.get? id = some attempt) {directory : String}
    (launching : attempt.stage = .launching directory) (process : LaunchedProcess) :
    AtMostOnce (daemon.launched id attempt directory (.ok process)) ↔
      ¬ Abandoned daemon attempt.params.idempotencyKey := by
  rw [← launches_abandoned sound held launching]
  have launches (key : String) :
      (daemon.launched id attempt directory (.ok process)).launches.countP (Launch.isFor key) =
        daemon.launches.countP (Launch.isFor key) +
          (if attempt.params.idempotencyKey = key then 1 else 0) := by
    have added : (daemon.launched id attempt directory (.ok process)).launches = daemon.launches ++
        [⟨id, launchOptions daemon.deps attempt.params directory, process⟩] := rfl
    rw [added, List.countP_append, List.countP_singleton]
    by_cases same : attempt.params.idempotencyKey = key <;>
      simp [Launch.isFor, launchOptions, same]
  constructor
  · rintro after ⟨launch, member, isFor⟩
    have count := after attempt.params.idempotencyKey
    have present := List.countP_pos_iff.mpr ⟨launch, member, isFor⟩
    rw [launches, if_pos rfl] at count
    omega
  · intro none key
    rw [launches]
    by_cases same : attempt.params.idempotencyKey = key
    · subst same
      have absent : daemon.launches.countP (Launch.isFor attempt.params.idempotencyKey) = 0 := by
        rw [List.countP_eq_zero]
        exact fun launch member isFor => none ⟨launch, member, isFor⟩
      rw [if_pos rfl, absent]
    · rw [if_neg same]
      exact once key

/-- A step is a launch that succeeds, or launches nothing. -/
theorem step_cases (sound : Sound daemon) (taken : daemon.step event = some next) :
    (Quiet daemon next ∧ ∀ id process, event ≠ .launched id (.ok process)) ∨
      ∃ id attempt directory process, event = .launched id (.ok process) ∧
        daemon.attempts.get? id = some attempt ∧ attempt.stage = .launching directory ∧
        next = daemon.launched id attempt directory (.ok process) := by
  cases event with
  | spawn params =>
    cases taken
    exact Or.inl ⟨quiet_spawn sound params, by simp⟩
  | validated id result =>
    obtain ⟨attempt, held, happens⟩ := Option.bind_eq_some_iff.mp taken
    split at happens
    · rename_i stage
      cases happens
      exact Or.inl ⟨quiet_validated sound held (stage ▸ trivial) (stage ▸ trivial) result, by simp⟩
    · contradiction
  | branched id result =>
    obtain ⟨attempt, held, happens⟩ := Option.bind_eq_some_iff.mp taken
    split at happens
    · rename_i stage
      cases happens
      exact Or.inl ⟨quiet_branched sound held (stage ▸ trivial) (stage ▸ trivial) result, by simp⟩
    · contradiction
  | launched id result =>
    obtain ⟨attempt, held, happens⟩ := Option.bind_eq_some_iff.mp taken
    split at happens
    · rename_i directory stage
      cases happens
      cases result with
      | error message =>
        exact Or.inl ⟨quiet_move sound held (stage ▸ trivial) False.elim, by simp⟩
      | ok process => exact Or.inr ⟨id, attempt, directory, process, rfl, held, stage, rfl⟩
    · contradiction
  | sessionStarted sessionId pid =>
    cases taken
    exact Or.inl ⟨quiet_sessionStarted sound sessionId pid, by simp⟩
  | sessionStartFailed pid error =>
    cases taken
    exact Or.inl ⟨quiet_report sound pid _, by simp⟩
  | timedOut id =>
    obtain ⟨attempt, held, happens⟩ := Option.bind_eq_some_iff.mp taken
    split at happens
    · cases happens
      exact Or.inl ⟨quiet_settleWaiter sound _ _, by simp⟩
    · contradiction
  | exited id detail =>
    obtain ⟨attempt, held, happens⟩ := Option.bind_eq_some_iff.mp taken
    split at happens
    · cases happens
      refine Or.inl ⟨?_, by simp⟩
      unfold exited
      split
      · exact quiet_settleWaiter sound _ _
      · exact ⟨sound, rfl⟩
    · contradiction
  | resumed id =>
    obtain ⟨attempt, held, happens⟩ := Option.bind_eq_some_iff.mp taken
    split at happens
    · rename_i report process stage _
      cases happens
      refine Or.inl ⟨?_, by simp⟩
      cases report <;> exact quiet_move sound held (stage ▸ trivial) False.elim
    · contradiction
  | reacted id =>
    obtain ⟨attempt, held, happens⟩ := Option.bind_eq_some_iff.mp taken
    split at happens
    · rename_i result stage
      obtain ⟨unreacted, happens⟩ := Option.ite_none_left_eq_some.mp happens
      cases happens
      exact Or.inl ⟨quiet_react sound held stage (by simpa using unreacted), by simp⟩
    · contradiction
  | tracked pid directory =>
    cases taken
    exact Or.inl ⟨⟨sound_outside sound daemon.waiters _, rfl⟩, by simp⟩
  | pruned pid =>
    cases taken
    exact Or.inl ⟨⟨sound_outside sound daemon.waiters _, rfl⟩, by simp⟩

/-! ## Runs -/

theorem sound_step (sound : Sound daemon) (taken : daemon.step event = some next) : Sound next := by
  obtain ⟨quiet, _⟩ | ⟨id, attempt, directory, process, _, held, launching, rfl⟩ :=
    step_cases sound taken
  · exact quiet.1
  · exact sound_launched sound held launching process

/-- A step keeps every key to one process exactly where it launches for no abandoned key. -/
theorem atMostOnce_step (sound : Sound daemon) (once : AtMostOnce daemon)
    (taken : daemon.step event = some next) : AtMostOnce next ↔ Unabandoned daemon event := by
  obtain ⟨quiet, other⟩ | ⟨id, attempt, directory, process, rfl, held, launching, rfl⟩ :=
    step_cases sound taken
  · constructor
    · intro _ id attempt process isLaunch
      exact absurd isLaunch (other id process)
    · intro _ key
      rw [quiet.2]
      exact once key
  · rw [atMostOnce_launched sound once held launching process]
    constructor
    · intro kept id attempt process isLaunch present
      injection isLaunch with sameId
      subst sameId
      obtain rfl := Option.some.inj (held.symm.trans present)
      exact kept
    · exact fun unabandoned => unabandoned id attempt process rfl held

/-- In a run of the daemon every key launches at most one process exactly where no launch
succeeds for a key of which an earlier attempt had launched its process and then ended without
a session id. -/
theorem launched_at_most_once_iff (deps : SpawnEngineDeps)
    (readopted : OrderedMap Nat TrackedSession) (events : List Event) :
    Always step (fun _ _ next => AtMostOnce next) (start deps readopted) events ↔
      Always step (fun daemon event _ => Unabandoned daemon event) (start deps readopted) events :=
  always_state_iff Sound AtMostOnce Unabandoned
    (fun _ _ _ sound taken => sound_step sound taken)
    (fun _ _ _ sound once taken => atMostOnce_step sound once taken)
    events (sound_start deps readopted) (fun _ => Nat.zero_le 1)

/-- A request for a session in a workspace. -/
def retried : SpawnParams where
  idempotencyKey := "key"
  workspaceId := "workspace"
  directory := "/workspace"
  provider := .claudeCode
  permissionMode := .default
  model := none
  branch := none
  continueFrom := none

/-- The first process is slow to report, and the caller tries again. -/
def slowThenRetried : List Event :=
  [.spawn retried, .validated 0 (.accepted "/workspace"), .launched 0 (.ok ⟨.detached, 1⟩),
    .timedOut 0, .resumed 0, .reacted 0,
    .spawn retried, .validated 1 (.accepted "/workspace"), .launched 1 (.ok ⟨.detached, 2⟩)]

/-- A retry after the awaiter timed out launches a second process for the key. -/
theorem retry_launches_twice :
    (run step (start ⟨["kvy"], [], 15000⟩ .empty) slowThenRetried).map
        (fun daemon => daemon.launches.map (fun launch => (launch.options.sessionLabel,
          launch.process.pid))) = some [("key", 1), ("key", 2)] ∧
      ¬ Always step (fun _ _ next => AtMostOnce next) (start ⟨["kvy"], [], 15000⟩ .empty)
        slowThenRetried := by
  have ran : (run step (start ⟨["kvy"], [], 15000⟩ .empty) slowThenRetried).map
      (fun daemon => daemon.launches.map (fun launch => (launch.options.sessionLabel,
        launch.process.pid))) = some [("key", 1), ("key", 2)] := by
    decide +kernel
  refine ⟨ran, ?_⟩
  intro always
  obtain ⟨final, reached, launches⟩ := Option.map_eq_some_iff.mp ran
  have once := always_run always (fun _ => Nat.zero_le 1) reached "key"
  have twice : final.launches.countP (Launch.isFor "key") = 2 := by
    have labels : final.launches.map (fun launch => launch.options.sessionLabel) = ["key", "key"] := by
      have firsts := congrArg (List.map Prod.fst) launches
      simpa [List.map_map, Function.comp_def] using firsts
    have counted : final.launches.countP (Launch.isFor "key") =
        (final.launches.map (fun launch => launch.options.sessionLabel)).countP (· = "key") := by
      rw [List.countP_map]
      rfl
    rw [counted, labels]
    rfl
  omega

end Kvy.Cli.Daemon.SpawnDaemon
