import Kvy.Cli.Daemon.SpawnHost
import Kvy.Cli.Daemon.SpawnRuns

/-!
# An attempt and its waiter

An attempt stands at the launcher until the launcher answers for it. From then on it waits for the
report of its process, until a report comes, its process is seen to end or the awaiter gives up. What
its caller is told then does not change.
-/

namespace Kvy.Cli.Daemon

open General General.Runs

namespace SpawnDaemon

variable {daemon next : SpawnDaemon} {event : Event} {id : Nat}

/-! ## An attempt through the steps of others -/

/-- The attempt stands at a stage. -/
def Stands (daemon : SpawnDaemon) (id : Nat) (stage : AttemptStage) : Prop :=
  ∃ attempt, daemon.attempts.get? id = some attempt ∧ attempt.stage = stage

/-- What a stage tells the caller: a session, or none any more. -/
def outcome : AttemptStage → Option (Option String)
  | .answered (.ok sessionId) | .settled (.ok (.sessionId sessionId)) => some (some sessionId)
  | .answered (.error _) | .settled (.error _) => some none
  | _ => none

/-- The attempt tells its caller this. -/
def Concluded (daemon : SpawnDaemon) (id : Nat) (told : Option String) : Prop :=
  ∃ attempt, daemon.attempts.get? id = some attempt ∧ outcome attempt.stage = some told

variable {other : Nat}

/-- Another attempt is replaced. -/
theorem get_other {attempts : OrderedMap Nat Attempt} (apart : other ≠ id)
    (attempt : Attempt) : (attempts.set other attempt).get? id = attempts.get? id := by
  rw [OrderedMap.get_set, if_neg (Ne.symm apart)]

theorem get_own (attempts : OrderedMap Nat Attempt) (id : Nat) (attempt : Attempt) :
    (attempts.set id attempt).get? id = some attempt := by
  rw [OrderedMap.get_set, if_pos rfl]

/-- The settling of another attempt's waiter. -/
theorem settle_other (daemon : SpawnDaemon) (pid : Nat) (apart : other ≠ id)
    (report : Except String String) :
    (daemon.settleWaiter pid other report).attempts.get? id = daemon.attempts.get? id := by
  unfold settleWaiter
  dsimp only
  split
  · split
    · exact get_other apart _
    · rfl
  · rfl

variable {attempt : Attempt}

/-- The settling of a waiter moves no attempt that is not waiting. -/
theorem settle_unmoved (daemon : SpawnDaemon) (pid other : Nat) (report : Except String String)
    (held : daemon.attempts.get? id = some attempt)
    (moved : attempt.stage ≠ .waiting) :
    (daemon.settleWaiter pid other report).attempts.get? id = some attempt := by
  by_cases apart : other = id
  · subst apart
    unfold settleWaiter
    simp only [held]
  · exact (settle_other daemon pid apart report).trans held

/-- The settling of a waiter tells a waiting attempt. -/
theorem settle_waiting (daemon : SpawnDaemon) (pid : Nat) (report : Except String String)
    (held : daemon.attempts.get? id = some attempt)
    (waiting : attempt.stage = .waiting) :
    (daemon.settleWaiter pid id report).attempts.get? id =
      some { attempt with stage := .answered report } := by
  unfold settleWaiter
  simp only [held, waiting, move, OrderedMap.get_set, if_pos]

@[simp] theorem settle_waiters (daemon : SpawnDaemon) (pid id : Nat)
    (report : Except String String) :
    (daemon.settleWaiter pid id report).waiters = daemon.waiters.delete pid := by
  unfold settleWaiter
  dsimp only
  split
  · split <;> rfl
  · rfl

theorem react_attempts (daemon : SpawnDaemon) (id : Nat) (attempt : Attempt)
    (result : Except String SpawnResult) :
    (daemon.react id attempt result).attempts =
      daemon.attempts.set id { attempt with reacted := true } := by
  unfold react
  dsimp only
  split <;> rfl

/-- What a caller is told does not change. -/
theorem OwnStep.concluded (stepped : OwnStep daemon event next) (issued : id < daemon.next)
    {told : Option String} (concluded : Concluded daemon id told) : Concluded next id told := by
  obtain ⟨attempt, held, tells⟩ := concluded
  have unmoved : attempt.stage ≠ .waiting := by
    intro waiting
    simp [waiting, outcome] at tells
  cases stepped with
  | spawn params =>
    unfold handleSpawn
    split
    · exact ⟨attempt, held, tells⟩
    · exact ⟨attempt, (get_other (Nat.ne_of_gt issued) _).trans held, tells⟩
  | @prepare _ other found _ isFound preparing =>
    by_cases same : other = id
    · subst same
      obtain rfl := Option.some.inj (held.symm.trans isFound)
      cases at' : attempt.stage <;> simp [at', outcome, Preparing] at tells preparing
    · exact ⟨attempt, (get_other same _).trans held, tells⟩
  | @refuse other found directory message isFound launching =>
    by_cases same : other = id
    · subst same
      obtain rfl := Option.some.inj (held.symm.trans isFound)
      simp [launching, outcome] at tells
    · exact ⟨attempt, (get_other same _).trans held, tells⟩
  | fail => exact ⟨attempt, settle_unmoved daemon _ _ _ held unmoved, tells⟩
  | unheard => exact ⟨attempt, held, tells⟩
  | timeOut => exact ⟨attempt, settle_unmoved daemon _ _ _ held unmoved, tells⟩
  | exit => exact ⟨attempt, settle_unmoved daemon _ _ _ held unmoved, tells⟩
  | replaced => exact ⟨attempt, held, tells⟩
  | @resume other found report process isFound answered =>
    by_cases same : other = id
    · subst same
      obtain rfl := Option.some.inj (held.symm.trans isFound)
      cases report with
      | error message => exact ⟨_, get_own _ _ _, by simpa [answered, outcome] using tells⟩
      | ok sessionId => exact ⟨_, get_own _ _ _, by simpa [answered, outcome] using tells⟩
    · refine ⟨attempt, ?_, tells⟩
      unfold resumed
      split <;> exact (get_other same _).trans held
  | @react other found result isFound settled =>
    rw [Concluded, react_attempts]
    by_cases same : other = id
    · subst same
      obtain rfl := Option.some.inj (held.symm.trans isFound)
      exact ⟨_, get_own _ _ _, tells⟩
    · exact ⟨attempt, (get_other same _).trans held, tells⟩

/-- An attempt at the launcher stays there, or its launch fails. -/
theorem OwnStep.launching (stepped : OwnStep daemon event next) (issued : id < daemon.next)
    {directory : String} (launching : Stands daemon id (.launching directory)) :
    Stands next id (.launching directory) ∨ Concluded next id none := by
  obtain ⟨attempt, held, stands⟩ := launching
  have unmoved : attempt.stage ≠ .waiting := by simp [stands]
  have other {found : Attempt} {key : Nat} (isFound : daemon.attempts.get? key = some found)
      (apart : found.stage ≠ .launching directory) : key ≠ id := by
    rintro rfl
    obtain rfl := Option.some.inj (held.symm.trans isFound)
    exact apart stands
  cases stepped with
  | spawn params =>
    unfold handleSpawn
    split
    · exact Or.inl ⟨attempt, held, stands⟩
    · exact Or.inl ⟨attempt, (get_other (Nat.ne_of_gt issued) _).trans held, stands⟩
  | prepare isFound preparing =>
    have apart := other isFound (fun same => by simp [same, Preparing] at preparing)
    exact Or.inl ⟨attempt, (get_other apart _).trans held, stands⟩
  | @refuse key found _ message isFound _ =>
    by_cases same : key = id
    · subst same
      exact Or.inr ⟨_, get_own _ _ _, rfl⟩
    · exact Or.inl ⟨attempt, (get_other same _).trans held, stands⟩
  | fail => exact Or.inl ⟨attempt, settle_unmoved daemon _ _ _ held unmoved, stands⟩
  | unheard => exact Or.inl ⟨attempt, held, stands⟩
  | timeOut => exact Or.inl ⟨attempt, settle_unmoved daemon _ _ _ held unmoved, stands⟩
  | exit => exact Or.inl ⟨attempt, settle_unmoved daemon _ _ _ held unmoved, stands⟩
  | replaced => exact Or.inl ⟨attempt, held, stands⟩
  | resume process isFound answered =>
    have apart := other isFound (fun same => by simp [same] at answered)
    refine Or.inl ⟨attempt, ?_, stands⟩
    unfold resumed
    split <;> exact (get_other apart _).trans held
  | react isFound settled =>
    have apart := other isFound (fun same => by simp [same] at settled)
    refine Or.inl ⟨attempt, ?_, stands⟩
    rw [react_attempts]
    exact (get_other apart _).trans held

/-! ## The waiter of an attempt -/

/-- The attempt waits for the report of its process. -/
structure Awaits (daemon : SpawnDaemon) (id pid : Nat) : Prop where
  held : ∃ attempt process, daemon.attempts.get? id = some attempt ∧ attempt.stage = .waiting ∧
    attempt.launched = some process ∧ process.pid = pid
  waits : daemon.waiters.get? pid = some id

/-- No other attempt waits for the pid. -/
def Unshared (daemon : SpawnDaemon) (id pid : Nat) : Prop :=
  ∀ other attempt process, other ≠ id → daemon.attempts.get? other = some attempt →
    attempt.stage = .waiting → attempt.launched = some process → process.pid ≠ pid

/-- The waiters are of attempts that launched the process of their pid. -/
def Waited (daemon : SpawnDaemon) : Prop :=
  ∀ pid id, daemon.waiters.get? pid = some id → ∃ attempt process,
    daemon.attempts.get? id = some attempt ∧ attempt.launched = some process ∧ process.pid = pid

/-- What a step leaves: attempts keep their processes, none starts to wait, and no waiter is
added. -/
structure Leaves (daemon next : SpawnDaemon) : Prop where
  processes : ∀ id attempt, daemon.attempts.get? id = some attempt → ∃ moved,
    next.attempts.get? id = some moved ∧ moved.launched = attempt.launched
  waiting : ∀ id moved, next.attempts.get? id = some moved → moved.stage = .waiting →
    ∃ attempt, daemon.attempts.get? id = some attempt ∧ attempt.stage = .waiting ∧
      attempt.launched = moved.launched
  waiters : ∀ pid id, next.waiters.get? pid = some id → daemon.waiters.get? pid = some id

theorem Leaves.waited (leaves : Leaves daemon next) (waited : Waited daemon) : Waited next := by
  intro pid id waits
  obtain ⟨attempt, process, held, launched, isPid⟩ := waited pid id (leaves.waiters pid id waits)
  obtain ⟨moved, isMoved, same⟩ := leaves.processes id attempt held
  exact ⟨moved, process, isMoved, same.trans launched, isPid⟩

theorem Leaves.unshared (leaves : Leaves daemon next) {pid : Nat}
    (unshared : Unshared daemon id pid) : Unshared next id pid := by
  intro other moved process apart isMoved waiting launched
  obtain ⟨attempt, held, waits, same⟩ := leaves.waiting other moved isMoved waiting
  exact unshared other attempt process apart held waits (same.trans launched)

theorem leaves_refl (daemon : SpawnDaemon) : Leaves daemon daemon where
  processes _ attempt held := ⟨attempt, held, rfl⟩
  waiting _ moved held waits := ⟨moved, held, waits, rfl⟩
  waiters _ _ waits := waits

theorem Leaves.trans {middle : SpawnDaemon} (first : Leaves daemon middle)
    (second : Leaves middle next) : Leaves daemon next where
  processes id attempt held := by
    obtain ⟨moved, isMoved, same⟩ := first.processes id attempt held
    obtain ⟨last, isLast, again⟩ := second.processes id moved isMoved
    exact ⟨last, isLast, again.trans same⟩
  waiting id last isLast waits := by
    obtain ⟨moved, isMoved, waited, same⟩ := second.waiting id last isLast waits
    obtain ⟨attempt, held, before, again⟩ := first.waiting id moved isMoved waited
    exact ⟨attempt, held, before, again.trans same⟩
  waiters pid id waits := first.waiters pid id (second.waiters pid id waits)

/-- An attempt changes without starting to wait. -/
theorem leaves_set {moved : Attempt} (held : daemon.attempts.get? id = some attempt)
    (attempts : next.attempts = daemon.attempts.set id moved)
    (launched : moved.launched = attempt.launched) (waits : moved.stage ≠ .waiting)
    (waiters : ∀ pid other, next.waiters.get? pid = some other →
      daemon.waiters.get? pid = some other) : Leaves daemon next where
  processes other found isFound := by
    rw [attempts]
    by_cases same : id = other
    · subst same
      obtain rfl := Option.some.inj (held.symm.trans isFound)
      exact ⟨moved, get_own _ _ _, launched⟩
    · exact ⟨found, (get_other same _).trans isFound, rfl⟩
  waiting other found isFound waiting := by
    rw [attempts, OrderedMap.get_set] at isFound
    split at isFound
    · cases isFound
      exact absurd waiting waits
    · exact ⟨found, isFound, waiting, rfl⟩
  waiters := waiters

/-- A waiter that is removed is not added. -/
theorem of_delete {waiters : OrderedMap Nat Nat} {pid tested : Nat}
    (waits : (waiters.delete pid).get? tested = some other) : waiters.get? tested = some other := by
  rw [OrderedMap.get_delete] at waits
  split at waits
  · contradiction
  · exact waits

theorem leaves_settle (daemon : SpawnDaemon) (pid id : Nat) (report : Except String String) :
    Leaves daemon (daemon.settleWaiter pid id report) := by
  have waiters (tested other : Nat)
      (waits : (daemon.settleWaiter pid id report).waiters.get? tested = some other) :
      daemon.waiters.get? tested = some other := by
    rw [settle_waiters] at waits
    exact of_delete waits
  have idle (unmoved : (daemon.settleWaiter pid id report).attempts = daemon.attempts) :
      Leaves daemon (daemon.settleWaiter pid id report) :=
    ⟨fun _ attempt held => ⟨attempt, unmoved ▸ held, rfl⟩,
      fun _ moved held waits => ⟨moved, unmoved ▸ held, waits, rfl⟩, waiters⟩
  cases held : daemon.attempts.get? id with
  | none => exact idle (by simp only [settleWaiter, held])
  | some attempt =>
    by_cases waiting : attempt.stage = .waiting
    · have told : (daemon.settleWaiter pid id report).attempts =
          daemon.attempts.set id { attempt with stage := .answered report } := by
        simp only [settleWaiter, held, waiting, move]
      exact leaves_set held told rfl (by simp) waiters
    · refine idle ?_
      unfold settleWaiter
      simp only [held]

theorem OwnStep.leaves (stepped : OwnStep daemon event next)
    (issued : ∀ id attempt, daemon.attempts.get? id = some attempt → id < daemon.next) :
    Leaves daemon next := by
  cases stepped with
  | spawn params =>
    unfold handleSpawn
    split
    · exact leaves_refl daemon
    · refine ⟨fun other attempt held => ⟨attempt, ?_, rfl⟩, fun other moved isMoved waiting => ?_,
        fun _ _ waits => waits⟩
      · exact (get_other (Nat.ne_of_gt (issued other attempt held)) _).trans held
      · rw [OrderedMap.get_set] at isMoved
        split at isMoved
        · cases isMoved
          contradiction
        · exact ⟨moved, isMoved, waiting, rfl⟩
  | prepare held _ prepares =>
    exact leaves_set held rfl rfl prepares.unawaited (fun _ _ waits => waits)
  | refuse message held launching =>
    exact leaves_set held rfl rfl (by simp) (fun _ _ waits => waits)
  | fail => exact leaves_settle daemon _ _ _
  | unheard => exact leaves_refl daemon
  | timeOut => exact leaves_settle daemon _ _ _
  | exit => exact leaves_settle daemon _ _ _
  | replaced => exact leaves_refl daemon
  | @resume _ _ report process held answered =>
    cases report <;> exact leaves_set held rfl rfl (by simp) (fun _ _ waits => waits)
  | react held settled =>
    refine leaves_set held (react_attempts daemon _ _ _) rfl (by simp [settled]) ?_
    unfold SpawnDaemon.react
    dsimp only
    split <;> exact fun _ _ waits => waits

/-- An attempt that waits goes on waiting while its process lives, until the awaiter gives up. -/
theorem OwnStep.awaits (stepped : OwnStep daemon event next) (issued : id < daemon.next)
    (waited : Waited daemon) {pid : Nat} (unshared : Unshared daemon id pid)
    (awaits : Awaits daemon id pid) (lives : ∀ error, event ≠ .sessionStartFailed pid error)
    (runs : ∀ detail, event ≠ .exited id detail) :
    (event ≠ .timedOut id ∧ Awaits next id pid) ∨ (event = .timedOut id ∧ Concluded next id none) := by
  obtain ⟨⟨attempt, process, held, waiting, launched, isPid⟩, waits⟩ := awaits
  have other {found : Attempt} {key : Nat} (isFound : daemon.attempts.get? key = some found)
      (apart : found.stage ≠ .waiting) : key ≠ id := by
    rintro rfl
    obtain rfl := Option.some.inj (held.symm.trans isFound)
    exact apart waiting
  have kept (attempts : next.attempts.get? id = daemon.attempts.get? id)
      (waiters : next.waiters.get? pid = daemon.waiters.get? pid) : Awaits next id pid :=
    ⟨⟨attempt, process, attempts.trans held, waiting, launched, isPid⟩, waiters.trans waits⟩
  have settled {key elsewhere : Nat} (report : Except String String) (apart : key ≠ id)
      (away : elsewhere ≠ pid) (isNext : next = daemon.settleWaiter elsewhere key report) :
      Awaits next id pid := by
    subst isNext
    refine kept (settle_other daemon elsewhere apart report) ?_
    rw [settle_waiters, OrderedMap.get_delete, if_neg (Ne.symm away)]
  cases stepped with
  | spawn params =>
    refine Or.inl ⟨by simp, kept ?_ ?_⟩
    · unfold handleSpawn
      split
      · rfl
      · exact get_other (Nat.ne_of_gt issued) _
    · unfold handleSpawn
      split <;> rfl
  | prepare isFound preparing prepares =>
    have apart := other isFound (fun same => by simp [same, Preparing] at preparing)
    exact Or.inl ⟨prepares.untimed id, kept (get_other apart _) rfl⟩
  | refuse message isFound launching =>
    exact Or.inl ⟨by simp, kept (get_other (other isFound (by simp [launching])) _) rfl⟩
  | @fail elsewhere key error message waitsThere =>
    have away : elsewhere ≠ pid := fun same => lives error (same ▸ rfl)
    refine Or.inl ⟨by simp, settled (.error message) ?_ away rfl⟩
    rintro rfl
    obtain ⟨found, there, isFound, isThere, isElsewhere⟩ := waited elsewhere key waitsThere
    obtain rfl := Option.some.inj (held.symm.trans isFound)
    obtain rfl := Option.some.inj (launched.symm.trans isThere)
    exact away (isElsewhere.symm.trans isPid)
  | unheard => exact Or.inl ⟨by simp, kept rfl rfl⟩
  | @timeOut key found there message isFound waitsToo isThere =>
    by_cases same : key = id
    · subst same
      exact Or.inr ⟨rfl, _, settle_waiting daemon _ _ held waiting, rfl⟩
    · exact Or.inl ⟨by simpa using same, settled (.error message) same
        (unshared key found there same isFound waitsToo isThere) rfl⟩
  | @exit key found there detail message isFound waitsToo isThere =>
    have apart : key ≠ id := fun same => runs detail (same ▸ rfl)
    exact Or.inl ⟨by simp, settled (.error message) apart
      (unshared key found there apart isFound waitsToo isThere) rfl⟩
  | replaced => exact Or.inl ⟨by simp, kept rfl rfl⟩
  | @resume key found report there isFound answered =>
    have apart := other isFound (by simp [answered])
    refine Or.inl ⟨by simp, kept ?_ ?_⟩
    · unfold resumed
      split <;> exact get_other apart _
    · unfold resumed
      split <;> rfl
  | react isFound isSettled =>
    have apart := other isFound (by simp [isSettled])
    refine Or.inl ⟨by simp, kept ?_ ?_⟩
    · rw [react_attempts]
      exact get_other apart _
    · unfold SpawnDaemon.react
      dsimp only
      split <;> rfl

/-- The launcher's answer for another attempt. -/
theorem launched_other (daemon : SpawnDaemon) (apart : other ≠ id)
    (attempt : Attempt) (directory : String) (process : LaunchedProcess) :
    (daemon.launched other attempt directory (.ok process)).attempts.get? id =
      daemon.attempts.get? id :=
  get_other apart _

/-- A report of a process whose pid another attempt waits for. -/
theorem report_other (daemon : SpawnDaemon) (pid : Nat) (result : Except String String)
    (apart : daemon.waiters.get? pid ≠ some id) :
    (daemon.report pid result).attempts.get? id = daemon.attempts.get? id := by
  unfold report
  split
  · rename_i other waits
    exact settle_other daemon pid (fun same => apart (waits.trans (congrArg some same))) result
  · rfl

theorem report_unmoved (daemon : SpawnDaemon) (pid : Nat) (result : Except String String)
    (held : daemon.attempts.get? id = some attempt)
    (moved : attempt.stage ≠ .waiting) :
    (daemon.report pid result).attempts.get? id = some attempt := by
  unfold report
  split
  · exact settle_unmoved daemon pid _ result held moved
  · exact held

theorem report_waiters (daemon : SpawnDaemon) (pid : Nat) (result : Except String String)
    (apart : other ≠ pid) : (daemon.report pid result).waiters.get? other = daemon.waiters.get? other := by
  unfold report
  split
  · rw [settle_waiters, OrderedMap.get_delete, if_neg apart]
  · rfl

/-- The entries are no part of what is left. -/
theorem leaves_entries (daemon : SpawnDaemon) (sessions : OrderedMap Nat TrackedSession) :
    Leaves daemon { daemon with pidToSession := sessions } :=
  ⟨fun _ attempt held => ⟨attempt, held, rfl⟩, fun _ moved held waits => ⟨moved, held, waits, rfl⟩,
    fun _ _ waits => waits⟩

theorem leaves_report (daemon : SpawnDaemon) (pid : Nat) (result : Except String String) :
    Leaves daemon (daemon.report pid result) := by
  unfold report
  split
  · exact leaves_settle daemon pid _ result
  · exact leaves_refl daemon

theorem leaves_session_started (daemon : SpawnDaemon) (sessionId : String) (pid : Option Nat) :
    Leaves daemon (daemon.onSessionStarted sessionId pid) := by
  cases pid with
  | none => exact leaves_refl daemon
  | some pid => exact (leaves_entries daemon _).trans (leaves_report _ pid (.ok sessionId))

end SpawnDaemon

end Kvy.Cli.Daemon
