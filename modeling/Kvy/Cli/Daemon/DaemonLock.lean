import Kvy.General.LockFile
import Kvy.General.Runs
import Mathlib.Logic.Function.Basic

/-!
# The lock of the daemon

A process writes its payload to a file of its own and links that file to the lock path, which fails where
the path exists. A lock whose process is dead is removed, and so is one that cannot be read. Before every
removal the lock is read again and compared, but it is removed by its name, so another lock may stand
there by then. The file-system steps of the processes are interleaved here; each may crash before any of
them.
-/

namespace Kvy.Cli.Daemon

open General General.Runs Function

universe u

/-- `MAX_RECLAIM_ATTEMPTS`. -/
def maxReclaimAttempts : Nat := 5

/-- The `DaemonState` that a lock holds, as far as locking reads it. -/
structure LockPayload where
  pid : Int
  port : Nat
  version : String
  startedAt : Nat
deriving DecidableEq

/-- Two payloads name the same acquisition. -/
def LockPayload.Same (first second : LockPayload) : Prop :=
  first.pid = second.pid ∧ first.startedAt = second.startedAt

instance (first second : LockPayload) : Decidable (first.Same second) :=
  inferInstanceAs (Decidable (_ ∧ _))

/-- The processes that start daemons in one home directory. The pid and the start time tell them apart. -/
structure Daemons (Process : Type u) where
  payload : Process → LockPayload
  positive : ∀ process, 0 < (payload process).pid
  distinct : ∀ first second, (payload first).Same (payload second) → first = second

/-! ## The system -/

/-- The lock file: what can be read of it, and who linked it. -/
structure DaemonLockFile (Process : Type u) where
  content : Option LockPayload
  owner : Option Process
deriving DecidableEq

/-- Where a process is, by the step it does next. -/
inductive LockPhase where
  | idle
  | writing (attempt : Nat)
  | linking (attempt : Nat)
  | reading (attempt : Nat)
  | probing (attempt : Nat) (existing : LockPayload)
  | rechecking (attempt : Nat) (observed : Option LockPayload)
  | unlinking (attempt : Nat) (seen : Option LockPayload)
  | holding
  | refused
  | released
deriving DecidableEq

/-- The lock path, the processes that run, where each is, and the calls of `release` that have read their
own payload and remove the lock next. -/
structure LockMachine (Process : Type u) where
  lock : Option (DaemonLockFile Process)
  live : List Process
  phase : Process → LockPhase
  releases : List Process

/-- What can happen: a call of `acquireDaemonLock`, its next step, which may fail; the two steps of a call
of `release`; the end of a process. `outside` tells whether a process that is none of these has the pid
that is probed. -/
inductive LockEvent (Process : Type u) where
  | call (process : Process)
  | step (process : Process) (outside : Bool)
  | fail (process : Process)
  | release (process : Process) (fails : Bool)
  | unlink (process : Process) (fails : Bool)
  | crash (process : Process)

namespace LockMachine

variable {Process : Type u} [DecidableEq Process] (daemons : Daemons Process)
  (machine : LockMachine Process)

/-- What `readLockPayload` returns. -/
def readLockPayload : Option LockPayload := machine.lock.bind DaemonLockFile.content

/-- `isProcessAlive`. -/
def isProcessAlive (pid : Int) (outside : Bool) : Bool :=
  decide (0 < pid) && (outside || machine.live.any (fun process => (daemons.payload process).pid = pid))

/-- The next round of `acquireDaemonLock`. -/
def retry (attempt : Nat) : LockPhase :=
  if attempt + 1 < maxReclaimAttempts then .writing (attempt + 1) else .refused

/-- What a second reading means for a lock that was diagnosed. -/
def recheck (attempt : Nat) (observed current : Option LockPayload) : LockPhase :=
  match observed, current with
  | none, none => .unlinking attempt none
  | some observed, some current =>
    if current.Same observed then .unlinking attempt (some current) else retry attempt
  | _, _ => retry attempt

/-- The next step of `acquireDaemonLock`. -/
def operate (process : Process) (outside : Bool) :
    LockPhase → Option (Option (DaemonLockFile Process) × LockPhase)
  | .writing attempt => some (machine.lock, .linking attempt)
  | .linking attempt =>
    match machine.lock with
    | none => some (some ⟨some (daemons.payload process), some process⟩, .holding)
    | some _ => some (machine.lock, .reading attempt)
  | .reading attempt =>
    match machine.readLockPayload with
    | none => some (machine.lock, .rechecking attempt none)
    | some existing => some (machine.lock, .probing attempt existing)
  | .probing attempt existing =>
    if machine.isProcessAlive daemons existing.pid outside then some (machine.lock, .refused)
    else some (machine.lock, .rechecking attempt (some existing))
  | .rechecking attempt observed =>
    some (machine.lock, recheck attempt observed machine.readLockPayload)
  | .unlinking attempt _ => some (none, retry attempt)
  | _ => none

/-- The next step of `acquireDaemonLock`, where it fails. -/
def refuse : LockPhase → Option LockPhase
  | .writing _ | .linking _ => some .refused
  | .reading attempt => some (.rechecking attempt none)
  | .rechecking attempt observed => some (recheck attempt observed none)
  | .unlinking attempt _ => some (retry attempt)
  | _ => none

/-- A process moves on. -/
def move (process : Process) (moved : Option (DaemonLockFile Process) × LockPhase) :
    LockMachine Process :=
  { machine with lock := moved.1, phase := update machine.phase process moved.2 }

/-- Whether the lock is the one of a process. -/
def ownLock (process : Process) : Bool :=
  machine.readLockPayload.any (fun current => current.Same (daemons.payload process))

/-- Whether a process may call `acquireDaemonLock`: it has not started, or an earlier call is over. -/
def mayCall (process : Process) : Bool :=
  match machine.phase process with
  | .idle => process ∉ machine.live
  | .refused | .released => process ∈ machine.live && process ∉ machine.releases
  | _ => false

/-- A step. -/
def step : LockEvent Process → Option (LockMachine Process)
  | .call process =>
    if machine.mayCall process then
      some { machine with
        live := if process ∈ machine.live then machine.live else process :: machine.live
        phase := update machine.phase process (.writing 0) }
    else none
  | .step process outside =>
    if process ∈ machine.live then
      (machine.operate daemons process outside (machine.phase process)).map (machine.move process)
    else none
  | .fail process =>
    if process ∈ machine.live then
      (refuse (machine.phase process)).map (fun phase => machine.move process (machine.lock, phase))
    else none
  | .release process fails =>
    if process ∈ machine.live ∧ machine.phase process ∈ [.holding, .released] then
      if !fails && machine.ownLock daemons process then
        some { machine with releases := process :: machine.releases }
      else some (machine.move process (machine.lock, .released))
    else none
  | .unlink process fails =>
    if process ∈ machine.live ∧ process ∈ machine.releases then
      some { machine.move process (if fails then machine.lock else none, .released) with
        releases := machine.releases.erase process }
    else none
  | .crash process =>
    if process ∈ machine.live then
      some { machine with live := machine.live.filter (fun other => other ≠ process) }
    else none

/-! ## What is claimed -/

/-- A live process holds a successful acquisition. -/
def Holds (process : Process) : Prop :=
  process ∈ machine.live ∧ machine.phase process = .holding

/-- The lock is the one of a live process that holds it. -/
def Held (file : DaemonLockFile Process) : Prop :=
  ∃ owner ∈ file.owner, machine.Holds owner

/-- A call of `release` removes no lock that another live process holds. -/
def ReleasesOwn : LockEvent Process → Prop
  | .unlink process false => ∀ file ∈ machine.lock, ∀ owner ∈ file.owner, machine.Holds owner →
      owner = process
  | _ => True

/-- Where a lock is removed, it is the one that was read again before, or none that a live process
holds. -/
def RemovesRead : LockEvent Process → Prop
  | .step process _ => ∀ attempt seen, machine.phase process = .unlinking attempt seen →
      ∀ file ∈ machine.lock, file.content = seen ∨ ¬ machine.Held file
  | .unlink process false => ∀ file ∈ machine.lock,
      (∃ current ∈ file.content, current.Same (daemons.payload process)) ∨ ¬ machine.Held file
  | _ => True

end LockMachine

/-- What may lie at the lock path before anything happens: a lock of none of the processes. -/
structure Leftover {Process : Type u} (daemons : Daemons Process) where
  content : Option (Option LockPayload)
  foreign : ∀ payload, content = some (some payload) →
    ∀ process, ¬ payload.Same (daemons.payload process)

/-! ## What holds in every run -/

/-- The payload that a process has found to be dead. -/
def LockPhase.diagnosed : LockPhase → Option LockPayload
  | .rechecking _ observed => observed
  | .unlinking _ seen => seen
  | _ => none

/-- The payload that a process probes. -/
def LockPhase.probed : LockPhase → Option LockPayload
  | .probing _ existing => some existing
  | _ => none

namespace LockMachine

variable {Process : Type u} {daemons : Daemons Process} {machine next : LockMachine Process}

/-- Before anything happens. -/
def start (leftover : Leftover daemons) : LockMachine Process where
  lock := leftover.content.map (fun content => ⟨content, none⟩)
  live := []
  phase := fun _ => .idle
  releases := []

/-- Who linked the lock that is there. -/
def owner (machine : LockMachine Process) : Option Process := machine.lock.bind DaemonLockFile.owner

/-- Whoever holds the lock linked the file that is there; a lock has the payload of who linked it, and
names nobody else; whom a process has diagnosed has started and is dead, and whom it probes has
started. -/
structure Sound (daemons : Daemons Process) (machine : LockMachine Process) : Prop where
  guarded : LockFile.Guarded machine.owner machine.Holds
  owned : ∀ file ∈ machine.lock, ∀ process ∈ file.owner,
    file.content = some (daemons.payload process)
  named : ∀ file ∈ machine.lock, ∀ content ∈ file.content, ∀ process,
    content.Same (daemons.payload process) → file.owner = some process ∧ machine.phase process ≠ .idle
  dead : ∀ process, ∀ seen ∈ (machine.phase process).diagnosed, ∀ other,
    seen.Same (daemons.payload other) → other ∉ machine.live ∧ machine.phase other ≠ .idle
  probed : ∀ process, ∀ existing ∈ (machine.phase process).probed, ∀ other,
    existing.Same (daemons.payload other) → machine.phase other ≠ .idle

theorem sound_start (leftover : Leftover daemons) : Sound daemons (start leftover) where
  guarded := fun process holds => absurd holds.1 List.not_mem_nil
  owned := by
    intro file held process owner
    obtain ⟨content, _, rfl⟩ := Option.map_eq_some_iff.mp held
    cases owner
  named := by
    intro file held content found process same
    obtain ⟨left, isLeft, rfl⟩ := Option.map_eq_some_iff.mp held
    exact absurd same (leftover.foreign content (isLeft.trans (congrArg some found)) process)
  dead := by
    intro process seen found
    cases found
  probed := by
    intro process existing found
    cases found

/-- A phase in which nothing is held, diagnosed or probed. -/
structure Plain (phase : LockPhase) : Prop where
  started : phase ≠ .idle
  outside : phase ≠ .holding
  diagnosed : phase.diagnosed = none
  probed : phase.probed = none

/-- The next round starts plainly. -/
theorem retry_plain (attempt : Nat) : Plain (retry attempt) := by
  unfold retry
  split <;> exact ⟨by simp, by simp, rfl, rfl⟩

variable {process : Process}

/-- A pid that is found dead is that of no process that runs. -/
theorem dead_of_probe {pid : Int} {outside : Bool}
    (found : machine.isProcessAlive daemons pid outside = false)
    (names : pid = (daemons.payload process).pid) : process ∉ machine.live := by
  intro running
  have alive : machine.isProcessAlive daemons pid outside = true := by
    have positive := daemons.positive process
    have listed : machine.live.any
        (fun process => decide ((daemons.payload process).pid = pid)) = true :=
      List.any_eq_true.mpr ⟨process, running, decide_eq_true names.symm⟩
    rw [isProcessAlive, listed, Bool.or_true, Bool.and_true, decide_eq_true_eq, names]
    exact positive
  rw [found] at alive
  cases alive

/-- A release that removes the lock it has read removes its own. -/
theorem Sound.releases_own (sound : Sound daemons machine)
    (met : RemovesRead daemons machine (.unlink process false)) :
    ∀ owner ∈ machine.owner, machine.Holds owner → owner = process := by
  intro creator created holds
  obtain ⟨file, held, named⟩ := Option.bind_eq_some_iff.mp created
  rcases met file held with ⟨current, found, same⟩ | free
  · obtain ⟨own, -⟩ := sound.named file held current found process same
    exact Option.some.inj (named.symm.trans own)
  · exact absurd ⟨creator, named, holds⟩ free

/-- Fewer processes and other calls of `release` keep what holds. -/
theorem Sound.fewer (sound : Sound daemons machine) {live releases : List Process}
    (among : ∀ process ∈ live, process ∈ machine.live) :
    Sound daemons { machine with live := live, releases := releases } where
  guarded := fun process holds => sound.guarded process ⟨among process holds.1, holds.2⟩
  owned := sound.owned
  named := sound.named
  dead := by
    intro process seen found other names
    obtain ⟨gone, was⟩ := sound.dead process seen found other names
    exact ⟨fun running => gone (among other running), was⟩
  probed := sound.probed

/-! ## Steps -/

variable [DecidableEq Process]

@[simp] theorem phase_move_self (process : Process)
    (moved : Option (DaemonLockFile Process) × LockPhase) :
    (machine.move process moved).phase process = moved.2 := update_self _ _ _

theorem phase_move_of_ne {other : Process} (differs : other ≠ process)
    (moved : Option (DaemonLockFile Process) × LockPhase) :
    (machine.move process moved).phase other = machine.phase other := update_of_ne differs _ _

variable {phase : LockPhase}

/-- A process that moves on and does not come to hold the lock. -/
theorem holds_of_move {other : Process} {lock : Option (DaemonLockFile Process)}
    (outside : phase ≠ .holding)
    (holds : (machine.move process (lock, phase)).Holds other) :
    other ≠ process ∧ machine.Holds other := by
  obtain ⟨running, at'⟩ := holds
  by_cases same : other = process
  · subst same
    rw [phase_move_self] at at'
    exact absurd at' outside
  · rw [phase_move_of_ne same] at at'
    exact ⟨same, running, at'⟩

/-- A process that moves on keeps what holds in every run, where it does to the lock what a process may
do. -/
theorem Sound.move (sound : Sound daemons machine)
    {lock : Option (DaemonLockFile Process)} (started : phase ≠ .idle)
    (file : LockFile.Step machine.owner machine.Holds (lock.bind DaemonLockFile.owner)
      (machine.move process (lock, phase)).Holds)
    (made : lock = machine.lock ∨ lock = none ∨
      lock = some ⟨some (daemons.payload process), some process⟩)
    (dead : ∀ seen ∈ phase.diagnosed, ∀ other, seen.Same (daemons.payload other) →
      other ∉ machine.live ∧ machine.phase other ≠ .idle)
    (probed : ∀ existing ∈ phase.probed, ∀ other, existing.Same (daemons.payload other) →
      machine.phase other ≠ .idle) : Sound daemons (machine.move process (lock, phase)) := by
  have stays : ∀ other, machine.phase other ≠ .idle →
      (machine.move process (lock, phase)).phase other ≠ .idle := by
    intro other was
    by_cases same : other = process
    · subst same
      simpa using started
    · rwa [phase_move_of_ne same]
  refine ⟨sound.guarded.step file, ?_, ?_, ?_, ?_⟩
  · intro held isHeld creator created
    rcases made with rfl | rfl | rfl
    · exact sound.owned held isHeld creator created
    · cases isHeld
    · cases isHeld
      cases created
      rfl
  · intro held isHeld content found other same
    rcases made with rfl | rfl | rfl
    · obtain ⟨owner, was⟩ := sound.named held isHeld content found other same
      exact ⟨owner, stays other was⟩
    · cases isHeld
    · cases isHeld
      cases found
      obtain rfl := daemons.distinct process other same
      refine ⟨rfl, ?_⟩
      simpa using started
  · intro mover seen found other same
    by_cases moved : mover = process
    · subst moved
      rw [phase_move_self] at found
      obtain ⟨gone, was⟩ := dead seen found other same
      exact ⟨gone, stays other was⟩
    · rw [phase_move_of_ne moved] at found
      obtain ⟨gone, was⟩ := sound.dead mover seen found other same
      exact ⟨gone, stays other was⟩
  · intro mover existing found other same
    by_cases moved : mover = process
    · subst moved
      rw [phase_move_self] at found
      exact stays other (probed existing found other same)
    · rw [phase_move_of_ne moved] at found
      exact stays other (sound.probed mover existing found other same)

/-- A process that leaves the lock as it is and does not come to hold it. -/
theorem Sound.wait
    (sound : Sound daemons machine)     (started : phase ≠ .idle) (outside : phase ≠ .holding)
    (dead : ∀ seen ∈ phase.diagnosed, ∀ other, seen.Same (daemons.payload other) →
      other ∉ machine.live ∧ machine.phase other ≠ .idle)
    (probed : ∀ existing ∈ phase.probed, ∀ other, existing.Same (daemons.payload other) →
      machine.phase other ≠ .idle) : Sound daemons (machine.move process (machine.lock, phase)) :=
  sound.move started (.stay fun _ holds => (holds_of_move outside holds).2) (.inl rfl) dead probed

/-- A process that leaves the lock as it is and goes on plainly. -/
theorem Sound.pass (sound : Sound daemons machine) (process : Process)
    (plain : Plain phase) : Sound daemons (machine.move process (machine.lock, phase)) :=
  sound.wait plain.started plain.outside (by rw [plain.diagnosed]; simp)
    (by rw [plain.probed]; simp)

/-- A process that removes a lock that no live process but itself holds, and goes on plainly. -/
theorem Sound.remove (sound : Sound daemons machine)     (plain : Plain phase)
    (free : ∀ owner ∈ machine.owner, machine.Holds owner → owner = process) :
    Sound daemons (machine.move process (none, phase)) := by
  refine sound.move plain.started ?_ (.inr (.inl rfl)) (by rw [plain.diagnosed]; simp)
    (by rw [plain.probed]; simp)
  by_cases holds : machine.Holds process
  · exact .leave process holds (fun other later => holds_of_move plain.outside later)
  · refine .reclaim ?_ (fun other later => (holds_of_move plain.outside later).2)
    intro owner held inside
    obtain rfl := free owner held inside
    exact holds inside

/-- A second reading removes a lock only where the diagnosis stands. -/
theorem Sound.recheck (sound : Sound daemons machine) {attempt : Nat}
    {observed : Option LockPayload} (was : machine.phase process = .rechecking attempt observed)
    (current : Option LockPayload) :
    Sound daemons (machine.move process (machine.lock, recheck attempt observed current)) := by
  have dead := sound.dead process
  rw [was] at dead
  cases observed with
  | none =>
    cases current with
    | none =>
      exact sound.pass process ⟨by simp [LockMachine.recheck], by simp [LockMachine.recheck], rfl, rfl⟩
    | some current => exact sound.pass process (retry_plain attempt)
  | some observed =>
    cases current with
    | none => exact sound.pass process (retry_plain attempt)
    | some current =>
      unfold LockMachine.recheck
      by_cases same : current.Same observed
      · simp only [same, ↓reduceIte]
        refine sound.wait (by simp) (by simp) ?_ (by simp [LockPhase.probed])
        rintro seen ⟨⟩ other names
        exact dead observed rfl other ⟨same.1.symm.trans names.1, same.2.symm.trans names.2⟩
      · simp only [same, ↓reduceIte]
        exact sound.pass process (retry_plain attempt)

/-- The next step of a call keeps what holds, where it removes the lock that was read. -/
theorem Sound.operate (sound : Sound daemons machine) {outside : Bool}
    {moved : Option (DaemonLockFile Process) × LockPhase}
    (met : RemovesRead daemons machine (.step process outside))
    (taken : machine.operate daemons process outside (machine.phase process) = some moved) :
    Sound daemons (machine.move process moved) := by
  have dead := sound.dead process
  have probed := sound.probed process
  cases was : machine.phase process with
  | writing attempt =>
    rw [was] at taken
    cases taken
    exact sound.pass process ⟨by simp, by simp, rfl, rfl⟩
  | linking attempt =>
    rw [was] at taken
    cases lock : machine.lock with
    | none =>
      simp only [LockMachine.operate, lock, Option.some.injEq] at taken
      subst taken
      refine sound.move (by simp) ?_ (.inr (.inr rfl)) (by simp [LockPhase.diagnosed])
        (by simp [LockPhase.probed])
      refine .enter process (by rw [owner, lock]; rfl) ?_
      rintro other ⟨running, at'⟩
      by_cases same : other = process
      · exact .inl same
      · rw [phase_move_of_ne same] at at'
        exact .inr ⟨running, at'⟩
    | some file =>
      simp only [LockMachine.operate, lock, Option.some.injEq] at taken
      rw [← lock] at taken
      subst taken
      exact sound.pass process ⟨by simp, by simp, rfl, rfl⟩
  | reading attempt =>
    rw [was] at taken
    cases read : machine.readLockPayload with
    | none =>
      simp only [LockMachine.operate, read, Option.some.injEq] at taken
      subst taken
      exact sound.pass process ⟨by simp, by simp, rfl, rfl⟩
    | some existing =>
      simp only [LockMachine.operate, read, Option.some.injEq] at taken
      subst taken
      refine sound.wait (by simp) (by simp) (by simp [LockPhase.diagnosed]) ?_
      rintro seen ⟨⟩ other names
      obtain ⟨file, held, content⟩ := Option.bind_eq_some_iff.mp read
      exact (sound.named file held existing content other names).2
  | probing attempt existing =>
    rw [was] at taken probed
    cases found : machine.isProcessAlive daemons existing.pid outside with
    | true =>
      simp only [LockMachine.operate, found, ↓reduceIte, Option.some.injEq] at taken
      subst taken
      exact sound.pass process ⟨by simp, by simp, rfl, rfl⟩
    | false =>
      simp only [LockMachine.operate, found, Bool.false_eq_true, ↓reduceIte, Option.some.injEq] at taken
      subst taken
      refine sound.wait (by simp) (by simp) ?_ (by simp [LockPhase.probed])
      rintro seen ⟨⟩ other names
      exact ⟨dead_of_probe found names.1, probed existing rfl other names⟩
  | rechecking attempt observed =>
    rw [was] at taken
    cases taken
    exact sound.recheck was machine.readLockPayload
  | unlinking attempt seen =>
    rw [was] at taken dead
    cases taken
    refine sound.remove (retry_plain attempt) ?_
    intro creator created holds
    obtain ⟨file, held, named⟩ := Option.bind_eq_some_iff.mp created
    rcases met attempt seen was file held with same | free
    · have content := sound.owned file held creator named
      rw [same] at content
      exact absurd holds.1 (dead _ content creator ⟨rfl, rfl⟩).1
    · exact absurd ⟨creator, named, holds⟩ free
  | idle => simp [was, LockMachine.operate] at taken
  | holding => simp [was, LockMachine.operate] at taken
  | refused => simp [was, LockMachine.operate] at taken
  | released => simp [was, LockMachine.operate] at taken

/-- A call that begins. -/
theorem Sound.call (sound : Sound daemons machine)
    (may : machine.mayCall process = true) : Sound daemons { machine with
      live := if process ∈ machine.live then machine.live else process :: machine.live
      phase := update machine.phase process (.writing 0) } := by
  have joined : ∀ other, machine.phase other ≠ .idle → other ∉ machine.live →
      other ∉ (if process ∈ machine.live then machine.live else process :: machine.live) := by
    intro other started gone
    split
    · exact gone
    · intro member
      rcases List.mem_cons.mp member with rfl | member
      · unfold mayCall at may
        cases was : machine.phase other <;> simp_all
      · exact gone member
  have stays : ∀ other, machine.phase other ≠ .idle →
      update machine.phase process (.writing 0) other ≠ .idle := by
    intro other was
    by_cases same : other = process
    · rw [same, update_self]
      simp
    · rwa [update_of_ne same]
  refine ⟨?_, sound.owned, ?_, ?_, ?_⟩
  · rintro other ⟨running, at'⟩
    by_cases same : other = process
    · rw [same] at at'
      simp at at'
    · simp only [update_of_ne same] at at'
      have before : other ∈ machine.live := by
        split at running
        · exact running
        · exact (List.mem_cons.mp running).resolve_left same
      exact sound.guarded other ⟨before, at'⟩
  · intro file held content found other names
    obtain ⟨owner, was⟩ := sound.named file held content found other names
    exact ⟨owner, stays other was⟩
  · intro mover seen found other names
    by_cases same : mover = process
    · rw [same] at found
      simp [LockPhase.diagnosed] at found
    · simp only [update_of_ne same] at found
      obtain ⟨gone, was⟩ := sound.dead mover seen found other names
      exact ⟨joined other was gone, stays other was⟩
  · intro mover existing found other names
    by_cases same : mover = process
    · rw [same] at found
      simp [LockPhase.probed] at found
    · simp only [update_of_ne same] at found
      exact stays other (sound.probed mover existing found other names)

theorem Sound.step {event : LockEvent Process} (sound : Sound daemons machine)
    (met : RemovesRead daemons machine event) (taken : machine.step daemons event = some next) :
    Sound daemons next := by
  cases event with
  | call process =>
    obtain ⟨may, taken⟩ := Option.ite_none_right_eq_some.mp taken
    cases taken
    exact sound.call may
  | step process outside =>
    obtain ⟨-, taken⟩ := Option.ite_none_right_eq_some.mp taken
    obtain ⟨moved, operated, rfl⟩ := Option.map_eq_some_iff.mp taken
    exact sound.operate met operated
  | fail process =>
    obtain ⟨-, taken⟩ := Option.ite_none_right_eq_some.mp taken
    obtain ⟨phase, refused, rfl⟩ := Option.map_eq_some_iff.mp taken
    cases was : machine.phase process with
    | writing attempt | linking attempt =>
      rw [was] at refused
      cases refused
      exact sound.pass process ⟨by simp, by simp, rfl, rfl⟩
    | reading attempt =>
      rw [was] at refused
      cases refused
      exact sound.pass process ⟨by simp, by simp, rfl, rfl⟩
    | rechecking attempt observed =>
      rw [was] at refused
      cases refused
      exact sound.recheck was none
    | unlinking attempt seen =>
      rw [was] at refused
      cases refused
      exact sound.pass process (retry_plain attempt)
    | idle | probing _ _ | holding | refused | released => simp [was, refuse] at refused
  | release process fails =>
    obtain ⟨-, taken⟩ := Option.ite_none_right_eq_some.mp taken
    split at taken
    · cases taken
      exact sound.fewer (fun _ running => running)
    · cases taken
      exact sound.pass process ⟨by simp, by simp, rfl, rfl⟩
  | unlink process fails =>
    obtain ⟨-, taken⟩ := Option.ite_none_right_eq_some.mp taken
    cases taken
    have plain : Plain .released := ⟨by simp, by simp, rfl, rfl⟩
    cases fails with
    | true => exact (sound.pass process plain).fewer (fun _ running => running)
    | false =>
      refine (sound.remove plain ?_).fewer (fun _ running => running)
      exact sound.releases_own met
  | crash process =>
    obtain ⟨-, taken⟩ := Option.ite_none_right_eq_some.mp taken
    cases taken
    exact sound.fewer (fun other member => (List.mem_filter.mp member).1)

/-- In every run in which each removal removes the lock that was read again, or none that a live process
holds, at most one live process holds the lock, and a release removes no lock of another. -/
theorem daemon_lock_exclusive (daemons : Daemons Process) (leftover : Leftover daemons)
    (events : List (LockEvent Process))
    (met : Always (step daemons) (fun machine event _ => RemovesRead daemons machine event)
      (start leftover) events) :
    Always (step daemons) (fun machine event next => LockFile.Exclusive next.Holds ∧
      machine.ReleasesOwn event) (start leftover) events := by
  refine always_under (Sound daemons) _ _ ?_ (sound_start leftover) met
  intro machine event next sound removes taken
  have after := sound.step removes taken
  refine ⟨after, after.guarded.exclusive, ?_⟩
  cases event with
  | unlink process fails =>
    cases fails with
    | true => trivial
    | false =>
      intro file held owner created holds
      exact sound.releases_own removes owner (by rw [LockMachine.owner, held]; exact created) holds
  | _ => trivial

/-- Two processes on one home directory. -/
def bothDaemons : Daemons Bool where
  payload := fun process => if process then ⟨12, 4101, "1.0.0", 200⟩ else ⟨13, 4102, "1.0.0", 300⟩
  positive := by decide
  distinct := by decide

/-- The lock of a daemon that is dead. -/
def deadLock : Leftover bothDaemons where
  content := some (some ⟨11, 4100, "1.0.0", 100⟩)
  foreign := by
    rintro payload ⟨⟩
    decide

/-- A process that finds the lock of a dead daemon removes it, holds the lock and releases it. -/
theorem dead_lock_reclaimed :
    Always (step bothDaemons) (fun machine event next => LockFile.Exclusive next.Holds ∧
      machine.ReleasesOwn event) (start deadLock)
      [.call true, .step true false, .step true false, .step true false, .step true false,
        .step true false, .step true false, .step true false, .step true false,
        .release true false, .unlink true false] := by
  refine daemon_lock_exclusive bothDaemons deadLock _ ?_
  refine always_cons rfl trivial ?_
  refine always_cons rfl (fun attempt seen was => by cases was) ?_
  refine always_cons rfl (fun attempt seen was => by cases was) ?_
  refine always_cons rfl (fun attempt seen was => by cases was) ?_
  refine always_cons rfl (fun attempt seen was => by cases was) ?_
  refine always_cons rfl (fun attempt seen was => by cases was) ?_
  refine always_cons rfl ?_ ?_
  · -- the lock that is removed is the one that was read again
    rintro attempt seen was file held
    cases was
    cases held
    exact .inl rfl
  refine always_cons rfl (fun attempt seen was => by cases was) ?_
  refine always_cons rfl (fun attempt seen was => by cases was) ?_
  refine always_cons rfl trivial ?_
  refine always_cons rfl ?_ trivial
  rintro file held
  cases held
  exact .inl ⟨_, rfl, rfl, rfl⟩

/-- A process that removes a lock by its name, after another one has replaced it, holds the lock beside
that other one. -/
theorem delayed_reclaim_admits_two :
    ¬ ∀ (Process : Type) [DecidableEq Process] (daemons : Daemons Process)
      (leftover : Leftover daemons) (events : List (LockEvent Process)),
      Always (step daemons) (fun machine event next => LockFile.Exclusive next.Holds ∧
        machine.ReleasesOwn event) (start leftover) events := by
  intro always
  have reached := always_step (always Bool bothDaemons deadLock
    ([.call true, .call false, .step true false, .step true false, .step true false,
      .step true false, .step true false, .step false false, .step false false, .step false false,
      .step false false, .step false false, .step false false, .step false false, .step false false,
      .step true false, .step true false] ++ [.step true false])) rfl rfl
  have same := reached.1 true false ⟨by decide, rfl⟩ ⟨by decide, rfl⟩
  cases same

end LockMachine

end Kvy.Cli.Daemon
