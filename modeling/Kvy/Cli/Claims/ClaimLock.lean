import Kvy.Cli.Claims.ClaimHistory
import Kvy.General.LockFile
import Kvy.General.Runs

/-!
# The lock of the claim store

Each call takes the lock file, reads, writes a temporary file, renames it over the claims
file, closes the lock and removes the lock file by its name. A call that finds the lock file
in its way removes it when it looks older than ten seconds. The file-system steps of the
calls are interleaved here, every step at a clock reading of its own; a call may crash
before any of them, and a file operation may fail. Reads of the claims file find its text.
-/

namespace Kvy.Cli.Claims

open General Function

universe u

/-- `STALE_LOCK_TIMEOUT_MS`. -/
def staleLockTimeoutMs : ℚ := 10000

/-- `MAX_LOCK_ATTEMPTS`. -/
def maxLockAttempts : Nat := 50

/-- The mutation a caller runs under the lock. -/
inductive Request where
  | claim (envelopeId claimId : String)
  | complete (envelopeId claimId : String) (result : Option JsValue)

/-- The call a request makes at a time. -/
def Request.called (now : Decimal) : Request → Call
  | .claim envelopeId claimId => .claim envelopeId claimId now
  | .complete envelopeId claimId result => .complete envelopeId claimId result now

/-- A lock file, with the call that created it. -/
structure LockFile (Caller : Type u) where
  owner : Caller
  mtime : Decimal

/-- The three paths of one session. -/
structure Disk (Caller : Type u) where
  lock : Option (LockFile Caller)
  file : Option (List Char)
  tmp : Option (List Char)

/-- Where a call is, by the file operation it does next. -/
inductive Phase where
  | opening (attempt : Nat)
  | checking (attempt : Nat)
  | reclaiming (attempt : Nat)
  | reading
  | writing (contents : Option (List Char)) (answer : Answer)
  | replacing (answer : Answer)
  | closing (answer : Answer)
  | unlocking (answer : Answer)
  | returned (answer : Answer)
  | crashed

/-- The calls and the disk they share. -/
structure Machine (Caller : Type u) where
  disk : Disk Caller
  phase : Caller → Phase

/-- One file operation of a call, or the end of its process. -/
inductive Event (Caller : Type u) where
  | step (caller : Caller) (now : Decimal)
  /-- The operation fails; a failing write leaves some text. -/
  | fail (caller : Caller) (written : List Char)
  | crash (caller : Caller)

/-- The next round of `acquireLock`. -/
def retry (attempt : Nat) : Phase :=
  if attempt + 1 < maxLockAttempts then .opening (attempt + 1) else .returned .thrown

/-- `open` with `O_CREAT` and `O_EXCL`. -/
def openLock {Caller : Type u} (disk : Disk Caller) (caller : Caller) (now : Decimal)
    (attempt : Nat) : Disk Caller × Phase :=
  match disk.lock with
  | none => ({ disk with lock := some ⟨caller, now⟩ }, .reading)
  | some _ => (disk, .checking attempt)

/-- `stat` and the test of the lock file's age. -/
def checkLock {Caller : Type u} (disk : Disk Caller) (now : Decimal) (attempt : Nat) :
    Disk Caller × Phase :=
  match disk.lock with
  | none => (disk, retry attempt)
  | some lock =>
    if now.toRat - lock.mtime.toRat > staleLockTimeoutMs then (disk, .reclaiming attempt)
    else (disk, retry attempt)

/-- Reading, pruning and mutating; a mutation that throws writes nothing. -/
def readAndMutate {Caller : Type u} (disk : Disk Caller) (request : Request) (now : Decimal) : Phase :=
  match respond disk.file (request.called now) with
  | (_, .thrown) => .closing .thrown
  | (contents, answer) => .writing contents answer

/-- `rename`, which fails when the temporary file is gone. -/
def renameTmp {Caller : Type u} (disk : Disk Caller) (answer : Answer) : Disk Caller × Phase :=
  match disk.tmp with
  | none => (disk, .closing .thrown)
  | some text => ({ disk with file := some text, tmp := none }, .closing answer)

/-- The next operation of a call in `withClaimsFile`, when it succeeds. -/
def operate {Caller : Type u} (disk : Disk Caller) (request : Request) (caller : Caller)
    (now : Decimal) : Phase → Option (Disk Caller × Phase)
  | .opening attempt => some (openLock disk caller now attempt)
  | .checking attempt => some (checkLock disk now attempt)
  | .reclaiming attempt => some ({ disk with lock := none }, retry attempt)
  | .reading => some (disk, readAndMutate disk request now)
  | .writing contents answer => some ({ disk with tmp := contents }, .replacing answer)
  | .replacing answer => some (renameTmp disk answer)
  | .closing answer => some (disk, .unlocking answer)
  | .unlocking answer => some ({ disk with lock := none }, .returned answer)
  | .returned _ | .crashed => none

/-- The next operation of a call, when it fails. -/
def refuse {Caller : Type u} (disk : Disk Caller) (written : List Char) :
    Phase → Option (Disk Caller × Phase)
  | .opening _ => some (disk, .returned .thrown)
  | .checking attempt | .reclaiming attempt => some (disk, retry attempt)
  | .writing _ _ => some ({ disk with tmp := some written }, .closing .thrown)
  | .replacing _ => some (disk, .closing .thrown)
  -- the rejected `close` leaves the `finally` block before the unlink
  | .closing _ => some (disk, .returned .thrown)
  | .unlocking answer => some (disk, .returned answer)
  | .reading | .returned _ | .crashed => none

/-- A call that has not returned may crash. -/
def Phase.crash : Phase → Option Phase
  | .returned _ | .crashed => none
  | _ => some .crashed

variable {Caller : Type u}

/-- The caller moves to a phase. -/
def Machine.move [DecidableEq Caller] (machine : Machine Caller) (caller : Caller) (moved : Disk Caller × Phase) :
    Machine Caller :=
  ⟨moved.1, update machine.phase caller moved.2⟩

/-- One step of the calls, each with its request. -/
def advance [DecidableEq Caller] (requests : Caller → Request) (machine : Machine Caller) :
    Event Caller → Option (Machine Caller)
  | .step caller now =>
    (operate machine.disk (requests caller) caller now (machine.phase caller)).map (machine.move caller)
  | .fail caller written =>
    (refuse machine.disk written (machine.phase caller)).map (machine.move caller)
  | .crash caller =>
    (machine.phase caller).crash.map (fun phase => machine.move caller (machine.disk, phase))

/-- The call is between the return of `acquireLock` and the final unlink. -/
def Phase.inside : Phase → Bool
  | .reading | .writing _ _ | .replacing _ | .closing _ | .unlocking _ => true
  | _ => false

/-- The callers inside their critical sections. -/
def Machine.inside (machine : Machine Caller) (caller : Caller) : Prop :=
  (machine.phase caller).inside = true

/-- The call that created the lock file. -/
def Machine.owner (machine : Machine Caller) : Option Caller := machine.disk.lock.map LockFile.owner

/-- Nobody has started, except those that crashed before; the paths hold anything. -/
def Machine.Initial (machine : Machine Caller) : Prop :=
  ∀ caller, machine.phase caller = .opening 0 ∨ machine.phase caller = .crashed

/-- The call is about to remove a lock file that looked stale. -/
def Phase.reclaims : Phase → Bool
  | .reclaiming _ => true
  | _ => false

/-- The call is about to read the claims file. -/
def Phase.reads : Phase → Bool
  | .reading => true
  | _ => false

/-- A lock file that is reclaimed was not created by a call in its critical section. -/
def ReclaimsDead (machine : Machine Caller) : Event Caller → Prop
  | .step caller _ => (machine.phase caller).reclaims →
    ∀ owner ∈ machine.owner, ¬ machine.inside owner
  | _ => True

/-- A critical section finds no entry of the envelope past its retention. -/
def Retains (envelopeId : String) (machine : Machine Caller) : Event Caller → Prop
  | .step caller now => (machine.phase caller).reads →
    ∀ entry ∈ stored machine.disk.file envelopeId, entry.expired now = false
  | _ => True

/-- The answer of a call that is done with the claims file. -/
def Phase.settled : Phase → Option Answer
  | .closing answer | .unlocking answer | .returned answer => some answer
  | _ => none

/-- The call has returned `claimed` for the envelope. -/
def Granted (requests : Caller → Request) (machine : Machine Caller) (envelopeId : String)
    (caller : Caller) : Prop :=
  ∃ claimId claimed, requests caller = .claim envelopeId claimId ∧
    machine.phase caller = .returned (.outcome (.claimed claimed))

/-! ## What a step can do -/

/-- The phase does not carry an answer other than an error. -/
def Phase.Vain (phase : Phase) : Prop := ∀ answer, phase.settled = some answer → answer = .thrown

/-- What an event may do for its caller. -/
inductive Effect (requests : Caller → Request) (machine : Machine Caller) :
    Event Caller → Caller → Disk Caller × Phase → Prop where
  /-- A call outside stays outside. -/
  | wait {event : Event Caller} {caller : Caller} {phase : Phase} (out : phase.inside = false)
    (vain : phase.Vain) : Effect requests machine event caller (machine.disk, phase)
  | enter {caller : Caller} {now : Decimal} (vacant : machine.disk.lock = none) :
    Effect requests machine (.step caller now) caller
      ({ machine.disk with lock := some ⟨caller, now⟩ }, .reading)
  | reclaim {caller : Caller} {now : Decimal} {attempt : Nat}
    (was : machine.phase caller = .reclaiming attempt) :
    Effect requests machine (.step caller now) caller
      ({ machine.disk with lock := none }, retry attempt)
  | mutate {caller : Caller} {now : Decimal} (was : machine.phase caller = .reading) :
    Effect requests machine (.step caller now) caller
      (machine.disk, readAndMutate machine.disk (requests caller) now)
  | write {event : Event Caller} {caller : Caller} {contents : Option (List Char)} {answer : Answer}
    (was : machine.phase caller = .writing contents answer) :
    Effect requests machine event caller ({ machine.disk with tmp := contents }, .replacing answer)
  | spoil {event : Event Caller} {caller : Caller} {contents : Option (List Char)} {answer : Answer}
    {written : List Char} (was : machine.phase caller = .writing contents answer) :
    Effect requests machine event caller
      ({ machine.disk with tmp := some written }, .closing .thrown)
  | rename {event : Event Caller} {caller : Caller} {answer : Answer} {text : List Char}
    (was : machine.phase caller = .replacing answer) (found : machine.disk.tmp = some text) :
    Effect requests machine event caller
      ({ machine.disk with file := some text, tmp := none }, .closing answer)
  /-- A call inside goes on with an error. -/
  | abandon {event : Event Caller} {caller : Caller}
    (was : machine.inside caller) :
    Effect requests machine event caller (machine.disk, .closing .thrown)
  | close {event : Event Caller} {caller : Caller} {answer : Answer}
    (was : machine.phase caller = .closing answer) :
    Effect requests machine event caller (machine.disk, .unlocking answer)
  | unlock {event : Event Caller} {caller : Caller} {answer : Answer}
    (was : machine.phase caller = .unlocking answer) :
    Effect requests machine event caller ({ machine.disk with lock := none }, .returned answer)
  /-- The lock file cannot be removed. -/
  | leave {event : Event Caller} {caller : Caller} {answer : Answer}
    (was : machine.phase caller = .unlocking answer) :
    Effect requests machine event caller (machine.disk, .returned answer)

/-- A retry is outside the critical section. -/
@[simp] theorem retry_inside (attempt : Nat) : (retry attempt).inside = false := by
  simp only [retry]
  split <;> rfl

/-- A retry has no answer but a timeout. -/
theorem retry_vain (attempt : Nat) : (retry attempt).Vain := by
  intro answer settles
  simp only [retry] at settles
  split at settles
  · contradiction
  · exact (Option.some.inj settles).symm

theorem crashed_vain : Phase.crashed.Vain := by
  intro answer settles
  contradiction

theorem thrown_vain {phase : Phase} (settles : phase.settled = some .thrown) : phase.Vain := by
  intro answer other
  exact Option.some.inj (other.symm.trans settles)

/-- Opening the lock creates the file or waits. -/
theorem open_effect (requests : Caller → Request) (machine : Machine Caller) (caller : Caller)
    (now : Decimal) (attempt : Nat) : Effect requests machine (.step caller now) caller
      (openLock machine.disk caller now attempt) := by
  cases held : machine.disk.lock with
  | none =>
    simp only [openLock, held]
    exact .enter held
  | some lock =>
    simp only [openLock, held]
    exact .wait rfl (by intro answer settles; contradiction)

/-- Looking at the lock file waits. -/
theorem check_effect (requests : Caller → Request) (machine : Machine Caller) (caller : Caller)
    (now : Decimal) (attempt : Nat) : Effect requests machine (.step caller now) caller
      (checkLock machine.disk now attempt) := by
  cases held : machine.disk.lock with
  | none =>
    simp only [checkLock, held]
    exact .wait (retry_inside attempt) (retry_vain attempt)
  | some lock =>
    simp only [checkLock, held]
    split
    · exact .wait rfl (by intro answer settles; contradiction)
    · exact .wait (retry_inside attempt) (retry_vain attempt)

/-- Renaming replaces the claims file or fails. -/
theorem rename_effect (requests : Caller → Request) (machine : Machine Caller) (caller : Caller)
    (event : Event Caller) {answer : Answer} (was : machine.phase caller = .replacing answer) :
    Effect requests machine event caller (renameTmp machine.disk answer) := by
  cases held : machine.disk.tmp with
  | none =>
    simp only [renameTmp, held]
    exact .abandon (by simp [Machine.inside, was, Phase.inside])
  | some text =>
    simp only [renameTmp, held]
    exact .rename was held

variable [DecidableEq Caller]

/-- Every step has one of the effects. -/
theorem advance_effect {requests : Caller → Request} {machine next : Machine Caller}
    {event : Event Caller} (taken : advance requests machine event = some next) :
    ∃ caller moved, Effect requests machine event caller moved ∧ next = machine.move caller moved := by
  cases event with
  | crash caller =>
    obtain ⟨phase, crashes, rfl⟩ := Option.map_eq_some_iff.mp taken
    have isCrashed : phase = .crashed := by
      cases found : machine.phase caller <;> simp_all [Phase.crash]
    exact ⟨caller, _, .wait (by rw [isCrashed]; rfl) (isCrashed ▸ crashed_vain), rfl⟩
  | fail caller written =>
    obtain ⟨moved, refused, rfl⟩ := Option.map_eq_some_iff.mp taken
    refine ⟨caller, moved, ?_, rfl⟩
    cases found : machine.phase caller with
    | opening attempt =>
      rw [found] at refused
      cases refused
      exact .wait rfl (thrown_vain rfl)
    | checking attempt | reclaiming attempt =>
      rw [found] at refused
      cases refused
      exact .wait (retry_inside attempt) (retry_vain attempt)
    | writing contents answer =>
      rw [found] at refused
      cases refused
      exact .spoil found
    | replacing answer =>
      rw [found] at refused
      cases refused
      exact .abandon (by simp [Machine.inside, found, Phase.inside])
    | closing answer =>
      rw [found] at refused
      cases refused
      exact .wait rfl (thrown_vain rfl)
    | unlocking answer =>
      rw [found] at refused
      cases refused
      exact .leave found
    | reading | returned answer | crashed => simp [refuse, found] at refused
  | step caller now =>
    obtain ⟨moved, operated, rfl⟩ := Option.map_eq_some_iff.mp taken
    refine ⟨caller, moved, ?_, rfl⟩
    cases found : machine.phase caller with
    | opening attempt =>
      rw [found] at operated
      exact Option.some.inj operated ▸ open_effect requests machine caller now attempt
    | checking attempt =>
      rw [found] at operated
      exact Option.some.inj operated ▸ check_effect requests machine caller now attempt
    | reclaiming attempt =>
      rw [found] at operated
      exact Option.some.inj operated ▸ .reclaim found
    | reading =>
      rw [found] at operated
      exact Option.some.inj operated ▸ .mutate found
    | writing contents answer =>
      rw [found] at operated
      exact Option.some.inj operated ▸ .write found
    | replacing answer =>
      rw [found] at operated
      exact Option.some.inj operated ▸ rename_effect requests machine caller _ found
    | closing answer =>
      rw [found] at operated
      exact Option.some.inj operated ▸ .close found
    | unlocking answer =>
      rw [found] at operated
      exact Option.some.inj operated ▸ .unlock found
    | returned answer | crashed => simp [operate, found] at operated

/-! ## The lock -/

/-- Only the caller that moves changes phase. -/
theorem inside_move (machine : Machine Caller) (caller : Caller) (moved : Disk Caller × Phase)
    (other : Caller) : (machine.move caller moved).inside other ↔
      if other = caller then moved.2.inside = true else machine.inside other := by
  simp only [Machine.inside, Machine.move, update_apply]
  split <;> rfl

/-- A call that moves out keeps the others where they are. -/
theorem move_out {machine : Machine Caller} {caller other : Caller} {moved : Disk Caller × Phase}
    (out : moved.2.inside = false) (isInside : (machine.move caller moved).inside other) :
    other ≠ caller ∧ machine.inside other := by
  rw [inside_move, out] at isInside
  split at isInside
  · contradiction
  · rename_i differs
    exact ⟨differs, isInside⟩

/-- A call that was inside may stay there. -/
theorem move_in {machine : Machine Caller} {caller other : Caller} {moved : Disk Caller × Phase}
    (was : machine.inside caller) (isInside : (machine.move caller moved).inside other) :
    machine.inside other := by
  rw [inside_move] at isInside
  split at isInside
  · rename_i isCaller
    exact isCaller ▸ was
  · exact isInside

/-- Every step that reclaims only dead locks treats the lock file as one. -/
theorem lock_step {requests : Caller → Request} {machine : Machine Caller} {event : Event Caller}
    {caller : Caller} {moved : Disk Caller × Phase} (dead : ReclaimsDead machine event)
    (effect : Effect requests machine event caller moved) :
    LockFile.Step machine.owner machine.inside (machine.move caller moved).owner
      (machine.move caller moved).inside := by
  cases effect with
  | wait out vain => exact .stay (fun _ isInside => (move_out out isInside).2)
  | enter vacant =>
    apply LockFile.Step.enter caller (by simp [Machine.owner, vacant])
    intro other isInside
    by_cases isCaller : other = caller
    · exact Or.inl isCaller
    · rw [inside_move, if_neg isCaller] at isInside
      exact Or.inr isInside
  | reclaim was =>
    exact .reclaim (dead (by rw [was]; rfl)) (fun _ isInside => (move_out (retry_inside _) isInside).2)
  | mutate was | write was | spoil was | rename was _ | close was =>
    exact .stay (fun _ isInside => move_in (by simp [Machine.inside, was, Phase.inside]) isInside)
  | abandon was => exact .stay (fun _ isInside => move_in was isInside)
  | unlock was =>
    apply LockFile.Step.leave caller (by simp [Machine.inside, was, Phase.inside])
    exact fun _ isInside => move_out rfl isInside
  | leave was => exact .stay (fun _ isInside => (move_out rfl isInside).2)

end Kvy.Cli.Claims
