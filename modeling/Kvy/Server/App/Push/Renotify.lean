import Kvy.General.Timers
import Kvy.Wire.Updates

/-!
# The schedule of reminders

A push about a request that waits for an answer is repeated after five and after ten minutes.
The scheduler keeps, for each session, the handles of the timers of its last schedule; the next
dispatch of the session cancels them.

Timers of one call fire in the order of their delays, and none before its delay has passed.
-/

namespace Kvy.Server.App.Push

open General Wire

/-- `RENOTIFY_DELAYS_MS`. -/
def renotifyDelaysMs : List Nat := [5 * 60000, 10 * 60000]

/-- `RENOTIFIABLE_KINDS`. -/
def renotifiable : LifecycleKind → Bool
  | .perm | .question => true
  | .done | .failed => false

/-- How many reminders a dispatch of this kind schedules. -/
def reminders (kind : LifecycleKind) : Nat :=
  if renotifiable kind then renotifyDelaysMs.length else 0

/-- What a timer's callback has captured. -/
structure Renotification (ρ : Type) where
  sessionId : String
  retry : ρ
  setAt : Nat
  delay : Nat
  isLast : Bool
  /-- The handles set by the same call. -/
  scheduled : List Nat
deriving DecidableEq

/-- When the timer may fire. -/
def Renotification.deadline {ρ : Type} (renotification : Renotification ρ) : Nat :=
  renotification.setAt + renotification.delay

/-- The variables of `createRenotifyScheduler`, and the timers that are set. -/
structure Scheduler (ρ : Type) where
  timers : Timers (Renotification ρ)
  timersBySession : OrderedMap String (List Nat)

namespace Scheduler

variable {ρ : Type}

/-- `createRenotifyScheduler`. -/
def create : Scheduler ρ := ⟨.idle, .empty⟩

def cancel (scheduler : Scheduler ρ) (sessionId : String) : Scheduler ρ :=
  match scheduler.timersBySession.get? sessionId with
  | none => scheduler
  | some existing =>
    ⟨scheduler.timers.clearAll existing, scheduler.timersBySession.delete sessionId⟩

/-- The timers of one schedule, set one after the other. -/
def schedule (timers : Timers (Renotification ρ)) (now : Nat) (sessionId : String) (retry : ρ)
    (scheduled : List Nat) : Timers (Renotification ρ) :=
  renotifyDelaysMs.zipIdx.foldl
    (fun timers (delay, i) =>
      timers.set ⟨sessionId, retry, now, delay, i == renotifyDelaysMs.length - 1, scheduled⟩)
    timers

def onDispatch (scheduler : Scheduler ρ) (now : Nat) (sessionId : String) (kind : LifecycleKind)
    (retry : ρ) : Scheduler ρ :=
  let scheduler := scheduler.cancel sessionId
  if renotifiable kind then
    let scheduled := (List.range renotifyDelaysMs.length).map (scheduler.timers.next + ·)
    ⟨schedule scheduler.timers now sessionId retry scheduled,
      scheduler.timersBySession.set sessionId scheduled⟩
  else scheduler

/-- The timer can fire now: its delay has passed and no timer set with it comes before it. -/
def Due (scheduler : Scheduler ρ) (now : Nat) (timer : Timer (Renotification ρ)) : Prop :=
  timer.callback.deadline ≤ now ∧
    ∀ other ∈ scheduler.timers.pending, other.callback.scheduled = timer.callback.scheduled →
      timer.callback.deadline ≤ other.callback.deadline

instance (scheduler : Scheduler ρ) (now : Nat) (timer : Timer (Renotification ρ)) :
    Decidable (scheduler.Due now timer) :=
  inferInstanceAs (Decidable (_ ∧ _))

/-- A timer fires: the last of a schedule drops the entry of its session, if that is still its
own. -/
def fire (scheduler : Scheduler ρ) (timer : Timer (Renotification ρ)) : Scheduler ρ :=
  let timers := scheduler.timers.clear timer.handle
  if timer.callback.isLast ∧
      scheduler.timersBySession.get? timer.callback.sessionId = some timer.callback.scheduled then
    ⟨timers, scheduler.timersBySession.delete timer.callback.sessionId⟩
  else ⟨timers, scheduler.timersBySession⟩

def cancelAll (scheduler : Scheduler ρ) : Scheduler ρ :=
  scheduler.timersBySession.keys.foldl cancel scheduler

/-! ## What is kept -/

/-- A timer's place in its schedule. -/
def Placed (timer : Timer (Renotification ρ)) : Prop :=
  ∃ first, timer.callback.scheduled = [first, first + 1] ∧
    ((timer.handle = first ∧ timer.callback.isLast = false ∧ timer.callback.delay = 300000) ∨
      (timer.handle = first + 1 ∧ timer.callback.isLast = true ∧ timer.callback.delay = 600000))

/-- Every pending timer belongs to the schedule that its session has in the map. -/
structure Kept (scheduler : Scheduler ρ) : Prop where
  entry : ∀ timer ∈ scheduler.timers.pending,
    scheduler.timersBySession.get? timer.callback.sessionId = some timer.callback.scheduled
  placed : ∀ timer ∈ scheduler.timers.pending, Placed timer
  together : ∀ timer ∈ scheduler.timers.pending, ∀ other ∈ scheduler.timers.pending,
    timer.callback.scheduled = other.callback.scheduled →
      timer.callback.setAt = other.callback.setAt

variable {timer : Timer (Renotification ρ)}

theorem Placed.mem (placed : Placed timer) :
    timer.handle ∈ timer.callback.scheduled := by
  obtain ⟨first, scheduled, ⟨handle, _⟩ | ⟨handle, _⟩⟩ := placed <;> simp [scheduled, handle]

theorem kept_create : Kept (create : Scheduler ρ) where
  entry := by simp [create, Timers.idle]
  placed := by simp [create, Timers.idle]
  together := by simp [create, Timers.idle]

variable {scheduler : Scheduler ρ}

/-- Fewer timers, with the entries of those that are left. -/
theorem Kept.subset {next : Scheduler ρ} (kept : Kept scheduler)
    (fewer : ∀ timer ∈ next.timers.pending, timer ∈ scheduler.timers.pending ∧
      next.timersBySession.get? timer.callback.sessionId =
        scheduler.timersBySession.get? timer.callback.sessionId) : Kept next where
  entry timer member := (fewer timer member).2.trans (kept.entry timer (fewer timer member).1)
  placed timer member := kept.placed timer (fewer timer member).1
  together timer member other held :=
    kept.together timer (fewer timer member).1 other (fewer other held).1

/-- After a cancellation only timers of other sessions are left. -/
theorem mem_cancel (kept : Kept scheduler) {sessionId : String}
    (member : timer ∈ (scheduler.cancel sessionId).timers.pending) :
    timer ∈ scheduler.timers.pending ∧ timer.callback.sessionId ≠ sessionId := by
  unfold cancel at member
  cases found : scheduler.timersBySession.get? sessionId with
  | none =>
    rw [found] at member
    refine ⟨member, fun same => ?_⟩
    have entry := kept.entry timer member
    rw [same, found] at entry
    contradiction
  | some existing =>
    rw [found] at member
    obtain ⟨pending, unlisted⟩ := Timers.mem_clearAll.mp member
    refine ⟨pending, fun same => unlisted ?_⟩
    have entry := kept.entry timer pending
    rw [same, found] at entry
    exact Option.some.inj entry ▸ (kept.placed timer pending).mem

/-- A cancellation leaves the entries of the other sessions. -/
theorem entry_cancel {sessionId other : String} (different : other ≠ sessionId) :
    (scheduler.cancel sessionId).timersBySession.get? other =
      scheduler.timersBySession.get? other := by
  unfold cancel
  split
  · rfl
  · simp [different]

@[simp] theorem next_cancel (scheduler : Scheduler ρ) (sessionId : String) :
    (scheduler.cancel sessionId).timers.next = scheduler.timers.next := by
  unfold cancel
  split
  · rfl
  · exact Timers.next_clearAll _ _

theorem sublist_cancel (scheduler : Scheduler ρ) (sessionId : String) :
    (scheduler.cancel sessionId).timers.pending.Sublist scheduler.timers.pending := by
  unfold cancel
  split
  · exact List.Sublist.refl _
  · exact Timers.sublist_clearAll _ _

theorem Kept.cancel (kept : Kept scheduler) (sessionId : String) :
    Kept (scheduler.cancel sessionId) := by
  refine kept.subset (fun timer member => ?_)
  obtain ⟨pending, different⟩ := mem_cancel kept member
  exact ⟨pending, entry_cancel different⟩

theorem Kept.cancelAll (kept : Kept scheduler) :
    Kept scheduler.cancelAll := by
  unfold Scheduler.cancelAll
  induction scheduler.timersBySession.keys generalizing scheduler with
  | nil => exact kept
  | cons sessionId sessions inductionHypothesis =>
    exact inductionHypothesis (kept.cancel sessionId)

theorem sublist_cancelAll (scheduler : Scheduler ρ) :
    scheduler.cancelAll.timers.pending.Sublist scheduler.timers.pending := by
  unfold cancelAll
  induction scheduler.timersBySession.keys generalizing scheduler with
  | nil => exact List.Sublist.refl _
  | cons sessionId sessions inductionHypothesis =>
    exact (inductionHypothesis (scheduler.cancel sessionId)).trans (sublist_cancel _ _)

/-- The two timers of a schedule. -/
def arranged (first now : Nat) (sessionId : String) (retry : ρ) :
    List (Timer (Renotification ρ)) :=
  [⟨first, sessionId, retry, now, 300000, false, [first, first + 1]⟩,
    ⟨first + 1, sessionId, retry, now, 600000, true, [first, first + 1]⟩]

/-- What is pending after a dispatch: what its cancellation leaves, and the new schedule where the
kind has one. -/
theorem pending_onDispatch (scheduler : Scheduler ρ) (now : Nat) (sessionId : String)
    (kind : LifecycleKind) (retry : ρ) :
    (scheduler.onDispatch now sessionId kind retry).timers.pending =
      (scheduler.cancel sessionId).timers.pending ++
        if renotifiable kind then arranged scheduler.timers.next now sessionId retry else [] := by
  unfold onDispatch
  cases renotifiable kind with
  | false => simp
  | true =>
    simp [schedule, renotifyDelaysMs, arranged, List.range, List.range.loop, List.zipIdx]

theorem entry_onDispatch (scheduler : Scheduler ρ) (now : Nat) (sessionId : String)
    (kind : LifecycleKind) (retry : ρ) (tested : String) :
    (scheduler.onDispatch now sessionId kind retry).timersBySession.get? tested =
      if tested = sessionId ∧ renotifiable kind then
        some [scheduler.timers.next, scheduler.timers.next + 1]
      else (scheduler.cancel sessionId).timersBySession.get? tested := by
  unfold onDispatch
  cases renotifiable kind with
  | false => simp
  | true => simp [renotifyDelaysMs, List.range, List.range.loop]

/-- A timer that was pending before a dispatch shares no schedule with the dispatch's own. -/
theorem other_schedule (kept : Kept scheduler) (pending : timer ∈ scheduler.timers.pending) :
    timer.callback.scheduled ≠ [scheduler.timers.next, scheduler.timers.next + 1] := by
  intro same
  have listed := (kept.placed timer pending).mem
  have issued := scheduler.timers.issued timer pending
  simp only [same, List.mem_cons, List.not_mem_nil, or_false] at listed
  omega

theorem Kept.onDispatch (kept : Kept scheduler) (now : Nat)
    (sessionId : String) (kind : LifecycleKind) (retry : ρ) :
    Kept (scheduler.onDispatch now sessionId kind retry) := by
  have cancelled := kept.cancel sessionId
  cases arms : renotifiable kind with
  | false =>
    refine cancelled.subset (fun timer member => ?_)
    rw [pending_onDispatch] at member
    simp only [arms, Bool.false_eq_true, ↓reduceIte, List.append_nil] at member
    exact ⟨member, by simp [entry_onDispatch, arms]⟩
  | true =>
    have members : ∀ timer ∈ (scheduler.onDispatch now sessionId kind retry).timers.pending,
        timer ∈ (scheduler.cancel sessionId).timers.pending ∨
          timer ∈ arranged scheduler.timers.next now sessionId retry := by
      intro timer member
      rw [pending_onDispatch] at member
      simpa [arms] using member
    have fresh : ∀ timer ∈ arranged scheduler.timers.next now sessionId retry,
        timer.callback.sessionId = sessionId ∧ timer.callback.setAt = now ∧
          timer.callback.scheduled = [scheduler.timers.next, scheduler.timers.next + 1] := by
      simp [arranged]
    constructor
    · intro timer member
      rw [entry_onDispatch]
      rcases members timer member with before | added
      · obtain ⟨_, different⟩ := mem_cancel kept before
        simp only [different, false_and, ↓reduceIte]
        exact cancelled.entry timer before
      · obtain ⟨session, _, scheduled⟩ := fresh timer added
        simp [session, arms, scheduled]
    · intro timer member
      rcases members timer member with before | added
      · exact cancelled.placed timer before
      · refine ⟨scheduler.timers.next, (fresh timer added).2.2, ?_⟩
        rcases List.mem_pair.mp added with rfl | rfl <;> simp
    · intro timer member other held same
      rcases members timer member with before | added <;> rcases members other held with old | new
      · exact cancelled.together timer before other old same
      · exact absurd (same.trans (fresh other new).2.2)
          (other_schedule kept (mem_cancel kept before).1)
      · exact absurd (same.symm.trans (fresh timer added).2.2)
          (other_schedule kept (mem_cancel kept old).1)
      · exact (fresh timer added).2.1.trans (fresh other new).2.1.symm

/-- A timer that fires leaves the others and their entries: none of its schedule is left where it
drops the entry. -/
theorem Kept.fire (kept : Kept scheduler) {now : Nat} (pending : timer ∈ scheduler.timers.pending)
    (due : scheduler.Due now timer) : Kept (scheduler.fire timer) := by
  unfold Scheduler.fire
  dsimp only
  split
  · rename_i last
    refine kept.subset (fun other held => ?_)
    obtain ⟨otherPending, different⟩ := Timers.mem_clear.mp held
    refine ⟨otherPending, ?_⟩
    have elsewhere : other.callback.sessionId ≠ timer.callback.sessionId := by
      intro same
      have scheduled : other.callback.scheduled = timer.callback.scheduled := by
        have entry := kept.entry other otherPending
        rw [same, last.2] at entry
        exact (Option.some.inj entry).symm
      have setTogether := kept.together other otherPending timer pending scheduled
      have first := due.2 other otherPending scheduled
      obtain ⟨head, handles, one | two⟩ := kept.placed timer pending
      · simp [one.2.1] at last
      · obtain ⟨otherHead, otherHandles, earlier | later⟩ := kept.placed other otherPending
        · simp only [Renotification.deadline, setTogether, earlier.2.2, two.2.2] at first
          omega
        · rw [otherHandles, handles] at scheduled
          obtain rfl := (List.cons.inj scheduled).1
          exact different (later.1.trans two.1.symm)
    simp [elsewhere]
  · exact kept.subset (fun other held => ⟨(Timers.mem_clear.mp held).1, rfl⟩)

@[simp] theorem timers_fire (scheduler : Scheduler ρ) (timer : Timer (Renotification ρ)) :
    (scheduler.fire timer).timers = scheduler.timers.clear timer.handle := by
  unfold fire
  dsimp only
  split <;> rfl

end Scheduler

end Kvy.Server.App.Push
