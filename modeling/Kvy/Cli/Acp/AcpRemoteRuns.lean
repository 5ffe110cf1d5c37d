import Kvy.Cli.Acp.AcpRemote
import Kvy.General.Runs

/-!
# Runs of a remote session

There is at most one drain, and it stands in one place: it waits for the session id or for a
prompt, is about to be resumed, or has ended with its flag still set. Turns are prompted in the
order they were sent. A turn is stranded exactly when it was sent while a drain that had ended
still held the flag.
-/

namespace Kvy.Cli.Acp.AcpRemote

open General General.Runs Wire

/-! ## The place of the drain -/

/-- Where the drain stands. -/
inductive Place where
  | idle
  | waiting (drain : Nat)
  | resuming (drain : Nat) (value : Resumption)
  | prompting (held : Suspended) (sessionId : String) (turn : QueuedTurn)
  | ending (drain : Nat)
deriving DecidableEq

namespace Place

/-- The drains suspended at a place. -/
def suspended : Place → List Suspended
  | .waiting drain => [⟨drain, .ready⟩]
  | .prompting held _ _ => [held]
  | _ => []

/-- The microtask queued at a place. -/
def microtasks : Place → List Microtask
  | .resuming drain value => [.resume drain value]
  | .ending drain => [.drainSettled drain]
  | _ => []

/-- The place fits the promise of the session id. -/
def Fits (ready : ReadyPromise) : Place → Prop
  | .idle => True
  | .waiting _ => ready = .pending
  | .resuming _ (.ready sessionId) => ready = .fulfilled sessionId
  | .resuming _ .notReady => ∃ message, ready = .rejected message
  | .resuming _ (.resolved sessionId _ _) => ready = .fulfilled sessionId
  | .resuming _ (.rejected sessionId _ _) => ready = .fulfilled sessionId
  | .prompting held sessionId turn =>
    held.awaits = .prompt sessionId turn ∧ ready = .fulfilled sessionId
  | .ending _ => ready ≠ .pending

end Place

/-- A session and the turns sent since its drain ended. -/
structure Observed where
  remote : AcpRemote
  late : List QueuedTurn

/-- Before anything happens. -/
def Observed.start : Observed := ⟨.start, []⟩

/-- A drain has ended and its flag is still set. -/
def ended (remote : AcpRemote) : Bool :=
  remote.microtasks.any (fun microtask =>
    match microtask with
    | .drainSettled _ => true
    | _ => false)

/-- The late turns after an event. -/
def lateAfter (observed : Observed) : Event → List QueuedTurn
  | .send turn =>
    if observed.remote.ended && !observed.remote.stopped then observed.late ++ [turn] else observed.late
  | .microtask =>
    match observed.remote.microtasks with
    | .drainSettled _ :: _ => []
    | _ => observed.late
  | _ => observed.late

/-- A step beside the late turns. -/
def observe (observed : Observed) (event : Event) : Option Observed :=
  (observed.remote.step event).map (fun next => ⟨next, lateAfter observed event⟩)

/-- The session is there, not stopped and without an error. -/
structure Live (remote : AcpRemote) : Prop where
  ready : ∃ sessionId, remote.ready = .fulfilled sessionId
  running : remote.stopped = false
  sound : remote.fatalError = none

/-- Nothing is under way in a live session. -/
structure Quiescent (remote : AcpRemote) : Prop extends Live remote where
  unprompted : remote.inFlight = []
  settled : remote.microtasks = []

/-- The drain stands at a place. Only the reactions to a failed start may be queued before it. -/
structure At (place : Place) (remote : AcpRemote) : Prop where
  draining : remote.draining = true ↔ place ≠ .idle
  suspended : remote.suspended = place.suspended
  microtasks : ∃ failed : List String, remote.microtasks =
    failed.map .startupFailed ++ place.microtasks ∧
      (failed ≠ [] → ∃ message, remote.ready = .rejected message)
  fits : place.Fits remote.ready

/-- The prompts are those of the first turns sent, and the others wait unless they were dropped. -/
structure Logged (remote : AcpRemote) : Prop where
  ordered : remote.prompted <+: remote.sent
  kept : remote.stopped = false → (∀ message, remote.ready ≠ .rejected message) →
    remote.sent = remote.prompted ++ remote.turnQueue
  cleared : remote.stopped = true → remote.turnQueue = []

/-- Nothing waits before the first drain, and what waits after the end of a drain came late. -/
structure Timely (place : Place) (observed : Observed) : Prop where
  unsent : observed.remote.ready = .pending → place = .idle → observed.remote.turnQueue = []
  ends : Live observed.remote → (∃ drain, place = .ending drain) →
    observed.remote.turnQueue = observed.late
  early : (∀ drain, place ≠ .ending drain) → observed.late = []

/-- What is kept of a session whose drain stands at a place. -/
structure Sound (place : Place) (observed : Observed) : Prop where
  at_place : At place observed.remote
  logged : Logged observed.remote
  timely : Timely place observed

theorem sound_start : Sound .idle .start where
  at_place :=
    { draining := by simp [Observed.start, start]
      suspended := rfl
      microtasks := ⟨[], rfl, by simp⟩
      fits := trivial }
  logged :=
    { ordered := List.nil_prefix
      kept := fun _ _ => rfl
      cleared := by simp [Observed.start, start] }
  timely :=
    { unsent := fun _ _ => rfl
      ends := by simp
      early := fun _ => rfl }

/-! ## Parts of a step -/

variable {remote : AcpRemote} {place : Place}

theorem logged_loop (logged : Logged remote) (present : ∀ message, remote.ready ≠ .rejected message)
    (drain : Nat) (sessionId : String) : Logged (remote.loop drain sessionId) := by
  unfold loop
  cases queue : remote.turnQueue with
  | nil => exact ⟨logged.ordered, logged.kept, logged.cleared⟩
  | cons turn rest =>
    by_cases halted : (remote.stopped || remote.fatalError.isSome) = true
    · simp only [if_pos halted]
      exact ⟨logged.ordered, logged.kept, logged.cleared⟩
    · simp only [if_neg halted]
      have running : remote.stopped = false := by
        simp only [Bool.or_eq_true, not_or, Bool.not_eq_true] at halted
        exact halted.1
      have sent := logged.kept running present
      rw [queue] at sent
      have prompted : ({ remote with
          turnQueue := rest
          suspended := remote.suspended ++ [⟨drain, .prompt sessionId turn⟩]
          calls := remote.calls ++ [.startTurn, .prompt sessionId turn] } : AcpRemote).prompted =
          remote.prompted ++ [turn] := by
        simp only [AcpRemote.prompted, List.filterMap_append]
        rfl
      have same : ({ remote with
          turnQueue := rest
          suspended := remote.suspended ++ [⟨drain, .prompt sessionId turn⟩]
          calls := remote.calls ++ [.startTurn, .prompt sessionId turn] } : AcpRemote).sent =
          remote.sent := by
        simp [AcpRemote.sent, AcpCall.sent?]
      have whole : remote.sent = (remote.prompted ++ [turn]) ++ rest := by
        rw [sent, List.append_assoc, List.singleton_append]
      refine ⟨?_, ?_, ?_⟩
      · rw [prompted, same, whole]
        exact List.prefix_append _ _
      · intro _ _
        rw [prompted, same, whole]
      · intro stopped
        exact absurd (running.symm.trans stopped) (by simp)

/-- Calls that neither send nor prompt change nothing in the log of turns. -/
theorem logged_call (logged : Logged remote) {called : List AcpCall}
    (unsent : called.filterMap AcpCall.sent? = []) (unprompted : called.filterMap AcpCall.prompted? = []) :
    Logged (remote.call called) := by
  have sent : (remote.call called).sent = remote.sent := by
    rw [AcpRemote.sent, call, List.filterMap_append, unsent, List.append_nil]
    rfl
  have prompted : (remote.call called).prompted = remote.prompted := by
    rw [AcpRemote.prompted, call, List.filterMap_append, unprompted, List.append_nil]
    rfl
  refine ⟨?_, ?_, logged.cleared⟩
  · rw [sent, prompted]
    exact logged.ordered
  · rw [sent, prompted]
    exact logged.kept

/-- A sent turn is the last of those that wait. -/
theorem logged_send (logged : Logged remote) (running : remote.stopped = false) (turn : QueuedTurn) :
    Logged { remote.call [.userText turn] with turnQueue := remote.turnQueue ++ [turn] } := by
  have sent : (remote.call [.userText turn]).sent = remote.sent ++ [turn] := by
    rw [AcpRemote.sent, call, List.filterMap_append]
    rfl
  have prompted : (remote.call [.userText turn]).prompted = remote.prompted := by
    rw [AcpRemote.prompted, call, List.filterMap_append]
    exact List.append_nil _
  refine ⟨?_, ?_, ?_⟩
  · change (remote.call [.userText turn]).prompted <+: (remote.call [.userText turn]).sent
    rw [sent, prompted]
    exact logged.ordered.trans (List.prefix_append _ _)
  · intro _ present
    change (remote.call [.userText turn]).sent =
      (remote.call [.userText turn]).prompted ++ (remote.turnQueue ++ [turn])
    rw [sent, prompted, logged.kept running present, List.append_assoc]
  · intro stopped
    exact absurd (running.symm.trans stopped) (by simp)

theorem logged_kickDrain (logged : Logged remote) : Logged remote.kickDrain := by
  unfold kickDrain
  split
  · exact logged
  · dsimp only
    split <;> exact ⟨logged.ordered, logged.kept, logged.cleared⟩

/-- A drain that goes on prompts the next turn or ends, with nothing left in a live session. -/
theorem sound_loop (logged : Logged remote) (draining : remote.draining = true)
    (unsuspended : remote.suspended = []) (unqueued : remote.microtasks = []) (drain : Nat)
    {sessionId : String} (present : remote.ready = .fulfilled sessionId) :
    ∃ after, Sound after ⟨remote.loop drain sessionId, []⟩ ∧ after ≠ .idle := by
  have loops := logged_loop logged (by simp [present]) drain sessionId
  unfold loop at loops ⊢
  cases queue : remote.turnQueue with
  | nil =>
    rw [queue] at loops
    refine ⟨.ending drain, ⟨⟨?_, ?_, ⟨[], ?_, by simp⟩, ?_⟩, loops, ?_⟩, by simp⟩
    · simp [queueMicrotask, draining]
    · exact unsuspended
    · simp [queueMicrotask, unqueued, Place.microtasks]
    · simp [queueMicrotask, Place.Fits, present]
    · refine ⟨by simp, fun _ _ => queue, fun _ => rfl⟩
  | cons turn rest =>
    rw [queue] at loops
    by_cases halted : (remote.stopped || remote.fatalError.isSome) = true
    · simp only [if_pos halted] at loops ⊢
      refine ⟨.ending drain, ⟨⟨?_, ?_, ⟨[], ?_, by simp⟩, ?_⟩, loops, ?_⟩, by simp⟩
      · simp [queueMicrotask, draining]
      · exact unsuspended
      · simp [queueMicrotask, unqueued, Place.microtasks]
      · simp [queueMicrotask, Place.Fits, present]
      · refine ⟨by simp, ?_, fun _ => rfl⟩
        intro live
        have running : remote.stopped = false := live.running
        have sound : remote.fatalError = none := live.sound
        simp [running, sound] at halted
    · simp only [if_neg halted] at loops ⊢
      refine ⟨.prompting ⟨drain, .prompt sessionId turn⟩ sessionId turn,
        ⟨⟨?_, ?_, ⟨[], unqueued, by simp⟩, ⟨rfl, present⟩⟩, loops, ?_⟩, by simp⟩
      · simp [draining]
      · simp [unsuspended, Place.suspended]
      · exact ⟨by simp, by simp, fun _ => rfl⟩

/-! ## Events -/

variable {observed next : Observed} {event : Event}

/-- How a session in which nothing is under way came about. -/
inductive Rested (place : Place) (observed : Observed) (event : Event) : Prop
  | unused (starting : observed.remote.ready = .pending) (idle : place = .idle)
  | cleared (drain : Nat) (rest : List Microtask) (ending : place = .ending drain)
      (live : Live observed.remote) (runs : event = .microtask)
      (first : observed.remote.microtasks = .drainSettled drain :: rest)

/-- The step leads to a place, and to one without a drain only from rest and with the same turns. -/
def Leads (place : Place) (observed : Observed) (event : Event) (next : Observed) : Prop :=
  ∃ after, Sound after next ∧
    (after = .idle → Live next.remote →
      Rested place observed event ∧ next.remote.turnQueue = observed.remote.turnQueue)

/-- A drain has ended where its end is queued. -/
theorem ended_iff (at_place : At place remote) :
    remote.ended = true ↔ ∃ drain, place = .ending drain := by
  obtain ⟨failed, queued, _⟩ := at_place.microtasks
  have started : (failed.map Microtask.startupFailed).any (fun microtask =>
      match microtask with
      | .drainSettled _ => true
      | _ => false) = false := by simp
  rw [ended, queued, List.any_append, started, Bool.false_or]
  cases place <;> simp [Place.microtasks]

/-- Before the session is there no start has failed. -/
theorem microtasks_present (at_place : At place remote)
    (present : ∀ message, remote.ready ≠ .rejected message) : remote.microtasks = place.microtasks := by
  obtain ⟨failed, queued, fails⟩ := at_place.microtasks
  cases failed with
  | nil => exact queued
  | cons first rest =>
    obtain ⟨message, rejected⟩ := fails (by simp)
    exact absurd rejected (present message)

/-- A drain that is kicked waits for the session id or is about to be resumed. -/
theorem at_kickDrain (at_place : At .idle remote) :
    ∃ after, At after remote.kickDrain ∧ after ≠ .idle ∧ ∀ drain, after ≠ .ending drain := by
  have resting : ¬ remote.draining = true := by simp [at_place.draining]
  have unsuspended : remote.suspended = [] := at_place.suspended
  unfold kickDrain
  simp only [if_neg resting]
  cases ready : remote.ready with
  | pending =>
    refine ⟨.waiting remote.drains, ⟨by simp, ?_, ?_, rfl⟩, by simp, by simp⟩
    · simp [unsuspended, Place.suspended]
    · exact ⟨[], microtasks_present at_place (by simp [ready]), by simp⟩
  | fulfilled sessionId =>
    refine ⟨.resuming remote.drains (.ready sessionId), ⟨by simp [queueMicrotask], unsuspended, ?_, rfl⟩,
      by simp, by simp⟩
    refine ⟨[], ?_, by simp⟩
    simp [queueMicrotask, microtasks_present at_place (by simp [ready]), Place.microtasks]
  | rejected message =>
    obtain ⟨failed, queued, fails⟩ := at_place.microtasks
    refine ⟨.resuming remote.drains .notReady, ⟨by simp [queueMicrotask], unsuspended, ?_, ⟨message, rfl⟩⟩,
      by simp, by simp⟩
    refine ⟨failed, ?_, fun _ => ⟨message, rfl⟩⟩
    simp [queueMicrotask, queued, Place.microtasks]

theorem leads_send (sound : Sound place observed) (turn : QueuedTurn) :
    Leads place observed (.send turn)
      ⟨observed.remote.send turn, lateAfter observed (.send turn)⟩ := by
  unfold send
  by_cases stopped : observed.remote.stopped = true
  · have late : lateAfter observed (.send turn) = observed.late := by simp [lateAfter, stopped]
    rw [if_pos stopped, late]
    refine ⟨place, sound, ?_⟩
    intro _ live
    exact absurd (live.running.symm.trans stopped) (by simp)
  · have running : observed.remote.stopped = false := by simpa using stopped
    have logged := logged_send sound.logged running turn
    have at_place : At place { observed.remote.call [.userText turn] with
        turnQueue := observed.remote.turnQueue ++ [turn] } :=
      ⟨sound.at_place.draining, sound.at_place.suspended, sound.at_place.microtasks, sound.at_place.fits⟩
    rw [if_neg stopped]
    by_cases idle : place = .idle
    · subst idle
      have late : lateAfter observed (.send turn) = [] := by
        have active : ¬ observed.remote.ended = true := by simp [ended_iff sound.at_place]
        simp [lateAfter, active, sound.timely.early]
      obtain ⟨after, atAfter, busy, unended⟩ := at_kickDrain at_place
      refine ⟨after, ⟨atAfter, logged_kickDrain logged, ?_⟩, fun isIdle => absurd isIdle busy⟩
      rw [late]
      refine ⟨fun _ isIdle => absurd isIdle busy, ?_, fun _ => rfl⟩
      rintro _ ⟨drain, isEnding⟩
      exact absurd isEnding (unended drain)
    · have busy : observed.remote.draining = true := sound.at_place.draining.mpr idle
      have unkicked : AcpRemote.kickDrain { observed.remote.call [.userText turn] with
          turnQueue := observed.remote.turnQueue ++ [turn] } =
          { observed.remote.call [.userText turn] with
            turnQueue := observed.remote.turnQueue ++ [turn] } := if_pos busy
      rw [unkicked]
      refine ⟨place, ⟨at_place, logged, fun _ isIdle => absurd isIdle idle, ?_, ?_⟩,
        fun isIdle => absurd isIdle idle⟩
      · rintro live isEnding
        have isEnded := (ended_iff sound.at_place).mpr isEnding
        have same := sound.timely.ends ⟨live.ready, live.running, live.sound⟩ isEnding
        simp [lateAfter, isEnded, running, same]
      · intro unended
        have active : ¬ observed.remote.ended = true := by
          rw [ended_iff sound.at_place]
          rintro ⟨drain, isEnding⟩
          exact unended drain isEnding
        simp [lateAfter, active, sound.timely.early unended]

/-- Before the session is there a drain waits for it or there is none. -/
theorem place_pending (at_place : At place remote) (starting : remote.ready = .pending) :
    place = .idle ∨ ∃ drain, place = .waiting drain := by
  have fits := at_place.fits
  rw [starting] at fits
  cases place with
  | idle => exact Or.inl rfl
  | waiting drain => exact Or.inr ⟨drain, rfl⟩
  | resuming drain value => cases value <;> simp [Place.Fits] at fits
  | prompting held sessionId turn => simp [Place.Fits] at fits
  | ending drain => simp [Place.Fits] at fits

theorem leads_fulfill (sound : Sound place observed) (starting : observed.remote.ready = .pending)
    (sessionId : String) :
    Leads place observed (.fulfill sessionId) ⟨observed.remote.fulfill sessionId, observed.late⟩ := by
  have present : ∀ message, observed.remote.ready ≠ .rejected message := by simp [starting]
  have logged : Logged (observed.remote.fulfill sessionId) :=
    ⟨sound.logged.ordered, fun running _ => sound.logged.kept running present, sound.logged.cleared⟩
  have queued := microtasks_present sound.at_place present
  have suspended := sound.at_place.suspended
  rcases place_pending sound.at_place starting with rfl | ⟨drain, rfl⟩
  · refine ⟨.idle, ⟨⟨sound.at_place.draining, ?_, ⟨[], ?_, by simp⟩, trivial⟩, logged,
      ⟨by simp [fulfill, settleReady], by simp, sound.timely.early⟩⟩,
      fun _ _ => ⟨.unused starting rfl, rfl⟩⟩
    · simp [fulfill, settleReady, suspended, Place.suspended]
    · simp [fulfill, settleReady, suspended, queued, Place.suspended, Place.microtasks]
  · refine ⟨.resuming drain (.ready sessionId), ⟨⟨?_, ?_, ⟨[], ?_, by simp⟩, rfl⟩, logged,
      ⟨by simp, by simp, ?_⟩⟩, by simp⟩
    · exact iff_of_true (sound.at_place.draining.mpr (by simp)) (by simp)
    · simp [fulfill, settleReady, suspended, Place.suspended]
    · simp [fulfill, settleReady, suspended, queued, Place.suspended, Place.microtasks]
    · exact fun _ => sound.timely.early (by simp)

theorem leads_reject (sound : Sound place observed) (starting : observed.remote.ready = .pending)
    (message : String) :
    Leads place observed (.reject message) ⟨observed.remote.reject message, observed.late⟩ := by
  have present : ∀ message, observed.remote.ready ≠ .rejected message := by simp [starting]
  have logged : Logged (observed.remote.reject message) :=
    ⟨sound.logged.ordered, fun _ gone => absurd rfl (gone message), sound.logged.cleared⟩
  have queued := microtasks_present sound.at_place present
  have suspended := sound.at_place.suspended
  have dead : ¬ Live (observed.remote.reject message) := by
    rintro ⟨⟨sessionId, fulfilled⟩, _, _⟩
    contradiction
  rcases place_pending sound.at_place starting with rfl | ⟨drain, rfl⟩
  · refine ⟨.idle, ⟨⟨sound.at_place.draining, ?_, ⟨[message], ?_, fun _ => ⟨message, rfl⟩⟩, trivial⟩,
      logged, ⟨by simp [reject, settleReady], by simp, sound.timely.early⟩⟩,
      fun _ live => absurd live dead⟩
    · simp [reject, settleReady, queueMicrotask, suspended, Place.suspended]
    · simp [reject, settleReady, queueMicrotask, suspended, queued, Place.suspended, Place.microtasks]
  · refine ⟨.resuming drain .notReady, ⟨⟨?_, ?_, ⟨[message], ?_, fun _ => ⟨message, rfl⟩⟩,
      ⟨message, rfl⟩⟩, logged, ⟨by simp, by simp, ?_⟩⟩, by simp⟩
    · exact iff_of_true (sound.at_place.draining.mpr (by simp)) (by simp)
    · simp [reject, settleReady, queueMicrotask, suspended, Place.suspended]
    · simp [reject, settleReady, queueMicrotask, suspended, queued, Place.suspended, Place.microtasks]
    · exact fun _ => sound.timely.early (by simp)

theorem leads_onError (sound : Sound place observed) (message : String) :
    Leads place observed (.onError message) ⟨observed.remote.onError message, observed.late⟩ := by
  unfold onError
  by_cases stopped : observed.remote.stopped = true
  · rw [if_pos stopped]
    refine ⟨place, sound, ?_⟩
    intro _ live
    exact absurd (live.running.symm.trans stopped) (by simp)
  · rw [if_neg stopped]
    have unsent : [AcpCall.closeTurn .failed,
        .service ("Remote session lost its agent process: " ++ message)].filterMap
          AcpCall.sent? = [] := rfl
    have logged := logged_call sound.logged unsent rfl
    refine ⟨place, ⟨⟨sound.at_place.draining, sound.at_place.suspended, sound.at_place.microtasks,
      sound.at_place.fits⟩, ⟨logged.ordered, logged.kept, logged.cleared⟩,
      ⟨sound.timely.unsent, ?_, sound.timely.early⟩⟩, ?_⟩
    · intro live
      exact absurd live.sound (by simp)
    · intro _ live
      exact absurd live.sound (by simp)

theorem leads_stop (sound : Sound place observed) :
    Leads place observed .stop ⟨observed.remote.stop, observed.late⟩ := by
  unfold stop
  by_cases stopped : observed.remote.stopped = true
  · rw [if_pos stopped]
    refine ⟨place, sound, ?_⟩
    intro _ live
    exact absurd (live.running.symm.trans stopped) (by simp)
  · rw [if_neg stopped]
    refine ⟨place, ⟨⟨sound.at_place.draining, sound.at_place.suspended, sound.at_place.microtasks,
      sound.at_place.fits⟩, ⟨sound.logged.ordered, by simp, fun _ => rfl⟩,
      ⟨fun _ _ => rfl, ?_, sound.timely.early⟩⟩, ?_⟩
    · intro live
      exact absurd live.running (by simp)
    · intro _ live
      exact absurd live.running (by simp)

theorem leads_settlePrompt (sound : Sound place observed) {held : Suspended} {sessionId : String}
    {turn : QueuedTurn} (suspended : held ∈ observed.remote.suspended)
    (awaits : held.awaits = .prompt sessionId turn) (result : Except String String) :
    Leads place observed (.settlePrompt held result)
      ⟨{ observed.remote with suspended := observed.remote.suspended.erase held }.queueMicrotask
        (.resume held.drain (settled sessionId turn result)), observed.late⟩ := by
  have atPlace := sound.at_place.suspended
  cases place with
  | idle | resuming | ending =>
    rw [atPlace] at suspended
    contradiction
  | waiting drain =>
    rw [atPlace] at suspended
    obtain rfl := List.mem_singleton.mp suspended
    contradiction
  | prompting other otherId otherTurn =>
    rw [atPlace] at suspended
    obtain rfl := List.mem_singleton.mp suspended
    obtain ⟨isAwaited, present⟩ := sound.at_place.fits
    obtain ⟨rfl, rfl⟩ := Awaited.prompt.inj (awaits.symm.trans isAwaited)
    have queued := microtasks_present sound.at_place (by simp [present])
    refine ⟨.resuming held.drain (settled sessionId turn result),
      ⟨⟨?_, ?_, ⟨[], ?_, by simp⟩, ?_⟩, ⟨sound.logged.ordered, sound.logged.kept, sound.logged.cleared⟩,
      ⟨by simp, by simp, ?_⟩⟩, by simp⟩
    · exact iff_of_true (sound.at_place.draining.mpr (by simp)) (by simp)
    · simp [queueMicrotask, atPlace, Place.suspended]
    · simp [queueMicrotask, queued, Place.microtasks]
    · cases result <;> exact present
    · exact fun _ => sound.timely.early (by simp)

/-- A drain that is resumed prompts the next turn or ends. -/
theorem sound_resume (logged : Logged remote) (draining : remote.draining = true)
    (unsuspended : remote.suspended = []) (unqueued : remote.microtasks = []) {drain : Nat}
    {value : Resumption} (fits : Place.Fits remote.ready (.resuming drain value)) :
    ∃ after, Sound after ⟨remote.resume drain value, []⟩ ∧ after ≠ .idle := by
  cases value with
  | ready sessionId => exact sound_loop logged draining unsuspended unqueued drain fits
  | notReady =>
    obtain ⟨message, rejected⟩ := fits
    refine ⟨.ending drain, ⟨⟨?_, unsuspended, ⟨[], ?_, by simp⟩, ?_⟩,
      ⟨logged.ordered, ?_, fun _ => rfl⟩, ⟨by simp, ?_, fun _ => rfl⟩⟩, by simp⟩
    · exact iff_of_true draining (by simp)
    · simp [resume, queueMicrotask, unqueued, Place.microtasks]
    · simp [resume, queueMicrotask, Place.Fits, rejected]
    · intro _ present
      exact absurd rejected (present message)
    · intro _ _
      rfl
  | resolved sessionId turn stopReason =>
    exact sound_loop (logged_call logged rfl rfl) draining unsuspended unqueued drain fits
  | rejected sessionId turn message =>
    exact sound_loop (logged_call logged rfl rfl) draining unsuspended unqueued drain fits

/-- The reaction to a failed start leaves the drain where it stands. -/
theorem leads_startupFailed (sound : Sound place observed) {reason : String}
    (rejected : observed.remote.ready = .rejected reason) (message : String) (others : List String) :
    Leads place observed .microtask
      ⟨{ observed.remote with
          microtasks := others.map Microtask.startupFailed ++ place.microtasks }.startupFailed message,
        observed.late⟩ := by
  let rest : AcpRemote := { observed.remote with
    microtasks := others.map Microtask.startupFailed ++ place.microtasks }
  have logged : Logged (rest.startupFailed message) := by
    have base : Logged rest := ⟨sound.logged.ordered, sound.logged.kept, sound.logged.cleared⟩
    unfold startupFailed
    split
    · exact base
    · have unsent : [AcpCall.service ("Remote session failed to start: " ++ message)].filterMap
          AcpCall.sent? = [] := rfl
      have called := logged_call base unsent rfl
      exact ⟨called.ordered, called.kept, called.cleared⟩
  have ready : (rest.startupFailed message).ready = .rejected reason := by
    unfold startupFailed
    split <;> exact rejected
  have atPlace : At place (rest.startupFailed message) := by
    have queued : ∃ failed : List String, rest.microtasks =
        failed.map .startupFailed ++ place.microtasks ∧
          (failed ≠ [] → ∃ message, rest.ready = .rejected message) :=
      ⟨others, rfl, fun _ => ⟨reason, rejected⟩⟩
    unfold startupFailed
    split <;> exact ⟨sound.at_place.draining, sound.at_place.suspended, queued, sound.at_place.fits⟩
  have dead : ¬ Live (rest.startupFailed message) := by
    rintro ⟨⟨sessionId, fulfilled⟩, _, _⟩
    exact absurd (ready.symm.trans fulfilled) (by simp)
  refine ⟨place, ⟨atPlace, logged, ⟨?_, fun live => absurd live dead, sound.timely.early⟩⟩,
    fun _ live => absurd live dead⟩
  intro starting
  exact absurd (ready.symm.trans starting) (by simp)

theorem leads_microtask (sound : Sound place observed) {microtask : Microtask} {rest : List Microtask}
    (queued : observed.remote.microtasks = microtask :: rest) :
    Leads place observed .microtask
      ⟨{ observed.remote with microtasks := rest }.runMicrotask microtask,
        lateAfter observed .microtask⟩ := by
  obtain ⟨failed, isQueued, fails⟩ := sound.at_place.microtasks
  cases failed with
  | cons message others =>
    obtain ⟨reason, rejected⟩ := fails (by simp)
    rw [queued] at isQueued
    obtain ⟨rfl, rfl⟩ := List.cons.inj isQueued
    have late : lateAfter observed .microtask = observed.late := by simp [lateAfter, queued]
    rw [late]
    exact leads_startupFailed sound rejected message others
  | nil =>
    rw [List.map_nil, List.nil_append] at isQueued
    have first := queued.symm.trans isQueued
    cases place with
    | idle | waiting | prompting => contradiction
    | resuming drain value =>
      obtain ⟨rfl, rfl⟩ := List.cons.inj first
      have late : lateAfter observed .microtask = [] := by
        simp [lateAfter, queued, sound.timely.early]
      rw [late]
      have logged : Logged { observed.remote with microtasks := [] } :=
        ⟨sound.logged.ordered, sound.logged.kept, sound.logged.cleared⟩
      obtain ⟨after, soundAfter, busy⟩ := sound_resume logged
        (sound.at_place.draining.mpr (by simp)) sound.at_place.suspended rfl sound.at_place.fits
      exact ⟨after, soundAfter, fun isIdle => absurd isIdle busy⟩
    | ending drain =>
      obtain ⟨rfl, rfl⟩ := List.cons.inj first
      have late : lateAfter observed .microtask = [] := by simp [lateAfter, queued]
      rw [late]
      refine ⟨.idle, ⟨⟨by simp [runMicrotask], sound.at_place.suspended, ⟨[], rfl, by simp⟩, trivial⟩,
        ⟨sound.logged.ordered, sound.logged.kept, sound.logged.cleared⟩,
        ⟨fun starting => absurd starting sound.at_place.fits, by simp, fun _ => rfl⟩⟩, ?_⟩
      intro _ live
      exact ⟨.cleared drain [] rfl ⟨live.ready, live.running, live.sound⟩ rfl queued, rfl⟩

/-- Every step leads to a place. -/
theorem step_leads (sound : Sound place observed) (taken : observe observed event = some next) :
    Leads place observed event next := by
  obtain ⟨remote, stepped, rfl⟩ := Option.map_eq_some_iff.mp taken
  cases event with
  | send turn =>
    cases stepped
    exact leads_send sound turn
  | fulfill sessionId =>
    obtain ⟨starting, same⟩ := Option.ite_none_right_eq_some.mp stepped
    cases same
    exact leads_fulfill sound starting sessionId
  | reject message =>
    obtain ⟨starting, same⟩ := Option.ite_none_right_eq_some.mp stepped
    cases same
    exact leads_reject sound starting message
  | settlePrompt held result =>
    obtain ⟨suspended, happens⟩ := Option.ite_none_right_eq_some.mp stepped
    cases awaits : held.awaits with
    | ready => simp [awaits] at happens
    | prompt sessionId turn =>
      simp only [awaits] at happens
      cases happens
      exact leads_settlePrompt sound suspended awaits result
  | onError message =>
    cases stepped
    exact leads_onError sound message
  | stop =>
    cases stepped
    exact leads_stop sound
  | microtask =>
    cases queued : observed.remote.microtasks with
    | nil => simp [step, queued] at stepped
    | cons microtask rest =>
      simp only [step, queued] at stepped
      cases stepped
      exact leads_microtask sound queued

/-- What is said of a session: at most one prompt is in flight, the prompts are those of the
first turns sent, and a session in which nothing is under way has no turn left. -/
structure Orderly (observed : Observed) : Prop where
  single : observed.remote.inFlight.length ≤ 1
  ordered : observed.remote.prompted <+: observed.remote.sent
  drained : Quiescent observed.remote → observed.remote.turnQueue = []

/-- When the flag of an ended drain is cleared in a live session, no turn was sent since the
drain ended. -/
def Unhurried (observed : Observed) (event : Event) : Prop :=
  ∀ drain rest, event = .microtask → observed.remote.microtasks = .drainSettled drain :: rest →
    Live observed.remote → observed.late = []

/-! ## Main result -/

/-- A session in which nothing is under way has no drain. -/
theorem place_quiescent (at_place : At place remote) (quiescent : Quiescent remote) : place = .idle := by
  obtain ⟨sessionId, fulfilled⟩ := quiescent.ready
  have queued := microtasks_present at_place (by simp [fulfilled])
  rw [quiescent.settled] at queued
  have unprompted := quiescent.unprompted
  rw [inFlight, at_place.suspended] at unprompted
  cases place with
  | idle => rfl
  | waiting drain => exact absurd (fulfilled.symm.trans at_place.fits) (by simp)
  | resuming drain value => simp [Place.microtasks] at queued
  | prompting held otherId turn => simp [Place.suspended, at_place.fits.1] at unprompted
  | ending drain => simp [Place.microtasks] at queued

/-- At most one prompt is in flight. -/
theorem single_prompt (at_place : At place remote) : remote.inFlight.length ≤ 1 := by
  have few : place.suspended.length ≤ 1 := by cases place <;> simp [Place.suspended]
  rw [inFlight, at_place.suspended]
  exact (List.length_filter_le _ _).trans few

/-- A drain whose end is the next microtask of a live session is ending. -/
theorem place_ending (at_place : At place remote) (live : Live remote) {drain : Nat}
    {rest : List Microtask} (queued : remote.microtasks = .drainSettled drain :: rest) :
    place = .ending drain ∧ rest = [] := by
  obtain ⟨sessionId, fulfilled⟩ := live.ready
  have first := queued.symm.trans (microtasks_present at_place (by simp [fulfilled]))
  cases place with
  | ending other =>
    obtain ⟨same, rfl⟩ := List.cons.inj first
    obtain rfl := Microtask.drainSettled.inj same
    exact ⟨rfl, rfl⟩
  | idle | waiting | resuming | prompting => simp [Place.microtasks] at first

/-- A session stays orderly in a step exactly when the step does not clear the flag of a drain
over late turns. -/
theorem orderly_step (sound : Sound place observed)
    (taken : observe observed event = some next) : Orderly next ↔ Unhurried observed event := by
  obtain ⟨after, soundAfter, rests⟩ := step_leads sound taken
  constructor
  · rintro nextOrderly drain rest rfl queued live
    obtain ⟨rfl, rfl⟩ := place_ending sound.at_place live queued
    obtain ⟨remote, stepped, rfl⟩ := Option.map_eq_some_iff.mp taken
    simp only [step, queued] at stepped
    cases stepped
    rw [← sound.timely.ends live ⟨drain, rfl⟩]
    apply nextOrderly.drained
    refine ⟨⟨live.ready, live.running, live.sound⟩, ?_, rfl⟩
    change observed.remote.inFlight = []
    rw [inFlight, sound.at_place.suspended]
    rfl
  · intro unhurried
    refine ⟨single_prompt soundAfter.at_place, soundAfter.logged.ordered, ?_⟩
    intro quiescent
    obtain ⟨rested, same⟩ := rests (place_quiescent soundAfter.at_place quiescent) quiescent.toLive
    rw [same]
    cases rested with
    | unused starting idle => exact sound.timely.unsent starting idle
    | cleared drain rest ending live runs queued =>
      rw [sound.timely.ends live ⟨drain, ending⟩]
      exact unhurried drain rest runs queued live

/-- A session is orderly along a run, and strands no turn, exactly when no turn is sent between
the end of a drain and the clearing of its flag. -/
theorem turns_drained_iff (events : List Event) :
    Always observe (fun _ _ next => Orderly next) .start events ↔
      Always observe (fun observed event _ => Unhurried observed event) .start events := by
  apply always_congr (fun observed => ∃ place, Sound place observed)
  · rintro observed event next ⟨place, sound⟩ taken
    obtain ⟨after, soundAfter, _⟩ := step_leads sound taken
    exact ⟨after, soundAfter⟩
  · rintro observed event next ⟨place, sound⟩ taken
    exact orderly_step sound taken
  · exact ⟨.idle, sound_start⟩

/-- A turn that is sent in a microtask between the end of the drain and the clearing of its flag
stays in the queue of a session in which nothing is under way. -/
theorem turn_stranded :
    ¬ ∀ events, Always observe (fun _ _ next => Orderly next) .start events := by
  intro always
  have orderly := (((((((always [.fulfill "s", .send ⟨"first", none⟩, .microtask,
    .settlePrompt ⟨0, .prompt "s" ⟨"first", none⟩⟩ (.ok "end_turn"), .microtask,
    .send ⟨"second", none⟩, .microtask]
    _ rfl).2 _ rfl).2 _ rfl).2 _ rfl).2 _ rfl).2 _ rfl).2 _ rfl).1
  have drained := orderly.drained ⟨⟨⟨"s", rfl⟩, rfl, rfl⟩, rfl, rfl⟩
  contradiction

end Kvy.Cli.Acp.AcpRemote
