import Kvy.Server.App.Push.Dispatch

/-!
# Reminders and later dispatches

A dispatch causes at most its initial push and the reminders of its schedule. A later dispatch of
the session cancels the schedule when its own first attempt is over: a reminder gets past it
where that attempt was over before the schedule was set, or still runs when the timer fires, or
starts while the reminder's attempt runs. Where none of these happens, no reminder is sent once a
later dispatch was issued.
-/

namespace Kvy.Server.App.Push

open General General.Runs Wire

/-! ## The laws -/

/-- The session of a dispatch. -/
def sessionOf (dispatches : List Dispatch) (index : Nat) : Option String :=
  (dispatches[index]?).map Dispatch.sessionId

/-- How many of the pushes are of a dispatch, sent by its call or by its timers. -/
def pushed (pushes : List Sent) (index : Nat) (reminder : Bool) : Nat :=
  pushes.countP (fun push => push.dispatch = index ∧ push.reminder = reminder)

/-- What a dispatcher should keep to. -/
structure Lawful (state : Dispatcher) : Prop where
  /-- A dispatch is pushed once, and once more for each of its reminders. -/
  bounded : ∀ index own, state.dispatches[index]? = some own →
    pushed state.pushes index false ≤ 1 ∧ pushed state.pushes index true ≤ reminders own.kind
  /-- When a reminder is sent, no later dispatch of its session was issued. -/
  superseded : ∀ push ∈ state.pushes, push.reminder = true →
    ∀ later, push.dispatch < later → later < push.issued →
      sessionOf state.dispatches later ≠ sessionOf state.dispatches push.dispatch

/-- How a later dispatch misses a reminder: its first attempt was over before the reminder's
schedule was set, or not yet when the timer fired, or it was issued after that. -/
def Overtakes (own later : Dispatch) (retry : Retry) : Prop :=
  (∃ passed set, later.finishedAt = some passed ∧ own.finishedAt = some set ∧ passed ≤ set) ∨
    (later.issuedAt ≤ retry.firedAt ∧ ∀ passed, later.finishedAt = some passed → retry.firedAt ≤ passed) ∨
      retry.firedAt < later.issuedAt

/-- Where a reminder is sent, no later dispatch of its session overtakes it. -/
def NotOvertaken (state : Dispatcher) (event : Event) : Prop :=
  ∀ index answer retry stage subscriptions, event = .answerRetry index answer →
    state.retries[index]? = some retry →
    retry.attempt.next answer = some (stage, subscriptions) → subscriptions ≠ [] →
    ∀ own later laterOwn, state.dispatches[retry.dispatch]? = some own → retry.dispatch < later →
      state.dispatches[later]? = some laterOwn → laterOwn.sessionId = own.sessionId →
      ¬ Overtakes own laterOwn retry

/-! ## Attempts -/

/-- The attempt may still send. -/
def Stage.open : Stage → Bool
  | .presence | .mute | .subscriptions => true
  | .sending | .settled => false

/-- One or nothing. -/
def one (test : Bool) : Nat := if test then 1 else 0

theorem one_le (test : Bool) : one test ≤ 1 := by cases test <;> simp [one]

variable {answer : Answer}

/-- An attempt sends at most once. -/
theorem next_once {stage next : Stage} {subscriptions : List PushSubscription}
    (taken : stage.next answer = some (next, subscriptions)) :
    one next.open + one (subscriptions ≠ []) ≤ one stage.open := by
  unfold Stage.next at taken
  split at taken
  · simp only [Option.some.injEq, Prod.mk.injEq] at taken
    obtain ⟨rfl, rfl⟩ := taken
    split <;> simp [one, Stage.open]
  · simp only [Option.some.injEq, Prod.mk.injEq] at taken
    obtain ⟨rfl, rfl⟩ := taken
    split
    · split <;> simp [one, Stage.open]
    · simp [one, Stage.open]
  · split at taken <;> simp only [Option.some.injEq, Prod.mk.injEq] at taken <;>
      obtain ⟨rfl, rfl⟩ := taken
    · simp [one, Stage.open]
    · simp [one, Stage.open]
    · show 0 + one _ ≤ 1
      rw [Nat.zero_add]
      exact one_le _
  · simp only [Option.some.injEq, Prod.mk.injEq] at taken
    obtain ⟨rfl, rfl⟩ := taken
    simp [one, Stage.open]
  · contradiction

@[simp] theorem note_scheduler (state : Dispatcher) (dispatch : Nat) (reminder : Bool)
    (subscriptions : List PushSubscription) :
    (state.note dispatch reminder subscriptions).scheduler = state.scheduler := by
  unfold Dispatcher.note
  split <;> rfl

@[simp] theorem note_moment (state : Dispatcher) (dispatch : Nat) (reminder : Bool)
    (subscriptions : List PushSubscription) :
    (state.note dispatch reminder subscriptions).moment = state.moment := by
  unfold Dispatcher.note
  split <;> rfl

@[simp] theorem note_dispatches (state : Dispatcher) (dispatch : Nat) (reminder : Bool)
    (subscriptions : List PushSubscription) :
    (state.note dispatch reminder subscriptions).dispatches = state.dispatches := by
  unfold Dispatcher.note
  split <;> rfl

@[simp] theorem note_retries (state : Dispatcher) (dispatch : Nat) (reminder : Bool)
    (subscriptions : List PushSubscription) :
    (state.note dispatch reminder subscriptions).retries = state.retries := by
  unfold Dispatcher.note
  split <;> rfl

variable {state : Dispatcher}

theorem mem_note {dispatch : Nat} {reminder : Bool}
    {subscriptions : List PushSubscription} {push : Sent} :
    push ∈ (state.note dispatch reminder subscriptions).pushes ↔
      push ∈ state.pushes ∨
        subscriptions ≠ [] ∧
          push = ⟨dispatch, reminder, state.dispatches.length, subscriptions⟩ := by
  unfold Dispatcher.note
  split <;> simp [*]

theorem pushed_note (state : Dispatcher) (dispatch : Nat) (reminder : Bool)
    (subscriptions : List PushSubscription) (index : Nat) (counted : Bool) :
    pushed (state.note dispatch reminder subscriptions).pushes index counted =
      pushed state.pushes index counted +
        one (subscriptions ≠ [] ∧ dispatch = index ∧ reminder = counted) := by
  unfold Dispatcher.note
  split
  · simp [*, one, pushed]
  · simp [*, one, pushed, List.countP_append, List.countP_cons]

/-! ## What each event does -/

variable {index : Nat} {next : Dispatcher}

theorem answerFirst_eq (taken : state.answerFirst index answer = some next) :
    ∃ own stage subscriptions, state.dispatches[index]? = some own ∧
      own.attempt.next answer = some (stage, subscriptions) ∧
      next =
        { state with dispatches := state.dispatches.set index { own with attempt := stage } }.note
          index false subscriptions := by
  obtain ⟨own, found, rest⟩ := Option.bind_eq_some_iff.mp taken
  obtain ⟨⟨stage, subscriptions⟩, answered, made⟩ := Option.bind_eq_some_iff.mp rest
  exact ⟨own, stage, subscriptions, found, answered, (Option.some.inj made).symm⟩

theorem answerRetry_eq (taken : state.answerRetry index answer = some next) :
    ∃ retry stage subscriptions, state.retries[index]? = some retry ∧
      retry.attempt.next answer = some (stage, subscriptions) ∧
      next =
        { state with retries := state.retries.set index { retry with attempt := stage } }.note
          retry.dispatch true subscriptions := by
  obtain ⟨retry, found, rest⟩ := Option.bind_eq_some_iff.mp taken
  obtain ⟨⟨stage, subscriptions⟩, answered, made⟩ := Option.bind_eq_some_iff.mp rest
  exact ⟨retry, stage, subscriptions, found, answered, (Option.some.inj made).symm⟩

theorem onDispatch_eq (taken : state.onDispatch index = some next) :
    ∃ own, state.dispatches[index]? = some own ∧ own.finishedAt = none ∧
      next =
        { state with
          scheduler := state.scheduler.onDispatch state.now own.sessionId own.kind index
          dispatches := state.dispatches.set index { own with finishedAt := some state.moment } } := by
  obtain ⟨own, found, rest⟩ := Option.bind_eq_some_iff.mp taken
  obtain ⟨settled, made⟩ := Option.ite_none_right_eq_some.mp rest
  exact ⟨own, found, settled.2, (Option.some.inj made).symm⟩

theorem fire_eq {handle : Nat} (taken : state.fire handle = some next) :
    ∃ timer ∈ state.scheduler.timers.pending, state.scheduler.Due state.now timer ∧
      next =
        { state with
          scheduler := state.scheduler.fire timer
          retries := state.retries ++ [⟨timer.callback.retry, state.moment, .presence⟩] } := by
  obtain ⟨timer, found, rest⟩ := Option.bind_eq_some_iff.mp taken
  obtain ⟨due, made⟩ := Option.ite_none_right_eq_some.mp rest
  exact ⟨timer, List.mem_of_find?_eq_some found, due, (Option.some.inj made).symm⟩

/-! ## The order of dispatches and timers -/

/-- The session of a dispatch, and when its first attempt was over. -/
def outcome (dispatches : List Dispatch) (index : Nat) : Option (String × Option Nat) :=
  (dispatches[index]?).map (fun own => (own.sessionId, own.finishedAt))

variable {dispatches : List Dispatch} {own : Dispatch}

theorem outcome_some (found : dispatches[index]? = some own) :
    outcome dispatches index = some (own.sessionId, own.finishedAt) := by
  simp [outcome, found]

/-- An attempt's progress changes no outcome. -/
theorem outcome_attempt (found : dispatches[index]? = some own) (stage : Stage) :
    outcome (dispatches.set index { own with attempt := stage }) = outcome dispatches := by
  funext tested
  unfold outcome
  rw [List.getElem?_set]
  split
  · rename_i same
    subst same
    obtain ⟨inside, rfl⟩ := List.getElem?_eq_some_iff.mp found
    simp [inside]
  · rfl

/-- A dispatch whose first attempt is over. -/
theorem outcome_finished (found : dispatches[index]? = some own) (passed tested : Nat) :
    outcome (dispatches.set index { own with finishedAt := some passed }) tested =
      if tested = index then some (own.sessionId, some passed) else outcome dispatches tested := by
  unfold outcome
  rw [List.getElem?_set]
  have inside := (List.getElem?_eq_some_iff.mp found).1
  by_cases same : index = tested
  · subst same
    simp [inside]
  · simp [same, Ne.symm same]

/-- A new dispatch has no outcome yet. -/
theorem outcome_issued (dispatches : List Dispatch) (own : Dispatch)
    (fresh : own.finishedAt = none) (index : Nat) (session : String) (passed : Nat) :
    outcome (dispatches ++ [own]) index = some (session, some passed) ↔
      outcome dispatches index = some (session, some passed) := by
  unfold outcome
  rw [List.getElem?_append]
  split
  · rfl
  · rename_i beyond
    rw [List.getElem?_eq_none (Nat.le_of_not_lt beyond)]
    cases index - dispatches.length <;> simp [fresh]

/-- Of the dispatches of a session that are over, none was over after this one. -/
def Latest (outcomes : Nat → Option (String × Option Nat)) (session : String) (index : Nat) : Prop :=
  ∃ set, outcomes index = some (session, some set) ∧
    ∀ later passed, outcomes later = some (session, some passed) → passed ≤ set

/-- None was over after this one and before the limit. -/
def Spared (outcomes : Nat → Option (String × Option Nat)) (index limit : Nat) : Prop :=
  ∃ session set, outcomes index = some (session, some set) ∧
    ∀ later passed, outcomes later = some (session, some passed) → passed ≤ set ∨ limit ≤ passed

/-- The timers that are set belong to the dispatch of their session that was over last; when one
fired it did. -/
structure Ordered (state : Dispatcher) : Prop where
  kept : state.scheduler.Kept
  past : ∀ index session passed,
    outcome state.dispatches index = some (session, some passed) → passed < state.moment
  timers : ∀ timer ∈ state.scheduler.timers.pending,
    Latest (outcome state.dispatches) timer.callback.sessionId timer.callback.retry
  retries : ∀ retry ∈ state.retries,
    retry.firedAt < state.moment ∧ Spared (outcome state.dispatches) retry.dispatch retry.firedAt

theorem Latest.mono {outcomes next : Nat → Option (String × Option Nat)} {session : String}
    (latest : Latest outcomes session index)
    (same : ∀ index passed,
      next index = some (session, some passed) ↔ outcomes index = some (session, some passed)) :
    Latest next session index := by
  obtain ⟨set, own, bound⟩ := latest
  exact ⟨set, (same index set).mpr own, fun later passed held =>
    bound later passed ((same later passed).mp held)⟩

theorem Spared.mono {outcomes next : Nat → Option (String × Option Nat)} {limit : Nat}
    (spared : Spared outcomes index limit)
    (kept : ∀ index session passed, outcomes index = some (session, some passed) →
      next index = some (session, some passed))
    (added : ∀ index session passed, next index = some (session, some passed) →
      outcomes index = some (session, some passed) ∨ limit ≤ passed) : Spared next index limit := by
  obtain ⟨session, set, own, bound⟩ := spared
  refine ⟨session, set, kept index session set own, fun later passed held => ?_⟩
  rcases added later session passed held with before | after
  · exact bound later passed before
  · exact Or.inr after

/-- What leaves the outcomes, the timers and the attempts of the timers as they are. -/
theorem Ordered.same (ordered : Ordered state) (kept : next.scheduler.Kept)
    (moment : next.moment = state.moment + 1)
    (outcomes : ∀ index session passed,
      outcome next.dispatches index = some (session, some passed) ↔
        outcome state.dispatches index = some (session, some passed))
    (timers : ∀ timer ∈ next.scheduler.timers.pending, timer ∈ state.scheduler.timers.pending)
    (retries : ∀ retry ∈ next.retries, ∃ held ∈ state.retries,
      retry.dispatch = held.dispatch ∧ retry.firedAt = held.firedAt) : Ordered next where
  kept := kept
  past index session passed held := by
    have before := ordered.past index session passed ((outcomes index session passed).mp held)
    omega
  timers timer member :=
    (ordered.timers timer (timers timer member)).mono (fun index passed => outcomes index _ passed)
  retries retry member := by
    obtain ⟨held, stored, dispatch, firedAt⟩ := retries retry member
    obtain ⟨fired, spared⟩ := ordered.retries held stored
    rw [dispatch, firedAt, moment]
    exact ⟨Nat.lt_succ_of_lt fired, spared.mono
      (fun index session passed => (outcomes index session passed).mpr)
      (fun index session passed held => Or.inl ((outcomes index session passed).mp held))⟩

theorem ordered_init : Ordered buildPushDispatcher where
  kept := Scheduler.kept_create
  past := by simp [buildPushDispatcher, outcome]
  timers := by simp [buildPushDispatcher, Scheduler.create, Timers.idle]
  retries := by simp [buildPushDispatcher]

/-- A dispatch whose first attempt is over leaves no timer of its session but its own. -/
theorem Ordered.onDispatch (ordered : Ordered state) (taken : state.onDispatch index = some next) :
    Ordered { next with moment := next.moment + 1 } := by
  obtain ⟨own, found, unfinished, rfl⟩ := onDispatch_eq taken
  have before := outcome_some found
  rw [unfinished] at before
  have known : ∀ tested session passed,
      outcome (state.dispatches.set index { own with finishedAt := some state.moment }) tested =
          some (session, some passed) →
        (tested = index ∧ session = own.sessionId ∧ passed = state.moment) ∨
          tested ≠ index ∧ outcome state.dispatches tested = some (session, some passed) := by
    intro tested session passed held
    rw [outcome_finished found] at held
    split at held
    · rename_i same
      simp only [Option.some.injEq, Prod.mk.injEq] at held
      exact Or.inl ⟨same, held.1.symm, held.2.symm⟩
    · rename_i different
      exact Or.inr ⟨different, held⟩
  have unchanged : ∀ tested session passed,
      outcome state.dispatches tested = some (session, some passed) →
        outcome (state.dispatches.set index { own with finishedAt := some state.moment }) tested =
          some (session, some passed) := by
    intro tested session passed held
    rw [outcome_finished found, if_neg]
    · exact held
    · rintro rfl
      simp [before] at held
  constructor
  · exact ordered.kept.onDispatch _ _ _ _
  · intro tested session passed held
    rcases known tested session passed held with ⟨_, _, rfl⟩ | ⟨_, held⟩
    · exact Nat.lt_succ_self _
    · exact Nat.lt_succ_of_lt (ordered.past tested session passed held)
  · intro timer member
    simp only [Scheduler.pending_onDispatch, List.mem_append] at member
    rcases member with remaining | added
    · obtain ⟨pending, different⟩ := Scheduler.mem_cancel ordered.kept remaining
      refine (ordered.timers timer pending).mono (fun tested passed => ⟨fun held => ?_, fun held =>
        unchanged tested _ passed held⟩)
      rcases known tested _ passed held with ⟨_, same, _⟩ | ⟨_, held⟩
      · exact absurd same different
      · exact held
    · have mine : timer.callback.sessionId = own.sessionId ∧ timer.callback.retry = index := by
        split at added
        · rcases List.mem_pair.mp added with rfl | rfl <;> exact ⟨rfl, rfl⟩
        · exact absurd added List.not_mem_nil
      rw [mine.1, mine.2]
      refine ⟨state.moment, by rw [outcome_finished found, if_pos rfl], fun later passed held => ?_⟩
      rcases known later _ passed held with ⟨_, _, rfl⟩ | ⟨_, held⟩
      · exact Nat.le_refl _
      · exact Nat.le_of_lt (ordered.past later _ passed held)
  · intro retry member
    obtain ⟨fired, spared⟩ := ordered.retries retry member
    refine ⟨Nat.lt_succ_of_lt fired, spared.mono unchanged (fun tested session passed held => ?_)⟩
    rcases known tested session passed held with ⟨_, _, rfl⟩ | ⟨_, held⟩
    · exact Or.inr (Nat.le_of_lt fired)
    · exact Or.inl held

/-- A timer that fires was set by the dispatch of its session that was over last. -/
theorem Ordered.fire {handle : Nat} (ordered : Ordered state)
    (taken : state.fire handle = some next) :
    Ordered { next with moment := next.moment + 1 } := by
  obtain ⟨timer, pending, due, rfl⟩ := fire_eq taken
  constructor
  · exact ordered.kept.fire pending due
  · exact fun index session passed held => Nat.lt_succ_of_lt (ordered.past index session passed held)
  · intro other member
    simp only [Scheduler.timers_fire] at member
    exact ordered.timers other (Timers.mem_clear.mp member).1
  · intro retry member
    rcases List.mem_append.mp member with held | added
    · obtain ⟨fired, spared⟩ := ordered.retries retry held
      exact ⟨Nat.lt_succ_of_lt fired, spared⟩
    · obtain rfl := List.mem_singleton.mp added
      obtain ⟨set, own, bound⟩ := ordered.timers timer pending
      exact ⟨Nat.lt_succ_self _, _, set, own, fun later passed held => Or.inl (bound later passed held)⟩

variable {event : Event}

theorem step_ordered (ordered : Ordered state)
    (taken : step state event = some next) : Ordered next := by
  obtain ⟨acted, happened, rfl⟩ := Option.map_eq_some_iff.mp taken
  cases event with
  | dispatch accountId sessionId kind =>
    cases happened
    exact ordered.same ordered.kept rfl (outcome_issued _ _ rfl) (fun _ member => member)
      (fun retry member => ⟨retry, member, rfl, rfl⟩)
  | answerFirst index answer =>
    obtain ⟨own, stage, subscriptions, found, _, rfl⟩ := answerFirst_eq happened
    refine ordered.same (by simpa using ordered.kept) (by simp) ?_ (by simp)
      (fun retry member => ⟨retry, by simpa using member, rfl, rfl⟩)
    simp [outcome_attempt found]
  | onDispatch index => exact ordered.onDispatch happened
  | fire handle => exact ordered.fire happened
  | answerRetry index answer =>
    obtain ⟨retry, stage, subscriptions, found, _, rfl⟩ := answerRetry_eq happened
    refine ordered.same (by simpa using ordered.kept) (by simp) (by simp) (by simp)
      (fun other member => ?_)
    rw [note_retries] at member
    rcases List.mem_or_eq_of_mem_set member with held | rfl
    · exact ⟨other, held, rfl, rfl⟩
    · exact ⟨retry, List.mem_of_getElem? found, rfl, rfl⟩
  | cancelAll =>
    cases happened
    exact ordered.same ordered.kept.cancelAll rfl (fun _ _ _ => Iff.rfl)
      (fun timer member => (Scheduler.sublist_cancelAll _).subset member)
      (fun retry member => ⟨retry, member, rfl, rfl⟩)
  | pass milliseconds =>
    cases happened
    exact ordered.same ordered.kept rfl (fun _ _ _ => Iff.rfl) (fun _ member => member)
      (fun retry member => ⟨retry, member, rfl, rfl⟩)

/-! ## How often a dispatch is pushed -/

/-- The attempts of a dispatch's timers that may still send. -/
def retrying (retries : List Retry) (index : Nat) : Nat :=
  retries.countP (fun retry => retry.dispatch = index ∧ retry.attempt.open)

/-- The timers of a dispatch that are set. -/
def armed (pending : List (Timer (Renotification Nat))) (index : Nat) : Nat :=
  pending.countP (fun timer => timer.callback.retry = index)

/-- The reminders that the end of the first attempt will schedule. -/
def Dispatch.unscheduled (own : Dispatch) : Nat :=
  if own.finishedAt = none then reminders own.kind else 0

/-- What was sent and what can still be sent stays within the bounds. -/
structure Counted (state : Dispatcher) : Prop where
  logged : ∀ push ∈ state.pushes,
    push.dispatch < push.issued ∧ push.issued ≤ state.dispatches.length
  first : ∀ index own, state.dispatches[index]? = some own →
    pushed state.pushes index false + one own.attempt.open ≤ 1
  later : ∀ index own, state.dispatches[index]? = some own →
    pushed state.pushes index true + retrying state.retries index +
      armed state.scheduler.timers.pending index + own.unscheduled ≤ reminders own.kind

theorem counted_init : Counted buildPushDispatcher where
  logged := by simp [buildPushDispatcher]
  first := by simp [buildPushDispatcher]
  later := by simp [buildPushDispatcher]

/-- A dispatch that was not issued yet was not pushed and has no timers. -/
theorem unissued (ordered : Ordered state) (counted : Counted state)
    (fresh : state.dispatches.length ≤ index) :
    (∀ reminder, pushed state.pushes index reminder = 0) ∧ retrying state.retries index = 0 ∧
      armed state.scheduler.timers.pending index = 0 := by
  have unknown : outcome state.dispatches index = none := by
    simp [outcome, List.getElem?_eq_none fresh]
  refine ⟨fun reminder => ?_, ?_, ?_⟩
  · refine List.countP_eq_zero.mpr (fun push member => ?_)
    obtain ⟨before, within⟩ := counted.logged push member
    simp only [Bool.decide_and, Bool.and_eq_true, decide_eq_true_eq, not_and]
    omega
  · refine List.countP_eq_zero.mpr (fun retry member => ?_)
    obtain ⟨_, _, _, own, _⟩ := ordered.retries retry member
    simp only [Bool.decide_and, Bool.and_eq_true, decide_eq_true_eq, not_and]
    rintro rfl
    simp [unknown] at own
  · refine List.countP_eq_zero.mpr (fun timer member => ?_)
    obtain ⟨_, own, _⟩ := ordered.timers timer member
    simp only [decide_eq_true_eq]
    rintro rfl
    simp [unknown] at own

/-- Fewer timers keep the bounds. -/
theorem Counted.fewer (counted : Counted state)
    (dispatches : next.dispatches = state.dispatches) (retries : next.retries = state.retries)
    (pushes : next.pushes = state.pushes)
    (timers : next.scheduler.timers.pending.Sublist state.scheduler.timers.pending) :
    Counted next where
  logged := by
    rw [pushes, dispatches]
    exact counted.logged
  first index own found := by
    rw [dispatches] at found
    rw [pushes]
    exact counted.first index own found
  later index own found := by
    rw [dispatches] at found
    have bound := counted.later index own found
    have fewer : armed next.scheduler.timers.pending index ≤
        armed state.scheduler.timers.pending index := timers.countP_le
    rw [pushes, retries]
    omega

theorem Counted.dispatch (ordered : Ordered state) (counted : Counted state)
    (accountId sessionId : String) (kind : LifecycleKind) :
    Counted (state.dispatch accountId sessionId kind) := by
  have cases : ∀ index own,
      (state.dispatch accountId sessionId kind).dispatches[index]? = some own →
        state.dispatches[index]? = some own ∨
          index = state.dispatches.length ∧
            own = ⟨accountId, sessionId, kind, .presence, state.moment, none⟩ := by
    intro index own found
    rw [Dispatcher.dispatch, List.getElem?_append] at found
    split at found
    · exact Or.inl found
    · rw [List.getElem?_singleton] at found
      obtain ⟨position, ⟨⟩⟩ := Option.ite_none_right_eq_some.mp found
      exact Or.inr ⟨by omega, rfl⟩
  obtain ⟨noPush, noRetry, noTimer⟩ := unissued ordered counted (Nat.le_refl _)
  constructor
  · intro push member
    obtain ⟨before, within⟩ := counted.logged push member
    exact ⟨before, by simp only [Dispatcher.dispatch, List.length_append, List.length_singleton]; omega⟩
  · intro index own found
    rcases cases index own found with held | ⟨rfl, rfl⟩
    · exact counted.first index own held
    · show pushed state.pushes _ false + 1 ≤ 1
      have unsent := noPush false
      omega
  · intro index own found
    rcases cases index own found with held | ⟨rfl, rfl⟩
    · exact counted.later index own held
    · show pushed state.pushes _ true + retrying state.retries _ +
        armed state.scheduler.timers.pending _ + reminders kind ≤ reminders kind
      rw [noPush, noRetry, noTimer]
      omega

/-- The dispatches after one of them has changed. -/
theorem set_cases {tested : Nat} {changed dispatch : Dispatch}
    (found : dispatches[index]? = some own)
    (held : (dispatches.set index changed)[tested]? = some dispatch) :
    (tested = index ∧ dispatch = changed) ∨ tested ≠ index ∧ dispatches[tested]? = some dispatch := by
  have inside := (List.getElem?_eq_some_iff.mp found).1
  by_cases same : tested = index
  · subst same
    rw [List.getElem?_set_self inside] at held
    exact Or.inl ⟨rfl, (Option.some.inj held).symm⟩
  · rw [List.getElem?_set_ne (Ne.symm same)] at held
    exact Or.inr ⟨same, held⟩

/-- The attempt of a call sends once. -/
theorem Counted.answerFirst
    (counted : Counted state) (taken : state.answerFirst index answer = some next) :
    Counted next := by
  obtain ⟨own, stage, subscriptions, found, answered, rfl⟩ := answerFirst_eq taken
  have inside := (List.getElem?_eq_some_iff.mp found).1
  have once := next_once answered
  constructor
  · intro push member
    rcases mem_note.mp member with held | ⟨_, rfl⟩
    · simpa using counted.logged push held
    · simpa using inside
  · intro tested dispatch held
    rw [note_dispatches] at held
    rw [pushed_note]
    rcases set_cases found held with ⟨rfl, rfl⟩ | ⟨different, held⟩
    · have bound := counted.first tested own found
      simp only [and_true] at once ⊢
      omega
    · simpa [one, Ne.symm different] using counted.first tested dispatch held
  · intro tested dispatch held
    rw [note_dispatches] at held
    rw [pushed_note, note_retries, note_scheduler]
    rcases set_cases found held with ⟨rfl, rfl⟩ | ⟨_, held⟩
    · simpa [one, Dispatch.unscheduled] using counted.later tested own found
    · simpa [one] using counted.later tested dispatch held

/-- The attempt of a timer sends once. -/
theorem Counted.answerRetry (ordered : Ordered state) (counted : Counted state)
    (taken : state.answerRetry index answer = some next) : Counted next := by
  obtain ⟨retry, stage, subscriptions, found, answered, rfl⟩ := answerRetry_eq taken
  obtain ⟨inside, rfl⟩ := List.getElem?_eq_some_iff.mp found
  have once := next_once answered
  constructor
  · intro push member
    rcases mem_note.mp member with held | ⟨_, rfl⟩
    · simpa using counted.logged push held
    · obtain ⟨_, _, _, own, _⟩ := ordered.retries _ (List.getElem_mem inside)
      obtain ⟨dispatch, known, _⟩ := Option.map_eq_some_iff.mp own
      simpa using (List.getElem?_eq_some_iff.mp known).1
  · intro tested dispatch held
    rw [note_dispatches] at held
    rw [pushed_note]
    simpa [one] using counted.first tested dispatch held
  · intro tested dispatch held
    rw [note_dispatches] at held
    have bound := counted.later tested dispatch held
    rw [pushed_note, note_retries, note_scheduler]
    have moved : retrying (state.retries.set index { state.retries[index] with attempt := stage })
          tested + one (subscriptions ≠ [] ∧ state.retries[index].dispatch = tested ∧ true = true) ≤
        retrying state.retries tested := by
      have counts := List.countP_set (p := fun retry : Retry =>
        decide (retry.dispatch = tested ∧ retry.attempt.open)) (l := state.retries) (i := index)
        (a := { state.retries[index] with attempt := stage }) inside
      have held : (if decide (state.retries[index].dispatch = tested ∧
          state.retries[index].attempt.open) then 1 else 0) ≤ retrying state.retries tested := by
        split
        · rename_i counted
          exact List.countP_pos_iff.mpr ⟨_, List.getElem_mem inside, counted⟩
        · exact Nat.zero_le _
      by_cases same : state.retries[index].dispatch = tested
      · simp only [same, true_and, and_true, one, Bool.decide_eq_true] at counts held once ⊢
        unfold retrying at held ⊢
        omega
      · simp only [same, false_and, and_false, one, decide_false, Bool.false_eq_true, ↓reduceIte]
          at counts ⊢
        unfold retrying
        omega
    dsimp only at moved ⊢
    omega

/-- The end of a first attempt sets the timers that it kept room for. -/
theorem Counted.onDispatch (counted : Counted state)
    (taken : state.onDispatch index = some next) : Counted next := by
  obtain ⟨own, found, unfinished, rfl⟩ := onDispatch_eq taken
  have timers : ∀ tested,
      armed (state.scheduler.onDispatch state.now own.sessionId own.kind index).timers.pending
          tested ≤
        armed state.scheduler.timers.pending tested +
          if tested = index then reminders own.kind else 0 := by
    intro tested
    rw [Scheduler.pending_onDispatch, armed, List.countP_append]
    refine Nat.add_le_add ((Scheduler.sublist_cancel _ _).countP_le) ?_
    by_cases same : tested = index
    · subst same
      cases arms : renotifiable own.kind <;>
        simp [Scheduler.arranged, reminders, renotifyDelaysMs, arms]
    · cases arms : renotifiable own.kind <;> simp [Scheduler.arranged, same, Ne.symm same]
  constructor
  · simpa using counted.logged
  · intro tested dispatch held
    rcases set_cases found held with ⟨rfl, rfl⟩ | ⟨_, held⟩
    · exact counted.first tested own found
    · exact counted.first tested dispatch held
  · intro tested dispatch held
    have bounded := timers tested
    rcases set_cases found held with ⟨rfl, rfl⟩ | ⟨different, held⟩
    · have bound := counted.later tested own found
      simp only [Dispatch.unscheduled, unfinished, ↓reduceIte, reduceCtorEq] at bound bounded ⊢
      omega
    · have bound := counted.later tested dispatch held
      rw [if_neg different] at bounded
      dsimp only
      omega

/-- A timer that fires becomes an attempt. -/
theorem Counted.fire {handle : Nat} (counted : Counted state)
    (taken : state.fire handle = some next) : Counted next := by
  obtain ⟨timer, pending, _, rfl⟩ := fire_eq taken
  refine ⟨counted.logged, counted.first, fun tested dispatch held => ?_⟩
  have bound := counted.later tested dispatch held
  have split := (Timers.pending_clear pending).countP_eq
    (fun timer => decide (timer.callback.retry = tested))
  simp only [retrying, armed, Scheduler.timers_fire, List.countP_append, List.countP_cons,
    List.countP_nil, Stage.open, and_true] at bound split ⊢
  omega

/-- The moment alone changes nothing. -/
theorem Counted.moment (counted : Counted state) (moment : Nat) :
    Counted { state with moment := moment } :=
  counted.fewer rfl rfl rfl (List.Sublist.refl _)

theorem step_counted (ordered : Ordered state)
    (counted : Counted state) (taken : step state event = some next) : Counted next := by
  obtain ⟨acted, happened, rfl⟩ := Option.map_eq_some_iff.mp taken
  refine Counted.moment ?_ _
  cases event with
  | dispatch accountId sessionId kind =>
    cases happened
    exact counted.dispatch ordered accountId sessionId kind
  | answerFirst index answer => exact counted.answerFirst happened
  | onDispatch index => exact counted.onDispatch happened
  | fire handle => exact counted.fire happened
  | answerRetry index answer => exact counted.answerRetry ordered happened
  | cancelAll =>
    cases happened
    exact counted.fewer rfl rfl rfl (Scheduler.sublist_cancelAll _)
  | pass milliseconds =>
    cases happened
    exact counted.fewer rfl rfl rfl (List.Sublist.refl _)

/-! ## Runs -/

/-- A dispatch stays in its session. -/
theorem session_set (found : dispatches[index]? = some own) (changed : Dispatch)
    (same : changed.sessionId = own.sessionId) :
    sessionOf (dispatches.set index changed) = sessionOf dispatches := by
  funext tested
  unfold sessionOf
  by_cases here : tested = index
  · subst here
    rw [List.getElem?_set_self (List.getElem?_eq_some_iff.mp found).1, found]
    exact congrArg some same
  · rw [List.getElem?_set_ne (Ne.symm here)]

theorem step_sessions (taken : step state event = some next)
    (issued : index < state.dispatches.length) :
    sessionOf next.dispatches index = sessionOf state.dispatches index := by
  obtain ⟨acted, happened, rfl⟩ := Option.map_eq_some_iff.mp taken
  cases event with
  | dispatch accountId sessionId kind =>
    cases happened
    simp [sessionOf, Dispatcher.dispatch, List.getElem?_append, issued]
  | answerFirst position answer =>
    obtain ⟨own, stage, subscriptions, found, _, rfl⟩ := answerFirst_eq happened
    rw [note_dispatches]
    exact congrFun (session_set found { own with attempt := stage } rfl) index
  | onDispatch position =>
    obtain ⟨own, found, _, rfl⟩ := onDispatch_eq happened
    exact congrFun (session_set found { own with finishedAt := some state.moment } rfl) index
  | fire handle =>
    obtain ⟨timer, _, _, rfl⟩ := fire_eq happened
    rfl
  | answerRetry position answer =>
    obtain ⟨retry, stage, subscriptions, _, _, rfl⟩ := answerRetry_eq happened
    rw [note_dispatches]
  | cancelAll =>
    cases happened
    rfl
  | pass milliseconds =>
    cases happened
    rfl

/-- A reminder is sent by an answer to a timer's attempt, and by nothing else. -/
theorem reminder_sent
    (taken : step state event = some next) {push : Sent} (member : push ∈ next.pushes)
    (reminder : push.reminder = true) :
    push ∈ state.pushes ∨
      ∃ index answer retry stage, event = .answerRetry index answer ∧
        state.retries[index]? = some retry ∧
        retry.attempt.next answer = some (stage, push.subscriptions) ∧ push.subscriptions ≠ [] ∧
        push.dispatch = retry.dispatch ∧ push.issued = state.dispatches.length := by
  obtain ⟨acted, happened, rfl⟩ := Option.map_eq_some_iff.mp taken
  cases event with
  | dispatch accountId sessionId kind =>
    cases happened
    exact Or.inl member
  | answerFirst index answer =>
    obtain ⟨own, stage, subscriptions, _, _, rfl⟩ := answerFirst_eq happened
    rcases mem_note.mp member with held | ⟨_, rfl⟩
    · exact Or.inl held
    · contradiction
  | onDispatch index =>
    obtain ⟨own, _, _, rfl⟩ := onDispatch_eq happened
    exact Or.inl member
  | fire handle =>
    obtain ⟨timer, _, _, rfl⟩ := fire_eq happened
    exact Or.inl member
  | answerRetry index answer =>
    obtain ⟨retry, stage, subscriptions, found, answered, rfl⟩ := answerRetry_eq happened
    rcases mem_note.mp member with held | ⟨sends, rfl⟩
    · exact Or.inl held
    · exact Or.inr ⟨index, answer, retry, stage, rfl, found, answered, sends, rfl, rfl⟩
  | cancelAll =>
    cases happened
    exact Or.inl member
  | pass milliseconds =>
    cases happened
    exact Or.inl member

/-- What the answer to a timer's attempt sends is noted. -/
theorem reminder_noted {retry : Retry} {stage : Stage} {subscriptions : List PushSubscription}
    (taken : step state (.answerRetry index answer) = some next)
    (found : state.retries[index]? = some retry)
    (answered : retry.attempt.next answer = some (stage, subscriptions))
    (sends : subscriptions ≠ []) :
    ⟨retry.dispatch, true, state.dispatches.length, subscriptions⟩ ∈ next.pushes := by
  obtain ⟨acted, happened, rfl⟩ := Option.map_eq_some_iff.mp taken
  obtain ⟨held, heldStage, heldSubscriptions, heldFound, heldAnswered, rfl⟩ :=
    answerRetry_eq happened
  obtain rfl := Option.some.inj (found.symm.trans heldFound)
  obtain ⟨rfl, rfl⟩ := Prod.mk.inj (Option.some.inj (answered.symm.trans heldAnswered))
  exact mem_note.mpr (Or.inr ⟨sends, rfl⟩)

/-- A later dispatch that does not overtake a reminder was over between the setting of the
reminder's schedule and its timer, and cancelled it: there is none. -/
theorem overtaken (ordered : Ordered state) {retry : Retry}
    (member : retry ∈ state.retries) {later : Dispatch}
    (owns : state.dispatches[retry.dispatch]? = some own)
    (issued : state.dispatches[index]? = some later) (session : later.sessionId = own.sessionId) :
    Overtakes own later retry := by
  by_contra missed
  simp only [Overtakes, not_or, not_exists, not_and, Nat.not_lt, not_forall, exists_prop,
    Nat.not_le] at missed
  obtain ⟨notBefore, notDuring, started⟩ := missed
  obtain ⟨passed, finished, early⟩ := notDuring started
  obtain ⟨_, _, set, settled, bound⟩ := ordered.retries retry member
  rw [outcome_some owns] at settled
  obtain ⟨rfl, ended⟩ := Prod.mk.inj (Option.some.inj settled)
  have laterOutcome := outcome_some issued
  rw [session, finished] at laterOutcome
  rcases bound index passed laterOutcome with before | after
  · exact absurd before (Nat.not_le.mpr (notBefore passed set finished ended))
  · omega

/-- A step keeps the laws exactly when no reminder it sends is overtaken. -/
theorem step_lawful (ordered : Ordered state)
    (counted : Counted state) (lawful : Lawful state) (taken : step state event = some next) :
    Lawful next ↔ NotOvertaken state event := by
  constructor
  · rintro holds index answer retry stage subscriptions rfl found answered sends own later laterOwn
      owns follows issued session _
    have noted := reminder_noted taken found answered sends
    have inside := (List.getElem?_eq_some_iff.mp issued).1
    have apart := holds.superseded _ noted rfl later follows inside
    rw [step_sessions taken inside, step_sessions taken (Nat.lt_trans follows inside)] at apart
    exact apart (by simp [sessionOf, issued, owns, session])
  · intro clear
    have nextCounted := step_counted ordered counted taken
    constructor
    · intro index own found
      have first := nextCounted.first index own found
      have later := nextCounted.later index own found
      omega
    · intro push member reminder later follows issued
      rcases reminder_sent taken member reminder with held | sent
      · have within := (counted.logged push held).2
        rw [step_sessions taken (Nat.lt_of_lt_of_le issued within),
          step_sessions taken (Nat.lt_of_lt_of_le (Nat.lt_trans follows issued) within)]
        exact lawful.superseded push held reminder later follows issued
      · obtain ⟨dispatch, flag, count, subscriptions⟩ := push
        obtain ⟨index, answer, retry, stage, rfl, found, answered, sends, rfl, rfl⟩ := sent
        have owns := List.getElem?_eq_getElem (Nat.lt_trans follows issued)
        have laterOwns := List.getElem?_eq_getElem issued
        rw [step_sessions taken issued, step_sessions taken (Nat.lt_trans follows issued)]
        intro same
        simp only [sessionOf, owns, laterOwns, Option.map_some, Option.some.injEq] at same
        exact clear index answer retry stage subscriptions rfl found answered sends _ later _ owns
          follows laterOwns same
          (overtaken ordered (List.mem_of_getElem? found) owns laterOwns same)

/-- In every run the pushes of a dispatch are bounded, and no reminder is sent after a later
dispatch of its session was issued, exactly when no reminder that is sent is overtaken. -/
theorem reminders_lawful_iff (events : List Event) :
    Always step (fun _ _ next => Lawful next) buildPushDispatcher events ↔
      Always step (fun state event _ => NotOvertaken state event) buildPushDispatcher events :=
  always_state_iff (fun state => Ordered state ∧ Counted state) Lawful NotOvertaken
    (fun _ _ _ both taken => ⟨step_ordered both.1 taken, step_counted both.1 both.2 taken⟩)
    (fun _ _ _ both lawful taken => step_lawful both.1 both.2 lawful taken) events
    ⟨ordered_init, counted_init⟩
    ⟨by simp [buildPushDispatcher], by simp [buildPushDispatcher]⟩

/-- A request's first attempt is over after the one of the turn's end, which was issued later: its
schedule is set all the same, and five minutes later the reminder is sent. -/
theorem reminder_after_done :
    ∃ state,
      run step buildPushDispatcher
        [.dispatch "account" "session" .perm, .dispatch "account" "session" .done,
          .answerFirst 1 (.presence (some true)), .onDispatch 1,
          .answerFirst 0 (.presence (some true)), .onDispatch 0, .pass 300000, .fire 0,
          .answerRetry 0 (.presence (some false)), .answerRetry 0 (.mute none),
          .answerRetry 0 (.subscriptions (some [⟨"phone", "webpush"⟩]))] = some state ∧
        state.pushes = [⟨0, true, 2, [⟨"phone", "webpush"⟩]⟩] ∧ ¬ Lawful state := by
  refine ⟨_, rfl, by decide, fun lawful => ?_⟩
  exact lawful.superseded ⟨0, true, 2, [⟨"phone", "webpush"⟩]⟩ (by decide) rfl 1 (by decide)
    (by decide) (by decide)

end Kvy.Server.App.Push
