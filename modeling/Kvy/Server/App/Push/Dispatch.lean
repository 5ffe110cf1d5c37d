import Kvy.General.Runs
import Kvy.Server.App.Push.Renotify

/-!
# Dispatching pushes

A lifecycle event of a session is answered by one attempt: it asks whether a client is looking,
whether notifications are muted and which subscriptions there are, and then sends to all of them
at once. When the attempt is over the scheduler is told, and its timers run the same attempt
again.

Every answer an attempt waits for arrives as an event, so attempts overlap in every order. The
state keeps, beside what the code has, when each dispatch was issued and when its first attempt
was over, when each timer fired, and what was sent.
-/

namespace Kvy.Server.App.Push

open General Wire

/-- A row of `push_subscriptions`, as far as an attempt reads it. -/
structure PushSubscription where
  id : String
  channel : String
deriving DecidableEq

/-- The keys of the channel registry. -/
def channels : List String := ["webpush", "telegram", "ntfy"]

/-- What an attempt waits for. -/
inductive Stage where
  | presence
  | mute
  | subscriptions
  | sending
  | settled
deriving DecidableEq

/-- What an attempt is answered; nothing where the query throws. -/
inductive Answer where
  | presence (active : Option Bool)
  /-- The flags of the account's and the session's rows, where there are such rows. -/
  | mute (found : Option (Option Bool × Option Bool))
  | subscriptions (found : Option (List PushSubscription))
  /-- Every `send` is over, and what follows a dead endpoint. -/
  | sent
deriving DecidableEq

/-- `attempt` from one `await` to the next, with the subscriptions that it sends to. -/
def Stage.next : Stage → Answer → Option (Stage × List PushSubscription)
  | .presence, .presence active =>
    -- A presence check that throws does not suppress.
    some (if active = some true then .settled else .mute, [])
  | .mute, .mute found =>
    some
      (match found with
        | some (account, session) =>
          if account = some true ∨ session = some true then .settled else .subscriptions
        | none => .subscriptions,
        [])
  | .subscriptions, .subscriptions found =>
    match found with
    | none | some [] => some (.settled, [])
    | some subs => some (.sending, subs.filter (fun sub => channels.contains sub.channel))
  | .sending, .sent => some (.settled, [])
  | _, _ => none

/-- One call of `dispatch`. -/
structure Dispatch where
  accountId : String
  sessionId : String
  kind : LifecycleKind
  /-- Its first attempt. -/
  attempt : Stage
  issuedAt : Nat
  /-- When the scheduler was told. -/
  finishedAt : Option Nat
deriving DecidableEq

/-- A timer's attempt for a dispatch. -/
structure Retry where
  dispatch : Nat
  firedAt : Nat
  attempt : Stage
deriving DecidableEq

/-- One fan-out: of which dispatch, whether a timer caused it, and how many dispatches there were
by then. -/
structure Sent where
  dispatch : Nat
  reminder : Bool
  issued : Nat
  subscriptions : List PushSubscription
deriving DecidableEq

/-- One `buildPushDispatcher`: its dispatches in the order of the calls, the attempts of its
timers, the time and the number of steps taken. -/
structure Dispatcher where
  scheduler : Scheduler Nat
  now : Nat
  moment : Nat
  dispatches : List Dispatch
  retries : List Retry
  pushes : List Sent

/-- `buildPushDispatcher`. -/
def buildPushDispatcher : Dispatcher where
  scheduler := .create
  now := 0
  moment := 0
  dispatches := []
  retries := []
  pushes := []

namespace Dispatcher

/-- A call of `dispatch`: its attempt waits for the presence check. -/
def dispatch (state : Dispatcher) (accountId sessionId : String) (kind : LifecycleKind) :
    Dispatcher :=
  { state with
    dispatches :=
      state.dispatches ++ [⟨accountId, sessionId, kind, .presence, state.moment, none⟩] }

/-- What is sent is noted. -/
def note (state : Dispatcher) (dispatch : Nat) (reminder : Bool)
    (subscriptions : List PushSubscription) : Dispatcher :=
  if subscriptions = [] then state
  else
    { state with
      pushes := state.pushes ++ [⟨dispatch, reminder, state.dispatches.length, subscriptions⟩] }

/-- An answer to the first attempt of a dispatch. -/
def answerFirst (state : Dispatcher) (index : Nat) (answer : Answer) : Option Dispatcher := do
  let own ← state.dispatches[index]?
  let (stage, subscriptions) ← own.attempt.next answer
  pure
    ({ state with dispatches := state.dispatches.set index { own with attempt := stage } }.note index
      false subscriptions)

/-- An answer to the attempt of a timer. -/
def answerRetry (state : Dispatcher) (index : Nat) (answer : Answer) : Option Dispatcher := do
  let retry ← state.retries[index]?
  let (stage, subscriptions) ← retry.attempt.next answer
  pure
    ({ state with retries := state.retries.set index { retry with attempt := stage } }.note
      retry.dispatch true subscriptions)

/-- What follows the first attempt of a dispatch. -/
def onDispatch (state : Dispatcher) (index : Nat) : Option Dispatcher := do
  let own ← state.dispatches[index]?
  if own.attempt = .settled ∧ own.finishedAt = none then
    some
      { state with
        scheduler := state.scheduler.onDispatch state.now own.sessionId own.kind index
        dispatches := state.dispatches.set index { own with finishedAt := some state.moment } }
  else none

/-- A timer fires, and its attempt starts. -/
def fire (state : Dispatcher) (handle : Nat) : Option Dispatcher := do
  let timer ← state.scheduler.timers.pending.find? (fun timer => timer.handle = handle)
  if state.scheduler.Due state.now timer then
    some
      { state with
        scheduler := state.scheduler.fire timer
        retries := state.retries ++ [⟨timer.callback.retry, state.moment, .presence⟩] }
  else none

end Dispatcher

/-- What can happen. -/
inductive Event where
  | dispatch (accountId sessionId : String) (kind : LifecycleKind)
  | answerFirst (index : Nat) (answer : Answer)
  | onDispatch (index : Nat)
  | fire (handle : Nat)
  | answerRetry (index : Nat) (answer : Answer)
  | cancelAll
  /-- Time passes. -/
  | pass (milliseconds : Nat)
deriving DecidableEq

/-- What an event does. -/
def act (state : Dispatcher) : Event → Option Dispatcher
  | .dispatch accountId sessionId kind => some (state.dispatch accountId sessionId kind)
  | .answerFirst index answer => state.answerFirst index answer
  | .onDispatch index => state.onDispatch index
  | .fire handle => state.fire handle
  | .answerRetry index answer => state.answerRetry index answer
  | .cancelAll => some { state with scheduler := state.scheduler.cancelAll }
  | .pass milliseconds => some { state with now := state.now + milliseconds }

/-- One step. -/
def step (state : Dispatcher) (event : Event) : Option Dispatcher :=
  (act state event).map (fun next => { next with moment := next.moment + 1 })

end Kvy.Server.App.Push
