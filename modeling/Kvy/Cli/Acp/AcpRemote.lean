import Kvy.Wire.Session

/-!
# A remote session over ACP

Turns that are sent wait in a queue. A drain takes them out one at a time and prompts the agent,
waiting for each prompt before the next. A flag keeps a second drain from starting; it is cleared
by a reaction to the end of the drain, in a microtask of its own.

An async function is suspended on the promise it waits for. When the promise settles, a microtask
that resumes the function is queued; microtasks run in order, one at a time.
-/

namespace Kvy.Cli.Acp

open General Wire

/-- `QueuedTurn`. -/
structure QueuedTurn where
  text : String
  id : Option String
deriving DecidableEq

/-- The promise of the session id. -/
inductive ReadyPromise where
  | pending
  | fulfilled (sessionId : String)
  | rejected (message : String)
deriving DecidableEq

/-- What a suspended drain waits for. -/
inductive Awaited where
  | ready
  | prompt (sessionId : String) (turn : QueuedTurn)
deriving DecidableEq

/-- A drain that is suspended. -/
structure Suspended where
  drain : Nat
  awaits : Awaited
deriving DecidableEq

/-- What a drain is resumed with. -/
inductive Resumption where
  | ready (sessionId : String)
  | notReady
  | resolved (sessionId : String) (turn : QueuedTurn) (stopReason : String)
  | rejected (sessionId : String) (turn : QueuedTurn) (message : String)
deriving DecidableEq

/-- The microtasks of a session. -/
inductive Microtask where
  | startupFailed (message : String)
  | resume (drain : Nat) (value : Resumption)
  | drainSettled (drain : Nat)
deriving DecidableEq

/-- What a session tells the outside. -/
inductive AcpCall where
  | userText (turn : QueuedTurn)
  | startTurn
  | prompt (sessionId : String) (turn : QueuedTurn)
  | closeTurn (status : TurnStatus)
  | service (text : String)
  | reportTurnEnd
  | onTurnSettled (messageId : Option String) (status : TurnStatus)
deriving DecidableEq

/-- The turn that a call shows as sent. -/
def AcpCall.sent? : AcpCall → Option QueuedTurn
  | .userText turn => some turn
  | _ => none

/-- The turn that a call prompts. -/
def AcpCall.prompted? : AcpCall → Option QueuedTurn
  | .prompt _ turn => some turn
  | _ => none

/-- The state of `startAcpRemote`, as far as its turns are concerned. -/
structure AcpRemote where
  ready : ReadyPromise
  stopped : Bool
  fatalError : Option String
  turnQueue : List QueuedTurn
  draining : Bool
  drains : Nat
  suspended : List Suspended
  microtasks : List Microtask
  calls : List AcpCall

/-- `mapAcpStopReasonToTurnStatus`. -/
def mapAcpStopReasonToTurnStatus (stopReason : String) : TurnStatus :=
  if stopReason = "end_turn" then .completed
  else if stopReason = "cancelled" then .cancelled
  else .failed

namespace AcpRemote

/-- A session that is starting. -/
def start : AcpRemote where
  ready := .pending
  stopped := false
  fatalError := none
  turnQueue := []
  draining := false
  drains := 0
  suspended := []
  microtasks := []
  calls := []

/-- Call the outside. -/
def call (remote : AcpRemote) (called : List AcpCall) : AcpRemote :=
  { remote with calls := remote.calls ++ called }

/-- Queue a microtask. -/
def queueMicrotask (remote : AcpRemote) (microtask : Microtask) : AcpRemote :=
  { remote with microtasks := remote.microtasks ++ [microtask] }

/-- The loop of `drain`, up to its next prompt or to its end. -/
def loop (remote : AcpRemote) (drain : Nat) (sessionId : String) : AcpRemote :=
  match remote.turnQueue with
  | [] => remote.queueMicrotask (.drainSettled drain)
  | turn :: rest =>
    if remote.stopped || remote.fatalError.isSome then remote.queueMicrotask (.drainSettled drain)
    else
      { remote with
        turnQueue := rest
        suspended := remote.suspended ++ [⟨drain, .prompt sessionId turn⟩]
        calls := remote.calls ++ [.startTurn, .prompt sessionId turn] }

/-- `drain`, resumed. -/
def resume (remote : AcpRemote) (drain : Nat) : Resumption → AcpRemote
  | .ready sessionId => remote.loop drain sessionId
  | .notReady => { remote with turnQueue := [] }.queueMicrotask (.drainSettled drain)
  | .resolved sessionId turn stopReason =>
    let status := mapAcpStopReasonToTurnStatus stopReason
    (remote.call [.closeTurn status, .reportTurnEnd, .onTurnSettled turn.id status]).loop drain sessionId
  | .rejected sessionId _ _ =>
    (remote.call [.closeTurn (if remote.stopped then .cancelled else .failed)]).loop drain sessionId

/-- `kickDrain`. The new drain waits for the session id. -/
def kickDrain (remote : AcpRemote) : AcpRemote :=
  if remote.draining then remote
  else
    let kicked := { remote with draining := true, drains := remote.drains + 1 }
    match remote.ready with
    | .pending => { kicked with suspended := kicked.suspended ++ [⟨remote.drains, .ready⟩] }
    | .fulfilled sessionId => kicked.queueMicrotask (.resume remote.drains (.ready sessionId))
    | .rejected _ => kicked.queueMicrotask (.resume remote.drains .notReady)

/-- `send`. -/
def send (remote : AcpRemote) (turn : QueuedTurn) : AcpRemote :=
  if remote.stopped then remote
  else { remote.call [.userText turn] with turnQueue := remote.turnQueue ++ [turn] }.kickDrain

/-- The start of `stop`. What follows cancels the prompt, waits for the drain and closes the
connection. -/
def stop (remote : AcpRemote) : AcpRemote :=
  if remote.stopped then remote else { remote with stopped := true, turnQueue := [] }

/-- The drains that wait for the session id are resumed. -/
def settleReady (remote : AcpRemote) (ready : ReadyPromise) (value : Resumption) : AcpRemote :=
  { remote with
    ready := ready
    suspended := remote.suspended.filter (fun held => held.awaits ≠ .ready)
    microtasks := remote.microtasks ++
      (remote.suspended.filter (fun held => held.awaits = .ready)).map
        (fun held => .resume held.drain value) }

/-- The session id is there. -/
def fulfill (remote : AcpRemote) (sessionId : String) : AcpRemote :=
  remote.settleReady (.fulfilled sessionId) (.ready sessionId)

/-- The session does not start. The reaction of `ready.catch` is the first one. -/
def reject (remote : AcpRemote) (message : String) : AcpRemote :=
  (remote.queueMicrotask (.startupFailed message)).settleReady (.rejected message) .notReady

/-- What the reaction of `ready.catch` does. -/
def startupFailed (remote : AcpRemote) (message : String) : AcpRemote :=
  if remote.fatalError.isSome then remote
  else { remote.call [.service ("Remote session failed to start: " ++ message)] with
    fatalError := some message }

/-- The reaction to an error of the connection. -/
def onError (remote : AcpRemote) (message : String) : AcpRemote :=
  if remote.stopped then remote
  else { remote.call [.closeTurn .failed,
      .service ("Remote session lost its agent process: " ++ message)] with fatalError := some message }

/-- What a microtask runs. -/
def runMicrotask (remote : AcpRemote) : Microtask → AcpRemote
  | .startupFailed message => remote.startupFailed message
  | .resume drain value => remote.resume drain value
  | .drainSettled _ => { remote with draining := false }

/-- What can happen to a session. A prompt settles with a stop reason or a message. -/
inductive Event where
  | send (turn : QueuedTurn)
  | fulfill (sessionId : String)
  | reject (message : String)
  | settlePrompt (held : Suspended) (result : Except String String)
  | onError (message : String)
  | stop
  | microtask

/-- What a settled prompt resumes its drain with. -/
def settled (sessionId : String) (turn : QueuedTurn) : Except String String → Resumption
  | .ok stopReason => .resolved sessionId turn stopReason
  | .error message => .rejected sessionId turn message

/-- A call, a promise that settles, or the next microtask. -/
def step (remote : AcpRemote) : Event → Option AcpRemote
  | .send turn => some (remote.send turn)
  | .fulfill sessionId => if remote.ready = .pending then some (remote.fulfill sessionId) else none
  | .reject message => if remote.ready = .pending then some (remote.reject message) else none
  | .settlePrompt held result =>
    if held ∈ remote.suspended then
      match held.awaits with
      | .ready => none
      | .prompt sessionId turn =>
        some ({ remote with suspended := remote.suspended.erase held }.queueMicrotask
          (.resume held.drain (settled sessionId turn result)))
    else none
  | .onError message => some (remote.onError message)
  | .stop => some remote.stop
  | .microtask =>
    match remote.microtasks with
    | [] => none
    | microtask :: rest => some ({ remote with microtasks := rest }.runMicrotask microtask)

/-! ## What has happened -/

/-- The turns that were sent. -/
def sent (remote : AcpRemote) : List QueuedTurn := remote.calls.filterMap AcpCall.sent?

/-- The turns that were prompted. -/
def prompted (remote : AcpRemote) : List QueuedTurn := remote.calls.filterMap AcpCall.prompted?

/-- The prompts in flight. -/
def inFlight (remote : AcpRemote) : List Suspended :=
  remote.suspended.filter (fun held => held.awaits ≠ .ready)

end AcpRemote

end Kvy.Cli.Acp
