import Kvy.Cli.Acp.AcpToEnvelope
import Kvy.General.Streams

/-!
# An ACP session and what it writes

The mapper and the permission handler of a session write to one queue. Turns are opened and
closed, text is flushed, updates are mapped and permission requests are handled, in any order. The
history of a session keeps every event with what it wrote.
-/

namespace Kvy.Cli.Acp

open General Wire Permissions
open Claude (Minting PickedRisk addTo)

/-- The mapper and the permission handler of `startAcpRemote`. -/
structure AcpSession where
  mapper : AcpEnvelopeMapperState
  handler : AcpPermissionHandler

/-- What can happen to a session. -/
inductive AcpEvent where
  | startAcpTurn
  | closeAcpTurnWithStatus (status : TurnStatus)
  | endAcpTurn (stopReason : String)
  | flushAcpText
  | update (update : Json)
  | permission (event : AcpPermissionHandler.Event)

/-- An event with the session before and after it, and the envelopes that it pushes. -/
structure Moment where
  before : AcpSession
  event : AcpEvent
  after : AcpSession
  envelopes : List SessionEnvelope

/-- The events that the calls of a permission handler put onto the timeline. -/
def emitted (calls : List (PermissionCall PermissionOutcome)) : List SessionEvent :=
  calls.filterMap (fun called =>
    match called with
    | .emitEnvelope ev => some ev
    | _ => none)

namespace AcpSession

/-- A session that starts. -/
def create (attention : Bool) : AcpSession := ⟨createAcpEnvelopeMapperState, .create attention⟩

variable (minting : Minting)

/-- An event of the mapper. A call that throws pushes nothing. -/
def mapped (session : AcpSession) (event : AcpEvent) (result : Result) : Moment :=
  match result with
  | .ok mapping => ⟨session, event, { session with mapper := mapping.state }, mapping.envelopes⟩
  | .error state => ⟨session, event, { session with mapper := state }, []⟩

/-- An event of the permission handler. Its envelopes belong to no turn. -/
def handled (session : AcpSession) (event : AcpPermissionHandler.Event) : Moment :=
  let handler := session.handler.step event
  let events := emitted (handler.ledger.calls.drop session.handler.ledger.calls.length)
  let issued := session.mapper.issued
  { before := session
    event := .permission event
    after := ⟨{ session.mapper with issued := issued + events.length }, handler⟩
    envelopes := events.mapIdx (fun index ev => {
      id := minting.createId (issued + index)
      time := minting.now (issued + index)
      role := .agent
      turn := none
      subagent := none
      ev := ev }) }

/-- What an event does. -/
def moment (session : AcpSession) (event : AcpEvent) : Moment :=
  match event with
  | .startAcpTurn => session.mapped event (.ok (startAcpTurn minting session.mapper))
  | .closeAcpTurnWithStatus status =>
    session.mapped event (closeAcpTurnWithStatus minting session.mapper status)
  | .endAcpTurn stopReason => session.mapped event (endAcpTurn minting session.mapper stopReason)
  | .flushAcpText => session.mapped event (.ok (flushAcpText minting session.mapper))
  | .update update => session.mapped event (mapAcpUpdateToEnvelopes minting update session.mapper)
  | .permission event => session.handled minting event

/-- The history of a list of events. -/
def history (session : AcpSession) : List AcpEvent → List Moment
  | [] => []
  | event :: events =>
    let moment := session.moment minting event
    moment :: history moment.after events

/-- The session after a list of events. -/
def final (session : AcpSession) (events : List AcpEvent) : AcpSession :=
  events.foldl (fun session event => (session.moment minting event).after) session

/-- One more event. -/
theorem history_snoc (session : AcpSession) (events : List AcpEvent) (event : AcpEvent) :
    session.history minting (events ++ [event]) =
      session.history minting events ++ [(session.final minting events).moment minting event] := by
  induction events generalizing session with
  | nil => rfl
  | cons first events inductionHypothesis =>
    simp only [List.cons_append, history, inductionHypothesis, final, List.foldl_cons]

theorem final_snoc (session : AcpSession) (events : List AcpEvent) (event : AcpEvent) :
    session.final minting (events ++ [event]) =
      ((session.final minting events).moment minting event).after := by
  simp [final]

end AcpSession

/-- What a session has written. -/
def outgoing (history : List Moment) : List SessionEnvelope := history.flatMap Moment.envelopes

@[simp] theorem outgoing_append (first second : List Moment) :
    outgoing (first ++ second) = outgoing first ++ outgoing second := List.flatMap_append

@[simp] theorem outgoing_single (moment : Moment) : outgoing [moment] = moment.envelopes :=
  List.flatMap_singleton ..

/-! ## What an update is about -/

/-- The identifier under which the tool call of an update is filed, in an open turn. -/
def callIn (turn : Option String) (update : Json) (ids : OrderedMap String String) : Option String :=
  (turn.bind (fun _ => pickToolCallId update)).bind ids.get?

/-- The call of an update of a kind. -/
def Moment.callOf (moment : Moment) (kind : String) (counts : Json → Bool) : Option String :=
  match moment.event with
  | .update update =>
    if Schema.string (update.field? "sessionUpdate") = some kind && counts update then
      callIn moment.before.mapper.currentTurnId update moment.after.mapper.providerIds
    else none
  | _ => none

/-- The call that is announced. -/
def Moment.announced (moment : Moment) : Option String := moment.callOf "tool_call" (fun _ => true)

/-- The call that is reported as completed or failed. -/
def Moment.ended (moment : Moment) : Option String :=
  moment.callOf "tool_call_update" (fun update =>
    isTerminalStatus (pickString (update.field? "status")))

/-! ## What an envelope is about -/

/-- The turn that starts. -/
def startedTurn (env : SessionEnvelope) : Option String :=
  match env.ev with
  | .turnStart => env.turn
  | _ => none

/-- The turn that ends. -/
def endedTurn (env : SessionEnvelope) : Option String :=
  match env.ev with
  | .turnEnd _ => env.turn
  | _ => none

/-- The subagent that starts. -/
def startedSubagent (env : SessionEnvelope) : Option String :=
  match env.ev with
  | .subStart => env.subagent
  | _ => none

/-- The subagent that stops. -/
def stoppedSubagent (env : SessionEnvelope) : Option String :=
  match env.ev with
  | .subStop => env.subagent
  | _ => none

/-- The call that starts. -/
def startedCall (env : SessionEnvelope) : Option String :=
  match env.ev with
  | .toolStart call _ _ _ _ => some call
  | _ => none

/-- The call that ends. -/
def endedCall (env : SessionEnvelope) : Option String :=
  match env.ev with
  | .toolEnd call _ _ => some call
  | _ => none

/-- The scope in which text is written or a tool call starts. -/
def contentScope (env : SessionEnvelope) : Option String :=
  match env.ev with
  | .text _ _ | .toolStart _ _ _ _ _ => env.subagent
  | _ => none

/-- Which envelopes may follow what was written before. A turn starts before all of its envelopes,
once, and nothing of it follows its end. A subagent starts once, before text is written and tool
calls start in its scope, and stops at most once, after its start. Every subagent that has started
has stopped when a turn ends. -/
structure Fits (before : List SessionEnvelope) (env : SessionEnvelope) : Prop where
  turnStart : ∀ turn, startedTurn env = some turn → ∀ other ∈ before, other.turn ≠ some turn
  inTurn : ∀ turn, env.turn = some turn → startedTurn env = none →
    turn ∈ before.filterMap startedTurn ∧ turn ∉ before.filterMap endedTurn
  subStart : ∀ subagent, startedSubagent env = some subagent →
    subagent ∉ before.filterMap startedSubagent
  inScope : ∀ subagent, contentScope env = some subagent →
    subagent ∈ before.filterMap startedSubagent
  subStop : ∀ subagent, stoppedSubagent env = some subagent →
    subagent ∈ before.filterMap startedSubagent ∧ subagent ∉ before.filterMap stoppedSubagent
  turnEnd : ∀ turn, endedTurn env = some turn → ∀ subagent ∈ before.filterMap startedSubagent,
    subagent ∈ before.filterMap stoppedSubagent

/-- How often a call waits to start: once, or not at all. -/
def AcpSession.waiting (session : AcpSession) (call : String) : Nat :=
  (session.mapper.pendingToolStarts.has call).toNat

/-- When a call ends, after it was announced, it has started; its end is the last envelope. -/
def EndsAfterStart (before : List Moment) (moment : Moment) : Prop :=
  ∀ call, moment.ended = some call → call ∈ before.filterMap Moment.announced →
    ∃ earlier last, moment.envelopes = earlier ++ [last] ∧ endedCall last = some call ∧
      call ∈ (outgoing before ++ earlier).filterMap startedCall

/-- Turns, calls and subagents are bracketed. Each announced call starts, or waits to start; it
starts at most as often as it is announced. None waits when no turn is open. The calls that end
are those that are reported to have ended. The calls of a turn are told apart. -/
structure Bracketed (history : List Moment) (session : AcpSession) : Prop where
  lawful : Streams.Lawful Fits (outgoing history)
  starts : ∀ call ∈ history.filterMap Moment.announced,
    1 ≤ ((outgoing history).filterMap startedCall).count call + session.waiting call
  once : ∀ call, ((outgoing history).filterMap startedCall).count call + session.waiting call ≤
    (history.filterMap Moment.announced).count call
  settled : session.mapper.currentTurnId = none → ∀ call, session.waiting call = 0
  ends : (outgoing history).filterMap endedCall = history.filterMap Moment.ended
  ordered : Streams.Lawful EndsAfterStart history
  apart : ∀ first second call, session.mapper.providerIds.get? first = some call →
    session.mapper.providerIds.get? second = some call → first = second

end Kvy.Cli.Acp
