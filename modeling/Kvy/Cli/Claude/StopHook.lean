import Kvy.Cli.Claude.MapperRuns
import Kvy.Cli.Claude.Scanner

/-!
# The end of a turn, by the Stop hook

The agent writes the lines of its turns to its transcripts. The scanner hands them over to the
mapper, whenever it reads them. When the hook says that the agent has stopped, a call flushes the
scanner until two flushes in a row have handed over nothing, five times at most, and ends
whatever turn the mapper has open then.

The lines that were written, those that were handed over, and for whom an envelope was sent are
recorded for reference: no step looks at these records. A new prompt begins a new turn; lines
written again count for nothing.
-/

namespace Kvy.Cli.Claude.StopHook

open General Wire Brackets

/-- `CLOSE_TURN_MAX_ATTEMPTS`. -/
def closeTurnMaxAttempts : Nat := 5

/-- `CLOSE_TURN_QUIET_FLUSHES_REQUIRED`. -/
def closeTurnQuietFlushesRequired : Nat := 2

/-- Where a call of `closeTurn` is suspended, or that it has returned. -/
inductive Phase where
  | flushing (flush : Option Flush)
  | delaying
  | returned
deriving DecidableEq

/-- A call of `closeTurn`, and the turn that the hook fired for. -/
structure Closing where
  status : TurnStatus
  turn : Nat
  attempt : Nat
  consecutiveQuietFlushes : Nat
  before : Nat
  phase : Phase

/-- What is recorded of an entry: its key, whether it bears on its turn, whether it is a prompt,
and the number of its turn. -/
structure Recorded where
  key : String
  talks : Bool
  prompt : Bool
  turn : Nat
deriving DecidableEq

/-- For whom an envelope was sent: for an entry of a turn, or for a call for a turn. -/
inductive Origin where
  | entry (turn : Nat)
  | closing (turn : Nat)
deriving DecidableEq

/-- The value of a line. -/
def lineOf : RawJSONLines → Json
  | .user _ _ _ line | .assistant _ line | .summary _ _ line | .system _ line => line

/-- The line can have envelopes in a turn. -/
def talks (message : Json) : Bool :=
  match typeOf message with
  | some "assistant" => !isCompactSummaryMessage message
  | some "user" =>
    !isMetaMessage message &&
      match Schema.string (pickMessageContent message) with
      | some content => (extractLocalCommandStdout content).isNone && !isLocalCommandInvocation content
      | none => !(pickContentBlocks message).isEmpty
  | _ => false

/-- A session in a terminal, and the records. -/
structure Session where
  transcripts : String → List UInt8
  scanner : Scanner
  entriesProcessedCount : Nat
  mapperState : MapperState
  closings : List Closing
  known : List String
  written : List Recorded
  handed : List Recorded
  sent : List (Origin × SessionEnvelope)

namespace Session

/-- How many turns the prompts among entries have begun. -/
def prompts (entries : List Recorded) : Nat := entries.countP Recorded.prompt

/-- The entries that bear on their turns. -/
def talking (entries : List Recorded) : List Recorded := entries.filter Recorded.talks

/-- The turn that is open in the transcripts. -/
def turn (session : Session) : Nat := prompts session.written

/-- The session once its scanner is being created, with what is there of its transcript. -/
def start (sessionId : Option String) (armedUntil : Nat) (existing : List UInt8) : Session where
  transcripts := fun id => if sessionId = some id then existing else []
  scanner := Scanner.create sessionId armedUntil existing
  entriesProcessedCount := 0
  mapperState := createClaudeEnvelopeMapperState
  closings := []
  known := (readSessionEntries existing).map Entry.key
  written := []
  handed := []
  sent := []

/-! ## The transcripts -/

/-- What a new entry is recorded as. -/
def recordNew (session : Session) (entry : Entry) : Recorded :=
  let prompt := closesTurn (lineOf entry.message)
  ⟨entry.key, talks (lineOf entry.message), prompt, session.turn + prompt.toNat⟩

/-- The new entry that a line adds to a transcript. -/
def newEntry? (session : Session) (id : String) (line : List UInt8) : Option Entry :=
  (lineEntry (Utf8.decode (openText (session.transcripts id) ++ line))).filter
    (fun entry => entry.key ∉ session.known)

/-- A line is written to a transcript. -/
def write (session : Session) (id : String) (line : List UInt8) : Session :=
  let longer := { session with
    transcripts :=
      Function.update session.transcripts id (session.transcripts id ++ line ++ [10]) }
  (session.newEntry? id line).elim longer (fun entry => { longer with
    known := session.known ++ [entry.key]
    written := session.written ++ [session.recordNew entry] })

/-! ## The scanner -/

/-- The entry that is handed over when a pass goes on. -/
def handsOver (session : Session) (pass : Pass) : Option Entry :=
  (pass.lines.head?.bind ReadLine.entry?).filter
    (fun entry => entry.key ∉ session.scanner.processedEntryKeys)

/-- What an entry that is handed over is recorded as. -/
def recordHanded (session : Session) (entry : Entry) : Recorded :=
  ⟨entry.key, talks (lineOf entry.message), closesTurn (lineOf entry.message),
    ((session.written.find? (fun held => held.key = entry.key)).map Recorded.turn).getD 0⟩

/-- `onMessage`. A mapping that throws makes the pass fail, and with the first pass the session. -/
def onMessage (minting : Minting) (session : Session) (scanner : Scanner) (pass : Pass)
    (entry : Entry) : Option Session :=
  let record := session.recordHanded entry
  let counted := { session with
    scanner
    entriesProcessedCount := session.entriesProcessedCount + 1
    handed := session.handed ++ [record] }
  match mapClaudeToEnvelopes minting (lineOf entry.message) session.mapperState with
  | .ok mapping => some { counted with
      mapperState := mapping.state
      sent := session.sent ++ mapping.envelopes.map (fun env => (.entry record.turn, env)) }
  | .error (.thrown state) =>
    if pass.owner = .creation then none
    else some { counted with
      mapperState := state
      scanner := scanner.endPass { pass with lines := pass.lines.tail } }
  | .error .exhausted => none

/-- A step of the scanner. Only calls of `closeTurn` flush it. -/
def scan (minting : Minting) (session : Session) (event : Scanner.Event) : Option Session :=
  match event, session.scanner.step session.transcripts event with
  | .flush, _ | .resumeFlush _, _ | _, none => none
  | .goThrough pass, some scanner =>
    (session.handsOver pass).elim (some { session with scanner })
      (session.onMessage minting scanner pass)
  | _, some scanner => some { session with scanner }

/-! ## Calls of `closeTurn` -/

/-- A call counts and flushes. There may be no scanner yet, or it has stopped; then nothing is
waited for. -/
def attempt (session : Session) (closing : Closing) : Session × Closing :=
  let counted := { closing with before := session.entriesProcessedCount }
  if session.scanner.created && !session.scanner.stopped then
    ({ session with scanner := session.scanner.flush },
      { counted with phase := .flushing session.scanner.flush.flushes.getLast? })
  else (session, { counted with phase := .flushing none })

/-- The hook fires. -/
def stop (session : Session) (status : TurnStatus) : Session :=
  let (flushed, closing) := session.attempt ⟨status, session.turn, 0, 0, 0, .delaying⟩
  { flushed with closings := session.closings ++ [closing] }

/-- The flush of a call goes on, or returns. -/
def resumeFlush (session : Session) (call : Nat) : Option Session := do
  let closing ← session.closings[call]?
  match closing.phase with
  | .flushing (some flush) =>
    let scanner ← session.scanner.step session.transcripts (.resumeFlush flush)
    let next := match flush.phase with
      | .waiting => scanner.flushes.getLast?
      | .syncing => none
    return { session with
      scanner
      closings := session.closings.set call { closing with phase := .flushing next } }
  | _ => none

/-- The quiet flushes in a row, with the one that has returned. -/
def quietFlushes (session : Session) (closing : Closing) : Nat :=
  if session.entriesProcessedCount = closing.before then closing.consecutiveQuietFlushes + 1 else 0

/-- The flush that has returned is the last one of its call. -/
def isLastFlush (session : Session) (closing : Closing) : Bool :=
  closeTurnQuietFlushesRequired ≤ session.quietFlushes closing ||
    closeTurnMaxAttempts ≤ closing.attempt + 1

/-- The flush of a call has returned: the call waits, or ends the turn that is open. -/
def flushed (minting : Minting) (session : Session) (call : Nat) : Option Session := do
  let closing ← session.closings[call]?
  guard (closing.phase = .flushing none)
  if session.isLastFlush closing then
    let closed := closeClaudeTurnWithStatus minting session.mapperState closing.status
    return { session with
      mapperState := closed.state
      closings := session.closings.set call { closing with phase := .returned }
      sent := session.sent ++ closed.envelopes.map (fun env => (.closing closing.turn, env)) }
  else
    return { session with
      closings := session.closings.set call { closing with
        consecutiveQuietFlushes := session.quietFlushes closing
        phase := .delaying } }

/-- A call has waited, and tries again. -/
def delayed (session : Session) (call : Nat) : Option Session := do
  let closing ← session.closings[call]?
  guard (closing.phase = .delaying)
  let (flushed, again) := session.attempt { closing with attempt := closing.attempt + 1 }
  return { flushed with closings := session.closings.set call again }

/-! ## What can happen -/

/-- What can happen: the agent writes or stops, the scanner goes on, or a call does. -/
inductive Event where
  | write (id : String) (line : List UInt8)
  | stop (status : TurnStatus)
  | scan (event : Scanner.Event)
  | resumeFlush (call : Nat)
  | flushed (call : Nat)
  | delayed (call : Nat)

/-- One step. -/
def step (minting : Minting) (session : Session) : Event → Option Session
  | .write id line => if 10 ∈ line then none else some (session.write id line)
  | .stop status => some (session.stop status)
  | .scan event => session.scan minting event
  | .resumeFlush call => session.resumeFlush call
  | .flushed call => session.flushed minting call
  | .delayed call => session.delayed call

/-! ## What the hook is for -/

/-- The envelopes that were sent, by how they bear on their turns. -/
def marks (session : Session) : List (Origin × Mark String) :=
  session.sent.map (fun item => (item.1, mark item.2))

/-- A turn that a call ends began for an entry of the turn that the hook fired for, holds nothing
that is for another turn, and nothing that is for this one comes after its end. -/
def ClosesOwnTurns (marks : List (Origin × Mark String)) : Prop :=
  ∀ before turn span after, marks = before ++ (.closing turn, .stop span) :: after →
    (.entry turn, .start span) ∈ before ∧
      (∀ item ∈ before ++ after, item.2.span? = some span →
        item.1 = .entry turn ∨ item.1 = .closing turn) ∧
      ∀ item ∈ after, item.1 = .entry turn → item.2.span? = none

/-! ## When it works -/

/-- The step is not too late or too early. The agent writes nothing that bears on a turn that a
call has ended. The scanner hands over lines that the mapper can read, and those that bear on
their turns in the order in which they were written. Where a call is about to end a turn, all
that was written of its turn and bears on it was handed over, and no later prompt. -/
def Timely (session : Session) : Event → Prop
  | .write id line =>
    ∀ entry, session.newEntry? id line = some entry → (session.recordNew entry).talks = true →
      ∀ item ∈ session.sent, item.1 ≠ .closing (session.recordNew entry).turn
  | .scan (.goThrough pass) =>
    ∀ entry, session.handsOver pass = some entry →
      readableLine (lineOf entry.message) = true ∧
        (closesTurn (lineOf entry.message) = true →
          waits session.mapperState (lineOf entry.message) = false) ∧
        (talks (lineOf entry.message) = true →
          talking session.handed ++ [session.recordHanded entry] <+: talking session.written)
  | .flushed call =>
    ∀ closing, session.closings[call]? = some closing → session.isLastFlush closing = true →
      session.mapperState.turn ≠ none →
        prompts session.handed = closing.turn ∧
          ∀ entry ∈ session.written, entry.talks = true → entry.turn = closing.turn →
            entry ∈ session.handed
  | _ => True

end Session

end Kvy.Cli.Claude.StopHook
