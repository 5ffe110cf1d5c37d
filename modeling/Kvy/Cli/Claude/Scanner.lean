import Kvy.Cli.Claude.TranscriptEntries
import Kvy.General.Runs

/-!
# The transcript scanner

A pass reads the transcripts of the sessions it has collected, one after the other, and hands
over each entry whose key is new. Passes are asked for by a poll, by watchers and by `flush`;
one that is asked for while another runs is taken up when that one ends. `cleanup` stops the
scanner and runs one last pass.

What is suspended is part of the state: the passes, the flushes and cleanups with the promise
they wait for, and the announcements that read a transcript first. A promise is the number of
a call of `runSyncCoalesced`; it is settled when no pass of that call is left.
-/

namespace Kvy.Cli.Claude

open General

/-- Who runs a pass. -/
inductive PassOwner where
  | creation
  | call (promise : Nat)
  | cleanup
deriving DecidableEq

/-- A `runSync` that is suspended: the sessions it has collected, those it has not read yet, what
it has read of each of the others, and the lines that it has not gone through. -/
structure Pass where
  owner : PassOwner
  sessions : List String
  unread : List String
  read : List (String × List UInt8)
  lines : List ReadLine
deriving DecidableEq

/-- A `flush` waits for another pass in its loop, or for its own. -/
inductive FlushPhase where
  | waiting
  | syncing
deriving DecidableEq

/-- A `flush` that is suspended, and the promise it waits for. -/
structure Flush where
  phase : FlushPhase
  promise : Option Nat
deriving DecidableEq

/-- A line that was gone through, either to hand over its entry or to mark its key. -/
structure Reading where
  line : ReadLine
  handed : Bool

/-- The state of `createSessionScanner`. -/
structure Scanner where
  created : Bool
  finishedSessions : List String
  pendingSessions : List String
  watchers : List String
  processedEntryKeys : List String
  deadSessions : List String
  currentSessionId : Option String
  hookConfirmed : Bool
  fallbackArmedUntil : Nat
  running : Bool
  rerunRequested : Bool
  stopped : Bool
  currentSyncPromise : Option Nat
  promises : Nat
  passes : List Pass
  flushes : List Flush
  cleanups : List Nat
  announces : List String
  messages : List RawJSONLines
  readings : List Reading

/-- Add to a set. -/
def addToSet (item : String) (items : List String) : List String :=
  if item ∈ items then items else items ++ [item]

/-- A pass that has read the transcript of a session. -/
def Pass.reads (pass : Pass) (session : String) (unread : List String) (contents : List UInt8) : Pass :=
  { pass with
    unread
    read := pass.read ++ [(session, contents)]
    lines := linesOf session contents }

namespace Scanner

/-- No pass of the call is left. -/
def Settled (scanner : Scanner) : Option Nat → Prop
  | none => True
  | some promise => ∀ pass ∈ scanner.passes, pass.owner ≠ .call promise

instance (scanner : Scanner) : (promise : Option Nat) → Decidable (scanner.Settled promise)
  | none => Decidable.isTrue trivial
  | some promise =>
    inferInstanceAs (Decidable (∀ pass ∈ scanner.passes, pass.owner ≠ .call promise))

/-! ## A pass -/

/-- The current session, where it has a name. -/
def current? (scanner : Scanner) : Option String := scanner.currentSessionId.filter (· ≠ "")

/-- The sessions that `runSync` collects. -/
def sessionsToScan (scanner : Scanner) : List String :=
  let alive (id : String) : Bool := id ∉ scanner.deadSessions
  let sessions := scanner.pendingSessions.filter alive ++
    (scanner.current?.filter
      (fun id => id ∉ scanner.pendingSessions && alive id)).toList
  scanner.watchers.foldl
    (fun sessions id => if id ∉ sessions && alive id then sessions ++ [id] else sessions) sessions

/-- `runSync`, up to its first read. -/
def runSync (scanner : Scanner) (owner : PassOwner) : Scanner :=
  { scanner with
    passes := scanner.passes ++ [⟨owner, scanner.sessionsToScan, scanner.sessionsToScan, [], []⟩] }

/-- An entry that is read. -/
def deliver (scanner : Scanner) (entry : Entry) : Scanner :=
  if entry.key ∈ scanner.processedEntryKeys then scanner
  else
    { scanner with
      processedEntryKeys := scanner.processedEntryKeys ++ [entry.key]
      messages := scanner.messages ++ [entry.message] }

/-- An entry that the caller already has. -/
def markProcessed (scanner : Scanner) (entry : Entry) : Scanner :=
  { scanner with processedEntryKeys := addToSet entry.key scanner.processedEntryKeys }

/-- Go through a line. -/
def goThrough (scanner : Scanner) (reading : Reading) : Scanner :=
  let read := match reading.line.entry? with
    | none => scanner
    | some entry => if reading.handed then scanner.deliver entry else scanner.markProcessed entry
  { read with readings := read.readings ++ [reading] }

/-- Mark what is on disk for a session. -/
def markExisting (scanner : Scanner) (session : String) (contents : List UInt8) : Scanner :=
  ((linesOf session contents).map (fun line => ⟨line, false⟩)).foldl goThrough scanner

/-- What `runSync` does after its reads. -/
def finishSync (scanner : Scanner) (sessions : List String) : Scanner :=
  let finished := sessions.filter (· ∈ scanner.pendingSessions)
  { scanner with
    pendingSessions := scanner.pendingSessions.filter (· ∉ sessions)
    finishedSessions := finished.foldl (fun held id => addToSet id held) scanner.finishedSessions
    watchers := sessions.foldl
      (fun held id => if id ∈ scanner.deadSessions then held else addToSet id held)
      scanner.watchers }

/-! ## The guard -/

/-- `runSyncCoalesced`, up to its first suspension. -/
def runSyncCoalesced (scanner : Scanner) (promise : Nat) : Scanner :=
  if scanner.stopped then scanner else scanner.runSync (.call promise)

/-- Set `running` and call `runSyncCoalesced`. -/
def startSync (scanner : Scanner) : Scanner :=
  { scanner with
    running := true
    currentSyncPromise := some scanner.promises
    promises := scanner.promises + 1 }.runSyncCoalesced scanner.promises

/-- `invalidate`. -/
def invalidate (scanner : Scanner) : Scanner :=
  if scanner.stopped then scanner
  else if scanner.running then { scanner with rerunRequested := true }
  else scanner.startSync

/-- The loop of `flush`, from its test to the next suspension. -/
def flushLoop (scanner : Scanner) : Scanner :=
  if scanner.running then
    { scanner with
      rerunRequested := true
      flushes := scanner.flushes ++ [⟨.waiting, scanner.currentSyncPromise⟩] }
  else
    { scanner.startSync with
      flushes := scanner.flushes ++ [⟨.syncing, scanner.startSync.currentSyncPromise⟩] }

/-- `flush`. -/
def flush (scanner : Scanner) : Scanner := if scanner.stopped then scanner else scanner.flushLoop

/-- A flush whose promise is settled. -/
def resumeFlush (scanner : Scanner) (flush : Flush) : Scanner :=
  let resumed := { scanner with flushes := scanner.flushes.erase flush }
  match flush.phase with
  | .waiting => resumed.flushLoop
  | .syncing => resumed

/-- `cleanup`, up to its first suspension. -/
def cleanup (scanner : Scanner) : Scanner :=
  let stopping := { scanner with stopped := true }
  match scanner.currentSyncPromise with
  | some promise => { stopping with cleanups := scanner.cleanups ++ [promise] }
  | none => stopping.runSync .cleanup

/-- What runs where a pass has returned or failed. -/
def afterSync (scanner : Scanner) : PassOwner → Scanner
  | .creation => { scanner with created := true }
  | .call promise =>
    if scanner.rerunRequested && !scanner.stopped then
      { scanner with rerunRequested := false }.runSyncCoalesced promise
    else { scanner with running := false }
  | .cleanup => { scanner with watchers := [] }

/-! ## Sessions -/

/-- The end of `announceNewSession`. -/
def switchTo (scanner : Scanner) (session : String) : Scanner :=
  { scanner with
    pendingSessions := match scanner.current? with
      | some id => addToSet id scanner.pendingSessions
      | none => scanner.pendingSessions
    currentSessionId := some session }.invalidate

/-- `announceNewSession`, up to its read. -/
def announceNewSession (scanner : Scanner) (session : String) (treatExistingAsProcessed hook : Bool) :
    Scanner :=
  if scanner.currentSessionId = some session then scanner
  else
    let revived := if hook then
        { scanner with deadSessions := scanner.deadSessions.filter (· ≠ session) }
      else scanner
    if session ∈ scanner.finishedSessions || session ∈ scanner.pendingSessions then revived
    else if treatExistingAsProcessed then
      { revived with announces := scanner.announces ++ [session] }
    else revived.switchTo session

/-- `onNewSession`. -/
def onNewSession (scanner : Scanner) (session : String) (treatExistingAsProcessed : Bool) : Scanner :=
  { scanner with hookConfirmed := true }.announceNewSession session treatExistingAsProcessed true

/-- A transcript that appears in the project directory. -/
def onNewFile (scanner : Scanner) (session : String) (now : Nat) : Scanner :=
  if scanner.stopped || scanner.currentSessionId = some session ||
      decide (scanner.fallbackArmedUntil < now) || scanner.hookConfirmed then scanner
  else scanner.announceNewSession session false false

/-- `onGaveUp`: the transcript of a watched session never appeared. -/
def onGaveUp (scanner : Scanner) (session : String) (armedUntil : Nat) : Scanner :=
  { scanner with
    watchers := scanner.watchers.filter (· ≠ session)
    deadSessions := addToSet session scanner.deadSessions
    pendingSessions := scanner.pendingSessions.filter (· ≠ session)
    fallbackArmedUntil := armedUntil }

/-- The variables of `createSessionScanner` at first. -/
def initial (hookConfirmed : Bool) (armedUntil : Nat) : Scanner where
  created := false
  finishedSessions := []
  pendingSessions := []
  watchers := []
  processedEntryKeys := []
  deadSessions := []
  currentSessionId := none
  hookConfirmed := hookConfirmed
  fallbackArmedUntil := armedUntil
  running := false
  rerunRequested := false
  stopped := false
  currentSyncPromise := none
  promises := 0
  passes := []
  flushes := []
  cleanups := []
  announces := []
  messages := []
  readings := []

/-- `createSessionScanner`, up to the reads of its first pass. -/
def create (sessionId : Option String) (armedUntil : Nat) (existing : List UInt8) : Scanner :=
  let opened := initial sessionId.isSome armedUntil
  match sessionId.filter (· ≠ "") with
  | some session =>
    { opened.markExisting session existing with currentSessionId := some session }.runSync .creation
  | none => opened.runSync .creation

/-! ## What can happen -/

/-- What can happen to a scanner. A read returns the bytes that are there so far. -/
inductive Event where
  | invalidate
  | flush
  | resumeFlush (flush : Flush)
  | cleanup
  | resumeCleanup (promise : Nat)
  | onNewSession (session : String) (treatExistingAsProcessed : Bool)
  | onNewFile (session : String) (now : Nat)
  | onGaveUp (session : String) (armedUntil : Nat)
  | resumeAnnounce (session : String) (contents : List UInt8)
  | read (pass : Pass) (contents : List UInt8)
  | goThrough (pass : Pass)
  | finish (pass : Pass)
  | fail (pass : Pass)

/-- Put what is left of a pass in its place. -/
def keepPass (scanner : Scanner) (pass left : Pass) : Scanner :=
  { scanner with passes := scanner.passes.erase pass ++ [left] }

/-- A pass is over. -/
def endPass (scanner : Scanner) (pass : Pass) : Scanner :=
  { scanner with passes := scanner.passes.erase pass }.afterSync pass.owner

/-- A step of what is suspended. Only what was written to a transcript can be read. -/
def resume (transcripts : String → List UInt8) (scanner : Scanner) : Event → Option Scanner
  | .resumeFlush flush =>
    if flush ∈ scanner.flushes ∧ scanner.Settled flush.promise then some (scanner.resumeFlush flush)
    else none
  | .resumeCleanup promise =>
    if promise ∈ scanner.cleanups ∧ scanner.Settled (some promise) then
      some ({ scanner with cleanups := scanner.cleanups.erase promise }.runSync .cleanup)
    else none
  | .resumeAnnounce session contents =>
    if session ∈ scanner.announces ∧ contents <+: transcripts session then
      some (({ scanner with announces := scanner.announces.erase session }.markExisting session
        contents).switchTo session)
    else none
  | .read pass contents =>
    match pass.lines, pass.unread with
    | [], session :: unread =>
      if pass ∈ scanner.passes ∧ contents <+: transcripts session then
        some (scanner.keepPass pass (pass.reads session unread contents))
      else none
    | _, _ => none
  | .goThrough pass =>
    match pass.lines with
    | line :: lines =>
      if pass ∈ scanner.passes then
        some ((scanner.goThrough ⟨line, true⟩).keepPass pass { pass with lines })
      else none
    | [] => none
  | .finish pass =>
    if pass ∈ scanner.passes ∧ pass.lines = [] ∧ pass.unread = [] then
      some ((scanner.finishSync pass.sessions).endPass pass)
    else none
  | .fail pass =>
    if pass ∈ scanner.passes ∧ pass.owner ≠ .creation then some (scanner.endPass pass) else none
  | _ => none

/-- A call from the outside or an event of the file system. -/
def called (scanner : Scanner) : Event → Option Scanner
  | .invalidate => if scanner.created then some scanner.invalidate else none
  | .flush => if scanner.created then some scanner.flush else none
  | .cleanup => if scanner.created then some scanner.cleanup else none
  | .onNewSession session treatExistingAsProcessed =>
    if scanner.created then some (scanner.onNewSession session treatExistingAsProcessed) else none
  | .onNewFile session now => if scanner.created then some (scanner.onNewFile session now) else none
  | .onGaveUp session armedUntil =>
    if session ∈ scanner.watchers then some (scanner.onGaveUp session armedUntil) else none
  | _ => none

/-- A call, or a step of what is suspended. -/
def step (transcripts : String → List UInt8) (scanner : Scanner) (event : Event) : Option Scanner :=
  (scanner.called event).or (scanner.resume transcripts event)

/-! ## What a suspended step can be -/

/-- The steps of what is suspended. -/
inductive Resumed (transcripts : String → List UInt8) (scanner : Scanner) : Scanner → Prop where
  | flush {flush : Flush} (member : flush ∈ scanner.flushes)
      (settled : scanner.Settled flush.promise) :
      Resumed transcripts scanner (scanner.resumeFlush flush)
  | cleanup {promise : Nat} (member : promise ∈ scanner.cleanups)
      (settled : scanner.Settled (some promise)) :
      Resumed transcripts scanner
        ({ scanner with cleanups := scanner.cleanups.erase promise }.runSync .cleanup)
  | announce {session : String} {contents : List UInt8} (member : session ∈ scanner.announces)
      (written : contents <+: transcripts session) :
      Resumed transcripts scanner
        (({ scanner with announces := scanner.announces.erase session }.markExisting session
          contents).switchTo session)
  | read {pass : Pass} {session : String} {unread : List String} {contents : List UInt8}
      (member : pass ∈ scanner.passes) (done : pass.lines = [])
      (next : pass.unread = session :: unread) (written : contents <+: transcripts session) :
      Resumed transcripts scanner
        (scanner.keepPass pass (pass.reads session unread contents))
  | goThrough {pass : Pass} {line : ReadLine} {lines : List ReadLine}
      (member : pass ∈ scanner.passes) (next : pass.lines = line :: lines) :
      Resumed transcripts scanner
        ((scanner.goThrough ⟨line, true⟩).keepPass pass { pass with lines })
  | finish {pass : Pass} (member : pass ∈ scanner.passes) (done : pass.lines = [])
      (last : pass.unread = []) :
      Resumed transcripts scanner ((scanner.finishSync pass.sessions).endPass pass)
  | fail {pass : Pass} (member : pass ∈ scanner.passes) (owner : pass.owner ≠ .creation) :
      Resumed transcripts scanner (scanner.endPass pass)

/-- Every step of what is suspended is one of these. -/
theorem resumed_of_resume {transcripts : String → List UInt8} {scanner next : Scanner}
    {event : Event} (taken : scanner.resume transcripts event = some next) :
    Resumed transcripts scanner next := by
  cases event with
  | resumeFlush flush =>
    obtain ⟨⟨member, settled⟩, ⟨⟩⟩ := Option.ite_none_right_eq_some.mp taken
    exact .flush member settled
  | resumeCleanup promise =>
    obtain ⟨⟨member, settled⟩, ⟨⟩⟩ := Option.ite_none_right_eq_some.mp taken
    exact .cleanup member settled
  | resumeAnnounce session contents =>
    obtain ⟨⟨member, written⟩, ⟨⟩⟩ := Option.ite_none_right_eq_some.mp taken
    exact .announce member written
  | read pass contents =>
    simp only [resume] at taken
    split at taken
    · rename_i session unread done nextRead
      obtain ⟨⟨member, written⟩, ⟨⟩⟩ := Option.ite_none_right_eq_some.mp taken
      exact .read member done nextRead written
    · exact absurd taken (Option.some_ne_none next).symm
  | goThrough pass =>
    simp only [resume] at taken
    split at taken
    · rename_i line lines nextLine
      obtain ⟨member, ⟨⟩⟩ := Option.ite_none_right_eq_some.mp taken
      exact .goThrough member nextLine
    · exact absurd taken (Option.some_ne_none next).symm
  | finish pass =>
    obtain ⟨⟨member, done, last⟩, ⟨⟩⟩ := Option.ite_none_right_eq_some.mp taken
    exact .finish member done last
  | fail pass =>
    obtain ⟨⟨member, owner⟩, ⟨⟩⟩ := Option.ite_none_right_eq_some.mp taken
    exact .fail member owner
  | _ => exact absurd taken (Option.some_ne_none next).symm

theorem step_cases {transcripts : String → List UInt8} {scanner next : Scanner} {event : Event}
    (taken : scanner.step transcripts event = some next) :
    scanner.called event = some next ∨ Resumed transcripts scanner next := by
  rcases Option.or_eq_some_iff.mp taken with called | ⟨_, resumed⟩
  · exact .inl called
  · exact .inr (resumed_of_resume resumed)

end Scanner

end Kvy.Cli.Claude
