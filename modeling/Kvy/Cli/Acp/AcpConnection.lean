import Kvy.General.OrderedMap
import Kvy.General.Runs

/-!
# The connection to an adapter

A connection resolves its adapter, installs it where it is missing, spawns it as a child process
and initializes the protocol; each of these waits. A disconnect, the end of a child and prompts
can come at any time in between. A call of `connect` goes on where it was, whatever has happened
meanwhile.

The protocol's library and the operating system are outside: a request settles, a child ends and
a stream closes whenever they do. Which call of `connect` no disconnect has overtaken, and whether
a disconnect was the last of both, is recorded for reference.
-/

namespace Kvy.Cli.Acp

open General

/-- `AcpConnectionState`. -/
inductive AcpConnectionState where
  | idle
  | connecting
  | ready
  | closed
deriving DecidableEq

/-- `AdapterVerifyFailureReason`. -/
inductive AdapterVerifyFailureReason where
  | notInstalled
  | versionMismatch
  | integrityMismatch
  | entryMissing
deriving DecidableEq

/-- The text of a reason. -/
def AdapterVerifyFailureReason.text : AdapterVerifyFailureReason → String
  | .notInstalled => "not-installed"
  | .versionMismatch => "version-mismatch"
  | .integrityMismatch => "integrity-mismatch"
  | .entryMissing => "entry-missing"

/-- `AdapterSpawnSpec`. -/
structure AdapterSpawnSpec where
  command : String
  args : List String
deriving DecidableEq

/-- `ResolveAdapterSpawnResult`. -/
inductive ResolveAdapterSpawnResult where
  | ok (spec : AdapterSpawnSpec)
  | failed (reason : AdapterVerifyFailureReason) (detail : Option String)

/-- `AdapterInstallOutcome`. -/
inductive AdapterInstallOutcome where
  | ok
  | failed (error : String)

/-- What `spawn` does: it throws, or makes a child with pipes or without. -/
inductive Spawned where
  | throws (message : String)
  | unpiped
  | piped

/-- Where a call of `connect` is suspended, or how it has ended. -/
inductive ConnectPhase where
  | resolving (again : Bool)
  | installing
  | initializing (child : Nat)
  | settled (error : Option String)
deriving DecidableEq

/-- A child process: what it was spawned with, whether it runs, whether it was sent a signal. -/
structure AdapterChild where
  spec : AdapterSpawnSpec
  alive : Bool
  killed : Bool
deriving DecidableEq

/-- A call of `prompt`, with its session, the connection it was sent over and its controller. -/
structure PromptCall where
  sessionId : String
  connection : Nat
  aborted : Bool
  settled : Bool
deriving DecidableEq

/-- `AcpConnection`, and the calls and children that it has made. -/
structure AcpConnection where
  adapterId : String
  state : AcpConnectionState
  connection : Option Nat
  process : Option Nat
  disconnecting : Bool
  promptControllers : OrderedMap String Nat
  reported : List String
  connects : List ConnectPhase
  children : List AdapterChild
  prompts : List PromptCall
  current : Option Nat
  ended : Bool

namespace AcpConnection

/-- A new connection. -/
def create (adapterId : String) : AcpConnection where
  adapterId := adapterId
  state := .idle
  connection := none
  process := none
  disconnecting := false
  promptControllers := .empty
  reported := []
  connects := []
  children := []
  prompts := []
  current := none
  ended := false

/-! ## Connecting -/

/-- A call of `connect` goes on. -/
def goOn (held : AcpConnection) (call : Nat) (phase : ConnectPhase) : AcpConnection :=
  { held with connects := held.connects.set call phase }

/-- A call of `connect` ends; no disconnect can overtake it any more. -/
def settle (held : AcpConnection) (call : Nat) (error : Option String) : AcpConnection :=
  { held.goOn call (.settled error) with
    current := if held.current = some call then none else held.current }

/-- A call of `connect` throws an error of the connection's own. -/
def refuse (held : AcpConnection) (call : Nat) (error : String) : AcpConnection :=
  { held with state := .closed }.settle call (some error)

/-- Send a signal to a child that runs, if none was sent. -/
def kill (held : AcpConnection) (child : Nat) : AcpConnection :=
  { held with children := held.children.modify child (fun process =>
      if process.alive then { process with killed := true } else process) }

/-- `connect`, up to its first await. -/
def connect (held : AcpConnection) : AcpConnection :=
  if held.state = .connecting ∨ held.state = .ready then { held with ended := false }
  else
    { held with
      state := .connecting
      disconnecting := false
      connects := held.connects ++ [.resolving false]
      current := some held.connects.length
      ended := false }

/-- The adapter is spawned. -/
def spawn (held : AcpConnection) (call : Nat) (spec : AdapterSpawnSpec) : Spawned → AcpConnection
  | .throws message => held.settle call (some message)
  | .unpiped =>
    { held with children := held.children ++ [AdapterChild.mk spec true true] }.refuse call
      "ACP adapter child process did not provide piped stdio"
  | .piped =>
    { held with
      children := held.children ++ [AdapterChild.mk spec true false]
      process := some held.children.length
      connection := some held.children.length }.goOn call (.initializing held.children.length)

/-- `resolveSpawn` has settled. -/
def afterResolve (held : AcpConnection) (call : Nat) (again : Bool) (spawned : Spawned) :
    Except String ResolveAdapterSpawnResult → AcpConnection
  | .error message => held.settle call (some message)
  | .ok (.ok spec) => held.spawn call spec spawned
  | .ok (.failed reason detail) =>
    if !again && reason = .notInstalled then held.goOn call .installing
    else
      held.refuse call ("ACP adapter \"" ++ held.adapterId ++ "\" is not usable (" ++ reason.text ++
        ")" ++ ((detail.filter (· ≠ "")).elim "" (": " ++ ·)))

/-- `installAdapter` has settled. -/
def afterInstall (held : AcpConnection) (call : Nat) :
    Except String AdapterInstallOutcome → AcpConnection
  | .error message => held.settle call (some message)
  | .ok .ok => held.goOn call (.resolving true)
  | .ok (.failed error) =>
    held.refuse call ("ACP adapter \"" ++ held.adapterId ++
      "\" is not installed and auto-install failed: " ++ error)

/-- The `initialize` request has settled. -/
def afterInitialize (held : AcpConnection) (call child : Nat) : Except String Unit → AcpConnection
  | .ok () => { held with state := .ready }.settle call none
  | .error message =>
    ({ held with
      connection := none
      process := if held.process = some child then none else held.process }.kill child).refuse call
        ("Failed to connect to ACP adapter: " ++ message)

/-! ## Disconnecting -/

/-- Abort all prompts that are under way and forget them. -/
def abortPrompts (held : AcpConnection) : AcpConnection :=
  { held with
    prompts := held.promptControllers.entries.foldl
      (fun prompts (_, index) => prompts.modify index (fun call => { call with aborted := true }))
      held.prompts
    promptControllers := .empty }

/-- `disconnect`. -/
def disconnect (held : AcpConnection) : AcpConnection :=
  let ended := { held with current := none, ended := true }
  if held.state = .closed ∧ held.process = none then ended
  else
    let closed := { ended.abortPrompts with
      disconnecting := true
      state := .closed
      connection := none
      process := none }
    held.process.elim closed closed.kill

/-- `handleUnexpectedClose`. -/
def handleUnexpectedClose (held : AcpConnection) (child : Nat) (detail : String) : AcpConnection :=
  if held.process ≠ some child ∨ held.disconnecting = true ∨ held.state ≠ .ready then held
  else
    { held.abortPrompts with
      state := .closed
      process := none
      connection := none
      reported := held.reported ++ [detail] }

/-! ## Prompts -/

/-- `requireReady`. -/
def requireReady (held : AcpConnection) : Option Nat :=
  if held.state = .ready then held.connection else none

/-- `prompt`, up to its await; it may throw at once. -/
def prompt (held : AcpConnection) (sessionId : String) : AcpConnection :=
  match held.requireReady with
  | none => held
  | some connection =>
    if held.promptControllers.has sessionId then held
    else
      { held with
        promptControllers := held.promptControllers.set sessionId held.prompts.length
        prompts := held.prompts ++ [PromptCall.mk sessionId connection false false] }

/-- A prompt has settled; its `finally` runs. -/
def settlePrompt (held : AcpConnection) (index : Nat) (sessionId : String) : AcpConnection :=
  { held with
    prompts := held.prompts.modify index (fun call => { call with settled := true })
    promptControllers := held.promptControllers.delete sessionId }

/-- `cancel`. -/
def cancel (held : AcpConnection) (sessionId : String) : AcpConnection :=
  match held.requireReady, held.promptControllers.get? sessionId with
  | some _, some index =>
    { held with prompts := held.prompts.modify index (fun call => { call with aborted := true }) }
  | _, _ => held

/-! ## What can happen -/

/-- What can happen: a call, the settling of something awaited, the end of a child, or the event
of an exit, of an error or of a closed stream. -/
inductive ConnectionEvent where
  | connect
  | resolved (call : Nat) (result : Except String ResolveAdapterSpawnResult) (spawned : Spawned)
  | installed (call : Nat) (result : Except String AdapterInstallOutcome)
  | initialized (call : Nat) (result : Except String Unit)
  | disconnect
  | die (child : Nat)
  | exit (child : Nat) (detail : String)
  | fail (child : Nat) (detail : String)
  | prompt (sessionId : String)
  | settlePrompt (index : Nat)
  | cancel (sessionId : String)

/-- One step. -/
def step (held : AcpConnection) : ConnectionEvent → Option AcpConnection
  | .connect => some held.connect
  | .resolved call result spawned =>
    match held.connects[call]? with
    | some (.resolving again) => some (held.afterResolve call again spawned result)
    | _ => none
  | .installed call result =>
    match held.connects[call]? with
    | some .installing => some (held.afterInstall call result)
    | _ => none
  | .initialized call result =>
    match held.connects[call]? with
    | some (.initializing child) => some (held.afterInitialize call child result)
    | _ => none
  | .disconnect => some held.disconnect
  | .die child =>
    some { held with
      children := held.children.modify child (fun process => { process with alive := false }) }
  | .exit child detail =>
    match held.children[child]? with
    | some process => if process.alive then none else some (held.handleUnexpectedClose child detail)
    | none => none
  | .fail child detail =>
    if child < held.children.length then some (held.handleUnexpectedClose child detail) else none
  | .prompt sessionId => some (held.prompt sessionId)
  | .settlePrompt index =>
    match held.prompts[index]? with
    | some call => if call.settled then none else some (held.settlePrompt index call.sessionId)
    | none => none
  | .cancel sessionId => some (held.cancel sessionId)

/-! ## What a connection is for -/

/-- Whether a call of `connect` is suspended. -/
def isSuspended : ConnectPhase → Bool
  | .settled _ => false
  | _ => true

/-- The calls of `prompt` for a session that are in flight. -/
def inFlight (held : AcpConnection) (sessionId : String) : Nat :=
  held.prompts.countP (fun call => call.sessionId = sessionId && !call.settled)

/-- No adapter is left behind, no two run together, and no two prompts of a session do. -/
structure Tidy (held : AcpConnection) : Prop where
  never_ready : held.ended = true → held.state ≠ .ready
  closed : held.ended = true → (∀ phase ∈ held.connects, isSuspended phase = false) →
    held.state = .closed ∧ ∀ child ∈ held.children, child.alive = true → child.killed = true
  one_child : held.children.countP AdapterChild.alive ≤ 1
  one_prompt : ∀ sessionId, held.inFlight sessionId ≤ 1

/-! ## When it works -/

/-- All children that were sent a signal have ended. -/
def Reaped (held : AcpConnection) : Prop :=
  ∀ child ∈ held.children, child.killed = true → child.alive = false

/-- A call of `connect` may close the connection: no disconnect has overtaken it, or no later call
has connected or is about to. -/
def MayClose (held : AcpConnection) (call : Nat) : Prop :=
  held.current = some call ∨ held.current = none ∧ held.state ≠ .ready

/-- The step finds what its call left. A call of `connect` that a disconnect has overtaken does not
go on to a child or to its session, nor close what a later call has opened; a child is spawned
when those before it have ended; a stream closes when its child has ended; and a prompt is sent
when those for its session that were dropped have settled. -/
def Undisturbed (held : AcpConnection) : ConnectionEvent → Prop
  | .resolved call (.ok (.ok _)) .piped => held.current = some call ∧ held.Reaped
  | .resolved call (.ok (.ok _)) .unpiped => held.MayClose call ∧ held.Reaped
  | .resolved call (.ok (.failed reason _)) _ =>
    held.MayClose call ∨ reason = .notInstalled ∧ held.connects[call]? = some (.resolving false)
  | .installed call (.ok (.failed _)) => held.MayClose call
  | .initialized call (.ok ()) => held.current = some call
  | .initialized call (.error _) => held.MayClose call
  | .fail child _ => ∀ process, held.children[child]? = some process → process.alive = true →
      held.process ≠ some child ∨ held.disconnecting = true ∨ held.state ≠ .ready
  | .prompt sessionId =>
    held.promptControllers.has sessionId = true ∨
      ∀ call ∈ held.prompts, call.sessionId = sessionId → call.settled = true
  | _ => True

end AcpConnection

end Kvy.Cli.Acp
