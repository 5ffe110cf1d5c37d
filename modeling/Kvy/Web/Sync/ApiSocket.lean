import Kvy.General.Runs
import Mathlib.Data.List.Infix

/-!
# The web client's socket

One socket carries the update stream of a signed-in user. The client makes a new one for every
token it is given, forwards the socket's events to its listeners, and tells them of a
*re*connection by an event of its own.

The socket below is a third-party client that retries by itself: its transport connects, drops
and is rejected as it likes, and what it delivers arrives as events. It delivers only while it is
connected, and a socket that was torn down has no handlers left. The log keeps what a listener
sees and what is sent.
-/

namespace Kvy.Web.Sync.ApiSocket

open General

/-! ## The client -/

/-- `AppState`. -/
inductive AppState where
  | active
  | background
deriving DecidableEq

/-- `ApiSocketAuth`; the client type is always `user-scoped`. -/
structure ApiSocketAuth where
  token : Option String
  appState : AppState
deriving DecidableEq

/-- What the listeners of `on` are called with. -/
inductive Emitted (Update Ephemeral : Type) where
  | update (update : Update)
  | ephemeral (event : Ephemeral)
  | reconnect
  | connect
  | disconnect
  | authError (message : String)
deriving DecidableEq

/-- One line of the log. -/
inductive Entry (Update Ephemeral : Type) where
  /-- The transport of the current socket connected. -/
  | opened
  /-- A teardown. -/
  | tornDown
  | emitted (event : Emitted Update Ephemeral)
  | sentAppState (state : AppState)
  | sentRenewToken (token : String)
deriving DecidableEq

/-- What runs while `renewInFlight` is set: the timer's renewal, or that of a rejected handshake
with its message. -/
inductive Renewal where
  | timer
  | rejected (message : String)
deriving DecidableEq

/-- The variables of one `createApiSocket` and the log. -/
structure Client (Update Ephemeral : Type) where
  /-- The current socket and whether it is connected. -/
  socket : Option Bool
  token : Option String
  appState : AppState
  hasConnectedBefore : Bool
  /-- Whether `unsubscribeVisibility` is set. -/
  subscribed : Bool
  authExpired : Bool
  /-- Whether a timer is armed. -/
  renewTimer : Bool
  renewInFlight : Option Renewal
  /-- The `renew-token` messages with no answer yet. -/
  unacknowledged : Nat
  log : List (Entry Update Ephemeral)
deriving DecidableEq

/-- The arguments of `createApiSocket`, and the schemas of what arrives. -/
structure Setup (Raw Update Ephemeral : Type) where
  /-- Whether there is a `renew` source. -/
  renew : Bool
  updateSchema : Raw → Option Update
  ephemeralSchema : Raw → Option Ephemeral

variable {Raw Update Ephemeral : Type}

/-- The client after `createApiSocket`. -/
def createApiSocket (visibility : AppState) : Client Update Ephemeral where
  socket := none
  token := none
  appState := visibility
  hasConnectedBefore := false
  subscribed := false
  authExpired := false
  renewTimer := false
  renewInFlight := none
  unacknowledged := 0
  log := []

namespace Client

/-- One more line in the log. -/
def record (client : Client Update Ephemeral) (entry : Entry Update Ephemeral) :
    Client Update Ephemeral :=
  { client with log := client.log ++ [entry] }

/-- The listeners are called. -/
def emit (client : Client Update Ephemeral) (event : Emitted Update Ephemeral) :
    Client Update Ephemeral :=
  client.record (.emitted event)

/-- What the factory's `getAuth` gives before every attempt. -/
def getAuth (client : Client Update Ephemeral) : ApiSocketAuth where
  token := client.token
  appState := client.appState

def stopRenewTimer (client : Client Update Ephemeral) : Client Update Ephemeral :=
  { client with renewTimer := false }

def armRenewTimer (setup : Setup Raw Update Ephemeral) (client : Client Update Ephemeral) :
    Client Update Ephemeral :=
  if setup.renew then { client.stopRenewTimer with renewTimer := true } else client.stopRenewTimer

def handleConnect (setup : Setup Raw Update Ephemeral) (client : Client Update Ephemeral) :
    Client Update Ephemeral :=
  let client := if client.hasConnectedBefore then client.emit .reconnect else client
  armRenewTimer setup ({ client with hasConnectedBefore := true }.emit .connect)

def handleDisconnect (client : Client Update Ephemeral) : Client Update Ephemeral :=
  client.stopRenewTimer.emit .disconnect

/-- `socket.disconnect()`: a connected socket calls its handler at once. -/
def disconnectSocket (client : Client Update Ephemeral) : Client Update Ephemeral :=
  match client.socket with
  | some true => { client with socket := some false }.handleDisconnect
  | _ => client

def teardown (client : Client Update Ephemeral) : Client Update Ephemeral :=
  let client := client.stopRenewTimer.disconnectSocket
  { client with
    socket := none
    subscribed := false
    token := none
    hasConnectedBefore := false }.record .tornDown

/-- The handshake was refused for good. -/
def expire (client : Client Update Ephemeral) (message : String) : Client Update Ephemeral :=
  ({ client with authExpired := true }.emit (.authError message)).teardown

/-- The messages of the server's refusals, in any case: `/authentication token|Session revoked/i`. -/
def authenticationRefused (message : String) : Bool :=
  let letters := message.toList.map Char.toLower
  decide ("authentication token".toList <:+: letters) || decide ("session revoked".toList <:+: letters)

def handleConnectError (setup : Setup Raw Update Ephemeral) (client : Client Update Ephemeral)
    (message : String) : Client Update Ephemeral :=
  if authenticationRefused message then
    if setup.renew ∧ client.renewInFlight = none then
      { client with renewInFlight := some (.rejected message) }
    else client.expire message
  else client

def handleUpdate (setup : Setup Raw Update Ephemeral) (client : Client Update Ephemeral) (raw : Raw) :
    Client Update Ephemeral :=
  match setup.updateSchema raw with
  | some update => client.emit (.update update)
  | none => client

def handleEphemeral (setup : Setup Raw Update Ephemeral) (client : Client Update Ephemeral)
    (raw : Raw) : Client Update Ephemeral :=
  match setup.ephemeralSchema raw with
  | some event => client.emit (.ephemeral event)
  | none => client

/-- `connect`, with what the visibility source says. -/
def connect (client : Client Update Ephemeral) (nextToken : String) (visibility : AppState) :
    Client Update Ephemeral :=
  if client.socket.isSome ∧ client.token = some nextToken then client
  else
    { { client with authExpired := false }.teardown with
      token := some nextToken
      appState := visibility
      subscribed := true
      socket := some false }

def disconnect (client : Client Update Ephemeral) : Client Update Ephemeral := client.teardown

/-- The handler of the visibility source. -/
def visibilityChanged (client : Client Update Ephemeral) (next : AppState) :
    Client Update Ephemeral :=
  let client := { client with appState := next }
  if client.socket.isSome then client.record (.sentAppState next) else client

/-- The timer's callback until its `await`. -/
def renewTimerFired (client : Client Update Ephemeral) : Client Update Ephemeral :=
  let client := client.stopRenewTimer
  if client.socket = none ∨ client.renewInFlight ≠ none then client
  else { client with renewInFlight := some .timer }

/-- What follows a renewal, with the token it gave, if that is not empty. -/
def renewed (client : Client Update Ephemeral) (renewal : Renewal) (fresh : Option String) :
    Client Update Ephemeral :=
  let client := { client with renewInFlight := none }
  match renewal, fresh with
  | .timer, none => client
  | .timer, some fresh =>
    if client.socket = none then client
    else
      { client with token := some fresh, unacknowledged := client.unacknowledged + 1 }.record
        (.sentRenewToken fresh)
  | .rejected _, some fresh => { client with token := some fresh }
  | .rejected message, none => client.expire message

/-- A renewal that throws. -/
def renewFailed (client : Client Update Ephemeral) : Client Update Ephemeral :=
  { client with renewInFlight := none }

/-- The answer to a `renew-token` message. -/
def renewAcknowledged (setup : Setup Raw Update Ephemeral) (client : Client Update Ephemeral)
    (ok : Bool) : Client Update Ephemeral :=
  let client := { client with unacknowledged := client.unacknowledged - 1 }
  if ok then armRenewTimer setup client else client

end Client

/-! ## Steps -/

/-- What can happen to the client. -/
inductive Event (Raw : Type) where
  /-- A call of `connect`, with the state of the tab. -/
  | connect (token : String) (visibility : AppState)
  /-- A call of `disconnect`. -/
  | disconnect
  /-- The transport connects, for the first time or again. -/
  | connected
  /-- The transport drops. -/
  | dropped
  /-- An attempt to connect fails. -/
  | connectError (message : String)
  | update (raw : Raw)
  | ephemeral (raw : Raw)
  | visibility (state : AppState)
  | renewTimer
  /-- The renewal in flight ends. -/
  | renewed (fresh : Option String)
  | renewFailed
  | renewAcknowledged (ok : Bool)
deriving DecidableEq

/-- One event. -/
def step (setup : Setup Raw Update Ephemeral) (client : Client Update Ephemeral) :
    Event Raw → Option (Client Update Ephemeral)
  | .connect token visibility => some (client.connect token visibility)
  | .disconnect => some client.disconnect
  | .connected =>
    if client.socket = some false then
      some (({ client with socket := some true }.record .opened).handleConnect setup)
    else none
  | .dropped =>
    if client.socket = some true then some { client with socket := some false }.handleDisconnect
    else none
  | .connectError message =>
    if client.socket = some false then some (client.handleConnectError setup message) else none
  | .update raw => if client.socket = some true then some (client.handleUpdate setup raw) else none
  | .ephemeral raw =>
    if client.socket = some true then some (client.handleEphemeral setup raw) else none
  | .visibility state => if client.subscribed then some (client.visibilityChanged state) else none
  | .renewTimer => if client.renewTimer then some client.renewTimerFired else none
  | .renewed fresh =>
    match client.renewInFlight with
    | some renewal => some (client.renewed renewal fresh)
    | none => none
  | .renewFailed => if client.renewInFlight ≠ none then some client.renewFailed else none
  | .renewAcknowledged ok =>
    if 0 < client.unacknowledged then some (client.renewAcknowledged setup ok) else none

end Kvy.Web.Sync.ApiSocket
