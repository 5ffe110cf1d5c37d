import Kvy.General.KeyedRows
import Kvy.Server.App.Api.Pair

/-!
# Sharing keys between devices

A signed-in device without keys asks another device of the account for a copy. The four routes
share the `key_requests` table, which has one row for an account and an ephemeral public key.
Each statement is atomic, and between two statements of one call anything else may happen.

A request that is made again overwrites its row. What the row holds is therefore named by the
number of the upsert that wrote it, which no statement reads.
-/

namespace Kvy.Server.App.KeyRequests

open General Function

/-- `X25519_PUBLIC_KEY_BYTES`. -/
def x25519PublicKeyBytes : Nat := 32

/-- `KEY_REQUEST_TTL_MS`. -/
def keyRequestTtlMs : Nat := 5 * 60 * 1000

def isValidEphPub (ephPub : String) : Bool :=
  (Pair.decodeBase64 ephPub).length = x25519PublicKeyBytes

/-- A row of `key_requests`, with the number of the upsert that wrote it. -/
structure KeyRequest where
  accountId : String
  ephPub : String
  requestedBySessionId : String
  label : Option String
  response : Option (List UInt8)
  approvedBySessionId : Option String
  createdAt : Nat
  expiresAt : Nat
  raising : Nat
deriving DecidableEq

/-- The columns of the unique index. -/
def KeyRequest.key (row : KeyRequest) : String × String := (row.accountId, row.ephPub)

/-- The table. -/
structure Table where
  rows : List KeyRequest
  keys : (rows.map KeyRequest.key).Nodup

namespace Table

/-- No rows. -/
def empty : Table := ⟨[], List.nodup_nil⟩

/-- The row of an account and a key. -/
def get? (table : Table) (accountId ephPub : String) : Option KeyRequest :=
  Keyed.find? KeyRequest.key (accountId, ephPub) table.rows

/-- The rows that meet a condition. -/
def filter (table : Table) (test : KeyRequest → Bool) : Table where
  rows := table.rows.filter test
  keys := (List.filter_sublist.map KeyRequest.key).nodup table.keys

/-- A row in the place of the one with its key. -/
def put (table : Table) (row : KeyRequest) : Table where
  rows := Keyed.upsert KeyRequest.key row table.rows
  keys := Keyed.nodup_upsert KeyRequest.key row table.keys

/-- Delete a row. -/
def drop (table : Table) (accountId ephPub : String) : Table where
  rows := Keyed.delete KeyRequest.key (accountId, ephPub) table.rows
  keys := Keyed.nodup_delete KeyRequest.key (accountId, ephPub) table.keys

/-- `delete … where expires_at < now`. -/
def sweep (table : Table) (now : Nat) : Table := table.filter (fun row => ¬ row.expiresAt < now)

/-- `insert … onConflictDoUpdate`: the time of creation stays. -/
def upsert (table : Table) (row : KeyRequest) : Table :=
  table.put
    { row with
      createdAt := ((table.get? row.accountId row.ephPub).map KeyRequest.createdAt).getD
        row.createdAt }

/-- The row that an approval updates: not answered, not expired and not the approver's own. -/
def approvable (table : Table) (accountId ephPub sessionId : String) (now : Nat) :
    Option KeyRequest :=
  (table.get? accountId ephPub).filter (fun row =>
    row.response.isNone && decide (now < row.expiresAt) &&
      decide (row.requestedBySessionId ≠ sessionId))

/-- The row of a request that a session raised. -/
def raisedBy (table : Table) (accountId ephPub sessionId : String) : Option KeyRequest :=
  (table.get? accountId ephPub).filter (fun row => decide (row.requestedBySessionId = sessionId))

/-- The row that a pickup deletes. -/
def claimable (table : Table) (accountId ephPub sessionId : String) : Option KeyRequest :=
  (table.raisedBy accountId ephPub sessionId).filter (fun row => row.response.isSome)

/-- The rows that are listed for an account. -/
def pending (table : Table) (accountId : String) (now : Nat) : List KeyRequest :=
  table.rows.filter (fun row =>
    decide (row.accountId = accountId) && row.response.isNone && decide (now < row.expiresAt))

end Table

/-- The columns of `device_sessions` that are listed. -/
structure DeviceSession where
  id : String
  accountId : String
  clientKind : String
  createdAt : Nat
deriving DecidableEq

/-- A listed request, with what the server knows of the session that raised it. -/
structure Listed where
  ephPub : String
  label : Option String
  createdAt : Nat
  requesterClientKind : Option String
  requesterCreatedAt : Option Nat
deriving DecidableEq

/-- `byId.get(row.requestedBySessionId)`: the last session with the identifier. -/
def listed (sessions : List DeviceSession) (row : KeyRequest) : Listed :=
  let requester := sessions.reverse.find? (fun session => session.id = row.requestedBySessionId)
  { ephPub := row.ephPub
    label := row.label
    createdAt := row.createdAt
    requesterClientKind := requester.map DeviceSession.clientKind
    requesterCreatedAt := requester.map DeviceSession.createdAt }

/-- A body of a reply; the response is written as base64. -/
inductive Reply where
  | success
  | requests (requests : List Listed)
  | pending
  | expired
  | ready (response : List UInt8)
  | error (status : Nat) (error : String)
deriving DecidableEq

/-- What a call waits for: a statement, or the handler to go on with its result. -/
inductive Stage where
  /-- `POST /v1/keys/request`: the sweep and the upsert, with the time read before both. -/
  | sweeping (ephPub : String) (label : Option String) (now : Nat)
  | upserting (ephPub : String) (label : Option String) (now : Nat)
  /-- `GET /v1/keys/requests`: the rows, and the sessions with the rows found. -/
  | listing (now : Nat)
  | joining (rows : List KeyRequest)
  /-- `POST /v1/keys/request/approve`: the update, with the time read before it. -/
  | approving (ephPub response : String) (now : Nat)
  /-- `POST /v1/keys/request/claim`: the pickup and what it returned, the read and what it
  returned. -/
  | picking (ephPub : String)
  | picked (ephPub : String) (row : Option KeyRequest)
  | reading (ephPub : String)
  | read (row : Option KeyRequest)
  | answered (reply : Reply)
deriving DecidableEq

/-- The rows that a call holds. -/
def Stage.rows : Stage → List KeyRequest
  | .joining rows => rows
  | .picked _ row | .read row => row.toList
  | _ => []

/-- A call of an authenticated session. -/
structure Call where
  accountId : String
  sessionId : String
  stage : Stage
deriving DecidableEq

/-- What happened to the rows. -/
inductive Entry where
  /-- A request was raised, and the devices of the account were told. -/
  | raised (raising : Nat) (accountId ephPub sessionId : String) (label : Option String)
  | approved (raising : Nat) (sessionId : String) (response : List UInt8)
  /-- A call has deleted the row. -/
  | taken (raising call : Nat)
  /-- A call has answered with the response. -/
  | delivered (raising call : Nat) (sessionId : String) (response : List UInt8)
      (now expiresAt : Nat)
deriving DecidableEq

/-- The time, the tables, the account of every session that was ever issued, the number of the
next upsert, the calls and what happened. -/
structure Sharing where
  now : Nat
  keyRequests : Table
  deviceSessions : List DeviceSession
  accountOf : String → Option String
  next : Nat
  calls : Nat → Option Call
  log : List Entry

/-- Empty tables. -/
def start : Sharing where
  now := 0
  keyRequests := .empty
  deviceSessions := []
  accountOf := fun _ => none
  next := 0
  calls := fun _ => none
  log := []

namespace Sharing

/-- A call goes on to wait for something else. -/
def await (sharing : Sharing) (index : Nat) (call : Call) (stage : Stage) : Sharing :=
  { sharing with calls := update sharing.calls index (some { call with stage := stage }) }

/-- A line of the log. -/
def note (sharing : Sharing) (entry : Entry) : Sharing :=
  { sharing with log := sharing.log ++ [entry] }

/-- A call comes with a valid access token. -/
def receive (sharing : Sharing) (index : Nat) (sessionId : String) (stage : Stage) :
    Option Sharing :=
  match sharing.calls index, sharing.accountOf sessionId with
  | none, some accountId =>
    some { sharing with calls := update sharing.calls index (some ⟨accountId, sessionId, stage⟩) }
  | _, _ => none

/-- The upsert of a request. -/
def raise (sharing : Sharing) (accountId sessionId ephPub : String) (label : Option String)
    (now : Nat) : Sharing :=
  { sharing with
    keyRequests := sharing.keyRequests.upsert
      { accountId := accountId
        ephPub := ephPub
        requestedBySessionId := sessionId
        label := label
        response := none
        approvedBySessionId := none
        createdAt := sharing.now
        expiresAt := now + keyRequestTtlMs
        raising := sharing.next }
    next := sharing.next + 1 }.note (.raised sharing.next accountId ephPub sessionId label)

/-- The update of an approval. -/
def approve (sharing : Sharing) (row : KeyRequest) (sessionId : String) (response : List UInt8) :
    Sharing :=
  { sharing with
    keyRequests := sharing.keyRequests.put
      { row with response := some response, approvedBySessionId := some sessionId } }.note
    (.approved row.raising sessionId response)

/-- The delete of a pickup. -/
def take (sharing : Sharing) (row : KeyRequest) (index : Nat) : Sharing :=
  { sharing with keyRequests := sharing.keyRequests.drop row.accountId row.ephPub }.note
    (.taken row.raising index)

/-- What a call does next: its statement, or what follows the statement's result. -/
def advance (sharing : Sharing) (index : Nat) (call : Call) : Option Sharing :=
  match call.stage with
  | .sweeping ephPub label now =>
    some
      ({ sharing with keyRequests := sharing.keyRequests.sweep now }.await index call
        (.upserting ephPub label now))
  | .upserting ephPub label now =>
    some
      ((sharing.raise call.accountId call.sessionId ephPub label now).await index call
        (.answered .success))
  | .listing now =>
    some (sharing.await index call (.joining (sharing.keyRequests.pending call.accountId now)))
  | .joining rows =>
    let sessions := sharing.deviceSessions.filter (fun session => session.accountId = call.accountId)
    some (sharing.await index call (.answered (.requests (rows.map (listed sessions)))))
  | .approving ephPub response now =>
    match sharing.keyRequests.approvable call.accountId ephPub call.sessionId now with
    | none => some (sharing.await index call (.answered (.error 404 "Request not found")))
    | some row =>
      some
        ((sharing.approve row call.sessionId (Pair.decodeBase64 response)).await index call
          (.answered .success))
  | .picking ephPub =>
    match sharing.keyRequests.claimable call.accountId ephPub call.sessionId with
    | none => some (sharing.await index call (.picked ephPub none))
    | some row => some ((sharing.take row index).await index call (.picked ephPub (some row)))
  | .picked ephPub row =>
    match row with
    | some row =>
      match row.response with
      | some response =>
        if row.expiresAt < sharing.now then
          some (sharing.await index call (.answered .expired))
        else
          some
            ((sharing.note
                (.delivered row.raising index call.sessionId response sharing.now
                  row.expiresAt)).await
              index call (.answered (.ready response)))
      | none => some (sharing.await index call (.reading ephPub))
    | none => some (sharing.await index call (.reading ephPub))
  | .reading ephPub =>
    some
      (sharing.await index call
        (.read (sharing.keyRequests.raisedBy call.accountId ephPub call.sessionId)))
  | .read row =>
    match row with
    | none => some (sharing.await index call (.answered .expired))
    | some row =>
      if row.expiresAt < sharing.now then some (sharing.await index call (.answered .expired))
      else some (sharing.await index call (.answered .pending))
  | .answered _ => none

end Sharing

/-- What can happen. Calls are numbered; their bodies have passed the schemas. -/
inductive Event where
  /-- A session is issued. -/
  | login (session : DeviceSession)
  /-- A session is revoked; its access token still works. -/
  | revoke (sessionId : String)
  | request (index : Nat) (sessionId ephPub : String) (label : Option String)
  | list (index : Nat) (sessionId : String)
  | approve (index : Nat) (sessionId ephPub response : String)
  | claim (index : Nat) (sessionId ephPub : String)
  | advance (index : Nat)
  /-- A statement of a call fails. -/
  | fail (index : Nat)
  /-- Time passes. -/
  | pass (milliseconds : Nat)
deriving DecidableEq

/-- One event. -/
def step (sharing : Sharing) : Event → Option Sharing
  | .login session =>
    match sharing.accountOf session.id with
    | some _ => none
    | none =>
      some
        { sharing with
          deviceSessions := sharing.deviceSessions ++ [session]
          accountOf := update sharing.accountOf session.id (some session.accountId) }
  | .revoke sessionId =>
    some
      { sharing with
        deviceSessions := sharing.deviceSessions.filter (fun session => session.id ≠ sessionId) }
  | .request index sessionId ephPub label =>
    sharing.receive index sessionId
      (if isValidEphPub ephPub then .sweeping ephPub label sharing.now
      else .answered (.error 400 "Invalid public key"))
  | .list index sessionId => sharing.receive index sessionId (.listing sharing.now)
  | .approve index sessionId ephPub response =>
    sharing.receive index sessionId (.approving ephPub response sharing.now)
  | .claim index sessionId ephPub => sharing.receive index sessionId (.picking ephPub)
  | .advance index => (sharing.calls index).bind (sharing.advance index)
  | .fail index =>
    match sharing.calls index with
    | none => none
    | some call =>
      match call.stage with
      | .answered _ => none
      | _ => some (sharing.await index call (.answered (.error 500 "Internal Server Error")))
  | .pass milliseconds => some { sharing with now := sharing.now + milliseconds }

end Kvy.Server.App.KeyRequests
