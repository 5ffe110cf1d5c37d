import Kvy.General.Base64
import Kvy.General.OrderedMap
import Kvy.General.Runs

/-!
# Pairing a device

A device without keys posts its ephemeral public key until another device has approved it, and
then picks up the sealed response. The three routes share the `pair_requests` table; each of
their statements is atomic, and between two statements of one call anything else may happen.

A request of the table is named by the number of its row. A row that is picked up is deleted, and
the next post of the key makes a new one.
-/

namespace Kvy.Server.App.Pair

open General Function

/-- `PAIR_REQUEST_TTL_MS`. -/
def pairRequestTtlMs : Nat := 15 * 60 * 1000

/-- `X25519_PUBLIC_KEY_BYTES`. -/
def x25519PublicKeyBytes : Nat := 32

/-- `decodeBase64` of the plain variant, which skips the characters of the other one. -/
def decodeBase64 (base64 : String) : List UInt8 :=
  Base64.bytes
    (base64.toList.filterMap (fun char =>
      if char = '-' ∨ char = '_' then none else Base64.sextetOf char))

def isValidEphPub (ephPub : String) : Bool :=
  (decodeBase64 ephPub).length = x25519PublicKeyBytes

/-- A row of `pair_requests`. -/
structure PairRequest where
  id : Nat
  label : Option String
  cwd : Option String
  response : Option (List UInt8)
  expiresAt : Nat
deriving DecidableEq

def isExpired (now expiresAt : Nat) : Bool := expiresAt < now

/-- A body of a reply; the response is written as base64. -/
inductive Reply where
  | pending
  | expired
  | authorized (response : List UInt8)
  | success
  | refreshToken (refreshToken : String)
  | error (status : Nat) (error : String)
deriving DecidableEq

/-- What a call waits for: a statement, or the handler to go on with its result. -/
inductive Call where
  | unused
  /-- `POST /pair`: the insert, the pickup and what it returned, the read and what it returned. -/
  | inserting (ephPub : String) (label cwd : Option String) (expiresAt : Nat)
  | picking (ephPub : String)
  | picked (ephPub : String) (row : Option PairRequest)
  | reading (ephPub : String)
  | read (row : Option PairRequest)
  /-- `POST /pair/approve`: the read and what it returned, the update. -/
  | approving (ephPub response : String)
  | approveRead (ephPub response : String) (row : Option PairRequest)
  | updating (ephPub response : String)
  /-- `POST /pair/mint`: the read and what it returned, the insert of the session. -/
  | minting (accountId ephPub refreshToken : String)
  | mintRead (accountId refreshToken : String) (row : Option PairRequest)
  | issuing (accountId refreshToken : String) (row : PairRequest) (checkedAt : Nat)
  | answered (reply : Reply)
deriving DecidableEq

/-- What happened to a request. -/
inductive Entry where
  /-- An approval stored its response. -/
  | approved (request : Nat) (response : List UInt8)
  /-- The response was sent to a poller. -/
  | delivered (request : Nat) (response : List UInt8) (now expiresAt : Nat)
  /-- A session was issued for the request, whose row was checked before. -/
  | minted (request : Nat) (accountId refreshToken : String) (label : Option String)
      (checkedAt now expiresAt : Nat)
deriving DecidableEq

/-- The time, the table, the number of the next row, the calls and what happened. -/
structure Pairing where
  now : Nat
  pairRequests : OrderedMap String PairRequest
  next : Nat
  calls : Nat → Call
  log : List Entry

/-- An empty table. -/
def start : Pairing where
  now := 0
  pairRequests := .empty
  next := 0
  calls := fun _ => .unused
  log := []

namespace Pairing

/-- A call goes on to wait for something else. -/
def await (pairing : Pairing) (index : Nat) (call : Call) : Pairing :=
  { pairing with calls := update pairing.calls index call }

/-- A line of the log. -/
def note (pairing : Pairing) (entry : Entry) : Pairing := { pairing with log := pairing.log ++ [entry] }

/-- The reply to a public key that is not one. -/
def invalid : Call := .answered (.error 401 "Invalid public key")

/-- `insert … onConflictDoNothing`. -/
def insert (pairing : Pairing) (ephPub : String) (label cwd : Option String) (expiresAt : Nat) :
    Pairing :=
  match pairing.pairRequests.get? ephPub with
  | some _ => pairing
  | none =>
    { pairing with
      pairRequests := pairing.pairRequests.set ephPub ⟨pairing.next, label, cwd, none, expiresAt⟩
      next := pairing.next + 1 }

/-- `delete … where response is not null returning`. -/
def pick (pairing : Pairing) (ephPub : String) : Pairing × Option PairRequest :=
  match pairing.pairRequests.get? ephPub with
  | some row =>
    if row.response.isSome then
      ({ pairing with pairRequests := pairing.pairRequests.delete ephPub }, some row)
    else (pairing, none)
  | none => (pairing, none)

/-- `update … where response is null`. -/
def approve (pairing : Pairing) (ephPub : String) (response : List UInt8) : Pairing :=
  match pairing.pairRequests.get? ephPub with
  | some row =>
    if row.response = none then
      { pairing with
        pairRequests := pairing.pairRequests.set ephPub { row with response := some response } }.note
          (.approved row.id response)
    else pairing
  | none => pairing

/-- What a call does next: its statement, or what follows the statement's result. -/
def advance (pairing : Pairing) (index : Nat) : Call → Option Pairing
  | .unused | .answered _ => none
  | .inserting ephPub label cwd expiresAt =>
    some ((pairing.insert ephPub label cwd expiresAt).await index (.picking ephPub))
  | .picking ephPub =>
    some ((pairing.pick ephPub).1.await index (.picked ephPub (pairing.pick ephPub).2))
  | .picked ephPub row =>
    match row with
    | some ⟨id, _, _, some response, expiresAt⟩ =>
      if isExpired pairing.now expiresAt then some (pairing.await index (.answered .expired))
      else
        some
          ((pairing.note (.delivered id response pairing.now expiresAt)).await index
            (.answered (.authorized response)))
    | _ => some (pairing.await index (.reading ephPub))
  | .reading ephPub => some (pairing.await index (.read (pairing.pairRequests.get? ephPub)))
  | .read row =>
    match row with
    | none => some (pairing.await index invalid)
    | some row =>
      if isExpired pairing.now row.expiresAt then some (pairing.await index (.answered .expired))
      else some (pairing.await index (.answered .pending))
  | .approving ephPub response =>
    some (pairing.await index (.approveRead ephPub response (pairing.pairRequests.get? ephPub)))
  | .approveRead ephPub response row =>
    match row with
    | none => some (pairing.await index (.answered (.error 404 "Request not found")))
    | some row =>
      if isExpired pairing.now row.expiresAt then
        some (pairing.await index (.answered (.error 410 "Pair request expired")))
      else some (pairing.await index (.updating ephPub response))
  | .updating ephPub response =>
    some ((pairing.approve ephPub (decodeBase64 response)).await index (.answered .success))
  | .minting accountId ephPub refreshToken =>
    some (pairing.await index (.mintRead accountId refreshToken (pairing.pairRequests.get? ephPub)))
  | .mintRead accountId refreshToken row =>
    match row with
    | none => some (pairing.await index (.answered (.error 404 "Request not found")))
    | some row =>
      if isExpired pairing.now row.expiresAt then
        some (pairing.await index (.answered (.error 410 "Pair request expired")))
      else some (pairing.await index (.issuing accountId refreshToken row pairing.now))
  | .issuing accountId refreshToken row checkedAt =>
    some
      ((pairing.note
          (.minted row.id accountId refreshToken row.label checkedAt pairing.now row.expiresAt)).await
        index (.answered (.refreshToken refreshToken)))

end Pairing

/-- What can happen. Calls are numbered. -/
inductive Event where
  | pair (index : Nat) (ephPub : String) (label cwd : Option String)
  | approve (index : Nat) (ephPub response : String)
  /-- With the token that the new session will have. -/
  | mint (index : Nat) (accountId ephPub refreshToken : String)
  | advance (index : Nat)
  /-- A statement of a call fails. -/
  | fail (index : Nat)
  /-- Time passes. -/
  | pass (milliseconds : Nat)
deriving DecidableEq

/-- One event. -/
def step (pairing : Pairing) : Event → Option Pairing
  | .pair index ephPub label cwd =>
    if pairing.calls index = .unused then
      some
        (pairing.await index
          (if isValidEphPub ephPub then
            .inserting ephPub label cwd (pairing.now + pairRequestTtlMs)
          else Pairing.invalid))
    else none
  | .approve index ephPub response =>
    if pairing.calls index = .unused then
      some
        (pairing.await index
          (if isValidEphPub ephPub then .approving ephPub response else Pairing.invalid))
    else none
  | .mint index accountId ephPub refreshToken =>
    if pairing.calls index = .unused then
      some
        (pairing.await index
          (if isValidEphPub ephPub then .minting accountId ephPub refreshToken
          else Pairing.invalid))
    else none
  | .advance index => pairing.advance index (pairing.calls index)
  | .fail index =>
    match pairing.calls index with
    | .unused | .answered _ => none
    | _ => some (pairing.await index (.answered (.error 500 "Internal Server Error")))
  | .pass milliseconds => some { pairing with now := pairing.now + milliseconds }

end Kvy.Server.App.Pair
