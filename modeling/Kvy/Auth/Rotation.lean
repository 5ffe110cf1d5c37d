import Kvy.Cli.Auth.TokenProvider
import Kvy.General.Runs
import Kvy.Server.App.Routes.Refresh

/-!
# Rotating a shared refresh token

Providers in any number of processes share one credentials file and refresh one device
session. Their requests reach the server at any time or never, also after the provider has
given up or its process has ended; replies reach their providers or are lost. The
credentials lock only removes interleavings, so none is required here: what holds of every
run holds of those with the lock, and of those in which it was not acquired in time.
-/

namespace Kvy.Auth

open General Cli.Auth Server.App.Refresh Function

/-- Where a request is. -/
inductive Exchange where
  | unused
  | sent (refreshToken : String)
  /-- The first statement has rotated nothing. -/
  | missed (refreshToken : String) (now : Int)
  /-- The second statement has found a replay outside the grace window. -/
  | condemned (familyId : String) (now : Int)
  | answered (response : Response)
  /-- It is lost on its way, or its handler fails. -/
  | dropped
deriving DecidableEq

/-- When the handler of a request that rotated nothing started. -/
def Exchange.missedAt : Exchange → Option Int
  | .missed _ now => some now
  | _ => none

/-- The table, the credentials file, the running providers and the requests, with a record
of what has reached the file: whether the token of the last rotation was written to it, and
which requests come from attempts that read it after that. -/
structure World where
  sessions : List DeviceSession
  file : Option String
  providers : Nat → Option TokenProvider
  exchanges : Nat → Exchange
  written : Bool
  informed : Nat → Bool

/-- What may happen next. A request is named by its number. -/
inductive Event where
  /-- A process reads the credentials file and builds a provider. -/
  | launch (provider : Nat)
  /-- The process ends. -/
  | crash (provider : Nat)
  /-- A refresh starts; the credentials file can be read or not. -/
  | present (provider request : Nat) (readable : Bool)
  /-- The request's handler starts at a time and runs its first statement. -/
  | rotate (request : Nat) (now : Int) (next : String)
  | lookUp (request : Nat)
  | revoke (request : Nat)
  | drop (request : Nat)
  /-- The provider gets its reply; a rejected one may retry, and a rotated token may be written. -/
  | receive (provider retry : Nat) (readable writes : Bool)
  /-- The provider's refresh fails: the reply is lost, or it is neither tokens nor a rejection. -/
  | fail (provider : Nat)

/-- The request an event may send. -/
def Event.sends : Event → Option Nat
  | .present _ request _ => some request
  | .receive _ retry _ _ => some retry
  | _ => none

namespace World

/-- The credentials file, if it can be read now. -/
def read (world : World) (readable : Bool) : Option String :=
  if readable then world.file else none

/-- A provider changes. -/
def withProvider (world : World) (provider : Nat) (state : Option TokenProvider) : World :=
  { world with providers := update world.providers provider state }

/-- A request moves on. -/
def withExchange (world : World) (request : Nat) (exchange : Exchange) : World :=
  { world with exchanges := update world.exchanges request exchange }

/-- A request is sent by an attempt that has just tried to read the credentials file. -/
def send (world : World) (request : Nat) (refreshToken : String) (readable : Bool) : World :=
  { world.withExchange request (.sent refreshToken) with
    informed := update world.informed request (readable && world.written) }

/-- The handler's first statement, with the token it has drawn. -/
def rotate (hashRefreshToken : String → String) (world : World) (request : Nat)
    (refreshToken : String) (now : Int) (next : String) : World :=
  let rotated := rotateCurrent world.sessions (hashRefreshToken refreshToken) (hashRefreshToken next) now
  match rotated.2 with
  | current :: _ =>
    { world.withExchange request (.answered (.refreshed current.accessToken next)) with
      sessions := rotated.1
      written := false
      informed := fun _ => false }
  | [] => world.withExchange request (.missed refreshToken now)

/-- The handler's second statement. -/
def lookUp (hashRefreshToken : String → String) (world : World) (request : Nat)
    (refreshToken : String) (now : Int) : World :=
  match judge (findPrior world.sessions (hashRefreshToken refreshToken)) refreshToken now with
  | .reply response => world.withExchange request (.answered response)
  | .revoke familyId => world.withExchange request (.condemned familyId now)

/-- The handler's third statement. -/
def revoke (world : World) (request : Nat) (familyId : String) (now : Int) : World :=
  let revoked := revokeFamily world.sessions familyId now
  { world.withExchange request (.answered revoked.2) with sessions := revoked.1 }

/-- The token of the last rotation is the one that is written. -/
def persist (hashRefreshToken : String → String) (world : World) (refreshToken : String) : World :=
  { world with
    file := some refreshToken
    written := world.written ||
      world.sessions.any (fun session => session.refreshTokenHash = hashRefreshToken refreshToken) }

/-- A provider gets its reply. -/
def receive (hashRefreshToken : String → String) (world : World) (name : Nat)
    (provider : TokenProvider) (retried : Bool) (retry : Nat) (readable writes : Bool) :
    Response → Option World
  | .refreshed _ refreshToken =>
    let (provider, rotated) := provider.refreshed refreshToken
    let received := world.withProvider name (some provider)
    match rotated with
    | some refreshToken => some (if writes then received.persist hashRefreshToken refreshToken else received)
    | none => some received
  | .unauthorized _ =>
    let (provider, sends) := provider.rejected retried (world.read readable) retry
    let received := world.withProvider name (some provider)
    if sends then
      if world.exchanges retry = .unused then some (received.send retry provider.refreshToken readable)
      else none
    else some received

/-- One step. -/
def step (hashRefreshToken : String → String) (world : World) : Event → Option World
  | .launch name =>
    match world.providers name, world.file with
    | none, some refreshToken => some (world.withProvider name (some ⟨refreshToken, false, none⟩))
    | _, _ => none
  | .crash name => some (world.withProvider name none)
  | .present name request readable =>
    match world.providers name, world.exchanges request with
    | some ⟨refreshToken, false, none⟩, .unused =>
      let provider := TokenProvider.present ⟨refreshToken, false, none⟩ (world.read readable) request
      some ((world.withProvider name (some provider)).send request provider.refreshToken readable)
    | _, _ => none
  | .rotate request now next =>
    match world.exchanges request with
    | .sent refreshToken => some (world.rotate hashRefreshToken request refreshToken now next)
    | _ => none
  | .lookUp request =>
    match world.exchanges request with
    | .missed refreshToken now => some (world.lookUp hashRefreshToken request refreshToken now)
    | _ => none
  | .revoke request =>
    match world.exchanges request with
    | .condemned familyId now => some (world.revoke request familyId now)
    | _ => none
  | .drop request =>
    match world.exchanges request with
    | .sent _ | .missed _ _ => some (world.withExchange request .dropped)
    | _ => none
  | .receive name retry readable writes =>
    match world.providers name with
    | some ⟨refreshToken, dead, some (request, retried)⟩ =>
      match world.exchanges request with
      | .answered response => world.receive hashRefreshToken name
          ⟨refreshToken, dead, some (request, retried)⟩ retried retry readable writes response
      | _ => none
    | _ => none
  | .fail name =>
    match world.providers name with
    | some ⟨refreshToken, dead, some flight⟩ =>
      some (world.withProvider name (some (TokenProvider.fail ⟨refreshToken, dead, some flight⟩)))
    | _ => none

/-- The session has just been issued, its token is in the credentials file, and nothing runs. -/
def Issued (hashRefreshToken : String → String) (refreshToken : String) (world : World) : Prop :=
  ∃ session, world.sessions = [session] ∧ world.file = some refreshToken ∧
    session.refreshTokenHash = hashRefreshToken refreshToken ∧
    session.previousRefreshTokenHash = none ∧ session.previousRotatedAt = none ∧
    session.revokedAt = none ∧ world.written = true ∧ (∀ name, world.providers name = none) ∧
    ∀ request, world.exchanges request = .unused ∧ world.informed request = false

/-- Someone has the token to present it, or has presented it. -/
def Holds (world : World) (refreshToken : String) : Prop :=
  world.file = some refreshToken ∨
    (∃ name provider, world.providers name = some provider ∧ provider.refreshToken = refreshToken) ∨
    ∃ request, world.exchanges request = .sent refreshToken ∨
      ∃ now, world.exchanges request = .missed refreshToken now

/-- A handler draws a token that is new: its hash is that of no token anyone has. -/
def DrawsNew (hashRefreshToken : String → String) (world : World) : Event → Prop
  | .rotate _ _ next => ∀ refreshToken, world.Holds refreshToken →
    hashRefreshToken refreshToken ≠ hashRefreshToken next
  | _ => True

/-- A request that is looked up later than the grace window after the last rotation comes from
an attempt that read the credentials file after that rotation's token was written there. -/
def Timely (world : World) : Event → Prop
  | .lookUp request => ∀ now ∈ (world.exchanges request).missedAt, ∀ session ∈ world.sessions,
    ∀ rotatedAt ∈ session.previousRotatedAt, graceMs < now - rotatedAt →
      world.informed request = true
  | _ => True

/-- The request presents a token, and its handler has not answered. -/
def Asks (world : World) (request : Nat) (refreshToken : String) : Prop :=
  world.exchanges request = .sent refreshToken ∨
    ∃ now, world.exchanges request = .missed refreshToken now

/-- A request that is sent now comes from an attempt that has just read the credentials file
after the last rotation was written there, and no other request is under way. -/
def Serialised (world : World) (event : Event) (next : World) : Prop :=
  ∀ request ∈ event.sends, world.exchanges request = .unused → next.exchanges request ≠ .unused →
    next.informed request = true ∧ ∀ other refreshToken, ¬ world.Asks other refreshToken

/-- No session is revoked, nor about to be. -/
def Trusted (world : World) : Prop :=
  (∀ session ∈ world.sessions, session.revokedAt = none) ∧
    ∀ request familyId now, world.exchanges request ≠ .condemned familyId now

end World

end Kvy.Auth
