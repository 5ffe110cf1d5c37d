import Mathlib.Data.List.Basic

/-!
# The refresh route

`POST /v1/auth/refresh` in its three statements: the rotation of the row that holds the
presented hash, the lookup of a row that has rotated it away, and the revocation of its
family. Each is one statement of the database; the statements of concurrent requests
interleave. Times are in milliseconds.
-/

namespace Kvy.Server.App.Refresh

/-- A row of `device_sessions`. -/
structure DeviceSession where
  id : String
  accountId : String
  refreshTokenHash : String
  previousRefreshTokenHash : Option String
  previousRotatedAt : Option Int
  familyId : String
  clientKind : String
  lastRefreshedAt : Option Int
  expiresAt : Int
  revokedAt : Option Int
deriving DecidableEq

/-- What an access token is minted for. -/
structure AccessToken where
  accountId : String
  sessionId : String
  clientKind : String
deriving DecidableEq

/-- A reply of the route. -/
inductive Response where
  | refreshed (accessToken : AccessToken) (refreshToken : String)
  | unauthorized (error : String)
deriving DecidableEq

/-- `GRACE_MS`. -/
def graceMs : Int := 60000

/-- The access token of a session. -/
def DeviceSession.accessToken (session : DeviceSession) : AccessToken :=
  ⟨session.accountId, session.id, session.clientKind⟩

/-- The presented hash is the session's current one, and the session is valid. -/
def DeviceSession.current (session : DeviceSession) (presented : String) (now : Int) : Bool :=
  session.refreshTokenHash = presented && session.revokedAt.isNone && now < session.expiresAt

/-- The first statement: rotate the rows that hold the presented hash, and return them. -/
def rotateCurrent (sessions : List DeviceSession) (presented nextHash : String) (now : Int) :
    List DeviceSession × List DeviceSession :=
  let rotate (session : DeviceSession) : DeviceSession :=
    { session with
      refreshTokenHash := nextHash
      previousRefreshTokenHash := some presented
      previousRotatedAt := some now
      lastRefreshedAt := some now }
  (sessions.map (fun session => if session.current presented now then rotate session else session),
    (sessions.filter (fun session => session.current presented now)).map rotate)

/-- The second statement: a row that has rotated the presented hash away. -/
def findPrior (sessions : List DeviceSession) (presented : String) : Option DeviceSession :=
  sessions.find? (fun session => session.previousRefreshTokenHash = some presented)

/-- What follows the second statement. -/
inductive Verdict where
  | reply (response : Response)
  | revoke (familyId : String)
deriving DecidableEq

/-- The rotation is no longer ago than the grace window, and the session is not revoked. -/
def DeviceSession.graceful (prior : DeviceSession) (now : Int) : Bool :=
  match prior.previousRotatedAt with
  | some rotatedAt => now - rotatedAt ≤ graceMs && prior.revokedAt.isNone
  | none => false

/-- The race within the grace window, the replay outside of it, and the unknown hash. -/
def judge (prior : Option DeviceSession) (refreshToken : String) (now : Int) : Verdict :=
  match prior with
  | some prior =>
    if prior.graceful now then .reply (.refreshed prior.accessToken refreshToken)
    else .revoke prior.familyId
  | none => .reply (.unauthorized "Invalid refresh token")

/-- The third statement, and its reply. -/
def revokeFamily (sessions : List DeviceSession) (familyId : String) (now : Int) :
    List DeviceSession × Response :=
  (sessions.map (fun session =>
      if session.familyId = familyId then { session with revokedAt := some now } else session),
    .unauthorized "Refresh token reuse detected")

end Kvy.Server.App.Refresh
