import Kvy.General.Utf8
import Kvy.Server.App.Api.Pair

/-!
# Binding keys to an account

An account's device signs a nonce of the server to bind its public keys. The first bind needs no
more than that, a bind of the same key changes nothing else, and a rotation to another key needs
a step-up proof and no other healthy session. The request decides which of these it is from a row
that it reads before its transaction.

The tables hold the rows of one account. Every statement is atomic, and between two statements of
one request anything else may happen. A transaction holds the lock of the account's row from its
first statement on, and takes effect when it commits.
-/

namespace Kvy.Server.App.Keys

open General Function

/-- `CHALLENGE_TTL_MS`. -/
def challengeTtlMs : Nat := 120000

/-- `tweetnacl.sign.publicKeyLength`. -/
def publicKeyLength : Nat := 32

/-- `toHex`. -/
def toHex (bytes : List UInt8) : String :=
  String.ofList (bytes.flatMap (fun byte =>
    [Nat.digitChar (byte.toNat / 16), Nat.digitChar (byte.toNat % 16)]))

/-! ## Tables -/

/-- The columns of `accounts` that a bind reads or writes. -/
structure Account where
  signPublicKey : Option String
  contentPubKey : Option String
  keyEpoch : Nat
deriving DecidableEq

/-- A row of `key_bind_nonces`. -/
structure KeyBindNonce where
  nonce : String
  expiresAt : Nat
  consumedAt : Option Nat
deriving DecidableEq

/-- The columns of `device_sessions` that a bind reads or writes. -/
structure DeviceSession where
  id : String
  expiresAt : Nat
  revokedAt : Option Nat
deriving DecidableEq

/-- The columns of `auth_identities` that a step-up reads. -/
structure AuthIdentity where
  kind : String
  identifier : String
  passwordHash : Option String
deriving DecidableEq

/-- A nonce that can be consumed. -/
def KeyBindNonce.usable (row : KeyBindNonce) (nonce : String) (now : Nat) : Bool :=
  row.nonce = nonce && row.consumedAt.isNone && decide (now < row.expiresAt)

/-- A session that is neither revoked nor expired. -/
def DeviceSession.healthy (session : DeviceSession) (now : Nat) : Bool :=
  session.revokedAt.isNone && decide (now < session.expiresAt)

/-! ## Requests -/

/-- The provider of an OAuth proof. -/
inductive OAuthProvider where
  | google
  | github
deriving DecidableEq

/-- The `kind` that an identity of the provider has. -/
def OAuthProvider.kind : OAuthProvider → String
  | .google => "google"
  | .github => "github"

/-- What a provider says about a proof. -/
structure OAuthIdentity where
  provider : OAuthProvider
  subject : String
deriving DecidableEq

/-- `StepUpProof`. -/
inductive StepUpProof where
  | password (password : String)
  | oauth (provider : OAuthProvider) (oauthProof : String)
deriving DecidableEq

/-- The body of a bind. -/
structure Body where
  signPubKey : String
  contentPubKey : String
  nonce : String
  signature : String
  rotate : Bool
  stepUpProof : Option StepUpProof
deriving DecidableEq

/-- The libraries that check signatures and passwords. A signature check may throw. -/
structure Library where
  verifyDetached : List UInt8 → List UInt8 → List UInt8 → Option Bool
  verifyPassword : String → String → Bool

/-- The public key of a body. -/
def Body.publicKey (body : Body) : List UInt8 := Pair.decodeBase64 body.signPubKey

/-- The public key as it is stored. -/
def Body.signPublicKeyHex (body : Body) : String := toHex body.publicKey

/-- The public key has the right length and has signed the account, the other key and the nonce. -/
def Body.signed (library : Library) (accountId : String) (body : Body) : Bool :=
  body.publicKey.length = publicKeyLength &&
    (library.verifyDetached
      (Utf8.encode accountId.toList ++ Pair.decodeBase64 body.contentPubKey ++
        Pair.decodeBase64 body.nonce)
      (Pair.decodeBase64 body.signature) body.publicKey).getD false

/-- `verifyStepUp`, with what the provider says about an OAuth proof. -/
def verifyStepUp (library : Library) (identities : List AuthIdentity)
    (verified : Option OAuthIdentity) (proof : Option StepUpProof) : Bool :=
  match proof with
  | none => false
  | some (.password password) =>
    match identities.find? (fun identity => identity.kind = "password") with
    | none => false
    | some identity =>
      match identity.passwordHash with
      | none => false
      | some passwordHash => passwordHash ≠ "" && library.verifyPassword passwordHash password
  | some (.oauth _ _) =>
    match verified with
    | none => false
    | some verified =>
      identities.any (fun identity =>
        identity.kind = verified.provider.kind && identity.identifier = verified.subject)

/-- `isFirstBind`. -/
def Account.isFirstBind (account : Account) : Bool := account.keyEpoch = 0

/-- `sameKey`. -/
def Account.sameKey (account : Account) (body : Body) : Bool :=
  account.signPublicKey = some body.signPublicKeyHex

/-- The bind is a rotation. -/
def Account.rotates (account : Account) (body : Body) : Bool :=
  !account.isFirstBind && !account.sameKey body

/-- `newEpoch`. -/
def Account.newEpoch (account : Account) (body : Body) : Nat :=
  if account.isFirstBind then 1
  else if account.sameKey body then account.keyEpoch
  else account.keyEpoch + 1

/-- A body of a reply. -/
inductive Reply where
  | success (keyEpoch : Nat)
  | error (status : Nat) (error : String)
deriving DecidableEq

/-- What a bind does next: its statement, with the row it has read. A time is read before the
statement that uses it. -/
inductive Stage where
  | consuming (now : Nat)
  | reading
  | proving (account : Account)
  | checking (account : Account) (now : Nat)
  | conflicting (account : Account)
  | updating (account : Account)
  | revoking (account : Account)
  | committing (account : Account) (revoked : List String) (now : Nat)
  | answered (reply : Reply)
deriving DecidableEq

/-- A bind of an authenticated session. It keeps whether its step-up proof was accepted, and which
sessions there were when it looked for healthy ones. -/
structure Call where
  sessionId : String
  body : Body
  stage : Stage
  proved : Bool
  seen : List String
deriving DecidableEq

/-- A bind that has committed. -/
structure Bound where
  call : Nat
  nonce : String
  keyEpoch : Nat
  signPublicKey : String
deriving DecidableEq

/-- The time, the rows of one account, the keys of the other accounts, the calls, the call that
holds the lock of the account's row, the call that has consumed each nonce, and the binds that
have committed. -/
structure Binding where
  now : Nat
  account : Option Account
  identities : List AuthIdentity
  nonces : List KeyBindNonce
  sessions : List DeviceSession
  others : List String
  calls : Nat → Option Call
  lock : Option Nat
  consumer : String → Option Nat
  log : List Bound

/-- An account that has just been registered. -/
def Account.fresh : Account := ⟨none, none, 0⟩

/-- A registered account before any bind. -/
def Binding.start (identities : List AuthIdentity) (now : Nat) : Binding where
  now := now
  account := some .fresh
  identities := identities
  nonces := []
  sessions := []
  others := []
  calls := fun _ => none
  lock := none
  consumer := fun _ => none
  log := []

namespace Binding

/-- A call goes on to its next stage. -/
def await (binding : Binding) (index : Nat) (call : Call) (stage : Stage) : Binding :=
  { binding with calls := update binding.calls index (some { call with stage }) }

/-- A call answers with an error. -/
def refuse (binding : Binding) (index : Nat) (call : Call) (status : Nat) (error : String) :
    Binding :=
  binding.await index call (.answered (.error status error))

/-- `consumeNonce`, where a row matches. -/
def consume (binding : Binding) (index : Nat) (nonce : String) (now : Nat) : Binding :=
  { binding with
    nonces := binding.nonces.map (fun row =>
      if row.usable nonce now then { row with consumedAt := some now } else row)
    consumer := update binding.consumer nonce (some index) }

/-- Sessions are revoked. -/
def revoke (binding : Binding) (ids : List String) (now : Nat) : Binding :=
  { binding with
    sessions := binding.sessions.map (fun session =>
      if session.id ∈ ids then { session with revokedAt := some now } else session) }

/-- The transaction of a bind commits. -/
def commit (binding : Binding) (index : Nat) (call : Call) (account : Account)
    (revoked : List String) (now : Nat) : Binding :=
  let signPublicKey := call.body.signPublicKeyHex
  let keyEpoch := account.newEpoch call.body
  { (binding.revoke revoked now).await index call (.answered (.success keyEpoch)) with
    account := binding.account.map (fun _ =>
      ⟨some signPublicKey, some call.body.contentPubKey, keyEpoch⟩)
    lock := none
    log := binding.log ++ [⟨index, call.body.nonce, keyEpoch, signPublicKey⟩] }

/-- What a call does next. The provider's word about an OAuth proof comes from outside. -/
def advance (library : Library) (accountId : String) (binding : Binding) (index : Nat)
    (verified : Option OAuthIdentity) (call : Call) : Option Binding :=
  let body := call.body
  match call.stage with
  | .consuming now =>
    if binding.nonces.any (fun row => row.usable body.nonce now) then
      let consumed := binding.consume index body.nonce now
      if body.signed library accountId then some (consumed.await index call .reading)
      else some (consumed.refuse index call 401 "Invalid signature")
    else some (binding.refuse index call 401 "Invalid or expired nonce")
  | .reading =>
    match binding.account with
    | none => some (binding.refuse index call 401 "Account not found")
    | some account =>
      if account.rotates body then
        if body.rotate then some (binding.await index call (.proving account))
        else some (binding.refuse index call 409 "Key mismatch; rotation must be explicit")
      else some (binding.await index call (.conflicting account))
  | .proving account =>
    if verifyStepUp library binding.identities verified body.stepUpProof then
      some (binding.await index { call with proved := true } (.checking account binding.now))
    else some (binding.refuse index call 401 "Step-up required to rotate keys")
  | .checking account now =>
    if binding.sessions.any (fun session => session.id ≠ call.sessionId && session.healthy now) then
      some (binding.refuse index call 409
        "Other devices are online — pair from one instead of rotating")
    else
      some (binding.await index { call with seen := binding.sessions.map DeviceSession.id }
        (.conflicting account))
  | .conflicting account =>
    if body.signPublicKeyHex ∈ binding.others then
      some (binding.refuse index call 409 "Key already bound to another account")
    else some (binding.await index call (.updating account))
  | .updating account =>
    -- The row is locked by another transaction, or the key is another account's by now.
    if binding.lock.isSome ∨ body.signPublicKeyHex ∈ binding.others then none
    else
      let locked := { binding with lock := some index }
      if account.rotates body then some (locked.await index call (.revoking account))
      else some (locked.await index call (.committing account [] binding.now))
  | .revoking account =>
    let revoked := (binding.sessions.map DeviceSession.id).filter (fun id => id ≠ call.sessionId)
    some (binding.await index call (.committing account revoked binding.now))
  | .committing account revoked now => some (binding.commit index call account revoked now)
  | .answered _ => none

end Binding

/-- What can happen. Binds are numbered; their bodies have passed the schema. -/
inductive Event where
  /-- `POST /v1/auth/keys/challenge` stores a nonce. -/
  | challenge (nonce : String)
  | bind (index : Nat) (sessionId : String) (body : Body)
  | advance (index : Nat) (verified : Option OAuthIdentity)
  /-- A statement of a bind fails, and its transaction with it. -/
  | fail (index : Nat)
  /-- A session is issued. -/
  | login (sessionId : String) (expiresAt : Nat)
  /-- Sessions are revoked; their access tokens still work. -/
  | revoke (ids : List String)
  /-- Keys of other accounts change. -/
  | others (keys : List String)
  /-- Ways to sign in to the account change. -/
  | identify (identities : List AuthIdentity)
  /-- Time passes. -/
  | pass (milliseconds : Nat)
deriving DecidableEq

/-- One event. -/
def step (library : Library) (accountId : String) (binding : Binding) : Event → Option Binding
  | .challenge nonce =>
    if nonce ∈ binding.nonces.map KeyBindNonce.nonce then none
    else
      some
        { binding with
          nonces := binding.nonces ++ [⟨nonce, binding.now + challengeTtlMs, none⟩] }
  | .bind index sessionId body =>
    match binding.calls index with
    | some _ => none
    | none =>
      some
        { binding with
          calls := update binding.calls index
            (some ⟨sessionId, body, .consuming binding.now, false, []⟩) }
  | .advance index verified =>
    (binding.calls index).bind (binding.advance library accountId index verified)
  | .fail index =>
    match binding.calls index with
    | none => none
    | some call =>
      match call.stage with
      | .answered _ => none
      | _ =>
        some
          { binding.refuse index call 500 "Internal Server Error" with
            lock := if binding.lock = some index then none else binding.lock }
  | .login sessionId expiresAt =>
    if sessionId ∈ binding.sessions.map DeviceSession.id then none
    else some { binding with sessions := binding.sessions ++ [⟨sessionId, expiresAt, none⟩] }
  | .revoke ids => some (binding.revoke ids binding.now)
  | .others keys => some { binding with others := keys }
  | .identify identities => some { binding with identities }
  | .pass milliseconds => some { binding with now := binding.now + milliseconds }

end Kvy.Server.App.Keys
