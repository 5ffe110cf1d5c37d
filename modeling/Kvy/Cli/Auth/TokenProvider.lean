import Mathlib.Logic.Basic

/-!
# Token providers

The part of `createTokenProvider` that presents and keeps refresh tokens. A provider has one
refresh in flight at a time; it reads the credentials file before it presents a token, and
once more when the token is rejected. The cached access token only decides when a refresh
starts.
-/

namespace Kvy.Cli.Auth

/-- A running provider, with the request it awaits and whether that is the retry. -/
structure TokenProvider where
  refreshToken : String
  dead : Bool
  inFlight : Option (Nat × Bool)

/-- The token after a look at the credentials file, if it can be read. -/
def adopt (refreshToken : String) (onDisk : Option String) : String :=
  match onDisk with
  | some onDisk => if onDisk ≠ refreshToken then onDisk else refreshToken
  | none => refreshToken

/-- A readable file has the last word. -/
@[simp] theorem adopt_some (refreshToken onDisk : String) : adopt refreshToken (some onDisk) = onDisk := by
  simp only [adopt]
  split
  · rfl
  · rename_i same
    exact (not_not.mp same).symm

/-- A refresh starts, with the request that presents the adopted token. -/
def TokenProvider.present (provider : TokenProvider) (onDisk : Option String) (request : Nat) :
    TokenProvider :=
  { provider with
    refreshToken := adopt provider.refreshToken onDisk
    inFlight := some (request, false) }

/-- A refresh that throws, or is answered otherwise than by tokens or a rejection. -/
def TokenProvider.fail (provider : TokenProvider) : TokenProvider := { provider with inFlight := none }

/-- A refresh that is answered by tokens, and the token to persist if it has rotated. -/
def TokenProvider.refreshed (provider : TokenProvider) (refreshToken : String) :
    TokenProvider × Option String :=
  ({ provider with refreshToken := refreshToken, inFlight := none },
    if refreshToken ≠ provider.refreshToken then some refreshToken else none)

/-- A rejection: present a newer token from the file once, or give up. The request that
retries is sent only in the first case. -/
def TokenProvider.rejected (provider : TokenProvider) (retried : Bool) (onDisk : Option String)
    (retry : Nat) : TokenProvider × Bool :=
  match onDisk with
  | some onDisk =>
    if retried = false ∧ onDisk ≠ provider.refreshToken then
      ({ provider with refreshToken := onDisk, inFlight := some (retry, true) }, true)
    else ({ provider with dead := true, inFlight := none }, false)
  | none => ({ provider with dead := true, inFlight := none }, false)

end Kvy.Cli.Auth
