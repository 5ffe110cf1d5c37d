import Kvy.Auth.Tokens

/-!
# The grace window

The tokens of a session form one chain: a token is rotated by presenting it, and its
successor is known to one provider until that provider writes it to the credentials file.
While a successor is unclaimed nobody can rotate further, so a late write never replaces a
newer token, and an attempt that read the file after the last rotation was written presents
the current token.
-/

namespace Kvy.Auth.World

open General Cli.Auth Server.App.Refresh Function Runs

/-- The provider awaits the reply to a request. -/
def Awaits (world : World) (name : Nat) (provider : TokenProvider) (request : Nat) : Prop :=
  world.providers name = some provider ∧ ∃ retried, provider.inFlight = some (request, retried)

/-- The current token is known only to the reply that carries it. -/
def Unclaimed (hashRefreshToken : String → String) (session : DeviceSession) (world : World)
    (refreshToken : String) : Prop :=
  hashRefreshToken refreshToken = session.refreshTokenHash ∧ world.written = false ∧
    ∀ held, world.Holds held → hashRefreshToken held ≠ session.refreshTokenHash

/-- How the session, the file, the providers and the requests fit together. -/
structure Linked (hashRefreshToken : String → String) (session : DeviceSession) (world : World) :
    Prop where
  single : world.sessions = [session]
  valid : session.revokedAt = none
  replaced : ∀ previous, session.previousRefreshTokenHash = some previous →
    previous ≠ session.refreshTokenHash ∧ ∃ rotatedAt, session.previousRotatedAt = some rotatedAt
  /-- The last rotation's token, once written, is in the file. -/
  kept : world.written = true →
    ∃ refreshToken, world.file = some refreshToken ∧
      hashRefreshToken refreshToken = session.refreshTokenHash
  /-- A request of an informed attempt presents the current token. -/
  informed : ∀ request refreshToken, world.informed request = true → world.Asks request refreshToken →
    hashRefreshToken refreshToken = session.refreshTokenHash
  uncondemned : ∀ request familyId now, world.exchanges request ≠ .condemned familyId now
  used : ∀ name provider request, world.Awaits name provider request →
    world.exchanges request ≠ .unused
  alone : ∀ first second one two request, world.Awaits first one request →
    world.Awaits second two request → first = second
  presented : ∀ name provider request refreshToken, world.Awaits name provider request →
    world.Asks request refreshToken → refreshToken = provider.refreshToken
  /-- A reply echoes the token that was presented, or it carries an unclaimed one. -/
  replied : ∀ name provider request refreshToken, world.Awaits name provider request →
    world.Grants request refreshToken →
    refreshToken = provider.refreshToken ∨ Unclaimed hashRefreshToken session world refreshToken
  /-- At most one reply carries an unclaimed token. -/
  once : ∀ first second one two request other token next, world.Awaits first one request →
    world.Awaits second two other → world.Grants request token → world.Grants other next →
    token ≠ one.refreshToken → next ≠ two.refreshToken → first = second

variable {hashRefreshToken : String → String} {session : DeviceSession} {world : World}

variable {name request : Nat} {provider : TokenProvider}

/-- A provider's token is held. -/
theorem awaits_holds
    (awaits : world.Awaits name provider request) : world.Holds provider.refreshToken :=
  Or.inr (Or.inl ⟨name, provider, awaits.1, rfl⟩)

variable {next : World} {refreshToken : String}

/-- Less held, the rest the same. -/
theorem Unclaimed.fewer (unclaimed : Unclaimed hashRefreshToken session world refreshToken)
    (written : next.written = world.written)
    (fewer : ∀ held, next.Holds held → world.Holds held) :
    Unclaimed hashRefreshToken session next refreshToken :=
  ⟨unclaimed.1, written.trans unclaimed.2.1, fun held holds => unclaimed.2.2 held (fewer held holds)⟩

/-! ## Providers that come to rest -/

/-- A provider that rests awaits nothing. -/
theorem awaits_rest {other : Nat} {state : Option TokenProvider}
    (rests : ∀ provider, state = some provider → provider.inFlight = none)
    (awaits : (world.withProvider name state).Awaits other provider request) :
    other ≠ name ∧ world.Awaits other provider request := by
  obtain ⟨found, retried, inFlight⟩ := awaits
  rw [providers_with] at found
  split at found
  · exact absurd (rests provider found) (by simp [inFlight])
  · rename_i differs
    exact ⟨differs, found, retried, inFlight⟩

/-- A provider that rests with a token that was held, or ends, changes nothing else. -/
theorem Linked.rest (linked : Linked hashRefreshToken session world) (name : Nat)
    {state : Option TokenProvider}
    (rests : ∀ provider, state = some provider →
      provider.inFlight = none ∧ world.Holds provider.refreshToken) :
    Linked hashRefreshToken session (world.withProvider name state) := by
  have before {other : Nat} {provider : TokenProvider} {request : Nat}
      (awaits : (world.withProvider name state).Awaits other provider request) :
      world.Awaits other provider request :=
    (awaits_rest (fun provider isState => (rests provider isState).1) awaits).2
  have fewer (held : String) (holds : (world.withProvider name state).Holds held) :
      world.Holds held := by
    obtain already | ⟨provider, isState, rfl⟩ := holds_with holds
    · exact already
    · exact (rests provider isState).2
  refine ⟨linked.single, linked.valid, linked.replaced, linked.kept, linked.informed,
    linked.uncondemned, ?_, ?_, ?_, ?_, ?_⟩
  · intro other provider request awaits
    exact linked.used other provider request (before awaits)
  · intro first second one two request awaitsOne awaitsTwo
    exact linked.alone first second one two request (before awaitsOne) (before awaitsTwo)
  · intro other provider request refreshToken awaits asks
    exact linked.presented other provider request refreshToken (before awaits) asks
  · intro other provider request refreshToken awaits grants
    exact (linked.replied other provider request refreshToken (before awaits) grants).imp_right
      (fun unclaimed => unclaimed.fewer rfl fewer)
  · intro first second one two request other token next awaitsOne awaitsTwo
    exact linked.once first second one two request other token next (before awaitsOne)
      (before awaitsTwo)

/-! ## Requests -/

variable {readable : Bool}

/-- A provider that awaits after a request was sent is the one that sent it, or awaited another request
before. -/
theorem Linked.awaits_ask (linked : Linked hashRefreshToken session world) {retried : Bool}
    (inFlight : provider.inFlight = some (request, retried))
    (unused : world.exchanges request = .unused) {other : Nat} {state : TokenProvider} {asked : Nat}
    (awaits : ((world.withProvider name (some provider)).send request provider.refreshToken
      readable).Awaits other state asked) :
    (other = name ∧ state = provider ∧ asked = request) ∨
      (other ≠ name ∧ asked ≠ request ∧ world.Awaits other state asked) := by
  obtain ⟨provided, tried, flight⟩ := awaits
  have found : (world.withProvider name (some provider)).providers other = some state := provided
  rw [providers_with] at found
  split at found
  · rename_i same
    cases found
    rw [inFlight] at flight
    exact Or.inl ⟨same, rfl, (Prod.mk.inj (Option.some.inj flight)).1.symm⟩
  · rename_i differs
    refine Or.inr ⟨differs, ?_, found, tried, flight⟩
    rintro rfl
    exact linked.used other state asked ⟨found, tried, flight⟩ unused

/-- A request brings no token that was not held before. -/
theorem holds_ask (held : world.Holds provider.refreshToken) {token : String}
    (holds : ((world.withProvider name (some provider)).send request provider.refreshToken
      readable).Holds token) : world.Holds token := by
  obtain file | ⟨other, state, provided, rfl⟩ | ⟨asked, asks⟩ := holds
  · exact Or.inl file
  · have found : (world.withProvider name (some provider)).providers other = some state := provided
    rw [providers_with] at found
    split at found
    · cases found
      exact held
    · exact Or.inr (Or.inl ⟨other, state, found, rfl⟩)
  · obtain ⟨_, sent | ⟨_, missed⟩⟩ | ⟨_, asks⟩ := asks_moved rfl asks
    · obtain rfl := Exchange.sent.inj sent
      exact held
    · contradiction
    · exact asks_holds asks

/-- A provider sends a request with a token that is held, informed only of the current one. -/
theorem Linked.ask (linked : Linked hashRefreshToken session world) {retried : Bool}
    (inFlight : provider.inFlight = some (request, retried))
    (unused : world.exchanges request = .unused) (held : world.Holds provider.refreshToken)
    (current : (readable && world.written) = true →
      hashRefreshToken provider.refreshToken = session.refreshTokenHash) :
    Linked hashRefreshToken session
      ((world.withProvider name (some provider)).send request provider.refreshToken readable) := by
  have moved : ((world.withProvider name (some provider)).send request provider.refreshToken
      readable).exchanges = update world.exchanges request (.sent provider.refreshToken) := rfl
  have before {other : Nat} {state : TokenProvider} {asked : Nat}
      (awaits : ((world.withProvider name (some provider)).send request provider.refreshToken
        readable).Awaits other state asked) := linked.awaits_ask inFlight unused awaits
  have fewer (token : String) (holds : ((world.withProvider name (some provider)).send request
      provider.refreshToken readable).Holds token) := holds_ask held holds
  generalize isNext : (world.withProvider name (some provider)).send request provider.refreshToken
    readable = next at moved before fewer ⊢
  have notGranted {token : String} (grants : next.Grants request token) : False := by
    obtain ⟨_, _, answered⟩ | ⟨differs, _⟩ := grants_moved moved grants
    · contradiction
    · exact differs rfl
  have sameWritten : next.written = world.written := by rw [← isNext]; rfl
  refine ⟨?_, linked.valid, linked.replaced, ?_, ?_, ?_, ?_, ?_, ?_, ?_, ?_⟩
  · rw [← isNext]
    exact linked.single
  · rw [← isNext]
    exact linked.kept
  · intro asked token isInformed asks
    have noted : next.informed = update world.informed request (readable && world.written) := by
      rw [← isNext]
      rfl
    rw [noted, update_apply] at isInformed
    obtain ⟨rfl, sent | ⟨_, missed⟩⟩ | ⟨differs, asks⟩ := asks_moved moved asks
    · obtain rfl := Exchange.sent.inj sent
      rw [if_pos rfl] at isInformed
      exact current isInformed
    · contradiction
    · rw [if_neg differs] at isInformed
      exact linked.informed asked token isInformed asks
  · intro asked familyId now
    rw [moved, update_apply]
    split
    · simp
    · exact linked.uncondemned asked familyId now
  · intro other state asked awaits
    rw [moved, update_apply]
    split
    · simp
    · rename_i differs
      obtain ⟨_, _, same⟩ | ⟨_, _, awaits⟩ := before awaits
      · exact absurd same differs
      · exact linked.used other state asked awaits
  · intro first second one two asked awaitsOne awaitsTwo
    obtain ⟨rfl, _, rfl⟩ | ⟨_, differs, awaitsOne⟩ := before awaitsOne
    · obtain ⟨rfl, _, _⟩ | ⟨_, differs, _⟩ := before awaitsTwo
      · rfl
      · exact absurd rfl differs
    · obtain ⟨_, _, same⟩ | ⟨_, _, awaitsTwo⟩ := before awaitsTwo
      · exact absurd same differs
      · exact linked.alone first second one two asked awaitsOne awaitsTwo
  · intro other state asked token awaits asks
    obtain ⟨_, rfl, rfl⟩ | ⟨_, differs, awaits⟩ := before awaits
    · obtain ⟨_, sent | ⟨_, missed⟩⟩ | ⟨differs, _⟩ := asks_moved moved asks
      · exact (Exchange.sent.inj sent).symm
      · contradiction
      · exact absurd rfl differs
    · obtain ⟨same, _⟩ | ⟨_, asks⟩ := asks_moved moved asks
      · exact absurd same differs
      · exact linked.presented other state asked token awaits asks
  · intro other state asked token awaits grants
    obtain ⟨_, _, rfl⟩ | ⟨_, differs, awaits⟩ := before awaits
    · exact (notGranted grants).elim
    · obtain ⟨same, _⟩ | ⟨_, grants⟩ := grants_moved moved grants
      · exact absurd same differs
      · exact (linked.replied other state asked token awaits grants).imp_right
          (fun unclaimed => unclaimed.fewer sameWritten fewer)
  · intro first second one two asked other token successor awaitsOne awaitsTwo grantsOne grantsTwo
    obtain ⟨_, _, rfl⟩ | ⟨_, differsOne, awaitsOne⟩ := before awaitsOne
    · exact (notGranted grantsOne).elim
    obtain ⟨_, _, rfl⟩ | ⟨_, differsTwo, awaitsTwo⟩ := before awaitsTwo
    · exact (notGranted grantsTwo).elim
    obtain ⟨same, _⟩ | ⟨_, grantsOne⟩ := grants_moved moved grantsOne
    · exact absurd same differsOne
    obtain ⟨same, _⟩ | ⟨_, grantsTwo⟩ := grants_moved moved grantsTwo
    · exact absurd same differsTwo
    exact linked.once first second one two asked other token successor awaitsOne awaitsTwo grantsOne
      grantsTwo

/-- A handler goes on with the token it was sent, or answers without a new one. -/
theorem Linked.handle (linked : Linked hashRefreshToken session world)
    {exchange : Exchange} (asks : world.Asks request refreshToken)
    (goesOn : (∃ now, exchange = .missed refreshToken now) ∨
      (∃ accessToken, exchange = .answered (.refreshed accessToken refreshToken)) ∨
      (∃ error, exchange = .answered (.unauthorized error)) ∨ exchange = .dropped) :
    Linked hashRefreshToken session (world.withExchange request exchange) := by
  have moved : (world.withExchange request exchange).exchanges =
      update world.exchanges request exchange := rfl
  have asked {other : Nat} {token : String} (asksNow : (world.withExchange request exchange).Asks other token) :
      world.Asks other token := by
    obtain ⟨rfl, sent | ⟨now, missed⟩⟩ | ⟨_, already⟩ := asks_moved moved asksNow
    · obtain ⟨_, rfl⟩ | ⟨_, rfl⟩ | ⟨_, rfl⟩ | rfl := goesOn <;> contradiction
    · obtain ⟨_, rfl⟩ | ⟨_, rfl⟩ | ⟨_, rfl⟩ | rfl := goesOn
      · obtain ⟨rfl, _⟩ := Exchange.missed.inj missed
        exact asks
      · contradiction
      · contradiction
      · contradiction
    · exact already
  have granted {other : Nat} {token : String} (grants : (world.withExchange request exchange).Grants other token) :
      (other = request ∧ token = refreshToken) ∨ (other ≠ request ∧ world.Grants other token) := by
    obtain ⟨rfl, _, answered⟩ | already := grants_moved moved grants
    · obtain ⟨_, rfl⟩ | ⟨_, rfl⟩ | ⟨_, rfl⟩ | rfl := goesOn
      · contradiction
      · injection answered with answered
        injection answered with _ same
        exact Or.inl ⟨rfl, same.symm⟩
      · injection answered with answered
        contradiction
      · contradiction
    · exact Or.inr already
  have fewer (token : String) (holds : (world.withExchange request exchange).Holds token) :
      world.Holds token := by
    obtain file | provider | ⟨other, asksNow⟩ := holds
    · exact Or.inl file
    · exact Or.inr (Or.inl provider)
    · exact asks_holds (asked asksNow)
  -- the token that is echoed is the one its provider presented
  have echoed {name : Nat} {provider : TokenProvider} (awaits : world.Awaits name provider request) :
      refreshToken = provider.refreshToken :=
    linked.presented name provider request refreshToken awaits asks
  refine ⟨linked.single, linked.valid, linked.replaced, linked.kept, ?_, ?_, ?_, linked.alone, ?_, ?_, ?_⟩
  · intro other token isInformed asksNow
    exact linked.informed other token isInformed (asked asksNow)
  · intro other familyId now
    rw [exchanges_with]
    split
    · obtain ⟨_, rfl⟩ | ⟨_, rfl⟩ | ⟨_, rfl⟩ | rfl := goesOn <;> simp
    · exact linked.uncondemned other familyId now
  · intro name provider other awaits
    rw [exchanges_with]
    split
    · obtain ⟨_, rfl⟩ | ⟨_, rfl⟩ | ⟨_, rfl⟩ | rfl := goesOn <;> simp
    · exact linked.used name provider other awaits
  · intro name provider other token awaits asksNow
    exact linked.presented name provider other token awaits (asked asksNow)
  · intro name provider other token awaits grants
    obtain ⟨rfl, rfl⟩ | ⟨_, already⟩ := granted grants
    · exact Or.inl (echoed awaits)
    · exact (linked.replied name provider other token awaits already).imp_right
        (fun unclaimed => unclaimed.fewer rfl fewer)
  · intro first second one two one' two' token successor awaitsOne awaitsTwo grantsOne grantsTwo
      newOne newTwo
    obtain ⟨rfl, rfl⟩ | ⟨_, grantsOne⟩ := granted grantsOne
    · exact absurd (echoed awaitsOne) newOne
    obtain ⟨rfl, rfl⟩ | ⟨_, grantsTwo⟩ := granted grantsTwo
    · exact absurd (echoed awaitsTwo) newTwo
    exact linked.once first second one two one' two' token successor awaitsOne awaitsTwo grantsOne
      grantsTwo newOne newTwo

/-! ## Rotations and their replies -/

/-- The session after a rotation. -/
def successor (session : DeviceSession) (presented nextHash : String) (now : Int) : DeviceSession :=
  { session with
    refreshTokenHash := nextHash
    previousRefreshTokenHash := some presented
    previousRotatedAt := some now
    lastRefreshedAt := some now }

/-- While a request presents the current token, no reply carries an unclaimed one. -/
theorem Linked.echoes (linked : Linked hashRefreshToken session world)
    (asks : world.Asks request refreshToken)
    (current : hashRefreshToken refreshToken = session.refreshTokenHash) {other : Nat}
    {token : String} (awaits : world.Awaits name provider other)
    (grants : world.Grants other token) : token = provider.refreshToken := by
  obtain echo | unclaimed := linked.replied name provider other token awaits grants
  · exact echo
  · exact absurd current (unclaimed.2.2 refreshToken (asks_holds asks))

/-- A rotation starts an unclaimed token. -/
theorem Linked.rotate (linked : Linked hashRefreshToken session world)
    {next : String} {now : Int} (sent : world.exchanges request = .sent refreshToken)
    (drawn : ∀ held, world.Holds held → hashRefreshToken held ≠ hashRefreshToken next)
    (current : session.refreshTokenHash = hashRefreshToken refreshToken) {rotated : World}
    (accessToken : AccessToken)
    (isRotated : rotated =
      { world.withExchange request (.answered (.refreshed accessToken next)) with
        sessions := [successor session (hashRefreshToken refreshToken) (hashRefreshToken next) now]
        written := false
        informed := fun _ => false }) :
    Linked hashRefreshToken
      (successor session (hashRefreshToken refreshToken) (hashRefreshToken next) now) rotated := by
  have moved : rotated.exchanges =
      update world.exchanges request (.answered (.refreshed accessToken next)) := by
    rw [isRotated]
    rfl
  have asks : world.Asks request refreshToken := Or.inl sent
  have asked {other : Nat} {token : String} (asksNow : rotated.Asks other token) :
      other ≠ request ∧ world.Asks other token := by
    obtain ⟨_, impossible | ⟨_, impossible⟩⟩ | already := asks_moved moved asksNow
    · contradiction
    · contradiction
    · exact already
  have granted {other : Nat} {token : String} (grants : rotated.Grants other token) :
      (other = request ∧ token = next) ∨ (other ≠ request ∧ world.Grants other token) := by
    obtain ⟨same, _, answered⟩ | already := grants_moved moved grants
    · injection answered with answered
      injection answered with _ isNext
      exact Or.inl ⟨same, isNext.symm⟩
    · exact Or.inr already
  have before {name other : Nat} {provider : TokenProvider} (awaits : rotated.Awaits name provider other) :
      world.Awaits name provider other := by
    rw [isRotated] at awaits
    exact awaits
  have fewer (token : String) (holds : rotated.Holds token) : world.Holds token := by
    obtain file | provider | ⟨other, asksNow⟩ := holds
    · rw [isRotated] at file
      exact Or.inl file
    · rw [isRotated] at provider
      exact Or.inr (Or.inl provider)
    · exact asks_holds (asked asksNow).2
  have echoed {name other : Nat} {provider : TokenProvider} {token : String}
      (awaits : world.Awaits name provider other) (grants : world.Grants other token) :
      token = provider.refreshToken := linked.echoes asks current.symm awaits grants
  refine ⟨?_, linked.valid, ?_, ?_, ?_, ?_, ?_, ?_, ?_, ?_, ?_⟩
  · rw [isRotated]
  · rintro previous ⟨⟩
    exact ⟨drawn refreshToken (asks_holds asks), now, rfl⟩
  · intro written
    rw [isRotated] at written
    contradiction
  · intro other token isInformed
    rw [isRotated] at isInformed
    contradiction
  · intro other familyId at_
    rw [moved, update_apply]
    split
    · simp
    · exact linked.uncondemned other familyId at_
  · intro name provider other awaits
    rw [moved, update_apply]
    split
    · simp
    · exact linked.used name provider other (before awaits)
  · intro first second one two other awaitsOne awaitsTwo
    exact linked.alone first second one two other (before awaitsOne) (before awaitsTwo)
  · intro name provider other token awaits asksNow
    exact linked.presented name provider other token (before awaits) (asked asksNow).2
  · intro name provider other token awaits grants
    obtain ⟨rfl, rfl⟩ | ⟨_, grants⟩ := granted grants
    · right
      refine ⟨rfl, by rw [isRotated], ?_⟩
      intro held holds
      exact drawn held (fewer held holds)
    · exact Or.inl (echoed (before awaits) grants)
  · intro first second one two one' two' token other awaitsOne awaitsTwo grantsOne grantsTwo newOne newTwo
    obtain ⟨rfl, rfl⟩ | ⟨_, grantsOne⟩ := granted grantsOne
    · obtain ⟨rfl, rfl⟩ | ⟨_, grantsTwo⟩ := granted grantsTwo
      · exact linked.alone first second one two _ (before awaitsOne) (before awaitsTwo)
      · exact absurd (echoed (before awaitsTwo) grantsTwo) newTwo
    · exact absurd (echoed (before awaitsOne) grantsOne) newOne

/-- A provider that gets an unclaimed token keeps it, and may write it. -/
theorem Linked.claim (linked : Linked hashRefreshToken session world)
    (awaits : world.Awaits name provider request)
    (grants : world.Grants request refreshToken) (new : refreshToken ≠ provider.refreshToken)
    {state : TokenProvider} (rests : state.inFlight = none) (writes : Bool)
    (isNext : next = if writes then
        (world.withProvider name (some state)).persist hashRefreshToken refreshToken
      else world.withProvider name (some state)) :
    Linked hashRefreshToken session next := by
  obtain echo | ⟨isCurrent, unwritten, unheld⟩ :=
    linked.replied name provider request refreshToken awaits grants
  · exact absurd echo new
  have sameExchanges : next.exchanges = world.exchanges := by
    rw [isNext]
    split <;> rfl
  have sameProviders : next.providers = (world.withProvider name (some state)).providers := by
    rw [isNext]
    split <;> rfl
  have before {other asked : Nat} {waiting : TokenProvider} (awaitsNow : next.Awaits other waiting asked) :
      other ≠ name ∧ world.Awaits other waiting asked := by
    rw [Awaits, sameProviders] at awaitsNow
    have stays : ∀ provider, some state = some provider → provider.inFlight = none := by
      rintro _ ⟨⟩
      exact rests
    exact awaits_rest stays awaitsNow
  have asked {other : Nat} {token : String} (asksNow : next.Asks other token) : world.Asks other token := by
    rw [Asks, sameExchanges] at asksNow
    exact asksNow
  have granted {other : Nat} {token : String} (grantsNow : next.Grants other token) :
      world.Grants other token := by
    rw [Grants, sameExchanges] at grantsNow
    exact grantsNow
  -- another reply with an unclaimed token would be awaited by the same provider
  have echoed {other asked : Nat} {waiting : TokenProvider} {token : String} (differs : other ≠ name)
      (awaitsNow : world.Awaits other waiting asked) (grantsNow : world.Grants asked token) :
      token = waiting.refreshToken := by
    by_contra alsoNew
    exact differs (linked.once other name waiting provider asked request token refreshToken awaitsNow
      awaits grantsNow grants alsoNew new)
  refine ⟨?_, linked.valid, linked.replaced, ?_, ?_, ?_, ?_, ?_, ?_, ?_, ?_⟩
  · rw [isNext]
    split <;> exact linked.single
  · intro isWritten
    rw [isNext] at isWritten ⊢
    cases writes with
    | true => exact ⟨refreshToken, rfl, isCurrent⟩
    | false => exact absurd isWritten (by simp [withProvider, unwritten])
  · intro other token isInformed asksNow
    have noted : world.informed other = true := by
      rw [isNext] at isInformed
      cases writes <;> exact isInformed
    exact linked.informed other token noted (asked asksNow)
  · rw [sameExchanges]
    exact linked.uncondemned
  · intro other waiting other' awaitsNow
    rw [sameExchanges]
    exact linked.used other waiting other' (before awaitsNow).2
  · intro first second one two other awaitsOne awaitsTwo
    exact linked.alone first second one two other (before awaitsOne).2 (before awaitsTwo).2
  · intro other waiting other' token awaitsNow asksNow
    exact linked.presented other waiting other' token (before awaitsNow).2 (asked asksNow)
  · intro other waiting other' token awaitsNow grantsNow
    obtain ⟨differs, already⟩ := before awaitsNow
    exact Or.inl (echoed differs already (granted grantsNow))
  · intro first second one two one' two' token other awaitsOne awaitsTwo grantsOne grantsTwo newOne
    obtain ⟨differs, already⟩ := before awaitsOne
    exact absurd (echoed differs already (granted grantsOne)) newOne

/-! ## Steps -/

/-- An attempt that reads the file once the last rotation was written presents the current token. -/
theorem Linked.adopt_current
    (linked : Linked hashRefreshToken session world) (refreshToken : String)
    (informed : (readable && world.written) = true) :
    hashRefreshToken (adopt refreshToken (world.read readable)) = session.refreshTokenHash := by
  rw [Bool.and_eq_true] at informed
  obtain ⟨onDisk, isFile, isCurrent⟩ := linked.kept informed.2
  have reads : world.read readable = some onDisk := by rw [read, if_pos informed.1, isFile]
  rw [reads, adopt_some]
  exact isCurrent

/-- The first statement rotates the session, or leaves it. -/
theorem Linked.rotate_step (linked : Linked hashRefreshToken session world)
    {next : String} {now : Int} (sent : world.exchanges request = .sent refreshToken)
    (drawn : ∀ held, world.Holds held → hashRefreshToken held ≠ hashRefreshToken next) :
    ∃ session, Linked hashRefreshToken session
      (world.rotate hashRefreshToken request refreshToken now next) := by
  cases isCurrent : session.current (hashRefreshToken refreshToken) now with
  | true =>
    have same : session.refreshTokenHash = hashRefreshToken refreshToken := by
      simp only [DeviceSession.current, Bool.and_eq_true, decide_eq_true_eq] at isCurrent
      exact isCurrent.1.1
    refine ⟨successor session _ _ now, linked.rotate sent drawn same session.accessToken ?_⟩
    simp only [World.rotate, rotateCurrent, linked.single, List.filter_cons, List.map_cons, isCurrent,
      ↓reduceIte, List.filter_nil, List.map_nil]
    rfl
  | false =>
    refine ⟨session, ?_⟩
    simp only [World.rotate, rotateCurrent, linked.single, List.filter_cons, List.map_cons, isCurrent,
      Bool.false_eq_true, ↓reduceIte, List.filter_nil, List.map_nil]
    exact linked.handle (Or.inl sent) (Or.inl ⟨now, rfl⟩)

/-- The second statement answers a timely request. -/
theorem Linked.look_up_step (linked : Linked hashRefreshToken session world)
    {now : Int} (missed : world.exchanges request = .missed refreshToken now)
    (timely : Timely world (.lookUp request)) :
    Linked hashRefreshToken session (world.lookUp hashRefreshToken request refreshToken now) := by
  have asks : world.Asks request refreshToken := Or.inr ⟨now, missed⟩
  by_cases replays : session.previousRefreshTokenHash = some (hashRefreshToken refreshToken)
  · obtain ⟨differs, rotatedAt, rotated⟩ := linked.replaced _ replays
    have graceful : session.graceful now = true := by
      by_contra late
      simp only [DeviceSession.graceful, rotated, linked.valid, Option.isNone_none, Bool.and_true,
        decide_eq_true_eq, Int.not_le] at late
      have isInformed := timely now (by rw [missed]; rfl) session (by simp [linked.single]) rotatedAt
        rotated late
      exact differs (linked.informed request refreshToken isInformed asks)
    have found : findPrior world.sessions (hashRefreshToken refreshToken) = some session := by
      simp [findPrior, linked.single, replays]
    simp only [World.lookUp, found, judge, graceful, ↓reduceIte]
    exact linked.handle asks (Or.inr (Or.inl ⟨_, rfl⟩))
  · have absent : findPrior world.sessions (hashRefreshToken refreshToken) = none := by
      simp [findPrior, linked.single, replays]
    simp only [World.lookUp, absent, judge]
    exact linked.handle asks (Or.inr (Or.inr (Or.inl ⟨_, rfl⟩)))

/-- A reply keeps the links. -/
theorem Linked.receive_step (linked : Linked hashRefreshToken session world)
    {retried : Bool} {retry : Nat} {writes : Bool}
    {response : Response} (awaits : world.Awaits name provider request)
    (answered : world.exchanges request = .answered response)
    (taken : world.receive hashRefreshToken name provider retried retry readable writes response =
      some next) : Linked hashRefreshToken session next := by
  have keeps : world.Holds provider.refreshToken := awaits_holds awaits
  cases response with
  | refreshed accessToken refreshToken =>
    have grants : world.Grants request refreshToken := ⟨accessToken, answered⟩
    by_cases new : refreshToken = provider.refreshToken
    · simp only [World.receive, TokenProvider.refreshed, new, ne_eq, not_true_eq_false, ↓reduceIte,
        Option.some.injEq] at taken
      rw [← taken]
      apply linked.rest name
      rintro _ ⟨⟩
      exact ⟨rfl, keeps⟩
    · simp only [World.receive, TokenProvider.refreshed, new, ne_eq, not_false_eq_true, ↓reduceIte,
        Option.some.injEq] at taken
      have rests : (TokenProvider.mk refreshToken provider.dead none).inFlight = none := rfl
      exact linked.claim awaits grants new rests writes taken.symm
  | unauthorized error =>
    have dies : Linked hashRefreshToken session
        (world.withProvider name (some { provider with dead := true, inFlight := none })) := by
      apply linked.rest name
      rintro _ ⟨⟩
      exact ⟨rfl, keeps⟩
    cases reads : world.read readable with
    | none =>
      simp only [World.receive, TokenProvider.rejected, reads, Bool.false_eq_true, ↓reduceIte,
        Option.some.injEq] at taken
      rw [← taken]
      exact dies
    | some onDisk =>
      by_cases newer : retried = false ∧ onDisk ≠ provider.refreshToken
      · simp only [World.receive, TokenProvider.rejected, reads, newer, not_false_eq_true, and_self,
          ↓reduceIte, ne_eq] at taken
        split at taken
        · rename_i unused
          rw [← Option.some.inj taken]
          have held : world.Holds onDisk := by
            cases readable with
            | true => exact Or.inl reads
            | false => contradiction
          have retrying : (TokenProvider.mk onDisk provider.dead (some (retry, true))).inFlight =
              some (retry, true) := rfl
          apply linked.ask retrying unused held
          intro informed
          have isCurrent := linked.adopt_current provider.refreshToken informed
          rw [reads, adopt_some] at isCurrent
          exact isCurrent
        · contradiction
      · simp only [World.receive, TokenProvider.rejected, reads, newer, Bool.false_eq_true, ↓reduceIte,
          Option.some.injEq] at taken
        rw [← taken]
        exact dies

/-- Every step that draws a new token and is timely keeps the links. -/
theorem Linked.step (linked : Linked hashRefreshToken session world) {event : Event}
    (draws : DrawsNew hashRefreshToken world event) (timely : Timely world event)
    (taken : step hashRefreshToken world event = some next) :
    ∃ session, Linked hashRefreshToken session next := by
  cases event with
  | launch name =>
    simp only [World.step] at taken
    split at taken
    · rename_i refreshToken _ isFile
      rw [← Option.some.inj taken]
      refine ⟨session, linked.rest name ?_⟩
      rintro _ ⟨⟩
      exact ⟨rfl, Or.inl isFile⟩
    · contradiction
  | crash name =>
    rw [← Option.some.inj taken]
    exact ⟨session, linked.rest name (by simp)⟩
  | present name request readable =>
    simp only [World.step] at taken
    split at taken
    · rename_i refreshToken provided unused
      rw [← Option.some.inj taken]
      have held : world.Holds refreshToken := Or.inr (Or.inl ⟨name, _, provided, rfl⟩)
      exact ⟨session, linked.ask rfl unused (adopt_holds held readable)
        (linked.adopt_current refreshToken)⟩
    · contradiction
  | rotate request now drawn =>
    simp only [World.step] at taken
    split at taken
    · rename_i refreshToken sent
      rw [← Option.some.inj taken]
      exact linked.rotate_step sent draws
    · contradiction
  | lookUp request =>
    simp only [World.step] at taken
    split at taken
    · rename_i refreshToken now missed
      rw [← Option.some.inj taken]
      exact ⟨session, linked.look_up_step missed timely⟩
    · contradiction
  | revoke request =>
    simp only [World.step] at taken
    split at taken
    · rename_i familyId now condemned
      exact absurd condemned (linked.uncondemned request familyId now)
    · contradiction
  | drop request =>
    simp only [World.step] at taken
    split at taken
    · rename_i presented sent
      rw [← Option.some.inj taken]
      exact ⟨session, linked.handle (Or.inl sent) (Or.inr (Or.inr (Or.inr rfl)))⟩
    · rename_i presented now missed
      rw [← Option.some.inj taken]
      exact ⟨session, linked.handle (Or.inr ⟨now, missed⟩) (Or.inr (Or.inr (Or.inr rfl)))⟩
    · contradiction
  | receive name retry readable writes =>
    simp only [World.step] at taken
    split at taken
    · rename_i refreshToken dead request retried provided
      split at taken
      · rename_i response answered
        exact ⟨session, linked.receive_step ⟨provided, retried, rfl⟩ answered taken⟩
      · contradiction
    · contradiction
  | fail name =>
    simp only [World.step] at taken
    split at taken
    · rename_i refreshToken dead flight provided
      rw [← Option.some.inj taken]
      refine ⟨session, linked.rest name ?_⟩
      rintro _ ⟨⟩
      exact ⟨rfl, Or.inr (Or.inl ⟨name, _, provided, rfl⟩)⟩
    · contradiction

/-- A session that was just issued is linked to its file. -/
theorem issued_linked (issued : world.Issued hashRefreshToken refreshToken) :
    ∃ session, Linked hashRefreshToken session world := by
  obtain ⟨session, single, isFile, isCurrent, noPrevious, _, valid, _, noProviders, unused⟩ := issued
  have waitless {name : Nat} {provider : TokenProvider} {request : Nat}
      (awaits : world.Awaits name provider request) : False := by
    rw [Awaits, noProviders name] at awaits
    exact absurd awaits.1 (by simp)
  refine ⟨session, single, valid, ?_, ?_, ?_, ?_, ?_, ?_, ?_, ?_, ?_⟩
  · simp [noPrevious]
  · exact fun _ => ⟨refreshToken, isFile, isCurrent.symm⟩
  · intro request token isInformed
    rw [(unused request).2] at isInformed
    contradiction
  · intro request familyId now
    rw [(unused request).1]
    simp
  · intro _ _ _ awaits
    exact (waitless awaits).elim
  · intro _ _ _ _ _ awaits
    exact (waitless awaits).elim
  · intro _ _ _ _ awaits
    exact (waitless awaits).elim
  · intro _ _ _ _ awaits
    exact (waitless awaits).elim
  · intro _ _ _ _ _ _ _ _ awaits
    exact (waitless awaits).elim

/-! ## Runs -/

/-- Only the file of a session that was just issued has a token. -/
theorem issued_known {token : String}
    (issued : world.Issued hashRefreshToken refreshToken) (known : world.Known token) :
    token = refreshToken := by
  obtain ⟨_, _, isFile, _, _, _, _, _, noProviders, unused⟩ := issued
  obtain (file | ⟨name, provider, provided, _⟩ | ⟨request, sent | ⟨now, missed⟩⟩) |
    ⟨request, _, answered⟩ := known
  · exact (Option.some.inj (isFile.symm.trans file)).symm
  · exact absurd (provided.symm.trans (noProviders name)) (by simp)
  · exact absurd (sent.symm.trans (unused request).1) (by simp)
  · exact absurd (missed.symm.trans (unused request).1) (by simp)
  · exact absurd (answered.symm.trans (unused request).1) (by simp)

/-- A linked session is trusted. -/
theorem linked_trusted (linked : Linked hashRefreshToken session world) : world.Trusted := by
  refine ⟨?_, linked.uncondemned⟩
  intro member isMember
  rw [linked.single, List.mem_singleton] at isMember
  exact isMember ▸ linked.valid

/-- The links hold along every timely run that draws new tokens. -/
theorem timely_trusted {start : World} {events : List Event}
    (linked : ∃ session, Linked hashRefreshToken session start)
    (draws : Always (step hashRefreshToken)
      (fun world event _ => DrawsNew hashRefreshToken world event) start events)
    (timely : Always (step hashRefreshToken) (fun world event _ => Timely world event) start events) :
    Always (step hashRefreshToken) (fun _ _ next => Trusted next) start events := by
  apply always_under (fun world => ∃ session, Linked hashRefreshToken session world)
    (fun world event => DrawsNew hashRefreshToken world event ∧ Timely world event) _ ?_
    linked (always_and draws timely)
  rintro world event next ⟨session, links⟩ ⟨drawsNow, timelyNow⟩ taken
  obtain ⟨after, kept⟩ := links.step drawsNow timelyNow taken
  exact ⟨⟨after, kept⟩, linked_trusted kept⟩

end Kvy.Auth.World
