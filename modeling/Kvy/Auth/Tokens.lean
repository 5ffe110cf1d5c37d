import Kvy.Auth.Rotation

/-!
# Where tokens come from

Every token that is presented, kept or granted in a run was in the credentials file at its
start or was drawn by a handler. Tokens drawn with distinct hashes are therefore new to
everyone when they are drawn.
-/

namespace Kvy.Auth.World

open General Cli.Auth Server.App.Refresh Function Runs

/-- The request is answered by a token. -/
def Grants (world : World) (request : Nat) (refreshToken : String) : Prop :=
  ∃ accessToken, world.exchanges request = .answered (.refreshed accessToken refreshToken)

/-- Someone has the token, or a reply carries it. -/
def Known (world : World) (refreshToken : String) : Prop :=
  world.Holds refreshToken ∨ ∃ request, world.Grants request refreshToken

/-- The tokens a list of events draws. -/
def drawn (events : List Event) : List String :=
  events.filterMap (fun event =>
    match event with
    | .rotate _ _ next => some next
    | _ => none)

variable {hashRefreshToken : String → String} {world : World}

variable {exchange : Exchange}

/-- A request with the start of a handler that rotated nothing has missed. -/
theorem missed_at {now : Int} (missedAt : exchange.missedAt = some now) :
    ∃ refreshToken, exchange = .missed refreshToken now := by
  cases exchange with
  | missed refreshToken started =>
    cases missedAt
    exact ⟨refreshToken, rfl⟩
  | unused | sent | condemned | answered | dropped => contradiction

variable {refreshToken : String} {request : Nat}

/-- A token that a request presents is held. -/
theorem asks_holds (asks : world.Asks request refreshToken) :
    world.Holds refreshToken := Or.inr (Or.inr ⟨request, asks⟩)

/-- Only the named provider changes. -/
theorem providers_with (name : Nat) (state : Option TokenProvider) (other : Nat) :
    (world.withProvider name state).providers other =
      if other = name then state else world.providers other :=
  update_apply world.providers name state other

variable {name : Nat}

/-- What is held after a provider changes. -/
theorem holds_with {state : Option TokenProvider} {held : String}
    (holds : (world.withProvider name state).Holds held) :
    world.Holds held ∨ ∃ provider, state = some provider ∧ provider.refreshToken = held := by
  obtain file | ⟨other, provider, found, same⟩ | asked := holds
  · exact Or.inl (Or.inl file)
  · rw [providers_with] at found
    split at found
    · exact Or.inr ⟨provider, found, same⟩
    · exact Or.inl (Or.inr (Or.inl ⟨other, provider, found, same⟩))
  · exact Or.inl (Or.inr (Or.inr asked))

/-- Only the named request moves on. -/
theorem exchanges_with (request : Nat) (exchange : Exchange) (other : Nat) :
    (world.withExchange request exchange).exchanges other =
      if other = request then exchange else world.exchanges other :=
  update_apply world.exchanges request exchange other

variable {next : World}

/-- What a request that moves on asks for. -/
theorem asks_moved
    {other : Nat}     (moved : next.exchanges = update world.exchanges request exchange)
    (asks : next.Asks other refreshToken) :
    (other = request ∧ (exchange = .sent refreshToken ∨ ∃ now, exchange = .missed refreshToken now)) ∨
      (other ≠ request ∧ world.Asks other refreshToken) := by
  simp only [Asks, moved, update_apply] at asks
  split at asks
  · rename_i same
    exact Or.inl ⟨same, asks⟩
  · rename_i differs
    exact Or.inr ⟨differs, asks⟩

/-- What a request that moves on is granted. -/
theorem grants_moved
    {other : Nat}     (moved : next.exchanges = update world.exchanges request exchange)
    (grants : next.Grants other refreshToken) :
    (other = request ∧ ∃ accessToken, exchange = .answered (.refreshed accessToken refreshToken)) ∨
      (other ≠ request ∧ world.Grants other refreshToken) := by
  simp only [Grants, moved, update_apply] at grants
  split at grants
  · rename_i same
    exact Or.inl ⟨same, grants⟩
  · rename_i differs
    exact Or.inr ⟨differs, grants⟩

/-! ## Steps -/

/-- A token known after a provider changes was known, or is the provider's. -/
theorem known_with {state : Option TokenProvider}
    (known : (world.withProvider name state).Known refreshToken) :
    world.Known refreshToken ∨
      ∃ provider, state = some provider ∧ provider.refreshToken = refreshToken := by
  obtain holds | granted := known
  · exact (holds_with holds).imp_left Or.inl
  · exact Or.inl (Or.inr granted)

/-- A token known after a request moves on was known, or the request carries it. -/
theorem known_moved
    (moved : next.exchanges = update world.exchanges request exchange) (file : next.file = world.file)
    (providers : next.providers = world.providers) (known : next.Known refreshToken) :
    world.Known refreshToken ∨ exchange = .sent refreshToken ∨
      (∃ now, exchange = .missed refreshToken now) ∨
      ∃ accessToken, exchange = .answered (.refreshed accessToken refreshToken) := by
  obtain (isFile | ⟨name, provider, found, same⟩ | ⟨other, asks⟩) | ⟨other, grants⟩ := known
  · exact Or.inl (Or.inl (Or.inl (file.symm.trans isFile)))
  · exact Or.inl (Or.inl (Or.inr (Or.inl ⟨name, provider, providers ▸ found, same⟩)))
  · obtain ⟨_, sent | missed⟩ | ⟨_, asks⟩ := asks_moved moved asks
    · exact Or.inr (Or.inl sent)
    · exact Or.inr (Or.inr (Or.inl missed))
    · exact Or.inl (Or.inl (asks_holds asks))
  · obtain ⟨_, granted⟩ | ⟨_, grants⟩ := grants_moved moved grants
    · exact Or.inr (Or.inr (Or.inr granted))
    · exact Or.inl (Or.inr ⟨other, grants⟩)

/-- A token read from the file, or kept where it cannot be read, was held. -/
theorem adopt_holds (held : world.Holds refreshToken) (readable : Bool) :
    world.Holds (adopt refreshToken (world.read readable)) := by
  cases found : world.read readable with
  | none => exact held
  | some onDisk =>
    rw [adopt_some]
    cases readable with
    | true => exact Or.inl found
    | false => contradiction

/-- A provider that sends a known token makes no other known. -/
theorem known_sent {provider : TokenProvider} {readable : Bool}
    (held : world.Holds provider.refreshToken)
    (known : ((world.withProvider name (some provider)).send request provider.refreshToken
      readable).Known refreshToken) : world.Known refreshToken := by
  have moved : ((world.withProvider name (some provider)).send request provider.refreshToken
      readable).exchanges =
    update (world.withProvider name (some provider)).exchanges request
      (.sent provider.refreshToken) := rfl
  obtain before | sent | ⟨_, missed⟩ | ⟨_, answered⟩ := known_moved moved rfl rfl known
  · obtain already | ⟨_, ⟨rfl⟩, rfl⟩ := known_with before
    · exact already
    · exact Or.inl held
  · obtain rfl := Exchange.sent.inj sent
    exact Or.inl held
  · contradiction
  · contradiction

/-- A reply makes no token known that it does not carry. -/
theorem known_received {retry : Nat} {provider : TokenProvider}
    {retried readable writes : Bool} {response : Response}     (found : world.providers name = some provider)
    (answered : world.exchanges request = .answered response)
    (taken : world.receive hashRefreshToken name provider retried retry readable writes response =
      some next) (known : next.Known refreshToken) : world.Known refreshToken := by
  have held : world.Holds provider.refreshToken := Or.inr (Or.inl ⟨name, provider, found, rfl⟩)
  cases response with
  | refreshed accessToken granted =>
    have grants : world.Known granted := Or.inr ⟨request, accessToken, answered⟩
    have provided (state : TokenProvider) (keeps : state.refreshToken = granted)
        (knownNow : (world.withProvider name (some state)).Known refreshToken) :
        world.Known refreshToken := by
      obtain already | ⟨_, ⟨rfl⟩, rfl⟩ := known_with knownNow
      · exact already
      · exact keeps ▸ grants
    by_cases new : granted = provider.refreshToken
    · simp only [World.receive, TokenProvider.refreshed, new, ne_eq, not_true_eq_false, ↓reduceIte,
        Option.some.injEq] at taken
      subst taken
      exact provided ⟨provider.refreshToken, provider.dead, none⟩ new.symm known
    · simp only [World.receive, TokenProvider.refreshed, new, ne_eq, not_false_eq_true, ↓reduceIte,
        Option.some.injEq] at taken
      subst taken
      cases writes with
      | false => exact provided _ rfl known
      | true =>
        -- the write changes the file only
        obtain (isFile | provider | asked) | granted := known
        · cases isFile
          exact grants
        · exact provided _ rfl (Or.inl (Or.inr (Or.inl provider)))
        · exact Or.inl (Or.inr (Or.inr asked))
        · exact Or.inr granted
  | unauthorized error =>
    have dies (knownNow : (world.withProvider name
        (some { provider with dead := true, inFlight := none })).Known refreshToken) :
        world.Known refreshToken := by
      obtain already | ⟨_, ⟨rfl⟩, rfl⟩ := known_with knownNow
      · exact already
      · exact Or.inl held
    cases reads : world.read readable with
    | none =>
      simp only [World.receive, TokenProvider.rejected, reads, Bool.false_eq_true, ↓reduceIte,
        Option.some.injEq] at taken
      subst taken
      exact dies known
    | some onDisk =>
      by_cases newer : retried = false ∧ onDisk ≠ provider.refreshToken
      · simp only [World.receive, TokenProvider.rejected, reads, newer, not_false_eq_true, and_self,
          ↓reduceIte, ne_eq] at taken
        split at taken
        · cases taken
          have onFile : world.Holds onDisk := by
            have adopted := adopt_holds held readable
            rw [reads, adopt_some] at adopted
            exact adopted
          exact known_sent onFile known
        · contradiction
      · simp only [World.receive, TokenProvider.rejected, reads, newer, Bool.false_eq_true, ↓reduceIte,
          Option.some.injEq] at taken
        subst taken
        exact dies known

/-- A handler that answers without a new token makes none known. -/
theorem known_handled {presented : String} (asks : world.Asks request presented)
    (goesOn : (∃ now, exchange = .missed presented now) ∨
      (∃ accessToken, exchange = .answered (.refreshed accessToken presented)) ∨
      (∃ error, exchange = .answered (.unauthorized error)) ∨
      (∃ familyId now, exchange = .condemned familyId now) ∨ exchange = .dropped)
    (known : (world.withExchange request exchange).Known refreshToken) : world.Known refreshToken := by
  have moved : (world.withExchange request exchange).exchanges =
      update world.exchanges request exchange := rfl
  obtain already | carried := known_moved moved rfl rfl known
  · exact already
  · have same : refreshToken = presented := by
      obtain ⟨_, rfl⟩ | ⟨_, rfl⟩ | ⟨_, rfl⟩ | ⟨_, _, rfl⟩ | rfl := goesOn <;> simp_all
    exact Or.inl (same ▸ asks_holds asks)

/-- The second statement replies with the presented token, or with none. -/
theorem judge_reply {prior : Option DeviceSession} {presented : String} {now : Int}
    {response : Response} (judged : judge prior presented now = .reply response) :
    (∃ accessToken, response = .refreshed accessToken presented) ∨
      ∃ error, response = .unauthorized error := by
  simp only [judge] at judged
  split at judged
  · split at judged
    · rename_i prior _
      exact Or.inl ⟨prior.accessToken, (Verdict.reply.inj judged).symm⟩
    · contradiction
  · exact Or.inr ⟨_, (Verdict.reply.inj judged).symm⟩

/-- The first statement makes the drawn token known at most. -/
theorem known_rotated {presented next : String} {now : Int}
    (sent : world.exchanges request = .sent presented)
    (known : (world.rotate hashRefreshToken request presented now next).Known refreshToken) :
    world.Known refreshToken ∨ refreshToken = next := by
  simp only [World.rotate] at known
  split at known
  · rename_i current _ _
    have moved : ({ world.withExchange request (.answered (.refreshed current.accessToken next)) with
        sessions := (rotateCurrent world.sessions (hashRefreshToken presented)
          (hashRefreshToken next) now).1
        written := false
        informed := fun _ => false } : World).exchanges =
      update world.exchanges request (.answered (.refreshed current.accessToken next)) := rfl
    obtain already | isSent | ⟨_, isMissed⟩ | ⟨_, granted⟩ := known_moved moved rfl rfl known
    · exact Or.inl already
    · contradiction
    · contradiction
    · injection granted with granted
      injection granted with _ same
      exact Or.inr same.symm
  · exact Or.inl (known_handled (Or.inl sent) (Or.inl ⟨now, rfl⟩) known)

/-- A step makes no token known but the one it draws. -/
theorem known_step
    {event : Event}     (taken : step hashRefreshToken world event = some next) (known : next.Known refreshToken) :
    world.Known refreshToken ∨ refreshToken ∈ drawn [event] := by
  cases event with
  | launch name =>
    simp only [World.step] at taken
    split at taken
    · rename_i isFile
      cases taken
      obtain already | ⟨_, ⟨rfl⟩, rfl⟩ := known_with known
      · exact Or.inl already
      · exact Or.inl (Or.inl (Or.inl isFile))
    · contradiction
  | crash name =>
    cases taken
    obtain already | ⟨_, impossible, _⟩ := known_with known
    · exact Or.inl already
    · contradiction
  | present name request readable =>
    simp only [World.step] at taken
    split at taken
    · rename_i refreshToken provided unused
      cases taken
      have held : world.Holds refreshToken := Or.inr (Or.inl ⟨name, _, provided, rfl⟩)
      exact Or.inl (known_sent (adopt_holds held readable) known)
    · contradiction
  | rotate request now drawnToken =>
    simp only [World.step] at taken
    split at taken
    · rename_i presented sent
      cases taken
      exact (known_rotated sent known).imp_right (fun same => by simp [drawn, same])
    · contradiction
  | lookUp request =>
    simp only [World.step] at taken
    split at taken
    · rename_i presented now missed
      cases taken
      have asks : world.Asks request presented := Or.inr ⟨now, missed⟩
      left
      simp only [World.lookUp] at known
      split at known
      · rename_i response judged
        obtain ⟨accessToken, rfl⟩ | ⟨error, rfl⟩ := judge_reply judged
        · exact known_handled asks (Or.inr (Or.inl ⟨accessToken, rfl⟩)) known
        · exact known_handled asks (Or.inr (Or.inr (Or.inl ⟨error, rfl⟩))) known
      · rename_i familyId _
        exact known_handled asks (Or.inr (Or.inr (Or.inr (Or.inl ⟨familyId, now, rfl⟩)))) known
    · contradiction
  | revoke request =>
    simp only [World.step] at taken
    split at taken
    · rename_i familyId now condemned
      cases taken
      have moved : (world.revoke request familyId now).exchanges = update world.exchanges request
          (.answered (revokeFamily world.sessions familyId now).2) := rfl
      obtain already | impossible | ⟨_, impossible⟩ | ⟨_, impossible⟩ :=
        known_moved moved rfl rfl known
      · exact Or.inl already
      · contradiction
      · contradiction
      · injection impossible with impossible
        contradiction
    · contradiction
  | drop request =>
    simp only [World.step] at taken
    split at taken
    · rename_i presented sent
      cases taken
      exact Or.inl (known_handled (Or.inl sent) (Or.inr (Or.inr (Or.inr (Or.inr rfl)))) known)
    · rename_i presented now missed
      cases taken
      exact Or.inl (known_handled (Or.inr ⟨now, missed⟩) (Or.inr (Or.inr (Or.inr (Or.inr rfl)))) known)
    · contradiction
  | receive name retry readable writes =>
    simp only [World.step] at taken
    split at taken
    · rename_i refreshToken dead request retried provided
      split at taken
      · rename_i response answered
        exact Or.inl (known_received provided answered taken known)
      · contradiction
    · contradiction
  | fail name =>
    simp only [World.step] at taken
    split at taken
    · rename_i refreshToken dead flight provided
      cases taken
      obtain already | ⟨_, ⟨rfl⟩, rfl⟩ := known_with known
      · exact Or.inl already
      · exact Or.inl (Or.inl (Or.inr (Or.inl ⟨name, _, provided, rfl⟩)))
    · contradiction

/-! ## Runs -/

/-- Tokens drawn with distinct hashes are new when they are drawn. -/
theorem draws_new (events : List Event) (tokens : List String)
    (known : ∀ refreshToken, world.Known refreshToken → refreshToken ∈ tokens)
    (distinct : ((tokens ++ drawn events).map hashRefreshToken).Nodup) :
    Always (step hashRefreshToken) (fun world event _ => DrawsNew hashRefreshToken world event)
      world events := by
  induction events generalizing world tokens with
  | nil => trivial
  | cons event events inductionHypothesis =>
    have split : drawn (event :: events) = drawn [event] ++ drawn events := by
      cases event <;> rfl
    rw [split, ← List.append_assoc] at distinct
    intro next taken
    refine ⟨?_, ?_⟩
    · cases event with
      | rotate request now next =>
        intro refreshToken holds same
        rw [List.append_assoc, List.map_append, List.nodup_append] at distinct
        exact distinct.2.2 _ (List.mem_map_of_mem (known refreshToken (Or.inl holds))) _
          (by simp [drawn]) same
      | launch | crash | present | lookUp | revoke | drop | receive | fail => trivial
    · apply inductionHypothesis (tokens ++ drawn [event]) _ distinct
      intro refreshToken knownNext
      rw [List.mem_append]
      exact (known_step taken knownNext).imp_left (known refreshToken)

end Kvy.Auth.World
