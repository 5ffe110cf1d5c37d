import Kvy.Auth.Tokens

/-!
# One refresh at a time

Where every request is sent by an attempt that has read what the last rotation wrote, and
while no other request is under way, as under the credentials lock when replies arrive and
writes succeed, the one request under way always comes from an informed attempt.
-/

namespace Kvy.Auth.World

open General Cli.Auth Server.App.Refresh Function Runs

variable {hashRefreshToken : String → String} {world : World}

/-- At most one request is under way, and it comes from an informed attempt. -/
structure Solo (world : World) : Prop where
  informed : ∀ request refreshToken, world.Asks request refreshToken → world.informed request = true
  alone : ∀ request other token next, world.Asks request token → world.Asks other next →
    request = other

/-- A request under way after another was answered was under way. -/
theorem asks_answered {next : World} {request other : Nat} {exchange : Exchange}
    {refreshToken : String} (moved : next.exchanges = update world.exchanges request exchange)
    (ends : (∃ response, exchange = .answered response) ∨
      (∃ familyId now, exchange = .condemned familyId now) ∨ exchange = .dropped)
    (asks : next.Asks other refreshToken) : other ≠ request ∧ world.Asks other refreshToken := by
  obtain ⟨_, carried⟩ | asked := asks_moved moved asks
  · obtain ⟨_, rfl⟩ | ⟨_, _, rfl⟩ | rfl := ends <;> simp at carried
  · exact asked

/-- A request under way after another was sent was under way, or is that request. -/
theorem asks_sent {name request other : Nat} {provider : TokenProvider} {readable : Bool}
    {refreshToken : String} (unused : world.exchanges request = .unused)
    (asks : ((world.withProvider name (some provider)).send request provider.refreshToken
      readable).Asks other refreshToken) :
    (world.exchanges other = .unused ∧ request = other) ∨ world.Asks other refreshToken ∧
      ((world.withProvider name (some provider)).send request provider.refreshToken
        readable).informed other = world.informed other := by
  have moved : ((world.withProvider name (some provider)).send request provider.refreshToken
    readable).exchanges = update world.exchanges request (.sent provider.refreshToken) := rfl
  obtain ⟨rfl, _⟩ | ⟨differs, asked⟩ := asks_moved moved asks
  · exact Or.inl ⟨unused, rfl⟩
  · exact Or.inr ⟨asked, update_of_ne differs _ _⟩

/-- A request that is under way after a step was sent by it, or was under way; a rotation by
another request makes it uninformed. -/
theorem asks_step {event : Event} {next : World} {request : Nat} {refreshToken : String}
    (taken : step hashRefreshToken world event = some next) (asks : next.Asks request refreshToken) :
    (world.exchanges request = .unused ∧ event.sends = some request) ∨
      world.Asks request refreshToken ∧ (next.informed request = world.informed request ∨
        ∃ other token, other ≠ request ∧ world.Asks other token) := by
  cases event with
  | launch name =>
    simp only [World.step] at taken
    split at taken
    · cases taken
      exact Or.inr ⟨asks, Or.inl rfl⟩
    · contradiction
  | crash name =>
    cases taken
    exact Or.inr ⟨asks, Or.inl rfl⟩
  | present name sent readable =>
    simp only [World.step] at taken
    split at taken
    · rename_i unused
      cases taken
      obtain ⟨isUnused, rfl⟩ | ⟨asked, same⟩ := asks_sent unused asks
      · exact Or.inl ⟨isUnused, rfl⟩
      · exact Or.inr ⟨asked, Or.inl same⟩
    · contradiction
  | rotate other now drawn =>
    simp only [World.step] at taken
    split at taken
    · rename_i presented sent
      cases taken
      right
      simp only [World.rotate] at asks ⊢
      split at asks
      · obtain ⟨differs, asked⟩ := asks_answered rfl (Or.inl ⟨_, rfl⟩) asks
        exact ⟨asked, Or.inr ⟨other, presented, differs.symm, Or.inl sent⟩⟩
      · obtain ⟨rfl, impossible | ⟨_, missed⟩⟩ | ⟨_, asked⟩ := asks_moved rfl asks
        · contradiction
        · obtain ⟨rfl, _⟩ := Exchange.missed.inj missed
          exact ⟨Or.inl sent, Or.inl rfl⟩
        · exact ⟨asked, Or.inl rfl⟩
    · contradiction
  | lookUp other =>
    simp only [World.step] at taken
    split at taken
    · rename_i presented now missed
      cases taken
      right
      simp only [World.lookUp] at asks ⊢
      split at asks
      · exact ⟨(asks_answered rfl (Or.inl ⟨_, rfl⟩) asks).2, Or.inl rfl⟩
      · exact ⟨(asks_answered rfl (Or.inr (Or.inl ⟨_, _, rfl⟩)) asks).2, Or.inl rfl⟩
    · contradiction
  | revoke other =>
    simp only [World.step] at taken
    split at taken
    · cases taken
      exact Or.inr ⟨(asks_answered rfl (Or.inl ⟨_, rfl⟩) asks).2, Or.inl rfl⟩
    · contradiction
  | drop other =>
    simp only [World.step] at taken
    split at taken
    · cases taken
      exact Or.inr ⟨(asks_answered rfl (Or.inr (Or.inr rfl)) asks).2, Or.inl rfl⟩
    · cases taken
      exact Or.inr ⟨(asks_answered rfl (Or.inr (Or.inr rfl)) asks).2, Or.inl rfl⟩
    · contradiction
  | receive name retry readable writes =>
    simp only [World.step] at taken
    split at taken
    · split at taken
      · rename_i response _
        cases response with
        | refreshed accessToken granted =>
          simp only [World.receive, TokenProvider.refreshed] at taken
          split at taken
          · cases taken
            cases writes with
            | true => exact Or.inr ⟨asks, Or.inl rfl⟩
            | false => exact Or.inr ⟨asks, Or.inl rfl⟩
          · cases taken
            exact Or.inr ⟨asks, Or.inl rfl⟩
        | unauthorized error =>
          simp only [World.receive] at taken
          split at taken
          · split at taken
            · rename_i unused
              cases taken
              obtain ⟨isUnused, rfl⟩ | ⟨asked, same⟩ := asks_sent unused asks
              · exact Or.inl ⟨isUnused, rfl⟩
              · exact Or.inr ⟨asked, Or.inl same⟩
            · contradiction
          · cases taken
            exact Or.inr ⟨asks, Or.inl rfl⟩
      · contradiction
    · contradiction
  | fail name =>
    simp only [World.step] at taken
    split at taken
    · cases taken
      exact Or.inr ⟨asks, Or.inl rfl⟩
    · contradiction

/-- Serialised steps keep one informed request under way at most. -/
theorem Solo.step (solo : world.Solo) {event : Event} {next : World}
    (serialised : Serialised world event next)
    (taken : step hashRefreshToken world event = some next) : next.Solo := by
  have used {request : Nat} {refreshToken : String} (asks : next.Asks request refreshToken) :
      next.exchanges request ≠ .unused := by
    obtain sent | ⟨_, missed⟩ := asks
    · simp [sent]
    · simp [missed]
  constructor
  · intro request refreshToken asks
    obtain ⟨unused, sends⟩ | ⟨asked, same | ⟨other, token, differs, askedToo⟩⟩ := asks_step taken asks
    · exact (serialised request sends unused (used asks)).1
    · exact same.trans (solo.informed request refreshToken asked)
    · exact absurd (solo.alone other request token refreshToken askedToo asked) differs
  · intro request other token next asksOne asksTwo
    obtain ⟨unusedOne, sendsOne⟩ | ⟨askedOne, _⟩ := asks_step taken asksOne
    · obtain ⟨_, sendsTwo⟩ | ⟨askedTwo, _⟩ := asks_step taken asksTwo
      · exact Option.some.inj (sendsOne.symm.trans sendsTwo)
      · exact absurd askedTwo ((serialised request sendsOne unusedOne (used asksOne)).2 other next)
    · obtain ⟨unusedTwo, sendsTwo⟩ | ⟨askedTwo, _⟩ := asks_step taken asksTwo
      · exact absurd askedOne ((serialised other sendsTwo unusedTwo (used asksTwo)).2 request token)
      · exact solo.alone request other token next askedOne askedTwo

/-- An informed request is timely whenever it is looked up. -/
theorem Solo.timely (solo : world.Solo) (event : Event) : Timely world event := by
  cases event with
  | lookUp request =>
    intro now missedAt _ _ _ _ _
    obtain ⟨refreshToken, missed⟩ := missed_at missedAt
    exact solo.informed request refreshToken (Or.inr ⟨now, missed⟩)
  | launch | crash | present | rotate | revoke | drop | receive | fail => trivial

/-- A serialised run is timely. -/
theorem serialised_timely {start : World} {events : List Event} (solo : start.Solo)
    (serialised : Always (step hashRefreshToken) Serialised
      start events) :
    Always (step hashRefreshToken) (fun world event _ => Timely world event) start events := by
  apply always_along Solo Serialised _ ?_ solo serialised
  intro world event next soloNow serialisedNow taken
  exact ⟨soloNow.step serialisedNow taken, soloNow.timely event⟩

end Kvy.Auth.World
