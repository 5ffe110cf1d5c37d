import Kvy.Auth.Grace
import Kvy.Auth.Serial

/-!
# Honest providers

What providers on one credentials file may rely on: their session is not revoked as stolen
while the requests that come later than the grace window know of the last rotation, however
the requests interleave, and in particular while refreshes are serialised, whatever time
passes. A lost reply to a rotation leaves that rotation unknown to everyone.
-/

namespace Kvy.Auth.World

open General Cli.Auth Server.App.Refresh Function Runs

/-- Before anything runs, no request is under way. -/
theorem issued_solo {hashRefreshToken : String → String} {refreshToken : String} {world : World}
    (issued : world.Issued hashRefreshToken refreshToken) : world.Solo := by
  obtain ⟨_, _, _, _, _, _, _, _, _, unused⟩ := issued
  have unasked (request : Nat) (token : String) : ¬ world.Asks request token := by
    rintro (sent | ⟨now, missed⟩)
    · exact absurd (sent.symm.trans (unused request).1) (by simp)
    · exact absurd (missed.symm.trans (unused request).1) (by simp)
  constructor
  · intro request token asks
    exact absurd asks (unasked request token)
  · intro request other token next asks
    exact absurd asks (unasked request token)

/-- A session that was just issued stays trusted in every run whose tokens have distinct hashes,
if every request looked up later than the grace window after the last rotation comes from an
attempt that read the credentials file after that rotation was written there; in particular if
the refreshes are serialised. -/
theorem honest_refreshes_trusted (hashRefreshToken : String → String) (refreshToken : String)
    (start : World) (issued : start.Issued hashRefreshToken refreshToken) (events : List Event)
    (distinct : ((refreshToken :: drawn events).map hashRefreshToken).Nodup) :
    (Always (step hashRefreshToken) (fun world event _ => Timely world event) start events →
      Always (step hashRefreshToken) (fun _ _ next => Trusted next) start events) ∧
    (Always (step hashRefreshToken) Serialised start events →
      Always (step hashRefreshToken) (fun _ _ next => Trusted next) start events) := by
  have draws : Always (step hashRefreshToken)
      (fun world event _ => DrawsNew hashRefreshToken world event) start events := by
    apply draws_new events [refreshToken] _ distinct
    intro token known
    exact List.mem_singleton.mpr (issued_known issued known)
  have linked := issued_linked issued
  constructor
  · exact timely_trusted linked draws
  · intro serialised
    exact timely_trusted linked draws (serialised_timely (issued_solo issued) serialised)

/-- A session issued with the token `r0`, whose providers have not started. -/
def issuedSession : World where
  sessions := [⟨"s", "a", "r0", none, none, "f", "cli-daemon", none, 5184000000, none⟩]
  file := some "r0"
  providers := fun _ => none
  exchanges := fun _ => .unused
  written := true
  informed := fun _ => false

/-- Two providers race without the lock within the grace window; a day later one refreshes again. -/
def race : List Event :=
  [.launch 0, .launch 1, .present 0 0 true, .present 1 1 true, .rotate 0 0 "r1", .rotate 1 1000 "r2",
    .lookUp 1, .receive 1 0 true true, .receive 0 0 true true, .present 1 2 true,
    .rotate 2 86400000 "r3", .receive 1 0 true true]

/-- One provider refreshes, and again a day later. -/
def daily : List Event :=
  [.launch 0, .present 0 0 true, .rotate 0 0 "r1", .receive 0 0 true true, .present 0 1 true,
    .rotate 1 86400000 "r2", .receive 0 0 true true]

instance (world : World) : (event : Event) → Decidable (Timely world event)
  | .lookUp request => inferInstanceAs (Decidable (∀ now ∈ (world.exchanges request).missedAt,
      ∀ session ∈ world.sessions, ∀ rotatedAt ∈ session.previousRotatedAt,
        graceMs < now - rotatedAt → world.informed request = true))
  | .launch _ | .crash _ | .present _ _ _ | .rotate _ _ _ | .revoke _ | .drop _
  | .receive _ _ _ _ | .fail _ => isTrue trivial

theorem issued_session : issuedSession.Issued id "r0" :=
  ⟨_, rfl, rfl, rfl, rfl, rfl, rfl, rfl, fun _ => rfl, fun _ => ⟨rfl, rfl⟩⟩

/-- An event that sends nothing is serialised. -/
theorem unsent_serialised {world next : World} {event : Event} (unsent : event.sends = none) :
    Serialised world event next := by
  intro request sent
  rw [unsent] at sent
  contradiction

/-- A reply that is not followed by a retry is serialised. -/
theorem unchanged_serialised {world next : World} {event : Event}
    (unchanged : next.exchanges = world.exchanges) : Serialised world event next := by
  intro request _ unused sent
  rw [unchanged] at sent
  exact absurd unused sent

/-- The second daily refresh starts after the first was answered and written. -/
theorem daily_serialised : Always (step id) Serialised issuedSession daily := by
  apply always_cons rfl (unsent_serialised rfl)
  apply always_cons rfl
  · rintro _ ⟨⟩ _ _
    refine ⟨rfl, ?_⟩
    rintro other token (sent | ⟨now, missed⟩)
    · contradiction
    · contradiction
  apply always_cons rfl (unsent_serialised rfl)
  apply always_cons rfl
  · exact unchanged_serialised rfl
  apply always_cons rfl
  · rintro _ ⟨⟩ _ _
    refine ⟨rfl, ?_⟩
    intro other token asks
    by_cases isFirst : other = 0
    · subst isFirst
      obtain sent | ⟨now, missed⟩ := asks
      · contradiction
      · contradiction
    · have unused : (update (update (fun _ => Exchange.unused) 0 (.sent "r0")) 0
          (.answered (.refreshed ⟨"a", "s", "cli-daemon"⟩ "r1"))) other = .unused := by
        rw [update_of_ne isFirst, update_of_ne isFirst]
      obtain sent | ⟨now, missed⟩ := asks
      · exact absurd (unused.symm.trans sent) (by simp)
      · exact absurd (unused.symm.trans missed) (by simp)
  apply always_cons rfl (unsent_serialised rfl)
  apply always_cons rfl
  · exact unchanged_serialised rfl
  · trivial

/-- A race within the window, and refreshes a day apart, leave the session trusted. -/
theorem race_and_daily_trusted :
    Always (step id) (fun _ _ next => Trusted next) issuedSession race ∧
      Always (step id) (fun _ _ next => Trusted next) issuedSession daily := by
  constructor
  · exact (honest_refreshes_trusted id "r0" issuedSession issued_session race (by decide)).1
      (by decide +kernel)
  · exact (honest_refreshes_trusted id "r0" issuedSession issued_session daily (by decide)).2
      daily_serialised

/-- The reply to a rotation is lost, and the provider retries after the grace window. -/
def retryLate : List Event :=
  [.launch 0, .present 0 0 true, .rotate 0 0 "r1", .fail 0, .present 0 1 true,
    .rotate 1 60001 "r2", .lookUp 1, .revoke 1]

/-- A retry after a lost reply revokes the session of an honest provider. -/
theorem late_retry_revokes : issuedSession.Issued id "r0" ∧
    ∃ final, run (step id) issuedSession retryLate = some final ∧
      ∃ session ∈ final.sessions, session.revokedAt = some 60001 := by
  have revoked : (run (step id) issuedSession retryLate).map (fun world =>
      world.sessions.map DeviceSession.revokedAt) = some [some 60001] := by decide +kernel
  obtain ⟨final, ran, times⟩ := Option.map_eq_some_iff.mp revoked
  have isRevoked : some 60001 ∈ final.sessions.map DeviceSession.revokedAt := by simp [times]
  obtain ⟨session, member, at_⟩ := List.mem_map.mp isRevoked
  exact ⟨issued_session, final, ran, session, member, at_⟩

end Kvy.Auth.World
