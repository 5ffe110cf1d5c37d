import Kvy.Cli.Claims.ClaimStore

/-!
# Histories of the claim store

Calls on one session follow each other, at any times, on whatever file they find. An entry
once stored stays, or becomes the recorded result of its own claim, until the retention
window prunes it; from that follow the guarantees over whole histories.
-/

namespace Kvy.Cli.Claims

open General

/-- A call on the store of one session, and when it is made. -/
inductive Call where
  | claim (envelopeId claimId : String) (now : Decimal)
  | complete (envelopeId claimId : String) (result : Option JsValue) (now : Decimal)
  | read (now : Decimal)

/-- When the call is made. -/
def Call.now : Call → Decimal
  | .claim _ _ now | .complete _ _ _ now | .read now => now

/-- What a call returns. -/
inductive Answer where
  | outcome (outcome : ClaimOutcome)
  | done
  | thrown
  | claims (claims : JsObject ClaimEntry)

/-- The file after a call, and what the call returns. -/
def respond (file : Option (List Char)) : Call → Option (List Char) × Answer
  | .claim envelopeId claimId now =>
    let claimed := claimMessageSend file envelopeId claimId now
    (claimed.1, claimed.2.elim .thrown .outcome)
  | .complete envelopeId claimId result now =>
    let completed := completeMessageSend file envelopeId claimId result now
    (completed.1, completed.2.elim .thrown (fun _ => .done))
  | .read now => (file, .claims (readClaims file now))

/-- The file after a history. -/
def after (file : Option (List Char)) (calls : List Call) : Option (List Char) :=
  calls.foldl (fun file call => (respond file call).1) file

theorem after_append (file : Option (List Char)) (first second : List Call) :
    after file (first ++ second) = after (after file first) second := List.foldl_append

/-- The call writes the file. -/
def Persists (file : Option (List Char)) (call : Call) : Prop :=
  (∀ now, call ≠ .read now) ∧ (respond file call).2 ≠ .thrown

/-- The call drops a completed entry past its retention for good. -/
def Prunes (file : Option (List Char)) (call : Call) (envelopeId : String) : Prop :=
  Persists file call ∧ ∃ result completedAt,
    stored file envelopeId = some (.completed result completedAt) ∧
      completedAt.toRat < call.now.toRat - claimRetentionMs

/-- Some call of the history drops the entry. -/
def PrunedIn (file : Option (List Char)) (calls : List Call) (envelopeId : String) : Prop :=
  ∃ before call rest, calls = before ++ call :: rest ∧ Prunes (after file before) call envelopeId

/-! ## One call -/

variable {envelopeId : String} {file : Option (List Char)}

/-- A stored entry is live, or it is a completed one past its retention. -/
theorem live_or_expired {entry : ClaimEntry}
    (held : stored file envelopeId = some entry) (now : Decimal) :
    live file now envelopeId = some entry ∨
      live file now envelopeId = none ∧ ∃ result completedAt,
        stored file envelopeId = some (.completed result completedAt) ∧
          completedAt.toRat < now.toRat - claimRetentionMs := by
  have filtered : live file now envelopeId =
      (some entry).filter (fun entry => !entry.expired now) := by rw [live, held]
  rw [filtered]
  cases entry with
  | claimed claimId claimedAt => exact Or.inl rfl
  | completed result completedAt =>
    by_cases expired : completedAt.toRat < now.toRat - claimRetentionMs
    · right
      exact ⟨by simp [Option.filter, ClaimEntry.expired, expired], result, completedAt, held, expired⟩
    · left
      simp [Option.filter, ClaimEntry.expired, expired]

/-- A pending entry is live at every time. -/
theorem live_claimed_iff (file : Option (List Char)) (now : Decimal) (envelopeId claimId : String)
    (claimedAt : Decimal) : live file now envelopeId = some (.claimed claimId claimedAt) ↔
      stored file envelopeId = some (.claimed claimId claimedAt) := by
  constructor
  · intro held
    exact (Option.filter_eq_some_iff.mp held).1
  · intro held
    rw [live, held]
    rfl

/-- A claim is never answered by a throw. -/
theorem claim_not_thrown (file : Option (List Char)) (envelopeId claimId : String) (now : Decimal) :
    (respond file (.claim envelopeId claimId now)).2 ≠ .thrown := by
  obtain ⟨outcome, answered⟩ := claim_answers file envelopeId claimId now
  simp [respond, answered]

/-- What a call may do to a stored entry: drop it past its retention, keep it, or record the
result of its claim. -/
theorem entry_after (file : Option (List Char)) (call : Call) {entry : ClaimEntry}
    (held : stored file envelopeId = some entry) :
    Prunes file call envelopeId ∨ stored (respond file call).1 envelopeId = some entry ∨
      ∃ claimId claimedAt result now, entry = .claimed claimId claimedAt ∧
        call = .complete envelopeId claimId result now ∧
        stored (respond file call).1 envelopeId = some (.completed (resultOrNull result) now) := by
  cases call with
  | read now => exact Or.inr (Or.inl held)
  | claim claimed claimId now =>
    obtain isLive | ⟨_, expired⟩ := live_or_expired held now
    · right
      left
      by_cases same : envelopeId = claimed
      · subst same
        exact (claim_present claimId isLive).1
      · exact (claim_others file claimId now same).trans isLive
    · exact Or.inl ⟨⟨by simp, claim_not_thrown file claimed claimId now⟩, expired⟩
  | complete completed claimId result now =>
    by_cases found : ∃ claimedAt, live file now completed = some (.claimed claimId claimedAt)
    · obtain ⟨claimedAt, found⟩ := found
      obtain ⟨done, recorded, others⟩ := complete_live result found
      obtain isLive | ⟨_, expired⟩ := live_or_expired held now
      · right
        by_cases same : envelopeId = completed
        · subst same
          obtain rfl := Option.some.inj (isLive.symm.trans found)
          exact Or.inr ⟨claimId, claimedAt, result, now, rfl, rfl, recorded⟩
        · exact Or.inl ((others envelopeId same).trans isLive)
      · exact Or.inl ⟨⟨by simp, by simp [respond, done]⟩, expired⟩
    · right
      left
      simp only [respond, complete_other result found, held]

/-! ## Histories -/

/-- A later call of a history that starts one call later. -/
theorem PrunedIn.cons {call : Call} {calls : List Call}
    (pruned : PrunedIn (respond file call).1 calls envelopeId) :
    PrunedIn file (call :: calls) envelopeId := by
  obtain ⟨before, pruning, rest, rfl, prunes⟩ := pruned
  exact ⟨call :: before, pruning, rest, rfl, prunes⟩

/-- Once an entry is stored, one stays stored until the window prunes it. -/
theorem entry_stays (file : Option (List Char)) (calls : List Call)
    {entry : ClaimEntry} (held : stored file envelopeId = some entry) :
    PrunedIn file calls envelopeId ∨ ∃ later, stored (after file calls) envelopeId = some later := by
  induction calls generalizing file entry with
  | nil => exact Or.inr ⟨entry, held⟩
  | cons call rest inductionHypothesis =>
    obtain prunes | kept | ⟨_, _, _, _, _, _, recorded⟩ := entry_after file call held
    · exact Or.inl ⟨[], call, rest, rfl, prunes⟩
    · exact (inductionHypothesis _ kept).imp_left PrunedIn.cons
    · exact (inductionHypothesis _ recorded).imp_left PrunedIn.cons

/-- A recorded result stays until the window prunes it. -/
theorem result_stays (file : Option (List Char)) (calls : List Call)
    {result : JsValue} {completedAt : Decimal}
    (held : stored file envelopeId = some (.completed result completedAt)) :
    PrunedIn file calls envelopeId ∨
      stored (after file calls) envelopeId = some (.completed result completedAt) := by
  induction calls generalizing file with
  | nil => exact Or.inr held
  | cons call rest inductionHypothesis =>
    obtain prunes | kept | ⟨_, _, _, _, pending, _, _⟩ := entry_after file call held
    · exact Or.inl ⟨[], call, rest, rfl, prunes⟩
    · exact (inductionHypothesis _ kept).imp_left PrunedIn.cons
    · contradiction

/-- Only a claim that finds no live entry is granted. -/
theorem granted_absent {claimId claimed : String} {now : Decimal}
    (granted : (respond file (.claim envelopeId claimId now)).2 = .outcome (.claimed claimed)) :
    live file now envelopeId = none := by
  cases held : live file now envelopeId with
  | none => rfl
  | some entry =>
    have answered := (claim_present claimId held).2
    cases entry with
    | claimed heldId claimedAt => simp [respond, answered, ClaimEntry.answer] at granted
    | completed result completedAt => simp [respond, answered, ClaimEntry.answer] at granted

/-- Completing succeeds exactly on the pending entry of its claim. -/
theorem complete_answer (file : Option (List Char)) (envelopeId claimId : String)
    (result : Option JsValue) (now : Decimal) :
    (respond file (.complete envelopeId claimId result now)).2 = .done ↔
      ∃ claimedAt, stored file envelopeId = some (.claimed claimId claimedAt) := by
  simp only [← live_claimed_iff file now]
  by_cases found : ∃ claimedAt, live file now envelopeId = some (.claimed claimId claimedAt)
  · obtain ⟨claimedAt, held⟩ := found
    exact iff_of_true (by simp [respond, (complete_live result held).1]) ⟨claimedAt, held⟩
  · exact iff_of_false (by simp [respond, complete_other result found]) found

/-- What the calls of a history may rely on. -/
structure AtMostOnce (file : Option (List Char)) (calls : List Call) : Prop where
  /-- An envelope is claimed again only after its completed entry was pruned. -/
  claimed_again : ∀ before middle rest envelopeId first second start later claimed again,
    calls = before ++ .claim envelopeId first start :: (middle ++ .claim envelopeId second later :: rest) →
    (respond (after file before) (.claim envelopeId first start)).2 = .outcome (.claimed claimed) →
    (respond (after file (before ++ .claim envelopeId first start :: middle))
      (.claim envelopeId second later)).2 = .outcome (.claimed again) →
    PrunedIn (after file (before ++ [.claim envelopeId first start]))
      (middle ++ [.claim envelopeId second later]) envelopeId
  /-- A pending entry goes away only when its own claim is completed. -/
  pending_kept : ∀ before call rest envelopeId claimId claimedAt, calls = before ++ call :: rest →
    stored (after file before) envelopeId = some (.claimed claimId claimedAt) →
    stored (after file (before ++ [call])) envelopeId = some (.claimed claimId claimedAt) ∨
      ∃ result now, call = .complete envelopeId claimId result now
  /-- Completing succeeds exactly on a pending entry with its claim id. -/
  complete_iff : ∀ before rest envelopeId claimId result now,
    calls = before ++ .complete envelopeId claimId result now :: rest →
    ((respond (after file before) (.complete envelopeId claimId result now)).2 = .done ↔
      ∃ claimedAt, stored (after file before) envelopeId = some (.claimed claimId claimedAt))
  /-- A call that throws leaves the stored claims as they are. -/
  thrown_keeps : ∀ before call rest, calls = before ++ call :: rest →
    (respond (after file before) call).2 = .thrown →
    ∀ envelopeId, stored (after file (before ++ [call])) envelopeId =
      stored (after file before) envelopeId
  /-- A completed send is answered with its recorded result, `null` for an absent one. -/
  recorded : ∀ before middle rest envelopeId claimId result completedAt second later,
    calls = before ++ .complete envelopeId claimId result completedAt ::
      (middle ++ .claim envelopeId second later :: rest) →
    (respond (after file before) (.complete envelopeId claimId result completedAt)).2 = .done →
    (respond (after file (before ++ .complete envelopeId claimId result completedAt :: middle))
      (.claim envelopeId second later)).2 = .outcome (.completed (resultOrNull result)) ∨
    PrunedIn (after file (before ++ [.complete envelopeId claimId result completedAt]))
      (middle ++ [.claim envelopeId second later]) envelopeId

/-- A history that ends with a pruning claim prunes. -/
theorem pruned_last {calls : List Call} {call : Call}
    (prunes : Prunes (after file calls) call envelopeId) : PrunedIn file (calls ++ [call]) envelopeId :=
  ⟨calls, call, [], rfl, prunes⟩

/-- More calls at the end keep what was pruned. -/
theorem PrunedIn.append {calls more : List Call}
    (pruned : PrunedIn file calls envelopeId) : PrunedIn file (calls ++ more) envelopeId := by
  obtain ⟨before, call, rest, rfl, prunes⟩ := pruned
  exact ⟨before, call, rest ++ more, by simp, prunes⟩

/-- The file after a history and one call more. -/
theorem after_snoc (file : Option (List Char)) (calls : List Call) (call : Call) :
    after file (calls ++ [call]) = (respond (after file calls) call).1 := by
  rw [after_append]
  rfl

/-- Every history executes a send at most once in a retention window. -/
theorem sends_at_most_once
    (file : Option (List Char)) (calls : List Call) : AtMostOnce file calls where
  claimed_again := by
    intro before middle rest envelopeId first second start later claimed again _ one two
    have pending : stored (after file (before ++ [.claim envelopeId first start])) envelopeId =
        some (.claimed first start) := by
      rw [after_snoc]
      exact (claim_absent first (granted_absent one)).1
    rw [List.append_cons, after_append] at two
    obtain pruned | ⟨entry, held⟩ := entry_stays _ middle pending
    · exact pruned.append
    · apply pruned_last
      obtain isLive | ⟨_, expired⟩ := live_or_expired held later
      · exact absurd (isLive.symm.trans (granted_absent two)) (by simp)
      · exact ⟨⟨by simp, claim_not_thrown _ envelopeId second later⟩, expired⟩
  pending_kept := by
    intro before call rest envelopeId claimId claimedAt _ held
    rw [after_snoc]
    obtain ⟨_, _, _, pruned, _⟩ | kept | ⟨_, _, result, now, pending, isComplete, _⟩ :=
      entry_after (after file before) call held
    · exact absurd (held.symm.trans pruned) (by simp)
    · exact Or.inl kept
    · obtain ⟨rfl, _⟩ := ClaimEntry.claimed.inj pending
      exact Or.inr ⟨result, now, isComplete⟩
  complete_iff := by
    intro before rest envelopeId claimId result now _
    exact complete_answer (after file before) envelopeId claimId result now
  thrown_keeps := by
    intro before call rest _ thrown envelopeId
    rw [after_snoc]
    cases call with
    | read now => rfl
    | claim claimed claimId now =>
      exact absurd thrown (claim_not_thrown (after file before) claimed claimId now)
    | complete completed claimId result now =>
      by_cases found : ∃ claimedAt,
          live (after file before) now completed = some (.claimed claimId claimedAt)
      · obtain ⟨claimedAt, held⟩ := found
        simp [respond, (complete_live result held).1] at thrown
      · simp only [respond, complete_other result found]
  recorded := by
    intro before middle rest envelopeId claimId result completedAt second later _ done
    obtain ⟨claimedAt, pending⟩ := (complete_answer _ envelopeId claimId result completedAt).mp done
    have held : stored (after file (before ++ [.complete envelopeId claimId result completedAt]))
        envelopeId = some (.completed (resultOrNull result) completedAt) := by
      rw [after_snoc]
      exact (complete_live result ((live_claimed_iff _ completedAt _ _ _).mpr pending)).2.1
    rw [List.append_cons, after_append]
    obtain pruned | kept := result_stays _ middle held
    · exact Or.inr pruned.append
    · obtain isLive | ⟨_, expired⟩ := live_or_expired kept later
      · left
        simp [respond, (claim_present second isLive).2, ClaimEntry.answer]
      · right
        apply pruned_last
        exact ⟨⟨by simp, claim_not_thrown _ envelopeId second later⟩, expired⟩

end Kvy.Cli.Claims
