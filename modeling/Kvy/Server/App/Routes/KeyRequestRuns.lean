import Kvy.Server.App.Routes.KeyRequests

/-!
# A shared key is delivered once

A request is raised by one session, approved at most once and by another session of the account,
and picked up at most once, by the session that raised it. Raising it again makes a new request of
the same row. What a call sees of the tables is what its account's rows show.
-/

namespace Kvy.Server.App.KeyRequests

open General General.Runs Function

/-! ## What is promised -/

/-- The rows and the deliveries are as they should be. -/
structure Shared (sharing : Sharing) : Prop where
  /-- A response comes from another session of the account. -/
  approver : ∀ row ∈ sharing.keyRequests.rows, ∀ response, row.response = some response →
    ∃ approver, row.approvedBySessionId = some approver ∧
      sharing.accountOf approver = some row.accountId ∧ approver ≠ row.requestedBySessionId
  /-- A request has one session that raised it. -/
  requester : ∀ raising accountId ephPub sessionId label otherId otherPub other otherLabel,
    .raised raising accountId ephPub sessionId label ∈ sharing.log →
      .raised raising otherId otherPub other otherLabel ∈ sharing.log → other = sessionId
  /-- It gets the response of the approval, in time. -/
  delivered : ∀ raising call sessionId response now expiresAt,
    .delivered raising call sessionId response now expiresAt ∈ sharing.log →
      now ≤ expiresAt ∧
      (∃ accountId ephPub label,
        .raised raising accountId ephPub sessionId label ∈ sharing.log) ∧
      ∃ approver, .approved raising approver response ∈ sharing.log
  /-- One call gets it. -/
  single : ∀ raising call sessionId response now expiresAt other otherId otherResponse later until',
    .delivered raising call sessionId response now expiresAt ∈ sharing.log →
      .delivered raising other otherId otherResponse later until' ∈ sharing.log → other = call
  /-- A call holds rows of its account. -/
  own : ∀ index call, sharing.calls index = some call →
    ∀ row ∈ call.stage.rows, row.accountId = call.accountId

/-- A row with a response stays as it is until its request is raised again. -/
def Kept (sharing next : Sharing) : Prop :=
  ∀ row ∈ sharing.keyRequests.rows, row.response.isSome → ∀ later ∈ next.keyRequests.rows,
    later.key = row.key →
      later = row ∨
        ∃ label, next.log =
          sharing.log ++
            [.raised later.raising row.accountId row.ephPub later.requestedBySessionId label]

/-- The state without the rows of other accounts. -/
def Sharing.only (sharing : Sharing) (accountId : String) : Sharing :=
  { sharing with
    keyRequests := sharing.keyRequests.filter (fun row => row.accountId = accountId)
    deviceSessions :=
      sharing.deviceSessions.filter (fun session => session.accountId = accountId) }

/-- Where a call goes on, it goes on as if its account were alone. -/
def Private (sharing : Sharing) (event : Event) (next : Sharing) : Prop :=
  ∀ index call, event = .advance index → sharing.calls index = some call →
    (step (sharing.only call.accountId) event).map (fun alone => alone.calls index) =
      some (next.calls index)

/-! ## The table -/

theorem mem_rows (table : Table) (row : KeyRequest) :
    row ∈ table.rows ↔ Keyed.find? KeyRequest.key row.key table.rows = some row := by
  constructor
  · exact Keyed.find_member KeyRequest.key table.keys
  · exact List.mem_of_find?_eq_some

variable {row : KeyRequest} {table : Table}

/-- A key has one row. -/
theorem row_of_key {other : KeyRequest} (member : row ∈ table.rows)
    (otherMember : other ∈ table.rows) (same : other.key = row.key) : other = row := by
  have found := (mem_rows table other).mp otherMember
  rw [same, (mem_rows table row).mp member] at found
  exact (Option.some.inj found).symm

theorem mem_put (table : Table) (put row : KeyRequest) :
    row ∈ (table.put put).rows ↔ row = put ∨ row ∈ table.rows ∧ row.key ≠ put.key := by
  rw [mem_rows, Table.put, Keyed.find_upsert]
  split
  · rename_i same
    constructor
    · intro found
      exact Or.inl (Option.some.inj found).symm
    · rintro (rfl | ⟨_, different⟩)
      · rfl
      · exact absurd same different
  · rename_i different
    rw [← mem_rows]
    constructor
    · exact fun member => Or.inr ⟨member, different⟩
    · rintro (rfl | ⟨member, _⟩)
      · exact absurd rfl different
      · exact member

theorem mem_drop (table : Table) (accountId ephPub : String) (row : KeyRequest) :
    row ∈ (table.drop accountId ephPub).rows ↔
      row ∈ table.rows ∧ row.key ≠ (accountId, ephPub) := by
  simp [Table.drop, Keyed.delete]

theorem mem_filter (table : Table) (test : KeyRequest → Bool) (row : KeyRequest) :
    row ∈ (table.filter test).rows ↔ row ∈ table.rows ∧ test row = true := List.mem_filter

variable {accountId ephPub : String}

/-- What is found under a key stands in the table, with that key. -/
theorem get_member (found : table.get? accountId ephPub = some row) :
    row ∈ table.rows ∧ row.accountId = accountId ∧ row.ephPub = ephPub := by
  have key := Keyed.find_key KeyRequest.key found
  exact ⟨List.mem_of_find?_eq_some found, (Prod.mk.inj key).1, (Prod.mk.inj key).2⟩

variable {sessionId : String}

theorem approvable_member {now : Nat}
    (found : table.approvable accountId ephPub sessionId now = some row) :
    row ∈ table.rows ∧ row.accountId = accountId ∧ row.response = none ∧
      row.requestedBySessionId ≠ sessionId := by
  obtain ⟨stored, meets⟩ := Option.filter_eq_some_iff.mp found
  obtain ⟨member, account, _⟩ := get_member stored
  simp only [Bool.and_eq_true, Option.isNone_iff_eq_none, decide_eq_true_eq] at meets
  exact ⟨member, account, meets.1.1, meets.2⟩

theorem raised_by_member (found : table.raisedBy accountId ephPub sessionId = some row) :
    row ∈ table.rows ∧ row.accountId = accountId ∧ row.requestedBySessionId = sessionId := by
  obtain ⟨stored, meets⟩ := Option.filter_eq_some_iff.mp found
  obtain ⟨member, account, _⟩ := get_member stored
  exact ⟨member, account, of_decide_eq_true meets⟩

theorem claimable_member (found : table.claimable accountId ephPub sessionId = some row) :
    row ∈ table.rows ∧ row.accountId = accountId ∧ row.requestedBySessionId = sessionId ∧
      row.response.isSome := by
  obtain ⟨raised, meets⟩ := Option.filter_eq_some_iff.mp found
  obtain ⟨member, account, requester⟩ := raised_by_member raised
  exact ⟨member, account, requester, meets⟩

/-! ## What a call sees -/

theorem get_only (sharing : Sharing) (accountId ephPub : String) :
    (sharing.only accountId).keyRequests.get? accountId ephPub =
      sharing.keyRequests.get? accountId ephPub := by
  simp only [Table.get?, Keyed.find?, Sharing.only, Table.filter, List.find?_filter]
  congr 1
  funext row
  simp only [KeyRequest.key, Prod.mk.injEq]
  grind

theorem pending_only (sharing : Sharing) (accountId : String) (now : Nat) :
    (sharing.only accountId).keyRequests.pending accountId now =
      sharing.keyRequests.pending accountId now := by
  simp only [Table.pending, Sharing.only, Table.filter, List.filter_filter]
  apply List.filter_congr
  intro row _
  grind

theorem sessions_only (sharing : Sharing) (accountId : String) :
    (sharing.only accountId).deviceSessions.filter
        (fun session => session.accountId = accountId) =
      sharing.deviceSessions.filter (fun session => session.accountId = accountId) := by
  simp [Sharing.only]

@[simp] theorem calls_await (sharing : Sharing) (index : Nat) (call : Call) (stage : Stage) :
    (sharing.await index call stage).calls index = some { call with stage := stage } := by
  simp [Sharing.await]

/-- A call goes on in the same way without the rows of other accounts. -/
theorem advance_only (sharing : Sharing) (index : Nat) (call : Call) :
    ((sharing.only call.accountId).advance index call).map (fun alone => alone.calls index) =
      (sharing.advance index call).map (fun next => next.calls index) := by
  obtain ⟨accountId, sessionId, stage⟩ := call
  have clock : (sharing.only accountId).now = sharing.now := rfl
  cases stage with
  | sweeping ephPub label now => simp [Sharing.advance]
  | upserting ephPub label now => simp [Sharing.advance]
  | listing now => simp [Sharing.advance, pending_only]
  | joining rows => simp [Sharing.advance, sessions_only]
  | approving ephPub response now =>
    simp only [Sharing.advance, Table.approvable, get_only]
    split <;> simp
  | picking ephPub =>
    simp only [Sharing.advance, Table.claimable, Table.raisedBy, get_only]
    split <;> simp
  | picked ephPub row =>
    rcases row with _ | row
    · simp [Sharing.advance]
    · simp only [Sharing.advance, clock]
      split
      · split <;> simp
      · simp
  | reading ephPub => simp [Sharing.advance, Table.raisedBy, get_only]
  | read row =>
    cases row with
    | none => simp [Sharing.advance]
    | some row =>
      simp only [Sharing.advance, clock]
      split <;> simp
  | answered reply => rfl

variable {next sharing : Sharing}

theorem step_private {event : Event}
    (taken : step sharing event = some next) : Private sharing event next := by
  rintro index call rfl waits
  have goes : sharing.advance index call = some next := by
    simpa [step, waits] using taken
  have alone : step (sharing.only call.accountId) (.advance index) =
      (sharing.only call.accountId).advance index call := by
    have same : (sharing.only call.accountId).calls index = some call := waits
    simp [step, same]
  rw [alone, advance_only, goes]
  rfl

/-! ## The invariant -/

/-- What can happen to a request once. -/
inductive Mark where
  | raised (raising : Nat)
  | approved (raising : Nat)
  | taken (raising : Nat)
deriving DecidableEq

def Entry.mark : Entry → Option Mark
  | .raised raising .. => some (.raised raising)
  | .approved raising .. => some (.approved raising)
  | .taken raising _ => some (.taken raising)
  | .delivered .. => none

def Entry.raising : Entry → Nat
  | .raised raising .. | .approved raising .. | .taken raising _ | .delivered raising .. => raising

/-- What a delivery rests on. -/
structure Earned (log : List Entry) (raising call : Nat) (sessionId : String)
    (response : List UInt8) : Prop where
  taken : .taken raising call ∈ log
  raised : ∃ accountId ephPub label, .raised raising accountId ephPub sessionId label ∈ log
  approved : ∃ approver, .approved raising approver response ∈ log

/-- The log: numbers are older than the next one, marks are left once, deliveries are earned. -/
structure Logged (log : List Entry) (next : Nat) : Prop where
  older : ∀ entry ∈ log, entry.raising < next
  once : ∀ entry ∈ log, ∀ other ∈ log, entry.mark.isSome → entry.mark = other.mark → entry = other
  earned : ∀ raising call sessionId response now expiresAt,
    .delivered raising call sessionId response now expiresAt ∈ log →
      now ≤ expiresAt ∧ Earned log raising call sessionId response

/-- A row, with its request's part of the log. -/
structure Backed (log : List Entry) (accountOf : String → Option String) (next : Nat)
    (row : KeyRequest) : Prop where
  older : row.raising < next
  raised : .raised row.raising row.accountId row.ephPub row.requestedBySessionId row.label ∈ log
  approved : ∀ approver response, .approved row.raising approver response ∈ log ↔
    row.approvedBySessionId = some approver ∧ row.response = some response
  approver : ∀ response, row.response = some response →
    ∃ approver, row.approvedBySessionId = some approver ∧
      accountOf approver = some row.accountId ∧ approver ≠ row.requestedBySessionId
  standing : ∀ call, .taken row.raising call ∉ log

/-- What a stage of a call rests on. -/
structure Held (log : List Entry) (index : Nat) (call : Call) : Prop where
  own : ∀ row ∈ call.stage.rows, row.accountId = call.accountId
  picked : ∀ ephPub row response, call.stage = .picked ephPub (some row) →
    row.response = some response → Earned log row.raising index call.sessionId response

/-- The rows, the calls and the log agree. -/
structure Sound (sharing : Sharing) : Prop where
  logged : Logged sharing.log sharing.next
  stored : ∀ row ∈ sharing.keyRequests.rows,
    Backed sharing.log sharing.accountOf sharing.next row
  distinct : ∀ row ∈ sharing.keyRequests.rows, ∀ other ∈ sharing.keyRequests.rows,
    row.raising = other.raising → row = other
  sessions : ∀ index call, sharing.calls index = some call →
    sharing.accountOf call.sessionId = some call.accountId
  held : ∀ index call, sharing.calls index = some call → Held sharing.log index call

theorem sound_start : Sound start := by
  constructor
  · constructor <;> simp [start]
  all_goals simp [start, Table.empty]

variable {log : List Entry}

theorem Earned.note {raising call : Nat}
    {response : List UInt8} (earned : Earned log raising call sessionId response) (entry : Entry) :
    Earned (log ++ [entry]) raising call sessionId response := by
  obtain ⟨taken, ⟨accountId, ephPub, label, raised⟩, approver, approved⟩ := earned
  exact ⟨List.mem_append_left _ taken,
    ⟨accountId, ephPub, label, List.mem_append_left _ raised⟩,
    approver, List.mem_append_left _ approved⟩

/-- One more line, whose mark is new. -/
theorem Logged.note {next later : Nat} (logged : Logged log next) {entry : Entry}
    (grows : next ≤ later) (older : entry.raising < later)
    (fresh : entry.mark.isSome → ∀ held ∈ log, held.mark ≠ entry.mark)
    (earned : ∀ raising call sessionId response now expiresAt,
      entry = .delivered raising call sessionId response now expiresAt →
        now ≤ expiresAt ∧ Earned log raising call sessionId response) :
    Logged (log ++ [entry]) later where
  older held member := by
    rcases List.mem_append.mp member with before | same
    · exact Nat.lt_of_lt_of_le (logged.older held before) grows
    · exact List.mem_singleton.mp same ▸ older
  once first member second otherMember marked same := by
    rcases List.mem_append.mp member with before | last <;>
      rcases List.mem_append.mp otherMember with otherBefore | otherLast
    · exact logged.once first before second otherBefore marked same
    · obtain rfl := List.mem_singleton.mp otherLast
      exact absurd same (fresh (same ▸ marked) first before)
    · obtain rfl := List.mem_singleton.mp last
      exact absurd same.symm (fresh marked second otherBefore)
    · exact (List.mem_singleton.mp last).trans (List.mem_singleton.mp otherLast).symm
  earned raising call sessionId response now expiresAt member := by
    rcases List.mem_append.mp member with before | same
    · obtain ⟨inTime, held⟩ := logged.earned _ _ _ _ _ _ before
      exact ⟨inTime, held.note entry⟩
    · obtain ⟨inTime, held⟩ := earned _ _ _ _ _ _ (List.mem_singleton.mp same).symm
      exact ⟨inTime, held.note entry⟩

/-- A line about another request. -/
theorem Backed.note {accountOf : String → Option String} {next later : Nat}
    {entry : Entry} (backed : Backed log accountOf next row)
    (grows : next ≤ later) (other : entry.raising ≠ row.raising) :
    Backed (log ++ [entry]) accountOf later row where
  older := Nat.lt_of_lt_of_le backed.older grows
  raised := List.mem_append_left _ backed.raised
  approved approver response := by
    rw [List.mem_append, List.mem_singleton, ← backed.approved]
    exact or_iff_left (fun same => other (same ▸ rfl))
  approver := backed.approver
  standing call member := by
    rcases List.mem_append.mp member with held | same
    · exact backed.standing call held
    · exact other (List.mem_singleton.mp same ▸ rfl)

/-- A delivery does not concern the rows. -/
theorem Backed.deliver {accountOf : String → Option String} {next : Nat}
    (backed : Backed log accountOf next row)
    (raising call : Nat) (sessionId : String) (response : List UInt8) (now expiresAt : Nat) :
    Backed (log ++ [.delivered raising call sessionId response now expiresAt]) accountOf next row where
  older := backed.older
  raised := List.mem_append_left _ backed.raised
  approved approver stored := by simp [backed.approved]
  approver := backed.approver
  standing held := by simp [backed.standing]

variable {call : Call} {index : Nat}

theorem Held.note (held : Held log index call)
    (entry : Entry) : Held (log ++ [entry]) index call where
  own := held.own
  picked ephPub row response stage stored := (held.picked ephPub row response stage stored).note entry

variable {stage : Stage}

/-- A stage that has picked nothing up. -/
theorem held_plain (own : ∀ row ∈ stage.rows, row.accountId = call.accountId)
    (without : ∀ ephPub row, stage ≠ .picked ephPub (some row)) :
    Held log index { call with stage := stage } where
  own := own
  picked ephPub row _ picked _ := absurd picked (without ephPub row)

namespace Sound

/-- A call goes on. -/
theorem await (sound : Sound sharing)     (waits : sharing.calls index = some call)
    (held : Held sharing.log index { call with stage := stage }) :
    Sound (sharing.await index call stage) where
  logged := sound.logged
  stored := sound.stored
  distinct := sound.distinct
  sessions tested other found := by
    by_cases same : tested = index
    · subst same
      obtain rfl := Option.some.inj ((calls_await sharing tested call stage).symm.trans found)
      exact sound.sessions tested call waits
    · exact sound.sessions tested other (by simpa [Sharing.await, same] using found)
  held tested other found := by
    by_cases same : tested = index
    · subst same
      obtain rfl := Option.some.inj ((calls_await sharing tested call stage).symm.trans found)
      exact held
    · exact sound.held tested other (by simpa [Sharing.await, same] using found)

/-- A call goes on without a row. -/
theorem plain
    (sound : Sound sharing)     (waits : sharing.calls index = some call) (without : stage.rows = []) :
    Sound (sharing.await index call stage) := by
  refine sound.await waits (held_plain (by simp [without]) ?_)
  rintro ephPub row rfl
  exact absurd without (by simp [Stage.rows])

/-- A call that is new. -/
theorem receive
    (sound : Sound sharing)     (taken : sharing.receive index sessionId stage = some next)
    (without : stage.rows = []) : Sound next := by
  unfold Sharing.receive at taken
  split at taken
  · rename_i accountId _ issued
    cases taken
    refine ⟨sound.logged, sound.stored, sound.distinct, fun tested other found => ?_,
      fun tested other found => ?_⟩
    all_goals by_cases same : tested = index
    · subst same
      obtain rfl := Option.some.inj ((update_self tested _ sharing.calls).symm.trans found)
      exact issued
    · exact sound.sessions tested other ((update_of_ne same _ sharing.calls).symm.trans found)
    · subst same
      obtain rfl := Option.some.inj ((update_self tested _ sharing.calls).symm.trans found)
      refine ⟨by simp [without], fun ephPub row response picked _ => ?_⟩
      exact absurd without (by simp [show stage = .picked ephPub (some row) from picked, Stage.rows])
    · exact sound.held tested other ((update_of_ne same _ sharing.calls).symm.trans found)
  · contradiction

/-- Rows are deleted. -/
theorem fewer (sound : Sound sharing)
    (subset : ∀ row ∈ table.rows, row ∈ sharing.keyRequests.rows) :
    Sound { sharing with keyRequests := table } where
  logged := sound.logged
  stored row member := sound.stored row (subset row member)
  distinct row member other otherMember :=
    sound.distinct row (subset row member) other (subset other otherMember)
  sessions := sound.sessions
  held := sound.held

/-- A row is written, and the line about it. -/
theorem write (sound : Sound sharing) {entry : Entry} {later : Nat} (grows : sharing.next ≤ later)
    (logged : Logged (sharing.log ++ [entry]) later)
    (about : entry.raising = row.raising)
    (backed : Backed (sharing.log ++ [entry]) sharing.accountOf later row)
    (apart : ∀ other ∈ sharing.keyRequests.rows, other.key ≠ row.key →
      other.raising ≠ row.raising) :
    Sound ({ sharing with keyRequests := sharing.keyRequests.put row, next := later }.note entry) where
  logged := logged
  stored tested member := by
    rcases (mem_put _ _ _).mp member with rfl | ⟨held, different⟩
    · exact backed
    · exact (sound.stored tested held).note grows
        (fun same => apart tested held different (same.symm.trans about))
  distinct tested member other otherMember same := by
    rcases (mem_put _ _ _).mp member with rfl | ⟨held, different⟩ <;>
      rcases (mem_put _ _ _).mp otherMember with rfl | ⟨otherHeld, otherDifferent⟩
    · rfl
    · exact absurd same.symm (apart other otherHeld otherDifferent)
    · exact absurd same (apart tested held different)
    · exact sound.distinct tested held other otherHeld same
  sessions := sound.sessions
  held index call found := (sound.held index call found).note entry

/-- A request is raised. -/
theorem raise (sound : Sound sharing) (accountId sessionId ephPub : String)
    (label : Option String) (now : Nat) :
    Sound (sharing.raise accountId sessionId ephPub label now) := by
  have unknown : ∀ entry ∈ sharing.log, entry.raising ≠ sharing.next :=
    fun entry member => Nat.ne_of_lt (sound.logged.older entry member)
  refine sound.write (Nat.le_succ _) ?_ rfl ?_ ?_
  · refine sound.logged.note (Nat.le_succ _) (Nat.lt_succ_self _) ?_ (by simp)
    intro _ held member same
    refine unknown held member ?_
    cases held <;> simp_all [Entry.mark, Entry.raising]
  · constructor
    · exact Nat.lt_succ_self _
    · simp
    · intro approver response
      have absent : Entry.approved sharing.next approver response ∉ sharing.log :=
        fun member => unknown _ member rfl
      simp [absent]
    · simp
    · intro call member
      have absent : Entry.taken sharing.next call ∉ sharing.log :=
        fun member => unknown _ member rfl
      simp [absent] at member
  · exact fun other member _ => Nat.ne_of_lt (sound.stored other member).older

/-- A request is approved by another session. -/
theorem approve
    (sound : Sound sharing)     (member : row ∈ sharing.keyRequests.rows) (unanswered : row.response = none)
    (account : sharing.accountOf sessionId = some row.accountId)
    (another : row.requestedBySessionId ≠ sessionId) (response : List UInt8) :
    Sound (sharing.approve row sessionId response) := by
  have backed := sound.stored row member
  have unapproved : ∀ approver stored, .approved row.raising approver stored ∉ sharing.log := by
    intro approver stored approved
    have answered := ((backed.approved approver stored).mp approved).2
    exact absurd (unanswered.symm.trans answered) (by simp)
  refine sound.write (Nat.le_refl _) ?_ rfl ?_ ?_
  · refine sound.logged.note (Nat.le_refl _) backed.older ?_ (by simp)
    intro _ held heldMember same
    cases held with
    | approved raising approver stored =>
      obtain rfl : raising = row.raising := by simpa [Entry.mark] using same
      exact unapproved approver stored heldMember
    | _ => simp [Entry.mark] at same
  · constructor
    · exact backed.older
    · exact List.mem_append_left _ backed.raised
    · intro approver stored
      simp only [List.mem_append, unapproved, false_or, List.mem_singleton, Entry.approved.injEq,
        true_and, Option.some.injEq, eq_comm]
    · exact fun _ _ => ⟨sessionId, rfl, account, another.symm⟩
    · intro call taken
      simp [backed.standing] at taken
  · intro other otherMember different same
    have only : other = row := sound.distinct other otherMember row member same
    exact different (only ▸ rfl)

/-- A row is picked up: the call that has it can deliver its response. -/
theorem take (sound : Sound sharing) (member : row ∈ sharing.keyRequests.rows) (index : Nat) :
    Sound (sharing.take row index) ∧
      ∀ response, row.response = some response →
        Earned (sharing.take row index).log row.raising index row.requestedBySessionId response := by
  have backed := sound.stored row member
  have others : ∀ other, other ∈ (sharing.keyRequests.drop row.accountId row.ephPub).rows →
      other ∈ sharing.keyRequests.rows ∧ other.raising ≠ row.raising := by
    intro other otherMember
    obtain ⟨held, different⟩ := (mem_drop _ _ _ _).mp otherMember
    refine ⟨held, fun same => different ?_⟩
    obtain rfl := sound.distinct other held row member same
    rfl
  refine ⟨⟨?_, ?_, ?_, sound.sessions, ?_⟩, fun response answered => ⟨?_, ?_, ?_⟩⟩
  · refine sound.logged.note (Nat.le_refl _) backed.older ?_ (by simp)
    intro _ held heldMember same
    cases held with
    | taken raising call =>
      obtain rfl : raising = row.raising := by simpa [Entry.mark] using same
      exact backed.standing call heldMember
    | _ => simp [Entry.mark] at same
  · intro other otherMember
    obtain ⟨held, different⟩ := others other otherMember
    exact (sound.stored other held).note (Nat.le_refl _) different.symm
  · exact fun other otherMember another anotherMember =>
      sound.distinct other (others other otherMember).1 another (others another anotherMember).1
  · exact fun tested call found => (sound.held tested call found).note _
  · exact List.mem_append_right _ (List.mem_singleton_self _)
  · exact ⟨row.accountId, row.ephPub, row.label, List.mem_append_left _ backed.raised⟩
  · obtain ⟨approver, approvedBy, _⟩ := backed.approver response answered
    exact ⟨approver,
      List.mem_append_left _ ((backed.approved approver response).mpr ⟨approvedBy, answered⟩)⟩

/-- A response is delivered. -/
theorem deliver (sound : Sound sharing) {raising : Nat}
    {response : List UInt8} {now expiresAt : Nat} (inTime : now ≤ expiresAt)
    (earned : Earned sharing.log raising index sessionId response) :
    Sound (sharing.note (.delivered raising index sessionId response now expiresAt)) where
  logged := by
    have older : raising < sharing.next := sound.logged.older _ earned.taken
    refine sound.logged.note (Nat.le_refl _) older (by simp [Entry.mark]) ?_
    rintro _ _ _ _ _ _ ⟨⟩
    exact ⟨inTime, earned⟩
  stored row member := (sound.stored row member).deliver _ _ _ _ _ _
  distinct := sound.distinct
  sessions := sound.sessions
  held tested call found := (sound.held tested call found).note _

/-- What a call does next. -/
theorem advance (sound : Sound sharing)     (waits : sharing.calls index = some call)
    (taken : sharing.advance index call = some next) : Sound next := by
  obtain ⟨accountId, sessionId, stage⟩ := call
  have held := sound.held index _ waits
  cases stage with
  | sweeping ephPub label now =>
    cases taken
    exact (sound.fewer (fun row member => ((mem_filter _ _ row).mp member).1)).plain waits rfl
  | upserting ephPub label now =>
    cases taken
    exact (sound.raise accountId sessionId ephPub label now).plain waits rfl
  | listing now =>
    cases taken
    refine sound.await waits (held_plain (fun row member => ?_) (by simp))
    have meets := List.of_mem_filter member
    simp only [Bool.and_eq_true, decide_eq_true_eq] at meets
    exact meets.1.1
  | joining rows =>
    cases taken
    exact sound.plain waits rfl
  | approving ephPub response now =>
    simp only [Sharing.advance] at taken
    split at taken
    · cases taken
      exact sound.plain waits rfl
    · rename_i row found
      cases taken
      obtain ⟨member, account, unanswered, another⟩ := approvable_member found
      have issued : sharing.accountOf sessionId = some row.accountId :=
        account ▸ sound.sessions index _ waits
      exact (sound.approve member unanswered issued another _).plain waits rfl
  | picking ephPub =>
    simp only [Sharing.advance] at taken
    split at taken
    · cases taken
      exact sound.plain waits rfl
    · rename_i row found
      cases taken
      obtain ⟨member, account, rfl, _⟩ := claimable_member found
      obtain ⟨after, earned⟩ := sound.take member index
      refine after.await waits ⟨by simpa [Stage.rows] using account, ?_⟩
      rintro _ _ response ⟨⟩ answered
      exact earned response answered
  | picked ephPub row =>
    rcases row with _ | row
    · cases taken
      exact sound.plain waits rfl
    · simp only [Sharing.advance] at taken
      split at taken
      · rename_i response answered
        split at taken
        · cases taken
          exact sound.plain waits rfl
        · rename_i lasts
          cases taken
          exact (sound.deliver (Nat.le_of_not_lt lasts)
            (held.picked ephPub row response rfl answered)).plain waits rfl
      · cases taken
        exact sound.plain waits rfl
  | reading ephPub =>
    cases taken
    refine sound.await waits (held_plain (fun row member => ?_) (by simp))
    exact (raised_by_member (Option.mem_toList.mp member)).2.1
  | read row =>
    simp only [Sharing.advance] at taken
    split at taken
    · cases taken
      exact sound.plain waits rfl
    · split at taken <;> obtain rfl := Option.some.inj taken <;> exact sound.plain waits rfl
  | answered reply => contradiction

/-- A session is issued. -/
theorem login (sound : Sound sharing) {session : DeviceSession}
    (new : sharing.accountOf session.id = none) :
    Sound
      { sharing with
        deviceSessions := sharing.deviceSessions ++ [session]
        accountOf := update sharing.accountOf session.id (some session.accountId) } := by
  have keeps : ∀ sessionId accountId, sharing.accountOf sessionId = some accountId →
      update sharing.accountOf session.id (some session.accountId) sessionId = some accountId := by
    intro sessionId accountId issued
    have different : sessionId ≠ session.id := by
      rintro rfl
      exact absurd (new.symm.trans issued) (by simp)
    rw [update_of_ne different]
    exact issued
  refine ⟨sound.logged, fun row member => ?_, sound.distinct, fun index call found => ?_, sound.held⟩
  · obtain ⟨older, raised, approved, approver, standing⟩ := sound.stored row member
    refine ⟨older, raised, approved, fun response answered => ?_, standing⟩
    obtain ⟨who, approvedBy, account, another⟩ := approver response answered
    exact ⟨who, approvedBy, keeps who _ account, another⟩
  · exact keeps _ _ (sound.sessions index call found)

end Sound

/-! ## Runs -/

theorem step_sound {event : Event} (sound : Sound sharing)
    (taken : step sharing event = some next) : Sound next := by
  cases event with
  | login session =>
    simp only [step] at taken
    split at taken
    · contradiction
    · rename_i new
      cases taken
      exact sound.login new
  | revoke sessionId =>
    cases taken
    exact ⟨sound.logged, sound.stored, sound.distinct, sound.sessions, sound.held⟩
  | request index sessionId ephPub label =>
    refine sound.receive taken ?_
    split <;> rfl
  | list index sessionId => exact sound.receive taken rfl
  | approve index sessionId ephPub response => exact sound.receive taken rfl
  | claim index sessionId ephPub => exact sound.receive taken rfl
  | advance index =>
    obtain ⟨call, waits, goes⟩ := Option.bind_eq_some_iff.mp taken
    exact sound.advance waits goes
  | fail index =>
    simp only [step] at taken
    split at taken
    · contradiction
    · rename_i call waits
      split at taken
      · contradiction
      · cases taken
        exact sound.plain waits rfl
  | pass milliseconds =>
    cases taken
    exact ⟨sound.logged, sound.stored, sound.distinct, sound.sessions, sound.held⟩

/-- What the invariant means for the rows and the deliveries. -/
theorem Sound.shared (sound : Sound sharing) : Shared sharing where
  approver row member := (sound.stored row member).approver
  requester raising accountId ephPub sessionId label otherId otherPub other otherLabel raised again := by
    have same := sound.logged.once _ raised _ again rfl rfl
    exact (Entry.raised.inj same).2.2.2.1.symm
  delivered raising call sessionId response now expiresAt delivered := by
    obtain ⟨inTime, earned⟩ := sound.logged.earned _ _ _ _ _ _ delivered
    exact ⟨inTime, earned.raised, earned.approved⟩
  single raising call _ _ _ _ other _ _ _ _ delivered again := by
    have taken := (sound.logged.earned _ _ _ _ _ _ delivered).2.taken
    have takenAgain := (sound.logged.earned _ _ _ _ _ _ again).2.taken
    have same := sound.logged.once _ takenAgain _ taken rfl rfl
    exact (Entry.taken.inj same).2
  own index call found := (sound.held index call found).own

/-- Rows that stay, and rows that go. -/
theorem kept_fewer
    (subset : ∀ row ∈ next.keyRequests.rows, row ∈ sharing.keyRequests.rows) : Kept sharing next := by
  intro row member _ later laterMember same
  exact Or.inl (row_of_key member (subset later laterMember) same)

/-- No step of a call changes an answered row, unless it raises the request again. -/
theorem advance_kept (taken : sharing.advance index call = some next) : Kept sharing next := by
  obtain ⟨accountId, sessionId, stage⟩ := call
  cases stage with
  | sweeping ephPub label now =>
    cases taken
    exact kept_fewer (fun row member => ((mem_filter _ _ row).mp member).1)
  | upserting ephPub label now =>
    cases taken
    intro row member _ later laterMember same
    rcases (mem_put _ _ _).mp laterMember with rfl | ⟨held, _⟩
    · refine Or.inr ⟨label, ?_⟩
      obtain ⟨rfl, rfl⟩ := Prod.mk.inj same
      rfl
    · exact Or.inl (row_of_key member held same)
  | listing now =>
    cases taken
    exact kept_fewer (fun _ => id)
  | joining rows =>
    cases taken
    exact kept_fewer (fun _ => id)
  | approving ephPub response now =>
    simp only [Sharing.advance] at taken
    split at taken
    · cases taken
      exact kept_fewer (fun _ => id)
    · rename_i approved found
      cases taken
      obtain ⟨approvedMember, _, unanswered, _⟩ := approvable_member found
      intro row member answered later laterMember same
      rcases (mem_put _ _ _).mp laterMember with rfl | ⟨held, _⟩
      · -- The approved row had no response, so the answered row is another one.
        have one : row = approved := row_of_key approvedMember member same.symm
        rw [one, unanswered] at answered
        contradiction
      · exact Or.inl (row_of_key member held same)
  | picking ephPub =>
    simp only [Sharing.advance] at taken
    split at taken
    · cases taken
      exact kept_fewer (fun _ => id)
    · cases taken
      exact kept_fewer (fun row member => ((mem_drop _ _ _ row).mp member).1)
  | picked ephPub row =>
    simp only [Sharing.advance] at taken
    split at taken
    · split at taken
      · split at taken <;> obtain rfl := Option.some.inj taken <;> exact kept_fewer (fun _ => id)
      · cases taken
        exact kept_fewer (fun _ => id)
    · cases taken
      exact kept_fewer (fun _ => id)
  | reading ephPub =>
    cases taken
    exact kept_fewer (fun _ => id)
  | read row =>
    simp only [Sharing.advance] at taken
    split at taken
    · cases taken
      exact kept_fewer (fun _ => id)
    · split at taken <;> obtain rfl := Option.some.inj taken <;> exact kept_fewer (fun _ => id)
  | answered reply => contradiction

theorem receive_kept
    (taken : sharing.receive index sessionId stage = some next) : Kept sharing next := by
  unfold Sharing.receive at taken
  split at taken
  · cases taken
    exact kept_fewer (fun _ => id)
  · contradiction

theorem step_kept {event : Event} (taken : step sharing event = some next) : Kept sharing next := by
  cases event with
  | login session =>
    simp only [step] at taken
    split at taken
    · contradiction
    · cases taken
      exact kept_fewer (fun _ => id)
  | revoke sessionId =>
    cases taken
    exact kept_fewer (fun _ => id)
  | request index sessionId ephPub label => exact receive_kept taken
  | list index sessionId => exact receive_kept taken
  | approve index sessionId ephPub response => exact receive_kept taken
  | claim index sessionId ephPub => exact receive_kept taken
  | advance index =>
    obtain ⟨call, _, goes⟩ := Option.bind_eq_some_iff.mp taken
    exact advance_kept goes
  | fail index =>
    simp only [step] at taken
    split at taken
    · contradiction
    · split at taken
      · contradiction
      · cases taken
        exact kept_fewer (fun _ => id)
  | pass milliseconds =>
    cases taken
    exact kept_fewer (fun _ => id)

end Kvy.Server.App.KeyRequests
