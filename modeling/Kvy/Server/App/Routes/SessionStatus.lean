import Kvy.General.Transactions
import Kvy.Server.App.RowWrites
import Kvy.Server.App.StaleSessions

/-!
# The status of a session

The status route, the archive and unarchive routes and the reconciliation of stale sessions, any
number of requests at a time on the sessions of one account. Each reads the row, answers where it
finds nothing to do, and otherwise runs its update, allocates a `headerSeq` and commits; the
update of the clients goes out with the answer.

The update of a reported or presumed end asks for the status again. Those of the archive and
unarchive routes do not, and the one of an ended session asks only that it is not archived.
-/

namespace Kvy.Server.App.StatusRoutes

open General General.Transactions Wire Db

/-- `status` of `SessionStatusBodySchema`. -/
inductive ReportedStatus where
  | failed
  | ended
deriving DecidableEq

/-- A session that a read has found orphaned. -/
structure Orphan where
  session : SessionRecord
  machineLastSeenAt : Option Int
  now : Int
  orphaned : isSessionOrphaned session machineLastSeenAt now = true

/-- A request of one of the routes, or of a read that reconciles. Times are those of the update. -/
inductive StatusRequest where
  | status (id : String) (status : ReportedStatus) (now : Int)
  | archive (id : String) (now : Int)
  | unarchive (id : String) (now : Int)
  | reconcile (orphan : Orphan) (now : Int)

/-- What a request that does not write answers: no session, or the status it reports. -/
inductive Refusal where
  | notFound
  | unchanged (status : SessionStatus)
deriving DecidableEq

namespace StatusRequest

/-- The session of a request. -/
def id : StatusRequest → String
  | .status id _ _ => id
  | .archive id _ => id
  | .unarchive id _ => id
  | .reconcile orphan _ => orphan.session.id

/-- The update of a request. -/
def update : StatusRequest → Write
  | .status id .failed now => .reportFailed id now
  | .status id .ended now => .reportEnded id now
  | .archive id now => .archive id now
  | .unarchive id now => .unarchive id now
  | .reconcile orphan now => failOrphanedSession orphan.session now

/-- The answer to a status that leaves nothing to do. -/
def settled : StatusRequest → SessionStatus → Option SessionStatus
  | .status _ .failed _, current =>
    if current = .failed then some .failed else if current ≠ .active then some .failed else none
  | .status _ .ended _, current =>
    if current = .ended then some .ended else if current = .archived then some .ended else none
  | .archive _ _, current => if current = .archived then some .archived else none
  | .unarchive _ _, current => if current ≠ .archived then some current else none
  | .reconcile orphan _, current => if current ≠ .active then some orphan.session.status else none

/-- What the first read leads to. -/
def look (request : StatusRequest) (tables : Tables) : Option Refusal :=
  match Keyed.find? SessionRecord.id request.id tables.sessions with
  | none => some .notFound
  | some session => (request.settled session.status).map .unchanged

/-- The answer after an update that matched no row. Archiving and unarchiving do not ask. -/
def miss : StatusRequest → Option Refusal
  | .status _ .failed _ => some (.unchanged .failed)
  | .status _ .ended _ => some (.unchanged .ended)
  | .archive _ _ => none
  | .unarchive _ _ => none
  | .reconcile orphan _ => some (.unchanged orphan.session.status)

end StatusRequest

/-- The transactions of the requests. -/
def program : Program Tables String StatusRequest UpdateBody Refusal where
  key := StatusRequest.id
  look := StatusRequest.look
  write := fun request tables => request.update.commit tables
  miss := fun request _ => request.miss

/-- An account's sessions with the requests on their statuses. -/
abbrev StatusState := State Tables StatusRequest UpdateBody Refusal

/-! ## What is asked -/

/-- The stored status of a session. -/
def statusOf (tables : Tables) (id : String) : Option SessionStatus :=
  (Keyed.find? SessionRecord.id id tables.sessions).map SessionRecord.status

/-- The sessions whose stored status has changed, with the new one. -/
def changes (before after : Tables) : List (String × SessionStatus) :=
  before.sessions.filterMap (fun session =>
    (statusOf after session.id).bind (fun status =>
      if status = session.status then none else some (session.id, status)))

/-- The update that announces a change. -/
def announcement (change : String × SessionStatus) : UpdateBody :=
  .sessionUpdate change.1 { emptyPatch with status := some change.2 }

/-- The update that goes out with an answer. -/
def fanOut : StatusRequest × Reply UpdateBody Refusal → Option (Nat × UpdateBody)
  | (_, .done body number) => some (number, body)
  | (_, .refused _) => none

/-- The updates that have gone out or will with an answer. -/
def fanOuts (state : StatusState) : List (Nat × UpdateBody) := state.answers.filterMap fanOut

/-- What is asked of every step: the statuses move along their edges, and each change has its own
`headerSeq` and its own update. -/
structure Lawful (state : StatusState) (event : Event StatusRequest) (next : StatusState) : Prop where
  failed : ∀ id, statusOf next.store id = some .failed →
    statusOf state.store id = some .failed ∨ statusOf state.store id = some .active
  archived : ∀ id, statusOf state.store id = some .archived → statusOf next.store id ≠ some .archived →
    ∃ index now body number, event = .commit index ∧
      state.requests[index]? = some (.numbered (.unarchive id now) body number)
  restored : ∀ index id now body number, event = .commit index →
    state.requests[index]? = some (.numbered (.unarchive id now) body number) →
    statusOf state.store id = some .archived
  numbered : event ≠ .elsewhere →
    next.counter = state.counter + (changes state.store next.store).length
  announced : (fanOuts next).Perm (fanOuts state ++
    (changes state.store next.store).map (fun change => (next.counter, announcement change)))

/-- A request commits only what its first read would let pass, and no answer of a change is lost. -/
structure Upheld (state : StatusState) (event : Event StatusRequest) : Prop where
  passes : ∀ index request body number, event = .commit index →
    state.requests[index]? = some (.numbered request body number) → request.look state.store = none
  answered : ∀ index request body number, event = .hangUp index →
    state.requests[index]? ≠ some (.answering request (.done body number))

/-! ## Updates -/

variable {request : StatusRequest}

namespace StatusRequest

/-- The status that a request sets. -/
def target : StatusRequest → SessionStatus
  | .status _ .failed _ => .failed
  | .status _ .ended _ => .ended
  | .archive _ _ => .archived
  | .unarchive _ _ => .active
  | .reconcile _ _ => .failed

/-- The statuses that the update of a request asks for. -/
def Asks : StatusRequest → SessionStatus → Prop
  | .status _ .failed _, current => current = .active
  | .status _ .ended _, current => current ≠ .archived
  | .archive _ _, _ => True
  | .unarchive _ _, _ => True
  | .reconcile _ _, current => current = .active

/-- A request changes one session. -/
theorem update_row
    (request : StatusRequest) : request.update.row? = some (.sessions, request.id) := by
  cases request with
  | status id status now => cases status <;> rfl
  | archive | unarchive | reconcile => rfl

/-- Where a check lets a status pass that the update asks for, the update changes it, and restores
archived sessions only. -/
theorem settled_none {current : SessionStatus} (asks : request.Asks current) :
    request.settled current = none ↔
      current ≠ request.target ∧ ((∃ id now, request = .unarchive id now) → current = .archived) := by
  cases request with
  | status id status now =>
    cases status with
    | failed =>
      obtain rfl : current = .active := asks
      simp [settled, target]
    | ended =>
      have live : current ≠ .archived := asks
      simp [settled, target, live]
  | archive id now => simp [settled, target]
  | unarchive id now => cases current <;> simp [settled, target]
  | reconcile orphan now =>
    obtain rfl : current = .active := asks
    simp [settled, target]

/-- Only an active session is failed. -/
theorem asks_failed {current : SessionStatus}
    (fails : request.target = .failed) (asks : request.Asks current) : current = .active := by
  cases request with
  | status id status now =>
    cases status with
    | failed => exact asks
    | ended => contradiction
  | archive | unarchive => contradiction
  | reconcile orphan now => exact asks

/-- Only the unarchive route moves a session away from `archived`. -/
theorem asks_archived (asks : request.Asks .archived)
    (away : request.target ≠ .archived) : ∃ id now, request = .unarchive id now := by
  cases request with
  | status id status now =>
    cases status with
    | failed => contradiction
    | ended => exact absurd rfl asks
  | archive id now => exact absurd rfl away
  | unarchive id now => exact ⟨id, now, rfl⟩
  | reconcile orphan now => contradiction

end StatusRequest

theorem program_local : program.Local := by
  intro one other before after body apart commits
  have rows : ((.sessions, one.id) : TableName × String) ≠ (.sessions, other.id) := by
    intro same
    exact apart (Prod.mk.inj same).2
  exact Write.returns_apart one.update_row other.update_row rows commits

variable {tables : Tables}

/-- The status of a row that is found. -/
theorem statusOf_found {id : String} {row : SessionRecord}
    (found : Keyed.find? SessionRecord.id id tables.sessions = some row) :
    statusOf tables id = some row.status := by
  rw [statusOf, found]
  rfl

/-- The update of a request sets its status on its session, and asks for the current one. -/
theorem update_commits {after : Tables} {body : UpdateBody}
    (commits : request.update.commit tables = some (after, body)) :
    (∃ now, after = tables.updateSession request.id (setStatus request.target now) (fun _ => rfl)) ∧
      body = announcement (request.id, request.target) ∧
      ∀ current, statusOf tables request.id = some current → request.Asks current := by
  cases request with
  | status id status now =>
    cases status with
    | failed =>
      obtain ⟨row, found, active, rfl, rfl⟩ := commit_reportFailed commits
      refine ⟨⟨now, rfl⟩, rfl, ?_⟩
      intro current isCurrent
      exact (Option.some.inj (isCurrent.symm.trans (statusOf_found found))).trans active
    | ended =>
      obtain ⟨row, found, live, rfl, rfl⟩ := commit_reportEnded commits
      refine ⟨⟨now, rfl⟩, rfl, ?_⟩
      intro current isCurrent archived
      obtain rfl := Option.some.inj (isCurrent.symm.trans (statusOf_found found))
      exact live archived
  | archive id now =>
    obtain ⟨rfl, rfl⟩ := Prod.mk.inj (Option.some.inj commits)
    exact ⟨⟨now, rfl⟩, rfl, fun _ _ => trivial⟩
  | unarchive id now =>
    obtain ⟨rfl, rfl⟩ := Prod.mk.inj (Option.some.inj commits)
    exact ⟨⟨now, rfl⟩, rfl, fun _ _ => trivial⟩
  | reconcile orphan now =>
    obtain ⟨row, found, active, rfl, rfl⟩ := commit_reportFailed commits
    refine ⟨⟨now, rfl⟩, rfl, ?_⟩
    intro current isCurrent
    exact (Option.some.inj (isCurrent.symm.trans (statusOf_found found))).trans active

/-- The status that an update sets is that of its session, if there is one. -/
theorem statusOf_update (tables : Tables) (id other : String) (status : SessionStatus) (now : Int) :
    statusOf (tables.updateSession id (setStatus status now) (fun _ => rfl)) other =
      if other = id then (statusOf tables id).map (fun _ => status) else statusOf tables other := by
  have keeps (row : SessionRecord) : (setStatus status now row).id = row.id := rfl
  simp only [statusOf, Tables.updateSession, Keyed.find_modify _ _ _ _ keeps]
  split
  · rename_i same
    subst same
    cases Keyed.find? SessionRecord.id other tables.sessions <;> rfl
  · rfl

/-- A stored session has its own status. -/
theorem statusOf_member {session : SessionRecord}
    (member : session ∈ tables.sessions) : statusOf tables session.id = some session.status := by
  exact statusOf_found (Keyed.find_member SessionRecord.id tables.sessionKeys member)

theorem changes_self (tables : Tables) : changes tables tables = [] := by
  rw [changes, List.filterMap_eq_nil_iff]
  intro session member
  rw [statusOf_member member]
  simp

/-- An update changes its session where that has another status. -/
theorem changes_update (tables : Tables) (id : String) (status : SessionStatus) (now : Int) :
    changes tables (tables.updateSession id (setStatus status now) (fun _ => rfl)) =
      match statusOf tables id with
      | some current => if status = current then [] else [(id, status)]
      | none => [] := by
  have only : ∀ session ∈ tables.sessions, session.id ≠ id →
      (statusOf (tables.updateSession id (setStatus status now) (fun _ => rfl)) session.id).bind
        (fun status => if status = session.status then none else some (session.id, status)) = none := by
    intro session member apart
    rw [statusOf_update, if_neg apart, statusOf_member member]
    simp
  rw [changes, Keyed.filterMap_only SessionRecord.id id _ tables.sessionKeys only]
  cases found : Keyed.find? SessionRecord.id id tables.sessions with
  | none =>
    rw [statusOf, found]
    rfl
  | some row =>
    have isRow := Keyed.find_key SessionRecord.id found
    rw [Option.bind_some, isRow, statusOf_update, if_pos rfl, statusOf_found found]
    simp only [Option.map_some, Option.bind_some]
    split <;> rfl

/-! ## Steps -/

variable {state next : StatusState} {event : Event StatusRequest}

/-- A step that changes no status and announces nothing. -/
theorem lawful_quiet (store : next.store = state.store)
    (counter : event ≠ .elsewhere → next.counter = state.counter)
    (fans : (fanOuts next).Perm (fanOuts state)) (quiet : ∀ index, event ≠ .commit index) :
    Lawful state event next where
  failed := by
    intro id failed
    rw [store] at failed
    exact Or.inl failed
  archived := by
    intro id archived away
    rw [store] at away
    exact absurd archived away
  restored := fun index _ _ _ _ commits => absurd commits (quiet index)
  numbered := by
    intro here
    rw [counter here, store, changes_self]
    rfl
  announced := by
    rw [store, changes_self, List.map_nil, List.append_nil]
    exact fans

theorem upheld_quiet
    (quiet : ∀ index, event ≠ .commit index) (stays : ∀ index, event ≠ .hangUp index) :
    Upheld state event where
  passes := fun index _ _ _ commits => absurd commits (quiet index)
  answered := fun index _ _ _ hangs => absurd hangs (stays index)

variable {index : Nat}

/-- A request that moves without an answer sends no update out. -/
theorem fanOuts_move {before phase : Phase StatusRequest UpdateBody Refusal}
    (was : state.requests[index]? = some before) (quiet : before.reply = none)
    (still : phase.reply = none) : (fanOuts (state.move index phase)).Perm (fanOuts state) := by
  rw [fanOuts, answers_move was quiet still]
  rfl

/-- A refusal sends no update out. -/
theorem fanOuts_refuse {before : Phase StatusRequest UpdateBody Refusal}
    {refusal : Refusal} (was : state.requests[index]? = some before)
    (quiet : before.reply = none) :
    (fanOuts (state.move index (.answering request (.refused refusal)))).Perm (fanOuts state) := by
  have gained : (state.move index (.answering request (.refused refusal))).answers.Perm
      (state.answers ++ [(request, .refused refusal)]) := answers_gain was quiet rfl
  have silent : [(request, Reply.refused refusal)].filterMap fanOut = [] := rfl
  have fans := gained.filterMap fanOut
  rw [List.filterMap_append, silent, List.append_nil] at fans
  exact fans

/-- An answer that is sent takes its update along. -/
theorem fanOuts_sent {reply : Reply UpdateBody Refusal}
    (was : state.requests[index]? = some (.answering request reply)) :
    (fanOuts { state.move index .finished with sent := state.sent ++ [(request, reply)] }).Perm
      (fanOuts state) :=
  (answers_sent was).filterMap fanOut

/-- An answer that is lost loses its update. -/
theorem fanOuts_over {reply : Reply UpdateBody Refusal}
    (was : state.requests[index]? = some (.answering request reply)) :
    (fanOuts state).Perm
      (fanOuts (state.move index .finished) ++ (fanOut (request, reply)).toList) := by
  have fans := (answers_over was).filterMap fanOut
  have one : [(request, reply)].filterMap fanOut = (fanOut (request, reply)).toList := by
    cases reply <;> rfl
  rw [List.filterMap_append, one] at fans
  exact fans

/-- The first read of a session that is there. -/
theorem look_none {current : SessionStatus} (present : statusOf tables request.id = some current) :
    request.look tables = none ↔ request.settled current = none := by
  obtain ⟨row, found, rfl⟩ := Option.map_eq_some_iff.mp present
  rw [StatusRequest.look, found]
  exact Option.map_eq_none_iff

/-- The first read of a session that is not there. -/
theorem look_absent (absent : statusOf tables request.id = none) : request.look tables ≠ none := by
  rw [StatusRequest.look, Option.map_eq_none_iff.mp absent]
  simp

/-- A commit is lawful exactly where the first read of its request would still let it pass. -/
theorem lawful_commit (sound : Sound program state) {number : Nat}
    {body : UpdateBody} {store : Tables} {value : UpdateBody}
    (was : state.requests[index]? = some (.numbered request body number))
    (matched : program.write request state.store = some (store, value)) :
    Lawful state (.commit index)
        { state.move index (.answering request (.done body number)) with
          store := store
          counter := number } ↔
      request.look state.store = none := by
  obtain ⟨returned, rfl⟩ := sound.committed was matched
  obtain ⟨⟨now, rfl⟩, rfl, asks⟩ := update_commits returned
  have changed := changes_update state.store request.id request.target now
  have gained : (state.move index (.answering request (.done
      (announcement (request.id, request.target)) (state.counter + 1)))).answers.Perm (state.answers ++
        [(request, .done (announcement (request.id, request.target)) (state.counter + 1))]) :=
    answers_gain was rfl rfl
  cases present : statusOf state.store request.id with
  | none =>
    simp only [present] at changed
    constructor
    · intro lawful
      have counted := lawful.numbered (by simp)
      rw [changed] at counted
      simp at counted
    · intro passes
      exact absurd passes (look_absent present)
  | some current =>
    simp only [present] at changed
    rw [look_none present, StatusRequest.settled_none (asks current present)]
    constructor
    · intro lawful
      constructor
      · rintro rfl
        have counted := lawful.numbered (by simp)
        rw [changed] at counted
        simp at counted
      · rintro ⟨id, now, rfl⟩
        exact Option.some.inj (present.symm.trans
          (lawful.restored index id now _ _ rfl was))
    · rintro ⟨differs, restores⟩
      rw [if_neg (fun same => differs same.symm)] at changed
      constructor
      · intro id failed
        rw [statusOf_update] at failed
        split at failed
        · rename_i same
          subst same
          rw [present] at failed
          obtain rfl := StatusRequest.asks_failed (Option.some.inj failed) (asks current present)
          exact Or.inr present
        · exact Or.inl failed
      · intro id archived away
        rw [statusOf_update] at away
        split at away
        · rename_i same
          subst same
          obtain rfl := Option.some.inj (present.symm.trans archived)
          obtain ⟨id, now, rfl⟩ := StatusRequest.asks_archived (asks .archived present) (fun same =>
            away (by rw [present, Option.map_some, same]))
          exact ⟨index, now, _, _, rfl, was⟩
        · exact absurd archived away
      · intro other id now body number commits isUnarchive
        obtain rfl := Event.commit.inj commits
        obtain ⟨rfl, _⟩ := Phase.numbered.inj (Option.some.inj (was.symm.trans isUnarchive))
        exact present.trans (congrArg some (restores ⟨id, now, rfl⟩))
      · intro _
        rw [changed]
        rfl
      · rw [changed]
        have fans := gained.filterMap fanOut
        rw [List.filterMap_append] at fans
        exact fans

/-- A lost answer is lawful exactly where it announces no change. -/
theorem lawful_hangUp {reply : Reply UpdateBody Refusal}
    (answering : state.requests[index]? = some (.answering request reply)) :
    Lawful state (.hangUp index) (state.move index .finished) ↔ Upheld state (.hangUp index) := by
  have lost := fanOuts_over answering
  cases reply with
  | done body number =>
    apply iff_of_false
    · intro lawful
      have same := lawful.announced.length_eq
      have fewer := lost.length_eq
      have unchanged : changes state.store (state.move index .finished).store = [] :=
        changes_self state.store
      rw [unchanged] at same
      simp only [List.map_nil, List.append_nil] at same
      simp only [fanOut, Option.toList_some, List.length_append, List.length_singleton] at fewer
      omega
    · exact fun upheld => upheld.answered index request body number rfl answering
  | refused refusal =>
    apply iff_of_true
    · simp only [fanOut, Option.toList_none, List.append_nil] at lost
      exact lawful_quiet rfl (fun _ => rfl) lost.symm nofun
    · refine ⟨fun _ _ _ _ commits => absurd commits nofun, ?_⟩
      intro other theirs body number hangs isTheirs
      obtain rfl := Event.hangUp.inj hangs
      obtain ⟨_, isDone⟩ := Phase.answering.inj (Option.some.inj (answering.symm.trans isTheirs))
      contradiction

/-- A step is lawful exactly where it is upheld. -/
theorem lawful_iff (sound : Sound program state) (taken : Taken program state event next) :
    Lawful state event next ↔ Upheld state event := by
  cases taken with
  | arrive request =>
    refine iff_of_true (lawful_quiet rfl (fun _ => rfl) ?_ nofun) (upheld_quiet nofun nofun)
    rw [fanOuts, answers_arrive]
    rfl
  | refuse index request answer begun read =>
    exact iff_of_true (lawful_quiet rfl (fun _ => rfl) (fanOuts_refuse begun rfl) nofun)
      (upheld_quiet nofun nofun)
  | look index request begun read =>
    exact iff_of_true (lawful_quiet rfl (fun _ => rfl) (fanOuts_move begun rfl rfl) nofun)
      (upheld_quiet nofun nofun)
  | write index request store returned looked matched free =>
    exact iff_of_true (lawful_quiet rfl (fun _ => rfl) (fanOuts_move looked rfl rfl) nofun)
      (upheld_quiet nofun nofun)
  | lose index request looked unmatched =>
    exact iff_of_true (lawful_quiet rfl (fun _ => rfl) (fanOuts_move looked rfl rfl) nofun)
      (upheld_quiet nofun nofun)
  | miss index request answer missed read =>
    exact iff_of_true (lawful_quiet rfl (fun _ => rfl) (fanOuts_refuse missed rfl) nofun)
      (upheld_quiet nofun nofun)
  | throw index request missed read =>
    exact iff_of_true (lawful_quiet rfl (fun _ => rfl) (fanOuts_move missed rfl rfl) nofun)
      (upheld_quiet nofun nofun)
  | number index request returned written free =>
    exact iff_of_true (lawful_quiet rfl (fun _ => rfl) (fanOuts_move written rfl rfl) nofun)
      (upheld_quiet nofun nofun)
  | commit index request returned number store value numbered matched =>
    rw [lawful_commit sound numbered matched]
    constructor
    · intro passes
      refine ⟨?_, fun _ _ _ _ hangs => absurd hangs nofun⟩
      intro other theirs body theirNumber commits isTheirs
      obtain rfl := Event.commit.inj commits
      obtain ⟨rfl, _⟩ := Phase.numbered.inj (Option.some.inj (numbered.symm.trans isTheirs))
      exact passes
    · exact fun upheld => upheld.passes index request returned number rfl numbered
  | abort index phase request held isOpen =>
    have quiet : (fanOuts (state.move index .finished)).Perm (fanOuts state) :=
      fanOuts_move held (Phase.reply_opened isOpen) rfl
    exact iff_of_true (lawful_quiet rfl (fun _ => rfl) quiet nofun) (upheld_quiet nofun nofun)
  | answer index request reply answering =>
    exact iff_of_true (lawful_quiet rfl (fun _ => rfl) (fanOuts_sent answering) nofun)
      (upheld_quiet nofun nofun)
  | hangUp index request reply answering => exact lawful_hangUp answering
  | elsewhere free =>
    exact iff_of_true (lawful_quiet rfl (fun here => absurd rfl here) (.refl _) nofun)
      (upheld_quiet nofun nofun)

/-! ## Runs -/

/-- In every run of the routes and the reconciliation, the statuses move along their edges, with
one `headerSeq` and one update for each change, exactly where each request commits only what its
first read would still let pass and no answer of a change is lost. -/
theorem statuses_lawful_iff
    (tables : Tables) (headerSeq : Nat) (events : List (Event StatusRequest)) :
    Runs.Always (step program) Lawful (State.start tables headerSeq) events ↔
      Runs.Always (step program) (fun state event _ => Upheld state event)
        (State.start tables headerSeq) events :=
  Runs.always_congr (Sound program) Lawful (fun state event _ => Upheld state event)
    (fun _ _ _ sound happens => sound_step sound program_local happens)
    (fun _ _ _ sound happens => lawful_iff sound (step_taken happens))
    events (sound_start tables headerSeq)

/-- An active session. -/
def running : SessionRecord where
  id := "s"
  accountId := "a"
  workspaceId := none
  machineId := none
  tag := "tag"
  provider := "claude-code"
  executionTarget := "local"
  status := .active
  metadata := ⟨"metadata"⟩
  metadataVersion := 0
  agentState := none
  agentStateVersion := 0
  dek := "dek"
  keyEpoch := 1
  msgSeq := 0
  notificationsMuted := false
  createdAt := 0
  updatedAt := 0

/-- A double click on the archive action: both requests read the session before either commits. -/
def doubleClick : List (Event StatusRequest) :=
  [.arrive (.archive "s" 1), .arrive (.archive "s" 2), .look 0, .look 1,
    .write 0, .number 0, .commit 0, .write 1, .number 1]

/-- The second request takes a second `headerSeq` and announces the status a second time. -/
theorem archived_twice :
    (Runs.run (step program) (State.start (Tables.empty.putSession running) 0)
        (doubleClick ++ [.commit 1])).map fanOuts =
      some [(1, announcement ("s", .archived)), (2, announcement ("s", .archived))] ∧
    ¬ Runs.Always (step program) Lawful (State.start (Tables.empty.putSession running) 0)
        (doubleClick ++ [.commit 1]) := by
  constructor
  · decide +kernel
  · intro always
    have trace : (Runs.run (step program) (State.start (Tables.empty.putSession running) 0)
        doubleClick).bind (fun state => (step program state (.commit 1)).map (fun next =>
          (state.counter, next.counter, (changes state.store next.store).length))) =
        some (1, 2, 0) := by
      decide +kernel
    obtain ⟨state, ran, commits⟩ := Option.bind_eq_some_iff.mp trace
    obtain ⟨next, happens, counts⟩ := Option.map_eq_some_iff.mp commits
    obtain ⟨before, after, changed⟩ : state.counter = 1 ∧ next.counter = 2 ∧
        (changes state.store next.store).length = 0 := by simpa using counts
    have lawful := Runs.always_step always ran happens
    have counted := lawful.numbered (by simp)
    omega

end Kvy.Server.App.StatusRoutes
