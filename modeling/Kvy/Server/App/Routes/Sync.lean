import Kvy.General.Runs
import Kvy.Server.App.StaleSessions

/-!
# The account snapshot

`GET /v1/sync` runs five separate statements outside a transaction. Each of them sees
the state that is committed when it runs; structural writes commit before, between and
after them in any order. Once all five have returned, the handler flips stale sessions
one by one and answers.

A state keeps every committed state of the tables and the log of the writes between
them, so that what a response shows can be compared with the moments it could be from.
-/

namespace Kvy.Server.App.Sync

open General Wire Db

/-- What the five statements have returned so far. -/
structure Reads where
  account : Option (Nat × Nat)
  sessions : Option (List SessionRecord)
  machines : Option (List MachineRecord)
  unmanagedSessions : Option (List UnmanagedSessionRecord)
  workspaces : Option (List WorkspaceRecord)

/-- The body of the answer. -/
structure Response where
  headerSeq : Nat
  accountKeyEpoch : Nat
  sessions : List SessionRow
  machines : List MachineRow
  unmanagedSessions : List UnmanagedSessionRow
  workspaces : List WorkspaceRow

/-- Where the handler stands. Reconciling walks the session rows with the time it read
at the start. -/
inductive Phase where
  | reading
  | reconciling (now : Int) (done pending : List SessionRecord)
  | answered (response : Response)

/-- The account, the history of its tables and the request. The tables after the first
`n` structural writes are the entry `n` of `past`. -/
structure State where
  account : Account
  past : List Tables
  log : List Write
  reads : Reads
  phase : Phase

/-- A new account and a request that has read nothing. -/
def start : State :=
  ⟨.empty, [.empty], [], ⟨none, none, none, none, none⟩, .reading⟩

/-- A committed write, a key rotation, or one step of the request. -/
inductive Event where
  | commit (write : Write)
  | bindKeys (keyEpoch : Nat)
  | readAccount
  | readTable (table : TableName)
  | join (now : Int)
  | reconcile (writeNow : Int)
  | answer (needsReauth : String → Bool)

/-- A structural write commits. -/
def State.commit (state : State) (write : Write) : Option State :=
  (state.account.commit write).map fun (account, _) =>
    { state with account, past := state.past ++ [account.tables], log := state.log ++ [write] }

/-- Whether a table's statement has returned. -/
def Reads.has (reads : Reads) : TableName → Bool
  | .sessions => reads.sessions.isSome
  | .machines => reads.machines.isSome
  | .unmanagedSessions => reads.unmanagedSessions.isSome
  | .workspaces => reads.workspaces.isSome

/-- One `SELECT` on the tables as committed. -/
def Reads.select (reads : Reads) (tables : Tables) : TableName → Reads
  | .sessions => { reads with sessions := some tables.sessions }
  | .machines => { reads with machines := some tables.machines }
  | .unmanagedSessions => { reads with unmanagedSessions := some tables.unmanagedSessions }
  | .workspaces => { reads with workspaces := some tables.workspaces }

/-- `Promise.all` resolves with the five results. -/
def join (state : State) (now : Int) : Option State :=
  match state.phase, state.reads with
  | .reading, ⟨some _, some sessions, some _, some _, some _⟩ =>
    some { state with phase := .reconciling now [] sessions }
  | _, _ => none

/-- One row of `reconcileStaleSessions`. -/
def reconcile (state : State) (writeNow : Int) : Option State :=
  match state.phase, state.reads.machines with
  | .reconciling now done (session :: pending), some machines =>
    if isSessionOrphaned session (machineLastSeen machines session) now then
      match state.commit (failOrphanedSession session writeNow) with
      | some flipped =>
        some { flipped with
          phase := .reconciling now (done ++ [setStatus .failed now session]) pending }
      | none => some { state with phase := .reconciling now (done ++ [session]) pending }
    else some { state with phase := .reconciling now (done ++ [session]) pending }
  | _, _ => none

/-- The handler returns. -/
def answer (state : State) (needsReauth : String → Bool) : Option State :=
  match state.phase, state.reads with
  | .reconciling _ done [],
      ⟨some (headerSeq, keyEpoch), _, some machines, some unmanaged, some workspaces⟩ =>
    some { state with
      phase := .answered
        { headerSeq
          accountKeyEpoch := keyEpoch
          sessions := done.map toSessionRow
          machines := machines.map (fun row => toMachineRow row (needsReauth row.id))
          unmanagedSessions := unmanaged.map toUnmanagedSessionRow
          workspaces := workspaces.map toWorkspaceRow } }
  | _, _ => none

/-- One step. -/
def step (state : State) : Event → Option State
  | .commit write => state.commit write
  | .bindKeys keyEpoch => some { state with account := { state.account with keyEpoch } }
  | .readAccount =>
    if state.reads.account.isSome then none
    else
      some { state with
        reads := { state.reads with
          account := some (state.account.headerSeq, state.account.keyEpoch) } }
  | .readTable table =>
    if state.reads.has table then none
    else some { state with reads := state.reads.select state.account.tables table }
  | .join now => join state now
  | .reconcile writeNow => reconcile state writeNow
  | .answer needsReauth => answer state needsReauth

/-- The row handed out for a session is the row read or the row read and flipped. -/
def HandedOut (now : Int) (read out : SessionRecord) : Prop :=
  out = read ∨ out = setStatus .failed now read

/-- A response shows a table as some moment left it. -/
def Shows (response : Response) (tables : Tables) : TableName → Prop
  | .sessions => ∃ now out, List.Forall₂ (HandedOut now) tables.sessions out ∧
      response.sessions = out.map toSessionRow
  | .machines => ∃ needsReauth : String → Bool,
      response.machines = tables.machines.map (fun row => toMachineRow row (needsReauth row.id))
  | .unmanagedSessions =>
      response.unmanagedSessions = tables.unmanagedSessions.map toUnmanagedSessionRow
  | .workspaces => response.workspaces = tables.workspaces.map toWorkspaceRow

/-- Every structural write up to the answered `headerSeq` is reflected: its table is
shown as it was at a moment when that write had been committed. -/
def Consistent (state : State) : Prop :=
  ∀ response, state.phase = .answered response →
    ∀ index write table, index < response.headerSeq → state.log[index]? = some write →
      write.table? = some table →
      ∃ moment tables, index < moment ∧ state.past[moment]? = some tables ∧
        Shows response tables table

/-- No structural write changes a table that the request has read while the account row
is still to be read. -/
def Undisturbed (state : State) (event : Event) : Prop :=
  ∀ write table, event = .commit write → write.table? = some table → state.reads.account = none →
    state.reads.has table = false

/-- The `headerSeq` that the request has read, or would read now. -/
def State.baseline (state : State) : Nat :=
  match state.reads.account with
  | some (headerSeq, _) => headerSeq
  | none => state.account.headerSeq

/-- A table's statement returned its rows of these tables. -/
def Reads.Returned (reads : Reads) (tables : Tables) : TableName → Prop
  | .sessions => reads.sessions = some tables.sessions
  | .machines => reads.machines = some tables.machines
  | .unmanagedSessions => reads.unmanagedSessions = some tables.unmanagedSessions
  | .workspaces => reads.workspaces = some tables.workspaces

/-- No write between a moment and the baseline changed a table. -/
def State.QuietFrom (state : State) (table : TableName) (moment : Nat) : Prop :=
  ∀ index write, moment ≤ index → index < state.baseline → state.log[index]? = some write →
    write.table? ≠ some table

/-- The history matches the counter, and every table read is one of a moment after which
nothing changed it up to the baseline. -/
structure Sound (state : State) : Prop where
  counted : state.log.length = state.account.headerSeq
  remembered : state.past.length = state.account.headerSeq + 1
  current : state.past[state.account.headerSeq]? = some state.account.tables
  earlier : state.baseline ≤ state.account.headerSeq
  taken : ∀ table, state.reads.has table = true →
    ∃ moment tables, state.past[moment]? = some tables ∧ state.reads.Returned tables table ∧
      state.QuietFrom table moment
  walked : ∀ now done pending, state.phase = .reconciling now done pending →
    state.reads.account ≠ none ∧
      ∃ rows, state.reads.sessions = some rows ∧ List.Forall₂ (HandedOut now) rows (done ++ pending)
  answered : ∀ response, state.phase = .answered response →
    response.headerSeq ≤ state.account.headerSeq
  consistent : Consistent state

/-- A new account and request are sound. -/
theorem start_sound : Sound start where
  counted := rfl
  remembered := rfl
  current := rfl
  earlier := Nat.le_refl 0
  taken := by
    intro table read
    cases table <;> simp [start, Reads.has] at read
  walked := by simp [start]
  answered := by simp [start]
  consistent := by simp [Consistent, start]

variable {next state : State}

/-- What a committed write does to the state. -/
theorem commit_shape {write : Write} (taken : state.commit write = some next) :
    ∃ account, account.headerSeq = state.account.headerSeq + 1 ∧
      next = { state with
        account, past := state.past ++ [account.tables], log := state.log ++ [write] } := by
  obtain ⟨⟨account, body⟩, committed, rfl⟩ := Option.map_eq_some_iff.mp taken
  obtain ⟨⟨tables, emitted⟩, _, same⟩ := Option.map_eq_some_iff.mp committed
  obtain ⟨rfl, _⟩ := Prod.mk.inj same
  exact ⟨_, rfl, rfl⟩

/-- Old entries of an extended list stay. -/
theorem entry_kept {α : Type} {entries : List α} {index : Nat} {entry : α} (last : α)
    (held : entries[index]? = some entry) : (entries ++ [last])[index]? = some entry := by
  rw [List.getElem?_append_left (List.getElem?_eq_some_iff.mp held).1]
  exact held

/-- A write that changes no table read so far keeps the state sound. -/
theorem commit_sound {write : Write} (sound : Sound state)
    (apart : ∀ table, write.table? = some table → state.reads.account = none →
      state.reads.has table = false)
    (taken : state.commit write = some next) : Sound next := by
  obtain ⟨account, counter, rfl⟩ := commit_shape taken
  have logged {index : Nat} {found : Write} (known : index < state.account.headerSeq)
      (held : (state.log ++ [write])[index]? = some found) : state.log[index]? = some found := by
    rwa [List.getElem?_append_left (by rw [sound.counted]; exact known)] at held
  refine
    { counted := by simp [sound.counted, counter]
      remembered := by simp [sound.remembered, counter]
      current := ?_, earlier := ?_, taken := ?_, walked := sound.walked, answered := ?_,
      consistent := ?_ }
  · simp [counter, ← sound.remembered]
  · have earlier := sound.earlier
    unfold State.baseline at earlier ⊢
    cases read : state.reads.account with
    | none => simp
    | some read =>
      simp only [‹state.reads.account = _›] at earlier ⊢
      omega
  · intro table read
    obtain ⟨moment, tables, held, returned, quiet⟩ := sound.taken table read
    refine ⟨moment, tables, entry_kept account.tables held, returned, ?_⟩
    intro index found late early entry changes
    cases unread : state.reads.account with
    | some read =>
      have bound : index < state.baseline := by simpa [State.baseline, unread] using early
      have known := Nat.lt_of_lt_of_le bound sound.earlier
      exact quiet index found late bound (logged known entry) changes
    | none =>
      have early : index < account.headerSeq := by simpa [State.baseline, unread] using early
      by_cases known : index < state.account.headerSeq
      · have bound : index < state.baseline := by simpa [State.baseline, unread] using known
        exact quiet index found late bound (logged known entry) changes
      · have last : index = state.log.length := by
          rw [sound.counted]
          omega
        have same : write = found := by simpa [last] using entry
        have absent := apart table (same ▸ changes) unread
        rw [read] at absent
        contradiction
  · intro response answered
    have bound := sound.answered response answered
    simp only [counter]
    omega
  · intro response answered index found table known entry changes
    have bound := sound.answered response answered
    obtain ⟨moment, tables, later, held, shown⟩ := sound.consistent response answered index found
      table known (logged (Nat.lt_of_lt_of_le known bound) entry) changes
    exact ⟨moment, tables, later, entry_kept account.tables held, shown⟩

/-- Reading the account row fixes the baseline where it stands. -/
theorem read_account_sound (sound : Sound state) (unread : state.reads.account = none) :
    Sound { state with
      reads := { state.reads with
        account := some (state.account.headerSeq, state.account.keyEpoch) } } := by
  have baseline : state.baseline = state.account.headerSeq := by simp [State.baseline, unread]
  refine { sound with earlier := Nat.le_refl _, taken := ?_, walked := ?_ }
  · intro table read
    have before : state.reads.has table = true := by cases table <;> exact read
    obtain ⟨moment, tables, held, returned, quiet⟩ := sound.taken table before
    refine ⟨moment, tables, held, by cases table <;> exact returned, ?_⟩
    intro index write late early
    exact quiet index write late (baseline ▸ early)
  · intro now done pending phase
    exact ⟨by simp, (sound.walked now done pending phase).2⟩

/-- A table read now is one of this moment, after which nothing is committed yet. -/
theorem read_table_sound (sound : Sound state) (table : TableName)
    (unread : state.reads.has table = false) :
    Sound { state with reads := state.reads.select state.account.tables table } := by
  have account : (state.reads.select state.account.tables table).account = state.reads.account := by
    cases table <;> rfl
  have baseline : State.baseline { state with
      reads := state.reads.select state.account.tables table } = state.baseline := by
    simp only [State.baseline, account]
  refine { sound with earlier := baseline ▸ sound.earlier, taken := ?_, walked := ?_ }
  · intro other read
    by_cases same : other = table
    · subst same
      refine ⟨state.account.headerSeq, state.account.tables, sound.current,
        by cases other <;> rfl, ?_⟩
      intro index write late early
      have earlier := sound.earlier
      rw [baseline] at early
      omega
    · have before : state.reads.has other = true := by
        cases table <;> cases other <;> first | exact absurd rfl same | exact read
      obtain ⟨moment, tables, held, returned, quiet⟩ := sound.taken other before
      refine ⟨moment, tables, held, ?_, ?_⟩
      · cases table <;> cases other <;> first | exact absurd rfl same | exact returned
      · intro index write late early
        exact quiet index write late (baseline ▸ early)
  · intro now done pending phase
    obtain ⟨read, rows, returned, handed⟩ := sound.walked now done pending phase
    refine ⟨account ▸ read, rows, ?_, handed⟩
    cases table with
    | sessions => simp [Reads.has, returned] at unread
    | machines => exact returned
    | unmanagedSessions => exact returned
    | workspaces => exact returned

/-- The answer shows each table as a moment no earlier than its last counted write. -/
theorem answer_sound {needsReauth : String → Bool} (sound : Sound state)
    (taken : answer state needsReauth = some next) : Sound next := by
  unfold answer at taken
  split at taken
  · rename_i now done headerSeq keyEpoch sessionRows machines unmanaged workspaces phase reads
    cases taken
    obtain ⟨_, rows, sessionsRead, handed⟩ := sound.walked now done [] phase
    have baseline : state.baseline = headerSeq := by simp [State.baseline, reads]
    refine { sound with walked := by simp, answered := ?_, consistent := ?_ }
    · intro response answered
      obtain rfl := Phase.answered.inj answered
      exact baseline ▸ sound.earlier
    · intro response answered index write table known entry changes
      obtain rfl := Phase.answered.inj answered
      have read : state.reads.has table = true := by
        cases table <;> simp_all [Reads.has]
      obtain ⟨moment, tables, held, returned, quiet⟩ := sound.taken table read
      have later : index < moment := by
        by_contra early
        exact quiet index write (Nat.le_of_not_lt early) (baseline ▸ known) entry changes
      refine ⟨moment, tables, later, held, ?_⟩
      cases table with
      | sessions =>
        obtain rfl : rows = tables.sessions := Option.some.inj (sessionsRead.symm.trans returned)
        exact ⟨now, done, by simpa using handed, rfl⟩
      | machines =>
        obtain rfl : machines = tables.machines := by simpa [Reads.Returned, reads] using returned
        exact ⟨needsReauth, rfl⟩
      | unmanagedSessions =>
        obtain rfl : unmanaged = tables.unmanagedSessions := by
          simpa [Reads.Returned, reads] using returned
        exact rfl
      | workspaces =>
        obtain rfl : workspaces = tables.workspaces := by
          simpa [Reads.Returned, reads] using returned
        exact rfl
  · contradiction

/-- One entry of a related list may be replaced where every partner allows it. -/
theorem forall_replace {α β : Type} {relation : α → β → Prop} {entry replacement : β}
    (allowed : ∀ partner, relation partner entry → relation partner replacement)
    {rows : List α} {done pending : List β}
    (related : List.Forall₂ relation rows (done ++ entry :: pending)) :
    List.Forall₂ relation rows (done ++ [replacement] ++ pending) := by
  induction done generalizing rows with
  | nil =>
    cases related with
    | cons here rest => exact .cons (allowed _ here) rest
  | cons first done inductionHypothesis =>
    cases related with
    | cons here rest => exact .cons here (inductionHypothesis rest)

/-- Walking one session keeps the rows handed out in step with the rows read. -/
theorem reconcile_sound {writeNow : Int} (sound : Sound state)
    (taken : reconcile state writeNow = some next) : Sound next := by
  unfold reconcile at taken
  split at taken
  · rename_i now done session pending machines phase _
    obtain ⟨read, rows, returned, handed⟩ := sound.walked now done (session :: pending) phase
    have advance (other : State) (kept : Sound other) (reads : other.reads = state.reads)
        (out : SessionRecord) (handedOut : out = session ∨ out = setStatus .failed now session) :
        Sound { other with phase := .reconciling now (done ++ [out]) pending } := by
      refine { kept with walked := ?_, answered := by simp, consistent := by simp [Consistent] }
      intro started finished waiting same
      obtain ⟨rfl, rfl, rfl⟩ := Phase.reconciling.inj same
      refine ⟨reads ▸ read, rows, reads ▸ returned, forall_replace ?_ handed⟩
      rintro partner (rfl | rfl)
      · exact handedOut
      · rcases handedOut with rfl | rfl
        · exact Or.inr rfl
        · exact Or.inr rfl
    split at taken
    · split at taken
      · rename_i flipped committed
        cases taken
        have kept : Sound flipped :=
          commit_sound sound (fun _ _ unread => absurd unread read) committed
        obtain ⟨account, _, rfl⟩ := commit_shape committed
        exact advance _ kept rfl _ (Or.inr rfl)
      · cases taken
        exact advance state sound rfl session (Or.inl rfl)
    · cases taken
      exact advance state sound rfl session (Or.inl rfl)
  · contradiction

/-- Every undisturbed step keeps the state sound. -/
theorem step_sound {event : Event} (sound : Sound state)
    (undisturbed : Undisturbed state event) (taken : step state event = some next) :
    Sound next := by
  cases event with
  | commit write =>
    apply commit_sound sound ?_ taken
    intro table changes unread
    exact undisturbed write table rfl changes unread
  | bindKeys keyEpoch =>
    cases taken
    exact ⟨sound.counted, sound.remembered, sound.current, sound.earlier, sound.taken,
      sound.walked, sound.answered, sound.consistent⟩
  | readAccount =>
    simp only [step] at taken
    split at taken
    · contradiction
    · rename_i unread
      cases taken
      exact read_account_sound sound (Option.not_isSome_iff_eq_none.mp unread)
  | readTable table =>
    simp only [step] at taken
    split at taken
    · contradiction
    · rename_i unread
      cases taken
      exact read_table_sound sound table (Bool.eq_false_iff.mpr unread)
  | join now =>
    simp only [step, join] at taken
    split at taken
    · rename_i account sessions _ _ _ _ reads
      cases taken
      refine { sound with walked := ?_, answered := by simp, consistent := by simp [Consistent] }
      intro started done pending same
      obtain ⟨rfl, rfl, rfl⟩ := Phase.reconciling.inj same
      refine ⟨by simp [reads], sessions, by simp [reads], ?_⟩
      exact List.forall₂_same.mpr (fun _ _ => Or.inl rfl)
    · contradiction
  | reconcile writeNow => exact reconcile_sound sound taken
  | answer needsReauth => exact answer_sound sound taken

/-- Every response is consistent with its `headerSeq` in a run where no table that the
request has read is changed before it reads the account row. -/
theorem sync_snapshot_consistent (events : List Event)
    (undisturbed : Runs.Always step (fun state event _ => Undisturbed state event) start events) :
    Runs.Always step (fun _ _ next => Consistent next) start events := by
  apply Runs.always_under Sound Undisturbed _ ?_ start_sound undisturbed
  intro state event next sound quiet taken
  have kept := step_sound sound quiet taken
  exact ⟨kept, kept.consistent⟩

/-- The session that the examples create. -/
def exampleSession : NewSession :=
  ⟨"session", "account", "tag", "claude-code", none, none, none, ⟨"metadata"⟩, "dek", 0⟩

/-- A request that reads the account row first, with a write before and one after it. -/
theorem account_first_consistent :
    Runs.Always step (fun _ _ next => Consistent next) start
      [.commit (.createSession exampleSession), .readAccount, .commit (.deleteSession "session"),
        .readTable .sessions, .readTable .machines, .readTable .unmanagedSessions,
        .readTable .workspaces, .join 0, .answer (fun _ => false)] := by
  have other {state : State} {event : Event} (reads : ∀ write, event ≠ .commit write) :
      Undisturbed state event := fun write _ commits => absurd commits (reads write)
  apply sync_snapshot_consistent
  intro created _
  refine ⟨fun _ table _ _ _ => by cases table <;> rfl, ?_⟩
  intro based read
  refine ⟨other (by simp), ?_⟩
  have counted : based.reads.account ≠ none := by
    simp only [step] at read
    split at read
    · contradiction
    · obtain rfl := Option.some.inj read
      simp
  intro _ _
  refine ⟨fun _ _ _ _ unread => absurd unread counted, ?_⟩
  exact fun _ _ => ⟨other (by simp), fun _ _ => ⟨other (by simp), fun _ _ => ⟨other (by simp),
    fun _ _ => ⟨other (by simp), fun _ _ => ⟨other (by simp), fun _ _ => ⟨other (by simp),
      trivial⟩⟩⟩⟩⟩⟩

/-- The sessions are read before a write commits, and the account row after it. -/
def lateAccount : List Event :=
  [.readTable .sessions, .commit (.createSession exampleSession), .readAccount,
    .readTable .machines, .readTable .unmanagedSessions, .readTable .workspaces, .join 0]

/-- The answer counts the write that its sessions do not show. -/
theorem late_account_tears :
    ¬ Runs.Always step (fun _ _ next => Consistent next) start
      (lateAccount ++ [.answer (fun _ => false)]) := by
  intro always
  have trace : ((Runs.run step start lateAccount).bind (fun state =>
      (step state (.answer (fun _ => false))).map (fun next =>
        ((match next.phase with
          | .answered response => some (response.headerSeq, response.sessions.length)
          | _ => none),
          next.log[0]?.map Write.table?, next.past.map (fun tables => tables.sessions.length))))) =
      some (some (1, 0), some (some .sessions), [0, 1]) := by
    decide +kernel
  obtain ⟨state, ran, answered⟩ := Option.bind_eq_some_iff.mp trace
  obtain ⟨next, taken, shape⟩ := Option.map_eq_some_iff.mp answered
  obtain ⟨answer, history⟩ := Prod.mk.inj shape
  obtain ⟨logged, past⟩ := Prod.mk.inj history
  have consistent : Consistent next := Runs.always_step always ran taken
  obtain ⟨write, entry, changes⟩ := Option.map_eq_some_iff.mp logged
  split at answer
  · rename_i response phase
    obtain ⟨counted, empty⟩ := Prod.mk.inj (Option.some.inj answer)
    obtain ⟨moment, tables, later, held, now, out, handed, shown⟩ :=
      consistent response phase 0 write .sessions (by omega) entry changes
    have lengths : (next.past.map (fun tables => tables.sessions.length))[moment]? =
        some tables.sessions.length := by simp [held]
    have none : tables.sessions.length = 0 := by
      rw [handed.length_eq, ← empty, shown, List.length_map]
    rw [past, none] at lengths
    match moment, lengths with
    | 0, _ => omega
    | 1, one => simp at one
    | _ + 2, beyond => simp at beyond
  · contradiction

end Kvy.Server.App.Sync
