import Kvy.Cli.Daemon.ResumeRecords
import Kvy.Cli.Daemon.SessionOwnerRuns

/-!
# Runs of what is remembered

The entry that a session is looked up at has the data of the latest report; where there is none, the
ended session has it. The file has it once the queued writes are done, so the next daemon starts with
it, whatever processes it takes over.
-/

namespace Kvy.Cli.Daemon.Registry

open General General.Runs

/-! ## Looking up what is remembered -/

namespace ResumeRecord

/-- An entry has the data, the directory and the provider of the report. -/
structure Carried (record : ResumeRecord) (session : TrackedSession) : Prop where
  encryption : session.encryption = some record.encryption
  directory : ∀ directory, record.launch.directory = some directory →
    session.directory = some directory
  provider : session.provider.getD .claudeCode = record.launch.provider

variable {record : ResumeRecord} {session : TrackedSession} {sessionId : String}

/-- What is saved of an entry that has the report has it too. -/
theorem Carried.saved (carried : record.Carried session) (isOf : session.isOf sessionId = true)
    (named : sessionId ≠ "") (now : Nat) :
    ∃ persisted, session.toPersisted now = some persisted ∧ persisted.sessionId = sessionId ∧
      record.Kept persisted := by
  have ofSession := (is_of_iff sessionId session).mp isOf
  refine ⟨⟨sessionId, session.provider, session.metadata, record.encryption, now, session.directory,
    some session.pid⟩, ?_, rfl, ⟨rfl, carried.directory, carried.provider⟩⟩
  have filtered : session.sessionId.filter (· ≠ "") = some sessionId := by
    simp [ofSession, Option.filter, named]
  rw [TrackedSession.toPersisted, filtered, carried.encryption]
  rfl

/-- An entry that is taken over from a record has what the record has. -/
theorem Kept.readopted {candidate : ReadoptCandidate} (kept : record.Kept candidate.session) :
    record.Carried (SessionRegistry.readopted candidate) :=
  ⟨congrArg some kept.encryption, kept.directory, kept.provider⟩

end ResumeRecord

variable {now : Nat}

/-- What is saved of an entry is of its session. -/
theorem persisted_session {session : TrackedSession} {persisted : PersistedSession}
    (saved : session.toPersisted now = some persisted) :
    session.isOf persisted.sessionId = true ∧ session.encryption = some persisted.encryption ∧
      persisted.provider = session.provider := by
  unfold TrackedSession.toPersisted at saved
  obtain ⟨sessionId, named, saved⟩ := Option.bind_eq_some_iff.mp saved
  obtain ⟨encryption, data, saved⟩ := Option.bind_eq_some_iff.mp saved
  cases saved
  exact ⟨(is_of_iff _ session).mpr (Option.filter_eq_some_iff.mp named).1, data, rfl⟩

variable {given : Option Nat}

namespace SessionRegistry

/-- The registry remembers the report of a session: at the entry that the session is looked up at, or,
where it has none, among the sessions that have ended. -/
inductive Remembers (registry : SessionRegistry) (sessionId : String) (record : ResumeRecord) : Prop
  | live (pid : Nat) (session : TrackedSession) (looked : registry.getLivePid sessionId = some pid)
      (held : registry.pidToSession.get? pid = some session) (carried : record.Carried session)
  | ended (persisted : PersistedSession) (unlooked : registry.getLivePid sessionId = none)
      (held : registry.resumable.get? sessionId = some persisted) (kept : record.Kept persisted)

variable {registry next : SessionRegistry} {sessionId : String} {record : ResumeRecord}

variable {pid : Nat}

/-- The entry that is found first is the one under the pid that is looked up. -/
theorem looked_entry {session : TrackedSession} (looked : registry.getLivePid sessionId = some pid)
    (held : registry.pidToSession.get? pid = some session) :
    registry.pidToSession.entries.find? (fun entry => entry.2.isOf sessionId) =
      some (pid, session) := by
  obtain ⟨⟨name, value⟩, found, rfl⟩ := Option.map_eq_some_iff.mp looked
  have member := (registry.pidToSession.mem_entries name value).mp (List.mem_of_find?_eq_some found)
  obtain rfl := Option.some.inj (member.symm.trans held)
  exact found

/-- What is remembered can be resumed. -/
theorem Remembers.found (remembers : registry.Remembers sessionId record) (now : Nat) :
    ∃ persisted, registry.findResumable sessionId now = some persisted ∧ record.Kept persisted := by
  cases remembers with
  | live pid session looked held carried =>
    refine ⟨⟨sessionId, session.provider, session.metadata, record.encryption, now, session.directory,
      some session.pid⟩, ?_, ⟨rfl, carried.directory, carried.provider⟩⟩
    simp [findResumable, looked_entry looked held, carried.encryption]
  | ended persisted unlooked held kept =>
    have nothing := Option.map_eq_none_iff.mp unlooked
    exact ⟨persisted, by simp [findResumable, nothing, held], kept⟩

/-! ## Entries of other sessions -/

/-- The entry of a pid is set to one of another session. The session stays remembered, where the pid
is not the one that it rests on alone. -/
theorem Remembers.set_other (remembers : registry.Remembers sessionId record)
    {session : TrackedSession} (sets : next.pidToSession = registry.pidToSession.set pid session)
    (ended : next.resumable.get? sessionId = registry.resumable.get? sessionId)
    (fails : session.isOf sessionId = false)
    (spared : registry.getLivePid sessionId = some pid →
      (∃ persisted, registry.resumable.get? sessionId = some persisted ∧ record.Kept persisted) ∧
        ∀ other held, registry.pidToSession.get? other = some held → held.isOf sessionId = true →
          other = pid) : next.Remembers sessionId record := by
  have lost (fail : ∀ other held, registry.pidToSession.get? other = some held →
      held.isOf sessionId = true → other = pid) : next.getLivePid sessionId = none := by
    rw [live_pid_first, OrderedMap.first_key_none, sets]
    intro other held found
    rw [OrderedMap.get_set] at found
    split at found
    · exact Option.some.inj found ▸ fails
    · cases isOf : held.isOf sessionId with
      | false => rfl
      | true => exact absurd (fail other held found isOf) ‹_›
  cases remembers with
  | live key held looked found carried =>
    by_cases same : pid = key
    · obtain ⟨⟨persisted, kept, isKept⟩, only⟩ := spared (same ▸ looked)
      exact .ended persisted (lost only) (ended.trans kept) isKept
    · refine .live key held ?_ ?_ carried
      · rw [live_pid_first] at looked ⊢
        rw [sets]
        exact OrderedMap.first_key_set_other looked same fails
      · rw [sets, OrderedMap.get_set, if_neg (Ne.symm same), found]
  | ended persisted unlooked held kept =>
    refine .ended persisted (lost ?_) (ended.trans held) kept
    intro other entry found isOf
    have fail := (OrderedMap.first_key_none _ _).mp unlooked other entry found
    exact absurd isOf (Bool.eq_false_iff.mp fail)

/-! ## Reports -/

/-- What is tracked at a report with encryption data has the report, where the entry of the pid has the
directory. -/
theorem carried_tracked (sessionId : String) (metadata : Option Json)
    (unprovided : ∀ session, registry.pidToSession.get? pid = some session → session.provider = none)
    (provider : record.launch.provider = .claudeCode)
    (placed : ∀ directory, record.launch.directory = some directory →
      ∃ session, registry.pidToSession.get? pid = some session ∧ session.directory = some directory) :
    record.Carried (registry.tracked sessionId metadata (some record.encryption) (some pid)) := by
  refine ⟨encryption_tracked .., ?_, ?_⟩
  · intro directory isPlaced
    obtain ⟨session, held, isHere⟩ := placed directory isPlaced
    simp [tracked, held, isHere]
  · cases held : registry.pidToSession.get? pid with
    | none => simp [tracked, held, provider]
    | some session => simp [tracked, held, unprovided session held, provider]

/-- A report with encryption data is remembered, where no entry of its session stands before the
pid. -/
theorem remembers_report {metadata : Option Json}
    (before : registry.pidToSession.NoneBefore pid (TrackedSession.isOf sessionId))
    (carried : record.Carried
      (registry.tracked sessionId metadata (some record.encryption) (some pid))) :
    (registry.onSessionStarted sessionId metadata (some record.encryption) (some pid)).Remembers
      sessionId record := by
  have isOf : (registry.tracked sessionId metadata (some record.encryption) (some pid)).isOf
      sessionId = true := (is_of_iff _ _).mpr (session_tracked ..)
  refine .live pid (registry.tracked sessionId metadata (some record.encryption) (some pid)) ?_ ?_
    carried
  · rw [live_pid_first]
    exact (OrderedMap.first_key_set registry.pidToSession isOf).mpr before
  · rw [get_on_session_started, if_pos rfl]

/-- A report without encryption data leaves what is remembered of its session at an entry that stays
the first. -/
theorem Remembers.unencrypted (remembers : registry.Remembers sessionId record)
    (metadata : Option Json)     (looked : registry.getLivePid sessionId = some pid) (elsewhere : given ≠ some pid)
    (behind : ∀ entry ∈ registry.pidToSession.before pid, given ≠ some entry.1) :
    (registry.onSessionStarted sessionId metadata none given).Remembers sessionId record := by
  cases remembers with
  | ended persisted unlooked => exact absurd (looked.symm.trans unlooked) (by simp)
  | live key session isLooked held carried =>
    obtain rfl := Option.some.inj (looked.symm.trans isLooked)
    refine .live pid session ?_ ?_ carried
    · cases given with
      | none => exact looked
      | some other =>
        have isOf : (registry.tracked sessionId metadata none (some other)).isOf sessionId = true :=
          (is_of_iff _ _).mpr (session_tracked ..)
        have apart : other ≠ pid := fun same => elsewhere (congrArg some same)
        rw [live_pid_first] at looked ⊢
        refine (OrderedMap.first_key_set_passing registry.pidToSession apart isOf).mpr ⟨looked, ?_⟩
        intro entry member same
        exact behind entry member (congrArg some same.symm)
    · rw [get_on_session_started, if_neg elsewhere, held]

/-- A report of another session leaves what is remembered. -/
theorem Remembers.reported (remembers : registry.Remembers sessionId record) {other : String}
    (apart : sessionId ≠ other) (metadata : Option Json) (encryption : Option SessionEncryptionData)
    (spared : ∀ pid, given = some pid → registry.getLivePid sessionId = some pid →
      (∃ persisted, registry.resumable.get? sessionId = some persisted ∧ record.Kept persisted) ∧
        ∀ key held, registry.pidToSession.get? key = some held → held.isOf sessionId = true →
          key = pid) :
    (registry.onSessionStarted other metadata encryption given).Remembers sessionId record := by
  have ended : (registry.onSessionStarted other metadata encryption given).resumable.get? sessionId =
      registry.resumable.get? sessionId := by
    simp [onSessionStarted, apart]
  cases given with
  | none =>
    cases remembers with
    | live pid session looked held carried => exact .live pid session looked held carried
    | ended persisted unlooked held kept => exact .ended persisted unlooked (ended.trans held) kept
  | some pid =>
    refine remembers.set_other rfl ended ?_ (spared pid rfl)
    simp [TrackedSession.isOf, Ne.symm apart]

/-! ## Sweeps -/

/-- What a sweep saves of the entries that it removes. -/
def saved (registry : SessionRegistry) (isAlive : Nat → Bool) (now : Nat) : List PersistedSession :=
  (registry.pidToSession.entries.filter (fun entry => !isAlive entry.1)).filterMap
    (fun entry => entry.2.toPersisted now)

/-- The last of them that is of a session replaces what was kept of it. -/
theorem get_resumable_prune (registry : SessionRegistry) (isAlive : Nat → Bool) (now : Nat)
    (sessionId : String) :
    (registry.pruneDeadSessions isAlive now).resumable.get? sessionId =
      ((registry.saved isAlive now).reverse.find? (fun persisted => persisted.sessionId = sessionId)).or
        (registry.resumable.get? sessionId) := by
  have setting : (registry.pruneDeadSessions isAlive now).resumable =
      OrderedMap.setAll PersistedSession.sessionId id registry.resumable
        (registry.saved isAlive now) := by
    unfold OrderedMap.setAll saved pruneDeadSessions
    rw [List.foldl_filterMap]
    dsimp only
    congr 1
    funext map entry
    cases entry.2.toPersisted now with
    | none => rfl
    | some persisted => rfl
  rw [setting, OrderedMap.get_set_all, Option.map_id_fun, id]

/-- What is saved comes from an entry that is removed. -/
theorem mem_saved {isAlive : Nat → Bool} {persisted : PersistedSession}
    (member : persisted ∈ registry.saved isAlive now) :
    ∃ pid session, registry.pidToSession.get? pid = some session ∧ isAlive pid = false ∧
      session.toPersisted now = some persisted := by
  obtain ⟨⟨pid, session⟩, inside, isSaved⟩ := List.mem_filterMap.mp member
  obtain ⟨listed, dead⟩ := List.mem_filter.mp inside
  exact ⟨pid, session, (registry.pidToSession.mem_entries pid session).mp listed, by simpa using dead,
    isSaved⟩

/-- A sweep leaves what is remembered, where it finds no other entry with encryption data. -/
theorem Remembers.prune (remembers : registry.Remembers sessionId record) (named : sessionId ≠ "")
    (isAlive : Nat → Bool) (now : Nat)
    (only : ∀ pid, registry.getLivePid sessionId = some pid → isAlive pid = false →
      ∀ other session, registry.pidToSession.get? other = some session →
        session.isOf sessionId = true →
        other = pid ∨ (isAlive other = false ∧ session.encryption = none)) :
    (registry.pruneDeadSessions isAlive now).Remembers sessionId record := by
  cases remembers with
  | ended persisted unlooked held kept =>
    have none' := (OrderedMap.first_key_none _ _).mp unlooked
    refine .ended persisted ?_ ?_ kept
    · rw [live_pid_first, OrderedMap.first_key_none]
      intro pid session found
      rw [get_prune] at found
      exact none' pid session (Option.filter_eq_some_iff.mp found).1
    · have nothing : (registry.saved isAlive now).reverse.find?
          (fun persisted => persisted.sessionId = sessionId) = none := by
        rw [List.find?_eq_none]
        intro other member same
        obtain ⟨pid, session, found, _, isSaved⟩ := mem_saved (List.mem_reverse.mp member)
        have isOf := (persisted_session isSaved).1
        rw [of_decide_eq_true same, none' pid session found] at isOf
        contradiction
      rw [get_resumable_prune, nothing, Option.none_or, held]
  | live pid session looked held carried =>
    cases alive : isAlive pid with
    | true =>
      refine .live pid session ?_ ?_ carried
      · exact OrderedMap.first_key_filter looked (fun _ => alive)
      · rw [get_prune, held]
        simp [alive]
    | false =>
      have isOf : session.isOf sessionId = true := by
        obtain ⟨⟨value, found, passes⟩, _⟩ := (OrderedMap.first_key_iff _ _ _).mp looked
        exact Option.some.inj (found.symm.trans held) ▸ passes
      obtain ⟨persisted, isSaved, ofSession, kept⟩ := carried.saved isOf named now
      refine .ended persisted ?_ ?_ kept
      · rw [live_pid_first, OrderedMap.first_key_none]
        intro other entry found
        rw [get_prune] at found
        obtain ⟨before, stays⟩ := Option.filter_eq_some_iff.mp found
        cases ofSame : entry.isOf sessionId with
        | false => rfl
        | true =>
          obtain rfl | ⟨dead, _⟩ := only pid looked alive other entry before ofSame
          · exact absurd stays (by simp [alive])
          · exact absurd stays (by simp [dead])
      · have listed : persisted ∈ registry.saved isAlive now := by
          refine List.mem_filterMap.mpr ⟨(pid, session), List.mem_filter.mpr ⟨?_, ?_⟩, isSaved⟩
          · exact (registry.pidToSession.mem_entries pid session).mpr held
          · simp [alive]
        -- every other entry of the session has no encryption data, so nothing else is saved of it
        have lone {other : PersistedSession} (member : other ∈ registry.saved isAlive now)
            (same : other.sessionId = sessionId) : other = persisted := by
          obtain ⟨key, entry, found, _, otherSaved⟩ := mem_saved member
          obtain ⟨ofSame, data, _⟩ := persisted_session otherSaved
          obtain rfl | ⟨_, without⟩ := only pid looked alive key entry found (same ▸ ofSame)
          · obtain rfl := Option.some.inj (found.symm.trans held)
            exact Option.some.inj (otherSaved.symm.trans isSaved)
          · rw [without] at data
            contradiction
        rw [get_resumable_prune]
        cases search : (registry.saved isAlive now).reverse.find?
            (fun persisted => persisted.sessionId = sessionId) with
        | none =>
          have missed := List.find?_eq_none.mp search persisted (List.mem_reverse.mpr listed)
          simp [ofSession] at missed
        | some other =>
          have found := List.mem_reverse.mp (List.mem_of_find?_eq_some search)
          rw [lone found (by simpa using List.find?_some search)]
          rfl

end SessionRegistry

namespace RecordHistory

/-! ## The file -/

/-- A file without old records is read as it is. -/
theorem get_fresh {file : OrderedMap String PersistedSession}
    (isFresh : fresh file now = true) (sessionId : String) :
    (readPersistedSessions file now).get? sessionId = file.get? sessionId := by
  rw [readPersistedSessions, OrderedMap.get_filter]
  cases held : file.get? sessionId with
  | none => rfl
  | some persisted =>
    have listed := (file.mem_entries sessionId persisted).mpr held
    have young := of_decide_eq_true (List.all_eq_true.mp isFresh _ listed)
    simp [young]

/-- What the file has of a session when all queued writes are done. -/
def stored (world : World) (sessionId : String) : Option PersistedSession :=
  (world.writes.reverse.find? (fun persisted => persisted.sessionId = sessionId)).or
    (world.file.get? sessionId)

variable {world : World}

/-- A write leaves what the file has in the end. -/
theorem stored_write {session : PersistedSession} {writes : List PersistedSession}
    (queued : world.writes = session :: writes) (isFresh : fresh world.file now = true)
    (sessionId : String) :
    stored { world with writes, file := persistSession world.file session now } sessionId =
      stored world sessionId := by
  simp only [stored, queued, List.reverse_cons, List.find?_append, Option.or_assoc, persistSession,
    OrderedMap.get_set, get_fresh isFresh]
  by_cases same : session.sessionId = sessionId
  · simp [same]
  · simp [same, Ne.symm same]

/-- What the last write of a session has is what the file has in the end. -/
theorem stored_report (world : World) (added : Option PersistedSession) (sessionId : String) :
    stored { world with writes := world.writes ++ added.toList } sessionId =
      (added.filter (fun persisted => persisted.sessionId = sessionId)).or
        (stored world sessionId) := by
  cases added with
  | none => simp [stored]
  | some persisted =>
    by_cases same : persisted.sessionId = sessionId
    · simp [stored, same, Option.filter]
    · simp [stored, same, Option.filter]

/-- The next daemon remembers what the file has. -/
theorem boot_remembers (keyed : Keyed world.file)
    (isFresh : fresh world.file now = true) (probe : ReadoptProbe) {sessionId : String}
    {record : ResumeRecord} {persisted : PersistedSession}
    (held : world.file.get? sessionId = some persisted) (kept : record.Kept persisted) :
    (world.boot now probe).registry.Remembers sessionId record := by
  cases looked : (world.boot now probe).registry.getLivePid sessionId with
  | none =>
    refine .ended persisted looked ?_ kept
    simp only [World.boot, SessionRegistry.readoptLiveSessions, World.restored, get_fresh isFresh, held]
  | some pid =>
    have taken := (World.live_pid_boot keyed now probe sessionId pid).mp looked
    obtain ⟨candidate, found, ofSession⟩ := Option.map_eq_some_iff.mp taken
    have entry := world.entry_boot now probe pid
    rw [found] at entry
    -- the candidate comes with the record that the file has of its session
    have member := List.mem_reverse.mp (List.mem_of_find?_eq_some found)
    obtain ⟨name, atName, _⟩ := candidate_record member
    have isHere : name = sessionId :=
      (keyed_read keyed now name candidate.session atName).symm.trans ofSession
    rw [isHere, get_fresh isFresh, held] at atName
    have sameSession : persisted = candidate.session := Option.some.inj atName
    exact .live pid (SessionRegistry.readopted candidate) looked entry
      (ResumeRecord.Kept.readopted (sameSession ▸ kept))

/-! ## The provider -/

/-- Nothing has a provider. -/
structure Unprovided (world : World) : Prop where
  entries : ∀ pid session, world.registry.pidToSession.get? pid = some session →
    session.provider = none
  file : ∀ key persisted, world.file.get? key = some persisted → persisted.provider = none
  writes : ∀ persisted ∈ world.writes, persisted.provider = none

/-- What is tracked at a report has no provider, where the entries have none. -/
theorem Unprovided.tracked (unprovided : Unprovided world) (sessionId : String)
    (metadata : Option Json) (encryption : Option SessionEncryptionData) (given : Option Nat) :
    (world.registry.tracked sessionId metadata encryption given).provider = none := by
  unfold SessionRegistry.tracked
  split
  · rename_i existing found
    obtain ⟨pid, _, held⟩ := Option.bind_eq_some_iff.mp found
    exact unprovided.entries pid existing held
  · rfl

/-- No step gives anything a provider. -/
theorem Unprovided.step {next : World} {event : Event} (unprovided : Unprovided world)
    (taken : world.step event = some next) : Unprovided next := by
  cases event with
  | start pid =>
    obtain ⟨_, ⟨⟩⟩ := Option.ite_none_left_eq_some.mp taken
    exact ⟨unprovided.entries, unprovided.file, unprovided.writes⟩
  | exit process =>
    simp only [World.step] at taken
    split at taken
    · cases taken
      exact ⟨unprovided.entries, unprovided.file, unprovided.writes⟩
    · contradiction
  | trackSpawned pid directory =>
    cases taken
    refine ⟨fun tested session held => ?_, unprovided.file, unprovided.writes⟩
    rw [SessionRegistry.get_track_spawned] at held
    split at held
    · exact Option.some.inj held ▸ rfl
    · exact unprovided.entries tested session held
  | sessionStarted process sessionId metadata encryption given now =>
    obtain ⟨_, ⟨⟩⟩ := Option.ite_none_right_eq_some.mp taken
    have unset := unprovided.tracked sessionId metadata encryption given
    refine ⟨fun tested session held => ?_, unprovided.file, fun persisted member => ?_⟩
    · simp only [World.report, SessionRegistry.get_on_session_started] at held
      split at held
      · exact Option.some.inj held ▸ unset
      · exact unprovided.entries tested session held
    · rcases List.mem_append.mp member with queued | added
      · exact unprovided.writes persisted queued
      · exact (persisted_session (Option.mem_toList.mp added)).2.2.trans unset
  | pruneDeadSessions now =>
    cases taken
    refine ⟨fun tested session held => ?_, unprovided.file, unprovided.writes⟩
    rw [SessionRegistry.get_prune] at held
    exact unprovided.entries tested session (Option.filter_eq_some_iff.mp held).1
  | write succeeds now =>
    simp only [World.step] at taken
    split at taken
    · rename_i session writes queued
      cases taken
      have last : session.provider = none :=
        unprovided.writes session (queued ▸ List.mem_cons_self)
      refine ⟨unprovided.entries, fun key persisted held => ?_, fun persisted member => ?_⟩
      · split at held
        · rw [persistSession, OrderedMap.get_set] at held
          split at held
          · exact Option.some.inj held ▸ last
          · rw [readPersistedSessions, OrderedMap.get_filter] at held
            exact unprovided.file key persisted (Option.filter_eq_some_iff.mp held).1
        · exact unprovided.file key persisted held
      · exact unprovided.writes persisted (queued ▸ List.mem_cons_of_mem session member)
    · contradiction
  | restart now probe =>
    cases taken
    refine ⟨fun pid session held => ?_, unprovided.file, fun _ member => absurd member List.not_mem_nil⟩
    rw [World.entry_boot] at held
    obtain ⟨candidate, found, rfl⟩ := Option.map_eq_some_iff.mp held
    obtain ⟨name, atName, _⟩ :=
      candidate_record (List.mem_reverse.mp (List.mem_of_find?_eq_some found))
    rw [readPersistedSessions, OrderedMap.get_filter] at atName
    exact unprovided.file name candidate.session (Option.filter_eq_some_iff.mp atName).1

/-! ## Runs -/

variable {launch : Nat → SessionLaunch} {history next : RecordHistory} {event : Event}

/-- What is kept: the registry remembers every report with encryption data, and so does the file when
the queued writes are done. -/
structure Sound (history : RecordHistory) : Prop where
  keyed : Keyed history.world.file
  unprovided : Unprovided history.world
  named : ∀ sessionId record, history.latest sessionId = some record → sessionId ≠ ""
  remembered : ∀ sessionId record, history.latest sessionId = some record →
    history.world.registry.Remembers sessionId record
  written : ∀ sessionId record, history.latest sessionId = some record →
    ∃ persisted, stored history.world sessionId = some persisted ∧ record.Kept persisted

/-- What is remembered can be resumed. -/
theorem Sound.resumable (sound : Sound history) : history.Resumable :=
  fun sessionId record noted now => (sound.remembered sessionId record noted).found now

/-- A step that is taken is one of the system. -/
theorem step_world (taken : step launch history event = some next) :
    admits history.world event = true ∧ history.world.step event = some next.world ∧
      next.latest = noted launch history.latest event := by
  obtain ⟨admitted, taken⟩ := Option.ite_none_right_eq_some.mp taken
  obtain ⟨world, stepped, rfl⟩ := Option.map_eq_some_iff.mp taken
  exact ⟨admitted, stepped, rfl⟩

/-- Where nothing is reported and the file stays, only what is remembered must be kept. -/
theorem Sound.kept (sound : Sound history) (unprovided : Unprovided next.world)
    (latest : next.latest = history.latest) (file : next.world.file = history.world.file)
    (writes : next.world.writes = history.world.writes)
    (remembers : ∀ sessionId record, history.latest sessionId = some record →
      next.world.registry.Remembers sessionId record) : Sound next where
  keyed := file ▸ sound.keyed
  unprovided := unprovided
  named := latest ▸ sound.named
  remembered := latest ▸ remembers
  written := by
    have same (sessionId : String) : stored next.world sessionId = stored history.world sessionId := by
      simp only [stored, file, writes]
    simpa only [latest, same] using sound.written

/-- A report with encryption data is remembered and written, and so are the reports of other
sessions. -/
theorem Sound.encrypted (sound : Sound history) {process : Nat} {sessionId : String}
    {metadata : Option Json} {encryption : SessionEncryptionData}     (retains : history.Retains launch
      (.sessionStarted process sessionId metadata (some encryption) given now))
    (unprovided : Unprovided (history.world.report process sessionId metadata (some encryption) given
      now)) :
    Sound ⟨history.world.report process sessionId metadata (some encryption) given now,
      noted launch history.latest
        (.sessionStarted process sessionId metadata (some encryption) given now)⟩ := by
  obtain ⟨spares, named, provider, pid, rfl, before, placed⟩ := retains
  have carried : ResumeRecord.Carried ⟨encryption, launch process⟩
      (history.world.registry.tracked sessionId metadata (some encryption) (some pid)) :=
    SessionRegistry.carried_tracked sessionId metadata (sound.unprovided.entries pid) provider placed
  have reported := SessionRegistry.remembers_report before carried
  obtain ⟨persisted, isSaved, ofSession, kept⟩ := carried.saved
    ((is_of_iff sessionId _).mpr (SessionRegistry.session_tracked ..)) named now
  refine ⟨sound.keyed, unprovided, ?_, ?_, ?_⟩
  · intro other record isNoted
    simp only [noted] at isNoted
    split at isNoted
    · exact ‹other = sessionId› ▸ named
    · exact sound.named other record isNoted
  · intro other record isNoted
    simp only [noted] at isNoted
    split at isNoted
    · cases isNoted
      subst ‹other = sessionId›
      exact reported
    · exact (sound.remembered other record isNoted).reported ‹¬ _› metadata (some encryption)
        (fun tested isGiven => spares tested other record isGiven ‹¬ _› isNoted)
  · intro other record isNoted
    have ending : stored (history.world.report process sessionId metadata (some encryption) (some pid)
        now) other = ((some persisted).filter (fun persisted => persisted.sessionId = other)).or
          (stored history.world other) :=
      isSaved ▸ stored_report history.world _ other
    simp only [noted] at isNoted
    split at isNoted
    · cases isNoted
      subst ‹other = sessionId›
      exact ⟨persisted, by simp [ending, Option.filter, ofSession], kept⟩
    · obtain ⟨before, held, isKept⟩ := sound.written other record isNoted
      have apart : persisted.sessionId ≠ other := fun same => ‹¬ _› (same.symm.trans ofSession)
      exact ⟨before, by simp [ending, Option.filter, apart, held], isKept⟩

/-- A report without encryption data leaves what is remembered and written. -/
theorem Sound.unencrypted (sound : Sound history) {process : Nat} {sessionId : String}
    {metadata : Option Json}     (retains : history.Retains launch (.sessionStarted process sessionId metadata none given now))
    (unprovided : Unprovided (history.world.report process sessionId metadata none given now)) :
    Sound ⟨history.world.report process sessionId metadata none given now, history.latest⟩ := by
  obtain ⟨spares, stays⟩ := retains
  have unsaved : history.world.registry.persistedAtStart sessionId metadata none given now = none := by
    cases saved : history.world.registry.persistedAtStart sessionId metadata none given now with
    | none => rfl
    | some persisted =>
      have data := (persisted_session saved).2.1
      rw [SessionRegistry.encryption_tracked] at data
      contradiction
  refine sound.kept unprovided rfl rfl ?_ (fun other record isNoted => ?_)
  · simp [World.report, unsaved]
  · have remembers := sound.remembered other record isNoted
    by_cases same : other = sessionId
    · subst same
      obtain unnoted | ⟨pid, looked, elsewhere, behind⟩ := stays
      · rw [unnoted] at isNoted
        contradiction
      · exact remembers.unencrypted metadata looked elsewhere behind
    · exact remembers.reported same metadata none
        (fun tested isGiven => spares tested other record isGiven same isNoted)

/-- A write leaves what is remembered, and what the file has in the end. -/
theorem Sound.write (sound : Sound history) {session : PersistedSession}
    {writes : List PersistedSession} (queued : history.world.writes = session :: writes)
    (isFresh : fresh history.world.file now = true)
    (unprovided : Unprovided { history.world with
      writes, file := persistSession history.world.file session now }) :
    Sound ⟨{ history.world with writes, file := persistSession history.world.file session now },
      history.latest⟩ where
  keyed := keyed_persist sound.keyed session now
  unprovided := unprovided
  named := sound.named
  remembered := sound.remembered
  written := by
    intro sessionId record isNoted
    obtain ⟨persisted, held, kept⟩ := sound.written sessionId record isNoted
    exact ⟨persisted, (stored_write queued isFresh sessionId).trans held, kept⟩

/-- The next daemon remembers what was written. -/
theorem Sound.boot (sound : Sound history) (probe : ReadoptProbe)
    (idle : history.world.writes = []) (isFresh : fresh history.world.file now = true)
    (unprovided : Unprovided (history.world.boot now probe)) :
    Sound ⟨history.world.boot now probe, history.latest⟩ := by
  have inFile (sessionId : String) :
      stored history.world sessionId = history.world.file.get? sessionId := by
    simp [stored, idle]
  refine sound.kept unprovided rfl rfl idle.symm (fun sessionId record isNoted => ?_)
  obtain ⟨persisted, held, kept⟩ := sound.written sessionId record isNoted
  exact boot_remembers sound.keyed isFresh probe ((inFile sessionId).symm.trans held) kept

/-- A step that keeps the records keeps what is kept. -/
theorem step_sound (sound : Sound history) (retains : history.Retains launch event)
    (taken : step launch history event = some next) : Sound next := by
  obtain ⟨admitted, stepped, isNoted⟩ := step_world taken
  have unprovided := sound.unprovided.step stepped
  obtain ⟨world, latest⟩ := next
  cases event with
  | start pid =>
    obtain ⟨_, ⟨⟩⟩ := Option.ite_none_left_eq_some.mp stepped
    exact sound.kept unprovided isNoted rfl rfl sound.remembered
  | exit process =>
    simp only [World.step] at stepped
    split at stepped
    · cases stepped
      exact sound.kept unprovided isNoted rfl rfl sound.remembered
    · contradiction
  | trackSpawned pid directory =>
    cases stepped
    refine sound.kept unprovided isNoted rfl rfl (fun sessionId record noted => ?_)
    exact (sound.remembered sessionId record noted).set_other rfl rfl rfl
      (retains sessionId record noted)
  | sessionStarted process sessionId metadata encryption given now =>
    obtain ⟨_, ⟨⟩⟩ := Option.ite_none_right_eq_some.mp stepped
    obtain rfl := isNoted
    cases encryption with
    | none => exact sound.unencrypted retains unprovided
    | some encryption => exact sound.encrypted retains unprovided
  | pruneDeadSessions now =>
    cases stepped
    refine sound.kept unprovided isNoted rfl rfl (fun sessionId record noted => ?_)
    exact (sound.remembered sessionId record noted).prune (sound.named sessionId record noted)
      history.world.isAlive now (fun pid => retains sessionId record pid noted)
  | write succeeds now =>
    obtain ⟨done, isFresh⟩ := Bool.and_eq_true_iff.mp admitted
    simp only [World.step, done] at stepped
    split at stepped
    · cases stepped
      obtain rfl := isNoted
      exact sound.write ‹_› isFresh unprovided
    · contradiction
  | restart now probe =>
    cases stepped
    obtain rfl := isNoted
    obtain ⟨idle, isFresh⟩ := Bool.and_eq_true_iff.mp admitted
    exact sound.boot probe (List.isEmpty_iff.mp idle) isFresh unprovided

/-- Nothing is reported at the start. -/
theorem start_sound : Sound start where
  keyed := fun _ _ held => nomatch held
  unprovided :=
    { entries := fun _ _ held => nomatch held
      file := fun _ _ held => nomatch held
      writes := fun _ member => absurd member List.not_mem_nil }
  named := fun _ _ noted => nomatch noted
  remembered := fun _ _ noted => nomatch noted
  written := fun _ _ noted => nomatch noted

/-- In a run whose steps keep the records, every session that was reported with encryption data can be
resumed as it was reported, in every state. -/
theorem records_kept (launch : Nat → SessionLaunch) (events : List Event)
    (retains : Always (step launch) (fun history event _ => history.Retains launch event) start events) :
    Always (step launch) (fun _ _ next => next.Resumable) start events := by
  refine always_under Sound (fun history event => history.Retains launch event) _ ?_ start_sound retains
  intro history event next sound kept taken
  have nextSound := step_sound sound kept taken
  exact ⟨nextSound, nextSound.resumable⟩

/-- A process that the daemon spawns reports its session and ends, before and after which the daemon
sweeps and is started again. -/
def reportedOnce : List Event :=
  [.start 10, .trackSpawned 10 (some "/workspace"),
    .sessionStarted 0 "session" none (some ⟨"key", .ofInt 1, .ofInt 1, .ofInt 1⟩) (some 10) 0,
    .write true 0, .exit 0, .pruneDeadSessions 1, .restart 2 ⟨[], fun _ => none, fun _ => none⟩]

/-- A process of Claude Code is remembered. -/
theorem records_kept_once :
    Always (step fun _ => ⟨.claudeCode, some "/workspace"⟩) (fun _ _ next => next.Resumable) start
      reportedOnce := by
  refine records_kept (fun _ => ⟨.claudeCode, some "/workspace"⟩) reportedOnce ?_
  refine always_cons rfl trivial ?_
  refine always_cons rfl ?_ ?_
  · intro sessionId record noted
    contradiction
  refine always_cons rfl ?_ ?_
  · refine ⟨?_, by decide, rfl, 10, rfl, ?_, ?_⟩
    · intro pid other record _ _ noted
      contradiction
    · exact fun _ member => absurd member List.not_mem_nil
    · intro directory placed
      exact ⟨_, rfl, placed⟩
  refine always_cons rfl trivial ?_
  refine always_cons rfl trivial ?_
  refine always_cons rfl ?_ ?_
  · intro sessionId record pid _ looked _ other session found _
    obtain ⟨⟨held, isHeld, _⟩, _⟩ := (OrderedMap.first_key_iff _ _ _).mp looked
    have isPid := List.mem_singleton.mp ((OrderedMap.mem_entries _ pid held).mpr isHeld)
    have isOther := List.mem_singleton.mp ((OrderedMap.mem_entries _ other session).mpr found)
    exact .inl ((congrArg Prod.fst isOther).trans (congrArg Prod.fst isPid).symm)
  exact always_cons rfl trivial trivial

/-- A process of Codex is resumed as one of Claude Code. -/
theorem provider_forgotten :
    ¬ Always (step fun _ => ⟨.codex, some "/workspace"⟩) (fun _ _ next => next.Resumable) start
      reportedOnce := by
  intro always
  obtain ⟨final, ran⟩ : ∃ final, run (step fun _ => ⟨.codex, some "/workspace"⟩) start
      reportedOnce = some final := ⟨_, rfl⟩
  have resumable := always_run always start_sound.resumable ran
  obtain rfl := Option.some.inj ran
  obtain ⟨persisted, found, kept⟩ := resumable "session" _ rfl 3
  obtain rfl := Option.some.inj found
  have provider := kept.provider
  contradiction

end RecordHistory

end Kvy.Cli.Daemon.Registry
