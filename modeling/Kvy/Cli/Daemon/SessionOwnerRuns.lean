import Kvy.Cli.Daemon.SessionOwners

/-!
# Runs of the registry

In a good world every record is filed under the id of its session, an owner that runs is looked
up, and no entry holds a session other than the last one that was reported under its pid. Every
event keeps the world good where it keeps the lookup right, and only there the lookup stays right.
-/

namespace Kvy.Cli.Daemon.Registry

open General

theorem is_of_iff (sessionId : String) (session : TrackedSession) :
    session.isOf sessionId = true ↔ session.sessionId = some sessionId := by
  simp [TrackedSession.isOf]

namespace SessionRegistry

/-- What is looked up is the first entry of the session. -/
theorem live_pid_first (registry : SessionRegistry) (sessionId : String) :
    registry.getLivePid sessionId =
      registry.pidToSession.firstKey? (TrackedSession.isOf sessionId) := rfl

/-- What is signalled is what is looked up. -/
theorem stop_session_live (registry : SessionRegistry) (sessionId : String) :
    registry.stopSession sessionId =
      ((registry.getLivePid sessionId).toList, (registry.getLivePid sessionId).isSome) := by
  unfold stopSession getLivePid
  cases registry.pidToSession.entries.find? (fun entry => entry.2.isOf sessionId) <;> rfl

end SessionRegistry

/-! ## Taking over from the file -/

/-- Every record is filed under the id of its session. -/
def Keyed (file : OrderedMap String PersistedSession) : Prop :=
  ∀ key session, file.get? key = some session → session.sessionId = key

theorem keyed_read {file : OrderedMap String PersistedSession} (keyed : Keyed file) (now : Nat) :
    Keyed (readPersistedSessions file now) := by
  intro key session held
  rw [readPersistedSessions, OrderedMap.get_filter, Option.filter_eq_some_iff] at held
  exact keyed key session held.1

theorem keyed_persist {file : OrderedMap String PersistedSession} (keyed : Keyed file)
    (session : PersistedSession) (now : Nat) : Keyed (persistSession file session now) := by
  intro key held found
  rw [persistSession, OrderedMap.get_set] at found
  split at found
  · cases found
    exact Eq.symm ‹_›
  · exact keyed_read keyed now key held found

variable {probe : ReadoptProbe}

/-- A candidate comes with its record. -/
theorem ReadoptProbe.candidate_entry {entry : String × PersistedSession}
    {candidate : ReadoptCandidate} (found : probe.candidate? entry = some candidate) :
    candidate.session = entry.2 ∧ entry.2.pid = some candidate.pid := by
  unfold candidate? at found
  obtain ⟨pid, atPid, found⟩ := Option.bind_eq_some_iff.mp found
  obtain ⟨directory, _, found⟩ := Option.bind_eq_some_iff.mp found
  obtain ⟨process, _, found⟩ := Option.bind_eq_some_iff.mp found
  split at found
  · contradiction
  · obtain ⟨cwd, _, found⟩ := Option.bind_eq_some_iff.mp found
    obtain ⟨liveDir, _, found⟩ := Option.bind_eq_some_iff.mp found
    obtain ⟨wantDir, _, found⟩ := Option.bind_eq_some_iff.mp found
    split at found
    · contradiction
    · cases found
      exact ⟨rfl, (Option.filter_eq_some_iff.mp atPid).1⟩

/-- A candidate comes from a record, with the pid of the record. -/
theorem candidate_record {persisted : OrderedMap String PersistedSession}
    {candidate : ReadoptCandidate} (member : candidate ∈ findLiveOrphanedSessions persisted probe) :
    ∃ name, persisted.get? name = some candidate.session ∧
      candidate.session.pid = some candidate.pid := by
  obtain ⟨⟨name, record⟩, listed, found⟩ := List.mem_filterMap.mp member
  obtain ⟨ofRecord, pid⟩ := ReadoptProbe.candidate_entry found
  exact ⟨name, ofRecord ▸ (persisted.mem_entries name record).mp listed, ofRecord ▸ pid⟩

/-- A session is a candidate under one pid only. -/
theorem candidate_pid {persisted : OrderedMap String PersistedSession} (keyed : Keyed persisted)
    {first second : ReadoptCandidate}
    (one : first ∈ findLiveOrphanedSessions persisted probe)
    (two : second ∈ findLiveOrphanedSessions persisted probe)
    (same : first.session.sessionId = second.session.sessionId) : first.pid = second.pid := by
  obtain ⟨name, held, pid⟩ := candidate_record one
  obtain ⟨otherName, otherHeld, otherPid⟩ := candidate_record two
  have names : name = otherName := calc
    name = first.session.sessionId := (keyed name first.session held).symm
    _ = second.session.sessionId := same
    _ = otherName := keyed otherName second.session otherHeld
  subst names
  have sessions : first.session = second.session := Option.some.inj (held.symm.trans otherHeld)
  rw [sessions] at pid
  exact Option.some.inj (pid.symm.trans otherPid)

variable {sessionId : String}

/-- What is adopted under a pid comes from a candidate with the pid. -/
theorem adopted_candidate {candidates : List ReadoptCandidate} {pid : Nat}
    (taken : World.adopted candidates pid = some sessionId) :
    ∃ candidate ∈ candidates, candidate.pid = pid ∧ candidate.session.sessionId = sessionId := by
  obtain ⟨candidate, found, rfl⟩ := Option.map_eq_some_iff.mp taken
  refine ⟨candidate, ?_, ?_, rfl⟩
  · exact List.mem_reverse.mp (List.mem_of_find?_eq_some found)
  · simpa using List.find?_some found

namespace World

/-- The next daemon starts with the records that are still fresh. -/
theorem restored (file : OrderedMap String PersistedSession) (now : Nat) :
    (SessionRegistry.empty.restore (readPersistedSessions file now)).resumable =
      readPersistedSessions file now := by
  have entries := OrderedMap.set_all_distinct (readPersistedSessions file now).entries
    (readPersistedSessions file now).distinct
  cases read : readPersistedSessions file now with
  | mk list distinct =>
    rw [read] at entries
    simp only [SessionRegistry.restore, SessionRegistry.empty]
    cases built : OrderedMap.setAll Prod.fst Prod.snd OrderedMap.empty list with
    | mk other otherDistinct =>
      rw [built] at entries
      subst entries
      rfl

/-- The candidates of a boot. -/
def candidates (world : World) (now : Nat) (probe : ReadoptProbe) : List ReadoptCandidate :=
  findLiveOrphanedSessions (readPersistedSessions world.file now) probe

/-- An entry after a boot is that of the last candidate with its pid. -/
theorem entry_boot (world : World) (now : Nat) (probe : ReadoptProbe) (pid : Nat) :
    (world.boot now probe).registry.pidToSession.get? pid =
      ((world.candidates now probe).reverse.find? (fun candidate => candidate.pid = pid)).map
        SessionRegistry.readopted := by
  unfold boot SessionRegistry.readoptLiveSessions candidates
  simp only [restored]
  rw [OrderedMap.get_set_all]
  exact Option.or_none

/-- The session of an entry after a boot is the one that was adopted. -/
theorem session_boot (world : World) (now : Nat) (probe : ReadoptProbe) (pid : Nat) :
    ((world.boot now probe).registry.pidToSession.get? pid).bind TrackedSession.sessionId =
      adopted (world.candidates now probe) pid := by
  rw [entry_boot]
  unfold adopted
  cases (world.candidates now probe).reverse.find? (fun candidate => candidate.pid = pid) with
  | none => rfl
  | some candidate => rfl

variable {world : World}

/-- The entry of a session after a boot is the only one. -/
theorem live_pid_boot (keyed : Keyed world.file) (now : Nat) (probe : ReadoptProbe)
    (sessionId : String) (pid : Nat) :
    (world.boot now probe).registry.getLivePid sessionId = some pid ↔
      adopted (world.candidates now probe) pid = some sessionId := by
  rw [SessionRegistry.live_pid_first, OrderedMap.first_key_iff]
  have entry := world.session_boot now probe
  constructor
  · rintro ⟨⟨session, held, isOf⟩, _⟩
    rw [← entry pid, held]
    exact (is_of_iff sessionId session).mp isOf
  · intro taken
    have here := (entry pid).trans taken
    obtain ⟨session, held, isOf⟩ := Option.bind_eq_some_iff.mp here
    refine ⟨⟨session, held, (is_of_iff sessionId session).mpr isOf⟩, ?_⟩
    intro other before
    by_contra passes
    have listed := (List.takeWhile_sublist _).subset before
    have apart : other.1 ≠ pid := by simpa using List.mem_takeWhile_imp before
    have otherHeld := (OrderedMap.mem_entries _ other.1 other.2).mp listed
    have otherOf := (is_of_iff sessionId other.2).mp (by simpa using passes)
    have otherTaken : adopted (world.candidates now probe) other.1 = some sessionId := by
      rw [← entry other.1, otherHeld]
      exact otherOf
    obtain ⟨candidate, listedHere, rfl, ofSession⟩ := adopted_candidate taken
    obtain ⟨second, listedThere, atOther, ofSame⟩ := adopted_candidate otherTaken
    apply apart
    rw [← atOther]
    exact candidate_pid (keyed_read keyed now) listedThere listedHere (ofSame.trans ofSession.symm)

/-! ## Good worlds -/

/-- The records are filed by session, the owners are processes, an owner that runs is looked up,
and an entry with a session holds the last one that was reported under its pid. -/
structure Good (world : World) : Prop where
  keyed : Keyed world.file
  known : ∀ sessionId process, world.owner sessionId = some process →
    process < world.processes.length
  owners : ∀ sessionId process pid, world.owner sessionId = some process → world.Runs process pid →
    world.registry.getLivePid sessionId = some pid
  own : ∀ pid session sessionId, world.registry.pidToSession.get? pid = some session →
    session.sessionId = some sessionId → ∀ other, world.reported pid = some other →
    other = sessionId

/-- The first world is good. -/
theorem start_good : start.Good where
  keyed := fun _ _ held => nomatch held
  known := fun _ _ held => nomatch held
  owners := fun _ _ _ held => nomatch held
  own := fun _ _ _ held => nomatch held

/-- A good world looks up what it should. -/
theorem Good.resolves (good : world.Good) : world.Resolves where
  owners := by
    intro sessionId process pid owns runs
    have looked := good.owners sessionId process pid owns runs
    refine ⟨looked, ?_⟩
    rw [SessionRegistry.stop_session_live, looked]
    rfl
  signals := by
    intro sessionId pid signalled other reported
    rw [SessionRegistry.stop_session_live] at signalled
    have looked := Option.mem_toList.mp signalled
    obtain ⟨⟨session, held, isOf⟩, _⟩ := (OrderedMap.first_key_iff _ _ _).mp looked
    exact good.own pid session sessionId held ((is_of_iff sessionId session).mp isOf) other reported

variable {process : Nat}

/-- Where lookups are right, running owners are looked up. -/
theorem Resolves.looked (resolves : world.Resolves)
    {pid : Nat} (owns : world.owner sessionId = some process)
    (runs : world.Runs process pid) : world.registry.getLivePid sessionId = some pid :=
  (resolves.owners sessionId process pid owns runs).1

/-! ## Reports -/

variable {now : Nat}

/-- Who owns a session other than the reported one, owned it before; not under the pid that is
given. -/
theorem owner_report {metadata : Option Json}
    {encryption : Option SessionEncryptionData} {given : Option Nat} {other : String}
    {owning held : Nat} (apart : other ≠ sessionId)
    (owns : (world.report process sessionId metadata encryption given now).owner other = some owning)
    (runs : world.Runs owning held) : world.owner other = some owning ∧ given ≠ some held := by
  simp only [report, apart, ↓reduceIte, Option.filter_eq_some_iff] at owns
  have running : world.processes[owning]? = some ⟨held, true⟩ := runs
  exact ⟨owns.1, by simpa [running] using owns.2⟩

/-- Another session is looked up as before, unless it was under the pid that is given. -/
theorem looked_other_report
    {metadata : Option Json} {encryption : Option SessionEncryptionData} {given : Option Nat}
    {other : String} {held : Nat}
    (looked : world.registry.getLivePid other = some held) (apart : other ≠ sessionId)
    (elsewhere : given ≠ some held) :
    (world.report process sessionId metadata encryption given now).registry.getLivePid other =
      some held := by
  cases given with
  | none => exact looked
  | some pid =>
    rw [SessionRegistry.live_pid_first] at looked ⊢
    refine OrderedMap.first_key_set_other looked (fun same => elsewhere (same ▸ rfl)) ?_
    simp [TrackedSession.isOf, Ne.symm apart]

/-- An entry after a report holds the session that was reported under its pid, or is an entry of
before under another pid. -/
theorem entry_report {metadata : Option Json}
    {encryption : Option SessionEncryptionData} {given : Option Nat} {key : Nat}
    {session : TrackedSession}
    (held : (world.report process sessionId metadata encryption given
      now).registry.pidToSession.get? key = some session) :
    (given = some key ∧ session.sessionId = some sessionId) ∨
      (given ≠ some key ∧ world.registry.pidToSession.get? key = some session) := by
  cases given with
  | none => exact .inr ⟨nofun, held⟩
  | some pid =>
    simp only [report, SessionRegistry.onSessionStarted, OrderedMap.get_set] at held
    split at held
    · cases held
      exact .inl ⟨congrArg some (Eq.symm ‹_›), SessionRegistry.session_tracked ..⟩
    · exact .inr ⟨fun same => ‹¬ _› (Option.some.inj same).symm, held⟩

/-- A report keeps a world good where its session is looked up at the process. -/
theorem report_good (good : world.Good)
    (bound : process < world.processes.length) (sessionId : String) (metadata : Option Json)
    (encryption : Option SessionEncryptionData) (given : Option Nat) (now : Nat)
    (looked : ∀ pid, world.Runs process pid →
      (world.report process sessionId metadata encryption given now).registry.getLivePid
        sessionId = some pid) :
    (world.report process sessionId metadata encryption given now).Good where
  keyed := good.keyed
  known := by
    intro other owning owns
    by_cases same : other = sessionId
    · subst same
      have isProcess : process = owning := by simpa [report] using owns
      exact isProcess ▸ bound
    · simp only [report, same, ↓reduceIte, Option.filter_eq_some_iff] at owns
      exact good.known other owning owns.1
  owners := by
    intro other owning held owns runs
    by_cases same : other = sessionId
    · subst same
      have isProcess : process = owning := by simpa [report] using owns
      subst isProcess
      exact looked held runs
    · obtain ⟨owned, elsewhere⟩ := owner_report same owns runs
      exact looked_other_report (good.owners other owning held owned runs) same elsewhere
  own := by
    intro key session other held ofOther third reported
    rcases entry_report held with ⟨atKey, ofReport⟩ | ⟨elsewhere, before⟩
    · have isReported : sessionId = third := by simpa [report, atKey] using reported
      exact isReported ▸ Option.some.inj (ofReport.symm.trans ofOther)
    · have unreported : world.reported key = some third := by
        simpa [report, elsewhere] using reported
      exact good.own key session other before ofOther third unreported

/-- The session of a report is looked up at a pid exactly if nothing stands before it and the pid
is given, or holds the session already behind nothing that is given. -/
theorem looked_report_iff (world : World) (process : Nat) (sessionId : String)
    (metadata : Option Json) (encryption : Option SessionEncryptionData) (given : Option Nat)
    (now pid : Nat) :
    (world.report process sessionId metadata encryption given now).registry.getLivePid sessionId =
        some pid ↔
      world.registry.pidToSession.NoneBefore pid (TrackedSession.isOf sessionId) ∧
        (given = some pid ∨
          (∃ session, world.registry.pidToSession.get? pid = some session ∧
            session.isOf sessionId = true) ∧
          ∀ entry ∈ world.registry.pidToSession.before pid, given ≠ some entry.1) := by
  have before := world.registry.pidToSession.first_key_iff (TrackedSession.isOf sessionId) pid
  cases given with
  | none =>
    have unchanged : (world.report process sessionId metadata encryption none
        now).registry.getLivePid sessionId = world.registry.getLivePid sessionId := rfl
    rw [unchanged, SessionRegistry.live_pid_first, before]
    simp [and_comm]
  | some other =>
    have passes : (world.registry.tracked sessionId metadata encryption (some other)).isOf
        sessionId = true := (is_of_iff _ _).mpr (SessionRegistry.session_tracked ..)
    rw [SessionRegistry.live_pid_first]
    by_cases same : other = pid
    · subst same
      refine (world.registry.pidToSession.first_key_set passes).trans ?_
      simp
    · refine (world.registry.pidToSession.first_key_set_passing same passes).trans ?_
      rw [before]
      simp only [Option.some.injEq, same, false_or, ne_eq, eq_comm (a := other)]
      exact and_assoc.trans and_left_comm

/-! ## The other events -/

/-- Tracking a spawn keeps a world good where no running owner has the pid. -/
theorem track_good (good : world.Good) (pid : Nat) (directory : Option String)
    (free : ∀ sessionId process, world.owner sessionId = some process → ¬ world.Runs process pid) :
    Good { world with registry := world.registry.trackSpawned pid directory } where
  keyed := good.keyed
  known := good.known
  owners := by
    intro sessionId process held owns runs
    have looked := good.owners sessionId process held owns runs
    rw [SessionRegistry.live_pid_first] at looked ⊢
    refine OrderedMap.first_key_set_other looked ?_ rfl
    rintro rfl
    exact free sessionId process owns runs
  own := by
    intro key session sessionId held ofSession
    simp only [SessionRegistry.trackSpawned, OrderedMap.get_set] at held
    split at held
    · cases held
      contradiction
    · exact good.own key session sessionId held ofSession

/-- Under the pid of a spawn that was just tracked no session is looked up. -/
theorem track_looked (registry : SessionRegistry) (pid : Nat) (directory : Option String)
    (sessionId : String) : (registry.trackSpawned pid directory).getLivePid sessionId ≠ some pid := by
  intro looked
  rw [SessionRegistry.live_pid_first, OrderedMap.first_key_iff] at looked
  obtain ⟨⟨session, held, isOf⟩, _⟩ := looked
  simp only [SessionRegistry.trackSpawned, OrderedMap.get_set, ↓reduceIte] at held
  cases held
  contradiction

/-- A process that runs keeps its pid alive. -/
theorem Runs.alive {pid : Nat} (runs : world.Runs process pid) :
    world.isAlive pid = true := by
  have running : world.processes[process]? = some ⟨pid, true⟩ := runs
  exact List.any_eq_true.mpr ⟨_, List.mem_of_getElem? running, by simp⟩

/-- Pruning keeps a world good. -/
theorem prune_good (good : world.Good) (now : Nat) :
    Good { world with registry := world.registry.pruneDeadSessions world.isAlive now } where
  keyed := good.keyed
  known := good.known
  owners := by
    intro sessionId process held owns runs
    have looked := good.owners sessionId process held owns runs
    exact OrderedMap.first_key_filter looked (fun _ => Runs.alive runs)
  own := by
    intro key session sessionId held
    simp only [SessionRegistry.pruneDeadSessions, OrderedMap.get_filter,
      Option.filter_eq_some_iff] at held
    exact good.own key session sessionId held.1

/-- More processes, or fewer that run, keep a world good. -/
theorem processes_good (good : world.Good) (processes : List Process)
    (length : world.processes.length ≤ processes.length)
    (ran : ∀ process < world.processes.length, ∀ pid, processes[process]? = some ⟨pid, true⟩ →
      world.Runs process pid) : Good { world with processes } where
  keyed := good.keyed
  known := fun sessionId process owns => (good.known sessionId process owns).trans_le length
  owners := fun sessionId process pid owns runs =>
    good.owners sessionId process pid owns (ran process (good.known sessionId process owns) pid runs)
  own := good.own

/-- A boot keeps a world good where it takes over the owners and no one else's pid. -/
theorem boot_good
    (good : world.Good)     (keeps : world.Keeps (.restart now probe)) : (world.boot now probe).Good where
  keyed := good.keyed
  known := good.known
  owners := fun sessionId process pid owns runs =>
    (live_pid_boot good.keyed now probe sessionId pid).mpr (keeps.1 sessionId process pid owns runs)
  own := by
    intro pid session sessionId held ofSession
    refine keeps.2 pid sessionId ?_
    have entry := world.session_boot now probe pid
    rw [held] at entry
    exact entry.symm.trans ofSession

/-- A boot after which lookups are right took over the owners and no one else's pid. -/
theorem boot_keeps
    (good : world.Good)     (resolves : (world.boot now probe).Resolves) : world.Keeps (.restart now probe) := by
  refine ⟨?_, ?_⟩
  · intro sessionId process pid owns runs
    exact (live_pid_boot good.keyed now probe sessionId pid).mp (resolves.looked owns runs)
  · intro pid sessionId taken other reported
    have looked := (live_pid_boot good.keyed now probe sessionId pid).mpr taken
    refine resolves.signals sessionId pid ?_ other reported
    rw [SessionRegistry.stop_session_live, looked]
    exact List.mem_singleton_self pid

/-! ## Runs -/

/-- An event that keeps the lookup right keeps the world good. -/
theorem step_good {next : World} {event : Event} (good : world.Good)
    (keeps : world.Keeps event) (taken : world.step event = some next) : next.Good := by
  cases event with
  | start pid =>
    obtain ⟨_, ⟨⟩⟩ := Option.ite_none_left_eq_some.mp taken
    refine processes_good good _ (by simp) ?_
    intro process bound held runs
    rwa [List.getElem?_append_left bound] at runs
  | exit process =>
    simp only [step] at taken
    split at taken
    · cases taken
      refine processes_good good _ (by simp) ?_
      intro other bound held runs
      rw [List.getElem?_set] at runs
      split at runs
      · simp at runs
      · exact runs
    · contradiction
  | trackSpawned pid directory =>
    cases taken
    exact track_good good pid directory keeps
  | sessionStarted process sessionId metadata encryption given now =>
    obtain ⟨bound, ⟨⟩⟩ := Option.ite_none_right_eq_some.mp taken
    refine report_good good bound sessionId metadata encryption given now ?_
    intro pid runs
    exact (looked_report_iff world process sessionId metadata encryption given now pid).mpr
      (keeps pid runs)
  | pruneDeadSessions now =>
    cases taken
    exact prune_good good now
  | write succeeds now =>
    simp only [step] at taken
    split at taken
    · cases taken
      refine ⟨?_, good.known, good.owners, good.own⟩
      cases succeeds with
      | true => exact keyed_persist good.keyed _ now
      | false => exact good.keyed
    · contradiction
  | restart now probe =>
    cases taken
    exact boot_good good keeps

/-- An event after which lookups are right kept them right. -/
theorem keeps_of_resolves {next : World} {event : Event} (good : world.Good)
    (taken : world.step event = some next) (resolves : next.Resolves) : world.Keeps event := by
  cases event with
  | trackSpawned pid directory =>
    cases taken
    intro sessionId process owns runs
    exact track_looked world.registry pid directory sessionId (resolves.looked owns runs)
  | sessionStarted process sessionId metadata encryption given now =>
    obtain ⟨_, ⟨⟩⟩ := Option.ite_none_right_eq_some.mp taken
    intro pid runs
    have owns : (world.report process sessionId metadata encryption given now).owner sessionId =
        some process := by simp [report]
    exact (looked_report_iff world process sessionId metadata encryption given now pid).mp
      (resolves.looked owns runs)
  | restart now probe =>
    cases taken
    exact boot_keeps good resolves
  | start | exit | pruneDeadSessions | write => trivial

/-- In every run, each session whose last reporter runs is looked up and signalled at that process,
and nothing is signalled for a session that is not the last one reported under the pid, exactly
if every event keeps the lookup right. -/
theorem registry_resolves_iff (events : List Event) :
    Runs.Always step (fun _ _ next => next.Resolves) start events ↔
      Runs.Always step (fun world event _ => world.Keeps event) start events := by
  constructor
  · intro resolves
    refine Runs.always_along Good (fun _ _ next => next.Resolves) _ ?_ start_good resolves
    intro world event next good right taken
    have keeps := keeps_of_resolves good taken right
    exact ⟨step_good good keeps taken, keeps⟩
  · intro keeps
    refine Runs.always_along Good (fun world event _ => world.Keeps event) _ ?_ start_good keeps
    intro world event next good kept taken
    have nextGood := step_good good kept taken
    exact ⟨nextGood, nextGood.resolves⟩

/-- A process reports a session and ends; before its entry is pruned another process resumes the
session and reports it. -/
def resumedBeforePrune : List Event :=
  [.start 10, .sessionStarted 0 "s" none none (some 10) 0, .exit 0, .start 20,
    .sessionStarted 1 "s" none none (some 20) 1]

/-- The session is looked up at the process that ended, although the last reporter runs. -/
theorem ended_reporter_looked_up :
    ¬ ∀ events, Runs.Always step (fun _ _ next => next.Resolves) start events := by
  intro always
  obtain ⟨final, ran⟩ : ∃ final, Runs.run step start resumedBeforePrune = some final := ⟨_, rfl⟩
  have resolves := Runs.always_run (always resumedBeforePrune) start_good.resolves ran
  have owns : final.owner "s" = some 1 := by
    obtain rfl := Option.some.inj ran
    rfl
  have runs : final.Runs 1 20 := by
    obtain rfl := Option.some.inj ran
    rfl
  have ended : final.registry.getLivePid "s" = some 10 := by
    obtain rfl := Option.some.inj ran
    rfl
  have looked := resolves.looked owns runs
  rw [ended] at looked
  contradiction

end World

end Kvy.Cli.Daemon.Registry
