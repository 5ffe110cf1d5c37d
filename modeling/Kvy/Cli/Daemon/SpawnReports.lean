import Kvy.Cli.Daemon.SpawnAwaits

/-!
# The report of a spawned process

While its process lives, a spawn is answered with the session that the process reports, and the
registry keeps what was reported under the pid, exactly when a report is handled after the launcher
has answered and before the awaiter gives up. A report before the launcher's answer meets no waiter,
and tracking the process then replaces the entry that it made.
-/

namespace Kvy.Cli.Daemon

open General General.Runs

namespace SpawnHost

open SpawnDaemon

variable {host next final : SpawnHost} {event : Event} {id pid : Nat} {directory sessionId : String}
  {encryption : Registry.SessionEncryptionData}

/-! ## What is asked -/

/-- The process of the attempt lives, and what it reports is the session with its encryption data.
Whoever reports the session gives encryption data. -/
def Lives (id pid : Nat) (sessionId : String) (encryption : Registry.SessionEncryptionData) :
    Event → Prop
  | .own (.exited other _) => other ≠ id
  | .own (.sessionStartFailed other _) => other ≠ pid
  | .own _ => True
  | .launched other process => other = id ↔ process.pid = pid
  | .sessionStarted reported _ given source =>
    (source = some pid → reported = sessionId ∧ given = some encryption) ∧
      (reported = sessionId → given.isSome = true)
  | .trackSpawned other _ => other ≠ pid
  | .pruneDeadSessions isAlive _ => isAlive pid = true

/-- The entry of the pid holds what was reported and where the process was spawned. -/
def Reported (host : SpawnHost) (pid : Nat) (directory sessionId : String)
    (encryption : Registry.SessionEncryptionData) : Prop :=
  ∃ session, host.registry.pidToSession.get? pid = some session ∧
    session.sessionId = some sessionId ∧ session.encryption = some encryption ∧
    session.directory = some directory

/-- The report has its effect: the entry, a session that can be resumed, and the spawn's answer. -/
structure Kept (host : SpawnHost) (id pid : Nat) (directory sessionId : String)
    (encryption : Registry.SessionEncryptionData) : Prop where
  entry : host.Reported pid directory sessionId encryption
  resumable : ∀ now, (host.registry.findResumable sessionId now).isSome = true
  answered : Concluded host.spawns id (some sessionId)

/-- A report of the pid. -/
def Reports (pid : Nat) (event : Event) : Prop :=
  ∃ sessionId metadata encryption, event = .sessionStarted sessionId metadata encryption (some pid)

/-- A report of the pid comes after the launcher's answer and before the awaiter gives up. -/
def HeardInTime (id pid : Nat) (events : List Event) : Prop :=
  ∃ before process middle report after,
    events = before ++ .launched id process :: (middle ++ report :: after) ∧
    Reports pid report ∧ .own (.timedOut id) ∉ middle

/-! ## The attempt and its entry -/

/-- The process is tracked with its directory. -/
def Placed (host : SpawnHost) (pid : Nat) (directory : String) : Prop :=
  ∃ session, host.registry.pidToSession.get? pid = some session ∧
    session.directory = some directory

/-- Other entries of the session carry encryption data. -/
def Encrypted (host : SpawnHost) (pid : Nat) (sessionId : String) : Prop :=
  ∀ other session, other ≠ pid → host.registry.pidToSession.get? other = some session →
    session.sessionId = some sessionId → session.encryption.isSome = true

/-- What holds around the attempt. -/
structure Around (host : SpawnHost) (id pid : Nat) (sessionId : String) : Prop where
  sound : Sound host.spawns
  waited : Waited host.spawns
  unshared : Unshared host.spawns id pid
  encrypted : host.Encrypted pid sessionId

/-- Other entries of the session carry encryption data, since the reports of it give it. -/
theorem encrypted_step (encrypted : host.Encrypted pid sessionId)
    (lives : Lives id pid sessionId encryption event) (taken : host.step event = some next) :
    next.Encrypted pid sessionId := by
  intro other session apart held isOf
  have tracked (key : Nat) (directory : Option String)
      (placed : (host.registry.trackSpawned key directory).pidToSession.get? other = some session) :
      session.encryption.isSome = true := by
    rw [Registry.SessionRegistry.get_track_spawned] at placed
    split at placed
    · cases placed
      contradiction
    · exact encrypted other session apart placed isOf
  cases event with
  | own event =>
    obtain ⟨own, taken⟩ := Option.ite_none_right_eq_some.mp taken
    obtain ⟨spawns, stepped, rfl⟩ := Option.map_eq_some_iff.mp taken
    exact encrypted other session apart held isOf
  | launched key process =>
    obtain ⟨attempt, found, taken⟩ := Option.bind_eq_some_iff.mp taken
    split at taken
    · cases taken
      exact tracked _ _ held
    · contradiction
  | sessionStarted reported metadata given source =>
    cases taken
    simp only [onSessionStarted, Registry.SessionRegistry.get_on_session_started] at held
    split at held
    · cases held
      rw [Registry.SessionRegistry.session_tracked] at isOf
      rw [Registry.SessionRegistry.encryption_tracked]
      exact lives.2 (Option.some.inj isOf)
    · exact encrypted other session apart held isOf
  | trackSpawned key directory =>
    cases taken
    exact tracked _ _ held
  | pruneDeadSessions isAlive now =>
    cases taken
    rw [Registry.SessionRegistry.get_prune] at held
    exact encrypted other session apart (Option.filter_eq_some_iff.mp held).1 isOf

/-- A step of a host keeps its spawns sound, and the waiters theirs. -/
theorem linked_step (sound : Sound host.spawns) (waited : Waited host.spawns)
    (taken : host.step event = some next) : Sound next.spawns ∧ Waited next.spawns := by
  cases event with
  | own event =>
    obtain ⟨own, taken⟩ := Option.ite_none_right_eq_some.mp taken
    obtain ⟨spawns, stepped, rfl⟩ := Option.map_eq_some_iff.mp taken
    exact ⟨sound_step sound stepped, ((own_step own stepped).leaves sound.fresh).waited waited⟩
  | launched key process =>
    obtain ⟨attempt, found, taken⟩ := Option.bind_eq_some_iff.mp taken
    split at taken
    · rename_i directory launching
      cases taken
      refine ⟨sound_launched sound found launching process, ?_⟩
      intro tested other waits
      simp only [launched, SpawnDaemon.launched, OrderedMap.get_set] at waits ⊢
      split at waits
      · cases waits
        exact ⟨_, process, if_pos rfl, rfl, Eq.symm ‹_›⟩
      · obtain ⟨held, its, isHeld, isIts, isPid⟩ := waited tested other waits
        by_cases same : other = key
        · subst same
          obtain rfl := Option.some.inj (found.symm.trans isHeld)
          have unlaunched := sound.unlaunched other attempt found (launching ▸ trivial)
          rw [unlaunched] at isIts
          contradiction
        · exact ⟨held, its, by rw [if_neg same, isHeld], isIts, isPid⟩
    · contradiction
  | sessionStarted reported metadata given source =>
    cases taken
    exact ⟨(quiet_sessionStarted sound reported source).1,
      (leaves_session_started host.spawns reported source).waited waited⟩
  | trackSpawned key directory =>
    cases taken
    exact ⟨sound_outside sound host.spawns.waiters _, waited⟩
  | pruneDeadSessions isAlive now =>
    cases taken
    exact ⟨sound_outside sound host.spawns.waiters _, waited⟩

/-- No other attempt comes to wait for the pid of a living process. -/
theorem unshared_step (sound : Sound host.spawns) (unshared : Unshared host.spawns id pid)
    (lives : Lives id pid sessionId encryption event) (taken : host.step event = some next) :
    Unshared next.spawns id pid := by
  cases event with
  | own event =>
    obtain ⟨own, taken⟩ := Option.ite_none_right_eq_some.mp taken
    obtain ⟨spawns, stepped, rfl⟩ := Option.map_eq_some_iff.mp taken
    exact ((own_step own stepped).leaves sound.fresh).unshared unshared
  | launched key process =>
    obtain ⟨attempt, found, taken⟩ := Option.bind_eq_some_iff.mp taken
    split at taken
    · cases taken
      intro other held its apart isHeld waiting isIts
      simp only [launched, SpawnDaemon.launched, OrderedMap.get_set] at isHeld
      split at isHeld
      · subst other
        cases isHeld
        cases isIts
        exact fun same => apart (lives.mpr same)
      · exact unshared other held its apart isHeld waiting isIts
    · contradiction
  | sessionStarted reported metadata given source =>
    cases taken
    exact (leaves_session_started host.spawns reported source).unshared unshared
  | trackSpawned key directory =>
    cases taken
    exact unshared
  | pruneDeadSessions isAlive now =>
    cases taken
    exact unshared

theorem around_step (around : host.Around id pid sessionId)
    (lives : Lives id pid sessionId encryption event) (taken : host.step event = some next) :
    next.Around id pid sessionId :=
  have linked := linked_step around.sound around.waited taken
  ⟨linked.1, linked.2, unshared_step around.sound around.unshared lives taken,
    encrypted_step around.encrypted lives taken⟩

/-- The entry of the pid keeps its directory, and it changes to what the process reports only,
unless the launcher answers for the attempt. -/
theorem entry_step (lives : Lives id pid sessionId encryption event)
    (later : ∀ process, event ≠ .launched id process) (taken : host.step event = some next)
    {session : Registry.TrackedSession}
    (held : host.registry.pidToSession.get? pid = some session) :
    ∃ now, next.registry.pidToSession.get? pid = some now ∧ now.directory = session.directory ∧
      (now = session ∨ now.sessionId = some sessionId ∧ now.encryption = some encryption) := by
  cases event with
  | own event =>
    obtain ⟨own, taken⟩ := Option.ite_none_right_eq_some.mp taken
    obtain ⟨spawns, stepped, rfl⟩ := Option.map_eq_some_iff.mp taken
    exact ⟨session, held, rfl, Or.inl rfl⟩
  | launched key process =>
    obtain ⟨attempt, found, taken⟩ := Option.bind_eq_some_iff.mp taken
    split at taken
    · cases taken
      have apart : pid ≠ process.pid := fun same => later process (lives.mpr same.symm ▸ rfl)
      refine ⟨session, ?_, rfl, Or.inl rfl⟩
      rw [launched, Registry.SessionRegistry.get_track_spawned, if_neg apart, held]
    · contradiction
  | sessionStarted reported metadata given source =>
    cases taken
    rw [onSessionStarted, Registry.SessionRegistry.get_on_session_started]
    split
    · rename_i same
      obtain ⟨rfl, rfl⟩ := lives.1 same
      refine ⟨_, rfl, ?_, Or.inr ⟨by simp, by simp⟩⟩
      simp [Registry.SessionRegistry.tracked, same, held]
    · exact ⟨session, held, rfl, Or.inl rfl⟩
  | trackSpawned key directory =>
    cases taken
    refine ⟨session, ?_, rfl, Or.inl rfl⟩
    rw [Registry.SessionRegistry.get_track_spawned, if_neg (Ne.symm lives), held]
  | pruneDeadSessions isAlive now =>
    cases taken
    refine ⟨session, ?_, rfl, Or.inl rfl⟩
    rw [Registry.SessionRegistry.get_prune, held]
    exact Option.filter_eq_some_iff.mpr ⟨rfl, lives⟩

/-- What a caller is told stays. -/
theorem concluded_step (sound : Sound host.spawns) {told : Option String}
    (concluded : Concluded host.spawns id told) (taken : host.step event = some next) :
    Concluded next.spawns id told ∧ ∀ process, event ≠ .launched id process := by
  obtain ⟨attempt, held, tells⟩ := concluded
  have unmoved : attempt.stage ≠ .waiting := by
    intro waiting
    simp [waiting, outcome] at tells
  cases event with
  | own event =>
    obtain ⟨own, taken⟩ := Option.ite_none_right_eq_some.mp taken
    obtain ⟨spawns, stepped, rfl⟩ := Option.map_eq_some_iff.mp taken
    exact ⟨(own_step own stepped).concluded (sound.fresh id attempt held) ⟨attempt, held, tells⟩,
      by simp⟩
  | launched key process =>
    obtain ⟨found, isFound, taken⟩ := Option.bind_eq_some_iff.mp taken
    split at taken
    · rename_i launching
      cases taken
      have apart : key ≠ id := by
        rintro rfl
        obtain rfl := Option.some.inj (held.symm.trans isFound)
        simp [launching, outcome] at tells
      exact ⟨⟨attempt, (launched_other host.spawns apart found _ process).trans held, tells⟩,
        fun _ same => apart (Event.launched.inj same).1⟩
    · contradiction
  | sessionStarted reported metadata given source =>
    cases taken
    refine ⟨⟨attempt, ?_, tells⟩, by simp⟩
    cases source with
    | none => exact held
    | some source => exact report_unmoved _ source (.ok reported) held unmoved
  | trackSpawned key directory =>
    cases taken
    exact ⟨⟨attempt, held, tells⟩, by simp⟩
  | pruneDeadSessions isAlive now =>
    cases taken
    exact ⟨⟨attempt, held, tells⟩, by simp⟩

/-- At the launcher, the attempt waits for its answer. -/
theorem launching_step (around : host.Around id pid sessionId)
    (launching : Stands host.spawns id (.launching directory))
    (lives : Lives id pid sessionId encryption event) (taken : host.step event = some next) :
    ((∀ process, event ≠ .launched id process) ∧
        (Stands next.spawns id (.launching directory) ∨ Concluded next.spawns id none)) ∨
      (∃ process, event = .launched id process) ∧ Awaits next.spawns id pid ∧
        next.Placed pid directory := by
  obtain ⟨attempt, held, stands⟩ := launching
  have issued := around.sound.fresh id attempt held
  cases event with
  | own event =>
    obtain ⟨own, taken⟩ := Option.ite_none_right_eq_some.mp taken
    obtain ⟨spawns, stepped, rfl⟩ := Option.map_eq_some_iff.mp taken
    exact Or.inl ⟨by simp, (own_step own stepped).launching issued ⟨attempt, held, stands⟩⟩
  | launched key process =>
    obtain ⟨found, isFound, taken⟩ := Option.bind_eq_some_iff.mp taken
    split at taken
    · rename_i placed isLaunching
      cases taken
      by_cases same : key = id
      · subst same
        obtain rfl := Option.some.inj (held.symm.trans isFound)
        obtain rfl := AttemptStage.launching.inj (stands.symm.trans isLaunching)
        have isPid : process.pid = pid := lives.mp rfl
        refine Or.inr ⟨⟨process, rfl⟩, ⟨⟨_, process, get_own _ _ _, rfl, rfl, isPid⟩, ?_⟩, ?_⟩
        · simp [launched, SpawnDaemon.launched, isPid]
        · exact ⟨_, (Registry.SessionRegistry.get_track_spawned _ _ _ _).trans (if_pos isPid.symm),
            rfl⟩
      · exact Or.inl ⟨fun _ answers => same (Event.launched.inj answers).1, Or.inl ⟨attempt,
          (launched_other host.spawns same found _ process).trans held, stands⟩⟩
    · contradiction
  | sessionStarted reported metadata given source =>
    cases taken
    refine Or.inl ⟨by simp, Or.inl ⟨attempt, ?_, stands⟩⟩
    cases source with
    | none => exact held
    | some source => exact report_unmoved _ source (.ok reported) held (by simp [stands])
  | trackSpawned key directory =>
    cases taken
    exact Or.inl ⟨by simp, Or.inl ⟨attempt, held, stands⟩⟩
  | pruneDeadSessions isAlive now =>
    cases taken
    exact Or.inl ⟨by simp, Or.inl ⟨attempt, held, stands⟩⟩

/-- An attempt that waits goes on waiting, until the report of its process comes or the awaiter
gives up. -/
theorem awaits_step (around : host.Around id pid sessionId) (awaits : Awaits host.spawns id pid)
    (lives : Lives id pid sessionId encryption event) (taken : host.step event = some next) :
    (event = .own (.timedOut id) ∧ Concluded next.spawns id none) ∨
      (Reports pid event ∧ Concluded next.spawns id (some sessionId)) ∨
      (event ≠ .own (.timedOut id) ∧ ¬ Reports pid event ∧ Awaits next.spawns id pid) := by
  obtain ⟨attempt, process, held, waiting, launched, isPid⟩ := awaits.held
  have issued := around.sound.fresh id attempt held
  have mine (tested : Nat) (waits : host.spawns.waiters.get? tested = some id) : tested = pid := by
    obtain ⟨found, its, isFound, isIts, isTested⟩ := around.waited tested id waits
    obtain rfl := Option.some.inj (held.symm.trans isFound)
    obtain rfl := Option.some.inj (launched.symm.trans isIts)
    exact isTested.symm.trans isPid
  have kept (attempts : next.spawns.attempts.get? id = host.spawns.attempts.get? id)
      (waiters : next.spawns.waiters.get? pid = host.spawns.waiters.get? pid) :
      Awaits next.spawns id pid :=
    ⟨⟨attempt, process, attempts.trans held, waiting, launched, isPid⟩, waiters.trans awaits.waits⟩
  cases event with
  | own event =>
    obtain ⟨own, taken⟩ := Option.ite_none_right_eq_some.mp taken
    obtain ⟨spawns, stepped, rfl⟩ := Option.map_eq_some_iff.mp taken
    have failed (error : String) : event ≠ .sessionStartFailed pid error := by
      rintro rfl
      exact lives rfl
    have exited (detail : String) : event ≠ .exited id detail := by
      rintro rfl
      exact lives rfl
    obtain ⟨untimed, still⟩ | ⟨rfl, concluded⟩ := (own_step own stepped).awaits issued around.waited
      around.unshared awaits failed exited
    · exact Or.inr (Or.inr ⟨by simpa using untimed, by simp [Reports], still⟩)
    · exact Or.inl ⟨rfl, concluded⟩
  | launched key other =>
    obtain ⟨found, isFound, taken⟩ := Option.bind_eq_some_iff.mp taken
    split at taken
    · rename_i launching
      cases taken
      have apart : key ≠ id := by
        rintro rfl
        obtain rfl := Option.some.inj (held.symm.trans isFound)
        simp [launching] at waiting
      have away : pid ≠ other.pid := fun same => apart (lives.mpr same.symm)
      refine Or.inr (Or.inr ⟨by simp, by simp [Reports], kept ?_ ?_⟩)
      · exact launched_other host.spawns apart found _ other
      · exact (OrderedMap.get_set _ _ _ _).trans (if_neg away)
    · contradiction
  | sessionStarted reported metadata given source =>
    cases taken
    cases source with
    | none => exact Or.inr (Or.inr ⟨by simp, by simp [Reports], kept rfl rfl⟩)
    | some source =>
      by_cases same : source = pid
      · subst same
        obtain ⟨rfl, rfl⟩ := lives.1 rfl
        refine Or.inr (Or.inl ⟨⟨reported, metadata, _, rfl⟩, ?_⟩)
        simp only [onSessionStarted, SpawnDaemon.onSessionStarted, report, awaits.waits]
        exact ⟨_, settle_waiting _ source (.ok reported) held waiting, rfl⟩
      · refine Or.inr (Or.inr ⟨by simp, by simp [Reports, same], kept ?_ ?_⟩)
        · exact report_other _ source _ (fun waits => same (mine source waits))
        · exact report_waiters _ source _ (Ne.symm same)
  | trackSpawned key directory =>
    cases taken
    exact Or.inr (Or.inr ⟨by simp, by simp [Reports], kept rfl rfl⟩)
  | pruneDeadSessions isAlive now =>
    cases taken
    exact Or.inr (Or.inr ⟨by simp, by simp [Reports], kept rfl rfl⟩)

/-! ## Runs -/

/-- What is reported stays reported. -/
theorem reported_step (reported : host.Reported pid directory sessionId encryption)
    (lives : Lives id pid sessionId encryption event)
    (later : ∀ process, event ≠ .launched id process) (taken : host.step event = some next) :
    next.Reported pid directory sessionId encryption := by
  obtain ⟨session, held, isOf, isEncrypted, placed⟩ := reported
  obtain ⟨now, isNow, same, rfl | ⟨nowOf, nowEncrypted⟩⟩ := entry_step lives later taken held
  · exact ⟨now, isNow, isOf, isEncrypted, placed⟩
  · exact ⟨now, isNow, nowOf, nowEncrypted, same.trans placed⟩

/-- A tracked process stays tracked, and its report is reported. -/
theorem placed_step (placed : host.Placed pid directory)
    (lives : Lives id pid sessionId encryption event)
    (later : ∀ process, event ≠ .launched id process) (taken : host.step event = some next) :
    next.Placed pid directory := by
  obtain ⟨session, held, isPlaced⟩ := placed
  obtain ⟨now, isNow, same, _⟩ := entry_step lives later taken held
  exact ⟨now, isNow, same.trans isPlaced⟩

theorem report_reports (placed : host.Placed pid directory) (sessionId : String)
    (metadata : Option Json) (encryption : Registry.SessionEncryptionData) :
    (host.onSessionStarted sessionId metadata (some encryption) (some pid)).Reported pid directory
      sessionId encryption := by
  obtain ⟨session, held, isPlaced⟩ := placed
  refine ⟨_, (Registry.SessionRegistry.get_on_session_started _ _ _ _ _ _).trans (if_pos rfl),
    by simp, by simp, ?_⟩
  simpa [Registry.SessionRegistry.tracked, held] using isPlaced

/-- The attempt waits for its process, or it has told the session. -/
def Waiting (host : SpawnHost) (id pid : Nat) (directory sessionId : String)
    (encryption : Registry.SessionEncryptionData) : Prop :=
  (Awaits host.spawns id pid ∧ host.Placed pid directory) ∨
    (Concluded host.spawns id (some sessionId) ∧
      host.Reported pid directory sessionId encryption)

/-- Until the awaiter gives up, the attempt waits or has told the session; a report makes it
tell. -/
theorem waiting_step (around : host.Around id pid sessionId)
    (waiting : host.Waiting id pid directory sessionId encryption)
    (lives : Lives id pid sessionId encryption event) (untimed : event ≠ .own (.timedOut id))
    (taken : host.step event = some next) :
    next.Waiting id pid directory sessionId encryption ∧
      (Reports pid event →
        Concluded next.spawns id (some sessionId) ∧
          next.Reported pid directory sessionId encryption) := by
  rcases waiting with ⟨awaits, placed⟩ | ⟨concluded, reported⟩
  · have later (process : LaunchedProcess) : event ≠ .launched id process := by
      rintro rfl
      obtain ⟨attempt, held, taken⟩ := Option.bind_eq_some_iff.mp taken
      obtain ⟨found, _, isFound, waiting, _⟩ := awaits.held
      obtain rfl := Option.some.inj (held.symm.trans isFound)
      simp [waiting] at taken
    obtain ⟨timed, _⟩ | ⟨⟨reported, metadata, given, rfl⟩, concluded⟩ | ⟨_, unheard, still⟩ :=
      awaits_step around awaits lives taken
    · exact absurd timed untimed
    · obtain ⟨rfl, rfl⟩ := lives.1 rfl
      cases taken
      have reported := report_reports placed reported metadata encryption
      exact ⟨Or.inr ⟨concluded, reported⟩, fun _ => ⟨concluded, reported⟩⟩
    · exact ⟨Or.inl ⟨still, placed_step placed lives later taken⟩,
        fun reports => absurd reports unheard⟩
  · obtain ⟨concluded, later⟩ := concluded_step around.sound concluded taken
    have reported := reported_step reported lives later taken
    exact ⟨Or.inr ⟨concluded, reported⟩, fun _ => ⟨concluded, reported⟩⟩

/-- An attempt tells its caller one thing. -/
theorem concluded_unique {spawns : SpawnDaemon} {one other : Option String}
    (first : Concluded spawns id one) (second : Concluded spawns id other) : one = other := by
  obtain ⟨attempt, held, tells⟩ := first
  obtain ⟨again, isAgain, tellsAgain⟩ := second
  obtain rfl := Option.some.inj (held.symm.trans isAgain)
  exact Option.some.inj (tells.symm.trans tellsAgain)

variable {events : List Event}

/-- What the caller has been told is told at the end. -/
theorem told_run {told : Option String} (around : host.Around id pid sessionId)
    (concluded : Concluded host.spawns id told)
    (lives : ∀ event ∈ events, Lives id pid sessionId encryption event)
    (ran : run step host events = some final) : Concluded final.spawns id told :=
  (run_invariant_under (fun host => host.Around id pid sessionId ∧ Concluded host.spawns id told)
    (Lives id pid sessionId encryption)
    (fun _ _ _ holds lives taken => ⟨around_step holds.1 lives taken,
      (concluded_step holds.1.sound holds.2 taken).1⟩) ⟨around, concluded⟩ lives ran).2

/-- An attempt that waits and tells the session in the end has heard a report in time. -/
theorem heard_of_told_waiting (around : host.Around id pid sessionId)
    (awaits : Awaits host.spawns id pid)
    (lives : ∀ event ∈ events, Lives id pid sessionId encryption event)
    (ran : run step host events = some final)
    (told : Concluded final.spawns id (some sessionId)) :
    ∃ middle report after, events = middle ++ report :: after ∧ Reports pid report ∧
      .own (.timedOut id) ∉ middle := by
  induction events generalizing host with
  | nil =>
    cases ran
    obtain ⟨attempt, _, held, waiting, _⟩ := awaits.held
    obtain ⟨found, isFound, tells⟩ := told
    obtain rfl := Option.some.inj (held.symm.trans isFound)
    simp [waiting, outcome] at tells
  | cons event events inductionHypothesis =>
    obtain ⟨next, taken, rest⟩ := Option.bind_eq_some_iff.mp ran
    obtain ⟨now, later⟩ := List.forall_mem_cons.mp lives
    have nextAround := around_step around now taken
    obtain ⟨_, failed⟩ | ⟨reports, _⟩ | ⟨untimed, _, still⟩ := awaits_step around awaits now taken
    · have same := concluded_unique (told_run nextAround failed later rest) told
      contradiction
    · exact ⟨[], event, events, rfl, reports, by simp⟩
    · obtain ⟨middle, report, after, rfl, reports, unexpired⟩ :=
        inductionHypothesis nextAround still later rest
      exact ⟨event :: middle, report, after, rfl, reports, by simp [Ne.symm untimed, unexpired]⟩

/-- An attempt at the launcher that tells the session in the end has heard a report in time. -/
theorem heard_of_told (around : host.Around id pid sessionId)
    (launching : Stands host.spawns id (.launching directory))
    (lives : ∀ event ∈ events, Lives id pid sessionId encryption event)
    (ran : run step host events = some final)
    (told : Concluded final.spawns id (some sessionId)) : HeardInTime id pid events := by
  induction events generalizing host with
  | nil =>
    cases ran
    obtain ⟨attempt, held, stands⟩ := launching
    obtain ⟨found, isFound, tells⟩ := told
    obtain rfl := Option.some.inj (held.symm.trans isFound)
    simp [stands, outcome] at tells
  | cons event events inductionHypothesis =>
    obtain ⟨next, taken, rest⟩ := Option.bind_eq_some_iff.mp ran
    obtain ⟨now, later⟩ := List.forall_mem_cons.mp lives
    have nextAround := around_step around now taken
    obtain ⟨_, still | failed⟩ | ⟨⟨process, rfl⟩, awaits, _⟩ :=
      launching_step around launching now taken
    · obtain ⟨before, process, middle, report, after, rfl, heard⟩ :=
        inductionHypothesis nextAround still later rest
      exact ⟨event :: before, process, middle, report, after, rfl, heard⟩
    · have same := concluded_unique (told_run nextAround failed later rest) told
      contradiction
    · obtain ⟨middle, report, after, rfl, heard⟩ :=
        heard_of_told_waiting nextAround awaits later rest told
      exact ⟨[], process, middle, report, after, rfl, heard⟩

/-- The launcher answers for no attempt that waits or has told its caller. -/
theorem past_run (around : host.Around id pid sessionId)
    (past : Awaits host.spawns id pid ∨ ∃ told, Concluded host.spawns id told)
    (lives : ∀ event ∈ events, Lives id pid sessionId encryption event)
    (ran : run step host events = some final) (directory : String) :
    ¬ Stands final.spawns id (.launching directory) := by
  have kept := run_invariant_under (fun host : SpawnHost => host.Around id pid sessionId ∧
      (Awaits host.spawns id pid ∨ ∃ told, Concluded host.spawns id told))
    (Lives id pid sessionId encryption) ?_ ⟨around, past⟩ lives ran
  · rintro ⟨attempt, held, stands⟩
    rcases kept.2 with awaits | ⟨told, found, isFound, tells⟩
    · obtain ⟨found, _, isFound, waiting, _⟩ := awaits.held
      obtain rfl := Option.some.inj (held.symm.trans isFound)
      rw [stands] at waiting
      contradiction
    · obtain rfl := Option.some.inj (held.symm.trans isFound)
      simp [stands, outcome] at tells
  · rintro host event next ⟨around, awaits | ⟨told, concluded⟩⟩ lives taken
    · refine ⟨around_step around lives taken, ?_⟩
      obtain ⟨_, failed⟩ | ⟨_, told⟩ | ⟨_, _, still⟩ := awaits_step around awaits lives taken
      · exact Or.inr ⟨none, failed⟩
      · exact Or.inr ⟨some sessionId, told⟩
      · exact Or.inl still
    · exact ⟨around_step around lives taken,
        Or.inr ⟨told, (concluded_step around.sound concluded taken).1⟩⟩

/-- Until the launcher answers for it, the attempt is at the launcher. -/
theorem launching_before {before : List Event} {middle : SpawnHost} {process : LaunchedProcess}
    (around : host.Around id pid sessionId)
    (launching : Stands host.spawns id (.launching directory))
    (lives : ∀ event ∈ before, Lives id pid sessionId encryption event)
    (ran : run step host before = some middle)
    (taken : middle.step (.launched id process) = some next) :
    middle.Around id pid sessionId ∧ Stands middle.spawns id (.launching directory) := by
  have stands : ∃ placed, Stands middle.spawns id (.launching placed) := by
    obtain ⟨attempt, held, taken⟩ := Option.bind_eq_some_iff.mp taken
    split at taken
    · rename_i placed isLaunching
      exact ⟨placed, attempt, held, isLaunching⟩
    · contradiction
  obtain ⟨placed, stands⟩ := stands
  induction before generalizing host with
  | nil =>
    cases ran
    exact ⟨around, launching⟩
  | cons event before inductionHypothesis =>
    obtain ⟨after, stepped, rest⟩ := Option.bind_eq_some_iff.mp ran
    obtain ⟨now, later⟩ := List.forall_mem_cons.mp lives
    have nextAround := around_step around now stepped
    obtain ⟨_, still | failed⟩ | ⟨_, awaits, _⟩ := launching_step around launching now stepped
    · exact inductionHypothesis nextAround still later rest
    · exact absurd stands (past_run nextAround (Or.inr ⟨none, failed⟩) later rest placed)
    · exact absurd stands (past_run nextAround (Or.inl awaits) later rest placed)

/-- A report in time is kept. -/
theorem kept_of_heard (around : host.Around id pid sessionId)
    (launching : Stands host.spawns id (.launching directory))
    (lives : ∀ event ∈ events, Lives id pid sessionId encryption event)
    (ran : run step host events = some final) (heard : HeardInTime id pid events) :
    final.Around id pid sessionId ∧ Concluded final.spawns id (some sessionId) ∧
      final.Reported pid directory sessionId encryption := by
  obtain ⟨before, process, middle, report, after, rfl, reports, unexpired⟩ := heard
  rw [run_append] at ran
  obtain ⟨answering, ranBefore, ran⟩ := Option.bind_eq_some_iff.mp ran
  obtain ⟨waiting, answered, ran⟩ := Option.bind_eq_some_iff.mp ran
  rw [run_append] at ran
  obtain ⟨hearing, ranMiddle, ran⟩ := Option.bind_eq_some_iff.mp ran
  obtain ⟨told, reported, ranAfter⟩ := Option.bind_eq_some_iff.mp ran
  simp only [List.forall_mem_append, List.forall_mem_cons] at lives
  obtain ⟨livesBefore, livesLaunch, livesMiddle, livesReport, livesAfter⟩ := lives
  obtain ⟨aroundLaunch, launchingThere⟩ :=
    launching_before around launching livesBefore ranBefore answered
  have aroundWaiting := around_step aroundLaunch livesLaunch answered
  have waits : waiting.Waiting id pid directory sessionId encryption := by
    obtain ⟨other, _⟩ | ⟨_, awaits, placed⟩ :=
      launching_step aroundLaunch launchingThere livesLaunch answered
    · exact absurd rfl (other process)
    · exact Or.inl ⟨awaits, placed⟩
  obtain ⟨aroundHearing, hears⟩ := run_invariant_under
    (fun host : SpawnHost => host.Around id pid sessionId ∧
      host.Waiting id pid directory sessionId encryption)
    (fun event => Lives id pid sessionId encryption event ∧ event ≠ .own (.timedOut id))
    (fun _ _ _ holds met taken => ⟨around_step holds.1 met.1 taken,
      (waiting_step holds.1 holds.2 met.1 met.2 taken).1⟩)
    ⟨aroundWaiting, waits⟩
    (fun event member => ⟨livesMiddle event member, fun same => unexpired (same ▸ member)⟩) ranMiddle
  have untimed : report ≠ .own (.timedOut id) := by
    obtain ⟨_, _, _, rfl⟩ := reports
    simp
  have kept := (waiting_step aroundHearing hears livesReport untimed reported).2 reports
  exact run_invariant_under
    (fun host : SpawnHost => host.Around id pid sessionId ∧
      Concluded host.spawns id (some sessionId) ∧
      host.Reported pid directory sessionId encryption)
    (Lives id pid sessionId encryption)
    (fun _ _ _ holds met taken => ⟨around_step holds.1 met taken,
      (concluded_step holds.1.sound holds.2.1 taken).1,
      reported_step holds.2.2 met (concluded_step holds.1.sound holds.2.1 taken).2 taken⟩)
    ⟨around_step aroundHearing livesReport reported, kept⟩ livesAfter ranAfter

/-- A session with an entry can be resumed where its entries carry encryption data. -/
theorem resumable_of_reported (encrypted : host.Encrypted pid sessionId)
    (reported : host.Reported pid directory sessionId encryption) (now : Nat) :
    (host.registry.findResumable sessionId now).isSome = true := by
  obtain ⟨session, held, isOf, isEncrypted, _⟩ := reported
  have member := (OrderedMap.mem_entries _ _ _).mpr held
  cases found : host.registry.pidToSession.entries.find? (fun entry => entry.2.isOf sessionId) with
  | none =>
    have missed := List.find?_eq_none.mp found (pid, session) member
    simp [Registry.TrackedSession.isOf, isOf] at missed
  | some entry =>
    obtain ⟨key, first⟩ := entry
    have isFirst : first.sessionId = some sessionId := by
      simpa [Registry.TrackedSession.isOf] using List.find?_some found
    have isHeld := (OrderedMap.mem_entries _ _ _).mp (List.mem_of_find?_eq_some found)
    have carries : first.encryption.isSome = true := by
      by_cases same : key = pid
      · subst same
        obtain rfl := Option.some.inj (held.symm.trans isHeld)
        simp [isEncrypted]
      · exact encrypted key first same isHeld isFirst
    obtain ⟨given, isGiven⟩ := Option.isSome_iff_exists.mp carries
    simp [Registry.SessionRegistry.findResumable, found, isGiven]

/-- The host of a daemon that starts with a registry. -/
def boot (deps : SpawnEngineDeps) (registry : Registry.SessionRegistry) : SpawnHost where
  spawns := SpawnDaemon.start deps (registry.pidToSession.mapValues seen)
  registry := registry

/-- In every run of a daemon, what its spawns read are the entries of its registry. -/
theorem daemon_reads_registry (deps : SpawnEngineDeps) (registry : Registry.SessionRegistry)
    (events : List Event) (ran : run step (boot deps registry) events = some host) : host.Agrees :=
  run_invariant Agrees (fun _ _ _ agrees taken => agrees_step agrees taken)
    (show (boot deps registry).Agrees from rfl) ran

/-- From the launcher on, while the process lives, the report of a spawned process has its effect
exactly where a report is handled after the launcher's answer and before the awaiter gives up. -/
theorem report_kept_iff (deps : SpawnEngineDeps) (registry : Registry.SessionRegistry)
    (prior : List Event) {events : List Event}
    (reached : run step (boot deps registry) prior = some host)
    (launching : Stands host.spawns id (.launching directory))
    (unshared : Unshared host.spawns id pid) (encrypted : host.Encrypted pid sessionId)
    (lives : ∀ event ∈ events, Lives id pid sessionId encryption event)
    (ran : run step host events = some final) :
    final.Kept id pid directory sessionId encryption ↔ HeardInTime id pid events := by
  have linked := run_invariant (fun host : SpawnHost => Sound host.spawns ∧ Waited host.spawns)
    (fun _ _ _ linked taken => linked_step linked.1 linked.2 taken)
    ⟨sound_start deps _, by simp [Waited, boot, SpawnDaemon.start]⟩ reached
  have around : host.Around id pid sessionId := ⟨linked.1, linked.2, unshared, encrypted⟩
  constructor
  · exact fun kept => heard_of_told around launching lives ran kept.answered
  · intro heard
    obtain ⟨atEnd, told, reported⟩ := kept_of_heard around launching lives ran heard
    exact ⟨reported, resumable_of_reported atEnd.encrypted reported, told⟩

/-- What a new session gives. -/
def newEncryption : Registry.SessionEncryptionData :=
  ⟨"key", ⟨0, 0, Or.inl rfl⟩, ⟨0, 0, Or.inl rfl⟩, ⟨0, 0, Or.inl rfl⟩⟩

/-- A spawn comes to the launcher. -/
def comesToLauncher : List Event :=
  [.own (.spawn retried), .own (.validated 0 (.accepted "/workspace"))]

/-- The process reports after the launcher has answered. -/
theorem report_kept_after_launch :
    ∃ host final, run step (boot ⟨["kvy"], [], 15000⟩ .empty) comesToLauncher = some host ∧
      run step host [.launched 0 ⟨.detached, 1⟩,
        .sessionStarted "session" none (some newEncryption) (some 1)] = some final ∧
      (final.Kept 0 1 "/workspace" "session" newEncryption ↔
        HeardInTime 0 1 [.launched 0 ⟨.detached, 1⟩,
          .sessionStarted "session" none (some newEncryption) (some 1)]) := by
  obtain ⟨host, reached⟩ : ∃ host,
      run step (boot ⟨["kvy"], [], 15000⟩ .empty) comesToLauncher = some host := ⟨_, rfl⟩
  have launching : Stands host.spawns 0 (.launching "/workspace") := by
    obtain rfl := Option.some.inj reached
    exact ⟨_, rfl, rfl⟩
  have only : host.spawns.attempts.keys = [0] := by
    obtain rfl := Option.some.inj reached
    rfl
  have untracked : host.registry.pidToSession = .empty := by
    obtain rfl := Option.some.inj reached
    rfl
  obtain ⟨final, ran⟩ : ∃ final, run step host [.launched 0 ⟨.detached, 1⟩,
      .sessionStarted "session" none (some newEncryption) (some 1)] = some final := by
    obtain rfl := Option.some.inj reached
    exact ⟨_, rfl⟩
  refine ⟨host, final, reached, ran, ?_⟩
  refine report_kept_iff _ _ comesToLauncher reached launching ?_ ?_ ?_ ran
  · intro other attempt process apart held
    have member := (OrderedMap.mem_keys _ _).mpr ⟨attempt, held⟩
    rw [only, List.mem_singleton] at member
    exact absurd member apart
  · intro other session _ held
    rw [untracked] at held
    contradiction
  · intro event member
    simp only [List.mem_cons, List.not_mem_nil, or_false] at member
    rcases member with rfl | rfl
    · exact ⟨fun _ => rfl, fun _ => rfl⟩
    · exact ⟨fun _ => ⟨rfl, rfl⟩, fun _ => rfl⟩

/-- A process that reports before the launcher answers leaves a spawn that is never told, and a
session that cannot be resumed. -/
theorem early_report_lost :
    ∃ final, run step (boot ⟨["kvy"], [], 15000⟩ .empty) (comesToLauncher ++
        [.sessionStarted "session" none (some newEncryption) (some 1),
          .launched 0 ⟨.detached, 1⟩]) = some final ∧
      final.registry.findResumable "session" 0 = none ∧
      ¬ final.Kept 0 1 "/workspace" "session" newEncryption := by
  refine ⟨_, rfl, rfl, fun kept => ?_⟩
  have resumable := kept.resumable 0
  contradiction

/-- Also after a report that comes too early. -/
theorem early_report_reads_registry :
    ∃ host, run step (boot ⟨["kvy"], [], 15000⟩ .empty) (comesToLauncher ++
        [.sessionStarted "session" none (some newEncryption) (some 1),
          .launched 0 ⟨.detached, 1⟩]) = some host ∧ host.Agrees := by
  obtain ⟨host, ran⟩ : ∃ host, run step (boot ⟨["kvy"], [], 15000⟩ .empty) (comesToLauncher ++
      [.sessionStarted "session" none (some newEncryption) (some 1),
        .launched 0 ⟨.detached, 1⟩]) = some host := ⟨_, rfl⟩
  exact ⟨host, ran, daemon_reads_registry _ _ _ ran⟩

end SpawnHost

end Kvy.Cli.Daemon
