import Kvy.Cli.Claude.Scanner
import Kvy.General.FirstOccurrence
import Kvy.General.JsonRoundTrip

/-!
# What the transcript scanner delivers

Every pass reads each transcript from its first byte, so most lines are gone through again and
again. The distinct lines that are gone through are the complete lines of each transcript, in the
order of the file, and in between what a pass found after the last line feed. What is handed over
are their entries, each key once, without those that were only marked.
-/

namespace Kvy.Cli.Claude

open General

/-- The entry of a line that is gone through, and whether it is to be handed over. -/
def Reading.entry? (reading : Reading) : Option (Entry × Bool) :=
  reading.line.entry?.map (·, reading.handed)

/-- The key of an entry. -/
def itemKey (item : Entry × Bool) : String := item.1.key

/-- What is handed over of some lines: their entries, each key at its first occurrence, unless it
is only marked there. -/
def delivered (readings : List Reading) : List RawJSONLines :=
  ((keepFirst itemKey (readings.filterMap Reading.entry?)).filter Prod.snd).map
    (fun item => item.1.message)

/-- The lines of a session that line feeds end. -/
def endedOf (session : String) (readings : List Reading) : List ReadLine :=
  (readings.map Reading.line).filter (fun line => line.session = session && line.ended)

/-! ## The lines of a file -/

variable {line : ReadLine} {session : String}

theorem mem_ended_lines {texts : List (List UInt8)}
    (member : line ∈ endedLines session texts) : line.session = session ∧ line.ended = true := by
  obtain ⟨number, inside, rfl⟩ := List.mem_mapIdx.mp member
  exact ⟨rfl, rfl⟩

theorem ended_lines_nodup (session : String) (texts : List (List UInt8)) :
    (endedLines session texts).Nodup := by
  have numbers : (endedLines session texts).map ReadLine.number = List.range texts.length := by
    apply List.ext_getElem
    · simp [endedLines]
    · intro number inside _
      simp [endedLines, endedLine]
  exact .of_map ReadLine.number (numbers ▸ List.nodup_range)

variable {contents : List UInt8}

/-- A line that is ended, and what is before it, begin the file. -/
theorem ended_line_prefix {whole : List UInt8}
    (written : contents <+: whole) {before rest : List ReadLine}
    (shape : linesOf session contents = before ++ line :: rest) (ended : line.ended = true) :
    before ++ [line] <+: endedLines session (endedTexts whole) := by
  refine List.IsPrefix.trans ?_ (ended_lines_extend session written)
  have front : before ++ [line] <+: linesOf session contents :=
    ⟨rest, by rw [shape, List.append_assoc, List.singleton_append]⟩
  rcases List.eq_nil_or_concat' rest with rfl | ⟨most, last, rfl⟩
  · have last := congrArg List.getLast? shape
    simp only [linesOf, List.getLast?_append, List.getLast?_singleton, Option.some_or,
      Option.some.injEq] at last
    rw [← last] at ended
    exact absurd ended Bool.false_ne_true
  · rw [linesOf, ← List.cons_append, ← List.append_assoc] at shape
    have shorter := (List.append_inj' shape rfl).1
    exact ⟨most, by rw [shorter, List.append_assoc, List.singleton_append]⟩

/-- What begins a list and holds everything before an item, but not the item, ends there. -/
theorem prefix_before {α : Type} {whole before kept : List α} {item : α} (distinct : whole.Nodup)
    (front : before ++ [item] <+: whole) (held : kept <+: whole) (all : ∀ other ∈ before, other ∈ kept)
    (new : item ∉ kept) : kept = before := by
  have short : before <+: whole := (List.prefix_append before [item]).trans front
  rcases Nat.lt_trichotomy kept.length before.length with less | same | more
  · obtain ⟨rest, shape⟩ := List.prefix_of_prefix_length_le held short less.le
    cases rest with
    | nil => simp [← shape] at less
    | cons next rest =>
      have twice : next ∈ kept := all next (shape ▸ by simp)
      have nodup : (kept ++ next :: rest).Nodup := shape ▸ distinct.sublist short.sublist
      exact absurd rfl ((List.nodup_append.mp nodup).2.2 next twice next List.mem_cons_self)
  · exact (List.prefix_of_prefix_length_le held short same.le).eq_of_length same
  · have longer : (before ++ [item]).length ≤ kept.length := by
      rw [List.length_append]
      exact more
    have inside := (List.prefix_of_prefix_length_le front held longer).subset
    exact absurd (inside (by simp)) new

namespace Scanner

/-- The distinct lines that were gone through. -/
def linesRead (scanner : Scanner) : List Reading := keepFirst Reading.line scanner.readings

/-- The line was gone through. -/
def Gone (scanner : Scanner) (line : ReadLine) : Prop := line ∈ scanner.readings.map Reading.line

/-- The keys and the messages are those of the entries that were gone through. -/
structure Kept (scanner : Scanner) : Prop where
  keys : scanner.processedEntryKeys =
    (keepFirst itemKey (scanner.readings.filterMap Reading.entry?)).map itemKey
  messages : scanner.messages = delivered scanner.readings

/-- A pass goes through the lines of what is written, from the first one on. -/
structure Follows (transcripts : String → List UInt8) (scanner : Scanner) (pass : Pass) : Prop where
  lines : pass.lines = [] ∨ ∃ session contents before, contents <+: transcripts session ∧
    linesOf session contents = before ++ pass.lines ∧ ∀ line ∈ before, scanner.Gone line
  read : ∀ file ∈ pass.read, ∀ line ∈ linesOf file.1 file.2, scanner.Gone line ∨ line ∈ pass.lines
  sessions : pass.read.map Prod.fst ++ pass.unread = pass.sessions

/-- What holds of the lines at any time. -/
structure Tracked (transcripts : String → List UInt8) (scanner : Scanner) : Prop where
  kept : scanner.Kept
  ordered : ∀ session, endedOf session scanner.linesRead <+:
    endedLines session (endedTexts (transcripts session))
  follows : ∀ pass ∈ scanner.passes, scanner.Follows transcripts pass

/-! ## One line -/

variable {scanner : Scanner}

theorem kept_delivered (kept : scanner.Kept) :
    scanner.messages = delivered scanner.linesRead := by
  rw [kept.messages, delivered, delivered, linesRead, keepFirst_filterMap Reading.line]
  intro first second same
  simp only [Reading.entry?, same, Option.map_map]
  rfl

/-- A line that is gone through. -/
theorem kept_line (kept : scanner.Kept) (reading : Reading) :
    (scanner.goThrough reading).Kept := by
  obtain ⟨keys, messages⟩ := kept
  unfold goThrough
  cases found : reading.line.entry? with
  | none =>
    have nothing : reading.entry? = none := by rw [Reading.entry?, found]; rfl
    constructor
    · simpa [List.filterMap_append, nothing] using keys
    · simpa [delivered, List.filterMap_append, nothing] using messages
  | some entry =>
    have item : reading.entry? = some (entry, reading.handed) := by rw [Reading.entry?, found]; rfl
    have readings : (scanner.readings ++ [reading]).filterMap Reading.entry? =
        scanner.readings.filterMap Reading.entry? ++ [(entry, reading.handed)] := by
      rw [List.filterMap_append, List.filterMap_cons, item]
      rfl
    have known_iff : entry.key ∈ scanner.processedEntryKeys ↔ itemKey (entry, reading.handed) ∈
        (scanner.readings.filterMap Reading.entry?).map itemKey := by
      rw [keys, mem_keepFirst_keys]
      rfl
    by_cases known : entry.key ∈ scanner.processedEntryKeys
    · have items := keepFirst_known (known_iff.mp known)
      have same : scanner.deliver entry = scanner ∧ scanner.markProcessed entry = scanner := by
        simp [deliver, markProcessed, addToSet, known]
      simp only [same, ite_self]
      constructor
      · simp only [readings, items, keys]
      · simp only [delivered, readings, items, messages]
    · have items := keepFirst_unknown (fun held => known (known_iff.mpr held))
      cases handed : reading.handed with
      | true =>
        rw [handed] at readings items
        simp only [↓reduceIte, deliver, if_neg known]
        constructor
        · simp [readings, items, keys, itemKey]
        · simp [delivered, readings, items, messages]
      | false =>
        rw [handed] at readings items
        simp only [Bool.false_eq_true, ↓reduceIte, markProcessed, addToSet, if_neg known]
        constructor
        · simp [readings, items, keys, itemKey]
        · simp [delivered, readings, items, messages]

/-- What a line that is gone through leaves alone. -/
theorem go_through_frame (scanner : Scanner) (reading : Reading) :
    (scanner.goThrough reading).readings = scanner.readings ++ [reading] ∧
      (scanner.goThrough reading).passes = scanner.passes := by
  unfold goThrough
  cases reading.line.entry? with
  | none => exact ⟨rfl, rfl⟩
  | some entry =>
    simp only [deliver, markProcessed]
    split_ifs <;> exact ⟨rfl, rfl⟩

/-- A line that is gone through is added to those that were. -/
theorem gone_line {reading : Reading} :
    (scanner.goThrough reading).Gone line ↔ scanner.Gone line ∨ line = reading.line := by
  simp [Gone, (go_through_frame scanner reading).1, or_comm, eq_comm]

variable {other : Scanner}

theorem Follows.mono {transcripts : String → List UInt8} {pass : Pass}
    (follows : scanner.Follows transcripts pass)
    (gone : ∀ line, scanner.Gone line → other.Gone line) : other.Follows transcripts pass := by
  refine ⟨?_, ?_, follows.sessions⟩
  · rcases follows.lines with none | ⟨session, contents, before, written, shape, all⟩
    · exact .inl none
    · exact .inr ⟨session, contents, before, written, shape, fun line held => gone line (all line held)⟩
  · intro file member line inside
    exact (follows.read file member line inside).imp_left (gone line)

/-- The lines of each file stay in order. -/
theorem ordered_line {transcripts : String → List UInt8}
    (ordered : ∀ session, endedOf session scanner.linesRead <+:
      endedLines session (endedTexts (transcripts session)))
    (written : contents <+: transcripts session)
    {before rest : List ReadLine}
    (shape : linesOf session contents = before ++ line :: rest)
    (gone : ∀ other ∈ before, scanner.Gone other) (handed : Bool) (name : String) :
    endedOf name (scanner.goThrough ⟨line, handed⟩).linesRead <+:
      endedLines name (endedTexts (transcripts name)) := by
  rw [linesRead, (go_through_frame scanner _).1]
  by_cases known : scanner.Gone line
  · rw [keepFirst_known known]
    exact ordered name
  · rw [keepFirst_unknown known, endedOf, List.map_append, List.filter_append]
    by_cases counted : line.session = name ∧ line.ended = true
    · obtain ⟨rfl, ended⟩ := counted
      have front := ended_line_prefix written shape ended
      obtain ⟨same, _⟩ := mem_ended_lines (front.subset (by simp : line ∈ before ++ [line]))
      obtain rfl := same
      have all : ∀ other ∈ before, other ∈ endedOf line.session scanner.linesRead := by
        intro other member
        obtain ⟨sameSession, sameEnded⟩ := mem_ended_lines
          (front.subset (List.mem_append_left [line] member))
        exact List.mem_filter.mpr ⟨mem_keepFirst_keys.mpr (gone other member),
          by simp [sameSession, sameEnded]⟩
      have new : line ∉ endedOf line.session scanner.linesRead := fun held =>
        known (mem_keepFirst_keys.mp (List.mem_filter.mp held).1)
      have exact_before := prefix_before (ended_lines_nodup _ _) front (ordered line.session) all new
      have added : [line].filter (fun other => other.session = line.session && other.ended) =
          [line] := by simp [ended]
      change endedOf line.session scanner.linesRead ++
        [line].filter (fun other => other.session = line.session && other.ended) <+: _
      rw [added, exact_before]
      exact front
    · have nothing : [line].filter (fun other => other.session = name && other.ended) = [] := by
        simpa using counted
      change endedOf name scanner.linesRead ++
        [line].filter (fun other => other.session = name && other.ended) <+: _
      rw [nothing, List.append_nil]
      exact ordered name

section Lines
variable {transcripts : String → List UInt8} {scanner : Scanner}

/-- A line that is gone through in its turn. -/
theorem tracked_line (tracked : scanner.Tracked transcripts)
    (written : contents <+: transcripts session)
    {before rest : List ReadLine}
    (shape : linesOf session contents = before ++ line :: rest)
    (gone : ∀ other ∈ before, scanner.Gone other) (handed : Bool) :
    (scanner.goThrough ⟨line, handed⟩).Tracked transcripts where
  kept := kept_line tracked.kept _
  ordered := ordered_line tracked.ordered written shape gone handed
  follows := by
    intro pass member
    rw [(go_through_frame scanner _).2] at member
    exact (tracked.follows pass member).mono (fun other held => gone_line.mpr (.inl held))

/-- The lines of a session that are only marked. -/
theorem tracked_marked (tracked : scanner.Tracked transcripts)
    (written : contents <+: transcripts session) :
    (scanner.markExisting session contents).Tracked transcripts := by
  have walk (before rest : List ReadLine) (shape : linesOf session contents = before ++ rest)
      (gone : ∀ other ∈ before, scanner.Gone other) :
      ((rest.map (fun line => (⟨line, false⟩ : Reading))).foldl goThrough scanner).Tracked
        transcripts := by
    induction rest generalizing scanner before with
    | nil => exact tracked
    | cons line rest inductionHypothesis =>
      refine inductionHypothesis (tracked_line tracked written shape gone false) (before ++ [line])
        (by rw [shape, List.append_assoc, List.singleton_append]) ?_
      intro other member
      rcases List.mem_append.mp member with earlier | now
      · exact gone_line.mpr (.inl (gone other earlier))
      · exact gone_line.mpr (.inr (List.mem_singleton.mp now))
  exact walk [] (linesOf session contents) rfl (fun _ member => absurd member List.not_mem_nil)

end Lines

/-! ## What delivers nothing -/

/-- Nothing is gone through; a pass may start or end. -/
structure Quiet (scanner other : Scanner) : Prop where
  keys : other.processedEntryKeys = scanner.processedEntryKeys
  messages : other.messages = scanner.messages
  readings : other.readings = scanner.readings
  passes : ∀ pass ∈ other.passes, pass ∈ scanner.passes ∨
    pass.lines = [] ∧ pass.read = [] ∧ pass.unread = pass.sessions

theorem Quiet.after {first second third : Scanner} (two : Quiet second third)
    (one : Quiet first second) : Quiet first third where
  keys := two.keys.trans one.keys
  messages := two.messages.trans one.messages
  readings := two.readings.trans one.readings
  passes := by
    intro pass member
    rcases two.passes pass member with before | fresh
    · exact one.passes pass before
    · exact .inr fresh

/-- A state that differs elsewhere, or has fewer passes. -/
theorem quiet_fewer
    (keys : other.processedEntryKeys = scanner.processedEntryKeys)
    (messages : other.messages = scanner.messages) (readings : other.readings = scanner.readings)
    (passes : other.passes ⊆ scanner.passes) : Quiet scanner other :=
  ⟨keys, messages, readings, fun _ member => .inl (passes member)⟩

theorem Quiet.refl (scanner : Scanner) : Quiet scanner scanner :=
  quiet_fewer rfl rfl rfl (List.Subset.refl _)

theorem Quiet.gone (quiet : Quiet scanner other) :
    other.Gone line ↔ scanner.Gone line := by
  rw [Gone, quiet.readings]
  rfl

theorem Quiet.tracked {transcripts : String → List UInt8}
    (quiet : Quiet scanner other) (tracked : scanner.Tracked transcripts) :
    other.Tracked transcripts where
  kept := by
    constructor
    · rw [quiet.keys, quiet.readings]
      exact tracked.kept.keys
    · rw [quiet.messages, quiet.readings]
      exact tracked.kept.messages
  ordered := by
    rw [linesRead, quiet.readings]
    exact tracked.ordered
  follows := by
    intro pass member
    rcases quiet.passes pass member with before | ⟨lines, read, unread⟩
    · exact (tracked.follows pass before).mono (fun _ held => quiet.gone.mpr held)
    · refine ⟨.inl lines, fun file inside => ?_, by rw [read, unread]; rfl⟩
      rw [read] at inside
      exact absurd inside List.not_mem_nil

theorem quiet_run (scanner : Scanner) (owner : PassOwner) :
    Quiet scanner (scanner.runSync owner) := by
  refine ⟨rfl, rfl, rfl, fun pass member => ?_⟩
  rcases List.mem_append.mp member with before | added
  · exact .inl before
  · obtain rfl := List.mem_singleton.mp added
    exact .inr ⟨rfl, rfl, rfl⟩

theorem quiet_coalesced (scanner : Scanner) (promise : Nat) :
    Quiet scanner (scanner.runSyncCoalesced promise) := by
  unfold runSyncCoalesced
  split_ifs
  · exact .refl scanner
  · exact quiet_run scanner _

theorem quiet_start (scanner : Scanner) : Quiet scanner scanner.startSync := by
  unfold startSync
  exact (quiet_coalesced _ _).after (quiet_fewer rfl rfl rfl (List.Subset.refl _))

theorem quiet_invalidate (scanner : Scanner) : Quiet scanner scanner.invalidate := by
  unfold invalidate
  split_ifs
  · exact .refl scanner
  · exact quiet_fewer rfl rfl rfl (List.Subset.refl _)
  · exact quiet_start scanner

theorem quiet_flush_loop (scanner : Scanner) : Quiet scanner scanner.flushLoop := by
  unfold flushLoop
  split_ifs
  · exact quiet_fewer rfl rfl rfl (List.Subset.refl _)
  · have started := quiet_start scanner
    exact ⟨started.keys, started.messages, started.readings, started.passes⟩

theorem quiet_resume_flush (scanner : Scanner) (flush : Flush) :
    Quiet scanner (scanner.resumeFlush flush) := by
  unfold resumeFlush
  cases flush.phase <;> dsimp only
  case waiting => exact (quiet_flush_loop _).after (quiet_fewer rfl rfl rfl (List.Subset.refl _))
  case syncing => exact quiet_fewer rfl rfl rfl (List.Subset.refl _)

theorem quiet_cleanup (scanner : Scanner) : Quiet scanner scanner.cleanup := by
  unfold cleanup
  cases scanner.currentSyncPromise <;> dsimp only
  case some => exact quiet_fewer rfl rfl rfl (List.Subset.refl _)
  case none => exact (quiet_run _ _).after (quiet_fewer rfl rfl rfl (List.Subset.refl _))

theorem quiet_after (scanner : Scanner) (owner : PassOwner) :
    Quiet scanner (scanner.afterSync owner) := by
  cases owner with
  | creation => exact quiet_fewer rfl rfl rfl (List.Subset.refl _)
  | cleanup => exact quiet_fewer rfl rfl rfl (List.Subset.refl _)
  | call promise =>
    simp only [afterSync]
    split_ifs
    · exact (quiet_coalesced _ _).after (quiet_fewer rfl rfl rfl (List.Subset.refl _))
    · exact quiet_fewer rfl rfl rfl (List.Subset.refl _)

theorem quiet_end (scanner : Scanner) (pass : Pass) : Quiet scanner (scanner.endPass pass) := by
  unfold endPass
  exact (quiet_after _ _).after (quiet_fewer rfl rfl rfl List.erase_subset)

theorem quiet_switch (scanner : Scanner) (session : String) :
    Quiet scanner (scanner.switchTo session) := by
  unfold switchTo
  exact (quiet_invalidate _).after (quiet_fewer rfl rfl rfl (List.Subset.refl _))

theorem quiet_announce (scanner : Scanner) (session : String)
    (treatExistingAsProcessed hook : Bool) :
    Quiet scanner (scanner.announceNewSession session treatExistingAsProcessed hook) := by
  have revived (held : List String) : Quiet scanner { scanner with deadSessions := held } :=
    quiet_fewer rfl rfl rfl (List.Subset.refl _)
  unfold announceNewSession
  cases hook <;> dsimp only
  all_goals split_ifs
  all_goals first
    | exact .refl scanner
    | exact revived _
    | exact quiet_switch scanner session
    | exact (quiet_switch _ session).after (revived _)
    | exact quiet_fewer rfl rfl rfl (List.Subset.refl _)

theorem quiet_called {next : Scanner} {event : Event}
    (taken : scanner.called event = some next) : Quiet scanner next := by
  cases event with
  | invalidate =>
    obtain ⟨_, ⟨⟩⟩ := Option.ite_none_right_eq_some.mp taken
    exact quiet_invalidate scanner
  | flush =>
    obtain ⟨_, ⟨⟩⟩ := Option.ite_none_right_eq_some.mp taken
    unfold flush
    split_ifs
    · exact .refl scanner
    · exact quiet_flush_loop scanner
  | cleanup =>
    obtain ⟨_, ⟨⟩⟩ := Option.ite_none_right_eq_some.mp taken
    exact quiet_cleanup scanner
  | onNewSession session treatExistingAsProcessed =>
    obtain ⟨_, ⟨⟩⟩ := Option.ite_none_right_eq_some.mp taken
    unfold onNewSession
    exact (quiet_announce _ _ _ _).after (quiet_fewer rfl rfl rfl (List.Subset.refl _))
  | onNewFile session now =>
    obtain ⟨_, ⟨⟩⟩ := Option.ite_none_right_eq_some.mp taken
    unfold onNewFile
    split_ifs
    · exact .refl scanner
    · exact quiet_announce scanner _ _ _
  | onGaveUp session armedUntil =>
    obtain ⟨_, ⟨⟩⟩ := Option.ite_none_right_eq_some.mp taken
    exact quiet_fewer rfl rfl rfl (List.Subset.refl _)
  | _ => exact absurd taken (Option.some_ne_none next).symm

/-! ## Every run -/

section Runs
variable {transcripts : String → List UInt8} {scanner next : Scanner}

/-- What is left of a pass replaces it. -/
theorem tracked_keep (tracked : scanner.Tracked transcripts) {pass left : Pass}
    (follows : scanner.Follows transcripts left) :
    (scanner.keepPass pass left).Tracked transcripts where
  kept := ⟨tracked.kept.keys, tracked.kept.messages⟩
  ordered := tracked.ordered
  follows := by
    intro other member
    rcases List.mem_append.mp member with before | now
    · exact (tracked.follows other (List.mem_of_mem_erase before)).mono (fun _ held => held)
    · rw [List.mem_singleton.mp now]
      exact follows.mono (fun _ held => held)

theorem tracked_resumed (tracked : scanner.Tracked transcripts)
    (resumed : Resumed transcripts scanner next) : next.Tracked transcripts := by
  cases resumed with
  | flush _ _ => exact (quiet_resume_flush scanner _).tracked tracked
  | cleanup _ _ =>
    refine (quiet_run _ _).tracked (Quiet.tracked ?_ tracked)
    exact quiet_fewer rfl rfl rfl (List.Subset.refl _)
  | announce _ written =>
    refine (quiet_switch _ _).tracked (tracked_marked (Quiet.tracked ?_ tracked) written)
    exact quiet_fewer rfl rfl rfl (List.Subset.refl _)
  | @read pass session unread contents member done upcoming written =>
    obtain ⟨_, read, sessions⟩ := tracked.follows pass member
    refine tracked_keep tracked ⟨?_, ?_, ?_⟩
    · exact .inr ⟨session, contents, [], written, rfl, fun _ held => absurd held List.not_mem_nil⟩
    · intro file inside line held
      rcases List.mem_append.mp inside with earlier | now
      · rcases read file earlier line held with gone | left
        · exact .inl gone
        · rw [done] at left
          exact absurd left List.not_mem_nil
      · obtain rfl := List.mem_singleton.mp now
        exact .inr held
    · rw [upcoming] at sessions
      simpa [Pass.reads] using sessions
  | @goThrough pass line lines member upcoming =>
    obtain ⟨follows, read, sessions⟩ := tracked.follows pass member
    rcases follows with none | ⟨session, contents, before, written, shape, gone⟩
    · exact absurd (none.symm.trans upcoming) (List.cons_ne_nil line lines).symm
    · rw [upcoming] at shape
      refine tracked_keep (tracked_line tracked written shape gone true) ⟨?_, ?_, sessions⟩
      · refine .inr ⟨session, contents, before ++ [line], written, ?_, ?_⟩
        · rw [shape, List.append_assoc, List.singleton_append]
        · intro other held
          rcases List.mem_append.mp held with earlier | now
          · exact gone_line.mpr (.inl (gone other earlier))
          · exact gone_line.mpr (.inr (List.mem_singleton.mp now))
      · intro file inside other held
        rcases read file inside other held with earlier | left
        · exact .inl (gone_line.mpr (.inl earlier))
        · rw [upcoming] at left
          rcases List.mem_cons.mp left with now | later
          · exact .inl (gone_line.mpr (.inr now))
          · exact .inr later
  | @finish pass member _ _ =>
    refine (quiet_end _ _).tracked (Quiet.tracked ?_ tracked)
    exact quiet_fewer rfl rfl rfl (List.Subset.refl _)
  | fail _ _ => exact (quiet_end scanner _).tracked tracked

theorem tracked_step {event : Event} (tracked : scanner.Tracked transcripts)
    (taken : scanner.step transcripts event = some next) : next.Tracked transcripts := by
  rcases step_cases taken with called | resumed
  · exact (quiet_called called).tracked tracked
  · exact tracked_resumed tracked resumed

/-- A scanner that is being created has gone through nothing but what it marks. -/
theorem create_tracked (sessionId : Option String) (armedUntil : Nat) {existing : List UInt8}
    (written : ∀ session, sessionId = some session → existing <+: transcripts session) :
    (create sessionId armedUntil existing).Tracked transcripts := by
  have start : (initial sessionId.isSome armedUntil).Tracked transcripts :=
    ⟨⟨rfl, rfl⟩, fun _ => List.nil_prefix, fun _ member => absurd member List.not_mem_nil⟩
  unfold create
  cases named : sessionId.filter (· ≠ "") with
  | none => exact (quiet_run _ _).tracked start
  | some session =>
    have known : sessionId = some session := (Option.filter_eq_some_iff.mp named).1
    refine (quiet_run _ _).tracked (Quiet.tracked ?_ (tracked_marked start (written session known)))
    exact quiet_fewer rfl rfl rfl (List.Subset.refl _)

end Runs

/-- What the scanner has handed over are the entries of the distinct lines gone through, each key
once; the ended ones among these are the first lines of each transcript, in order. A pass that
finishes has gone through all that it read, of each of its sessions. Where no unfinished line is
an entry, the entries are those of the ended lines. -/
structure Delivers (transcripts : String → List UInt8) (event : Event) (next : Scanner) : Prop where
  messages : next.messages = delivered next.linesRead
  ordered : ∀ session, endedOf session next.linesRead <+:
    endedLines session (endedTexts (transcripts session))
  whole : ∀ pass, event = .finish pass → pass.read.map Prod.fst = pass.sessions ∧
    ∀ file ∈ pass.read, ∀ line ∈ linesOf file.1 file.2, line ∈ next.linesRead.map Reading.line
  complete : (∀ reading ∈ next.linesRead, reading.line.ended = false → reading.line.entry? = none) →
    next.messages = delivered (next.linesRead.filter (fun reading => reading.line.ended))

/-- The scanner hands over the entry of each line once, whatever part of the file its passes
found. -/
theorem scanner_delivers (transcripts : String → List UInt8) (sessionId : Option String)
    (armedUntil known : Nat) (events : List Event) :
    Runs.Always (step transcripts) (fun _ event next => next.Delivers transcripts event)
      (create sessionId armedUntil ((transcripts (sessionId.getD "")).take known)) events := by
  refine Runs.always_invariant (Tracked transcripts) _ ?_ events (create_tracked _ _ ?_)
  · intro scanner event next tracked taken
    have after := tracked_step tracked taken
    have messages := kept_delivered after.kept
    refine ⟨after, messages, after.ordered, ?_, ?_⟩
    · rintro pass rfl
      have resumed : scanner.resume transcripts (.finish pass) = some next := by
        rcases Option.or_eq_some_iff.mp taken with called | ⟨_, resumed⟩
        · exact absurd called (Option.some_ne_none next).symm
        · exact resumed
      obtain ⟨⟨member, done, last⟩, ⟨⟩⟩ := Option.ite_none_right_eq_some.mp resumed
      obtain ⟨_, read, sessions⟩ := tracked.follows pass member
      rw [last, List.append_nil] at sessions
      refine ⟨sessions, fun file inside line held => mem_keepFirst_keys.mpr ?_⟩
      have finished : Quiet scanner (scanner.finishSync pass.sessions) :=
        quiet_fewer rfl rfl rfl (List.Subset.refl _)
      refine ((quiet_end _ pass).after finished).gone.mpr ?_
      rcases read file inside line held with gone | left
      · exact gone
      · rw [done] at left
        exact absurd left List.not_mem_nil
    · intro unfinished
      rw [messages]
      have entries : next.linesRead.filterMap Reading.entry? =
          (next.linesRead.filter (fun reading => reading.line.ended)).filterMap Reading.entry? := by
        rw [List.filterMap_filter]
        refine List.filterMap_congr (fun reading member => ?_)
        cases ended : reading.line.ended with
        | true => simp
        | false =>
          have none := unfinished reading member ended
          simp [Reading.entry?, none]
      rw [delivered, entries, delivered]
  · rintro session rfl
    exact List.take_prefix known _

/-- A line can be an entry before its line feed is written. -/
theorem entry_without_feed : ∃ contents entry, 10 ∉ contents ∧
    lineEntry (Utf8.decode contents) = some entry := by
  let value : Json := .obj [("type", .str "user"), ("uuid", .str "u")]
  refine ⟨Utf8.encode (value.stringify 0), ⟨"u", .user "u" none none value⟩, by decide, ?_⟩
  rw [Utf8.decode_encode, lineEntry, if_neg (by decide), Json.parse_stringify value 0 (by decide)]
  rfl

/-- An entry that no line feed ends yet is handed over too. -/
theorem unfinished_entry_delivered : ¬ ∀ (transcripts : String → List UInt8)
    (sessionId : Option String) (armedUntil known : Nat) (events : List Event) (final : Scanner),
    Runs.run (step transcripts)
        (create sessionId armedUntil ((transcripts (sessionId.getD "")).take known)) events =
          some final →
      final.messages = delivered (final.linesRead.filter (fun reading => reading.line.ended)) := by
  intro holds
  obtain ⟨contents, entry, inline, isEntry⟩ := entry_without_feed
  have lines : linesOf "s" contents = [⟨"s", 0, contents, false⟩] := by
    rw [linesOf, endedTexts, openText]
    simp only [List.splitOn_eq_singleton inline]
    rfl
  let line : ReadLine := ⟨"s", 0, contents, false⟩
  let reading : Pass := ⟨.call 0, ["s"], ["s"], [], []⟩
  let going : Pass := ⟨.call 0, ["s"], [], [("s", contents)], [line]⟩
  let transcripts : String → List UInt8 := fun _ => contents ++ [10]
  let opening : List Event := [.finish ⟨.creation, [], [], [], []⟩, .onNewSession "s" false]
  obtain ⟨opened, ran, passes, keys, messages, readings⟩ : ∃ opened,
      Runs.run (step transcripts) (create none 0 []) opening = some opened ∧
      opened.passes = [reading] ∧ opened.processedEntryKeys = [] ∧ opened.messages = [] ∧
      opened.readings = [] := ⟨_, rfl, rfl, rfl, rfl, rfl⟩
  have read : step transcripts opened (.read reading contents) = some (opened.keepPass reading going) := by
    have reads : reading.reads "s" [] contents = going := by
      rw [Pass.reads, lines]
      rfl
    rw [← reads]
    exact if_pos ⟨by simp [passes], List.prefix_append contents [10]⟩
  have held : going ∈ (opened.keepPass reading going).passes := by simp [keepPass]
  have gone : step transcripts (opened.keepPass reading going) (.goThrough going) =
      some (((opened.keepPass reading going).goThrough ⟨line, true⟩).keepPass going
        { going with lines := [] }) := if_pos held
  have found : line.entry? = some entry := isEntry
  have ends : Runs.run (step transcripts) (create none 0 [])
      (opening ++ [.read reading contents, .goThrough going]) =
      some (((opened.keepPass reading going).goThrough ⟨line, true⟩).keepPass going
        { going with lines := [] }) := by
    rw [Runs.run_append, ran, Option.bind_some, Runs.run, read, Option.bind_some, Runs.run, gone]
    rfl
  have claimed := holds transcripts none 0 0 _ _ ends
  have gained : ((opened.keepPass reading going).goThrough ⟨line, true⟩).messages =
      [entry.message] := by
    simp [goThrough, found, deliver, keepPass, keys, messages]
  have after : ((opened.keepPass reading going).goThrough ⟨line, true⟩).readings =
      [⟨line, true⟩] := by
    rw [(go_through_frame _ _).1, keepPass, readings]
    rfl
  rw [linesRead, keepPass, gained, after] at claimed
  exact List.cons_ne_nil _ _ claimed

end Scanner

end Kvy.Cli.Claude
