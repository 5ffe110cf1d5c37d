import Kvy.Cli.Claude.ScannerDelivery
import Kvy.Cli.Claude.StopHook
import Mathlib.Data.List.Infix

/-!
# A call ends its own turn

In a run without late lines and late calls, the turn that a call ends is the one that the hook
fired for: the entries that bear on turns are handed over in order, so that the open turn belongs
to the last prompt that was handed over, and where a call ends a turn this is its own prompt.
-/

namespace Kvy.Cli.Claude.StopHook

open General Wire Brackets Runs

variable (minting : Minting)

/-! ## What one line does to the turn -/

/-- A turn that is ended is not open. -/
theorem close_turn_idle (mapping : Mapping) (status : TurnStatus) :
    (mapping.closeTurn minting status).state.turn = none := by
  unfold Mapping.closeTurn
  cases isOpen : mapping.state.turn with
  | none => exact isOpen
  | some turn => rfl

/-- A prompt block leaves the turn. -/
theorem prompt_block_turn (mapping : Mapping) (block : Json) :
    (mapping.mapPromptBlock minting block).state.turn = mapping.state.turn := by
  unfold Mapping.mapPromptBlock
  split
  · split <;> rfl
  · cases imageEvent block <;> rfl
  · rfl

theorem prompt_blocks_turn (mapping : Mapping) (blocks : List Json) :
    (blocks.foldl (Mapping.mapPromptBlock minting) mapping).state.turn = mapping.state.turn := by
  induction blocks generalizing mapping with
  | nil => rfl
  | cons block rest inductionHypothesis =>
    rw [List.foldl_cons, inductionHypothesis, prompt_block_turn]

/-- No turn is open behind a prompt. -/
theorem prompt_idle {message : Json} (prompt : closesTurn message = true)
    (replay : Json → MapperState → Result) (subagent : Option String) (mapping : Mapping) :
    ∃ later, mapping.mapResolved minting replay message subagent = .ok later ∧
      later.state.turn = none := by
  simp only [closesTurn, Bool.and_eq_true, decide_eq_true_eq, Bool.not_eq_true'] at prompt
  obtain ⟨⟨⟨isUser, real⟩, main⟩, contents⟩ := prompt
  unfold Mapping.mapResolved
  simp only [isUser, real]
  cases content : Schema.string (pickMessageContent message) with
  | some text =>
    simp only [content, Bool.and_eq_true, Option.isNone_iff_eq_none, Bool.not_eq_true'] at contents
    obtain ⟨noOutput, noCommand⟩ := contents
    refine ⟨_, rfl, ?_⟩
    simp only [Mapping.mapUserText, noOutput, noCommand, main]
    exact close_turn_idle minting mapping .completed
  | none =>
    simp only [content, Bool.and_eq_true, decide_eq_true_eq, Bool.not_eq_true'] at contents
    obtain ⟨some', noResult⟩ := contents
    refine ⟨_, ?_, (prompt_blocks_turn minting _ (pickContentBlocks message)).trans
      (close_turn_idle minting mapping .completed)⟩
    simp [Mapping.mapUserBlocks, some', noResult, main]

/-- A line that does not talk leaves the turn, and sends nothing in it. -/
theorem silent_line {message : Json} (silent : talks message = false)
    (replay : Json → MapperState → Result) (subagent : Option String) (mapping : Mapping) :
    ∃ later, mapping.mapResolved minting replay message subagent = .ok later ∧
      later.state.turn = mapping.state.turn ∧
      ∀ env ∈ later.envelopes, env ∈ mapping.envelopes ∨ mark env = .free := by
  have added (role : SessionRole) (ev : SessionEvent) : ∀ env ∈
      (mapping.emit minting role ev none none).envelopes, env ∈ mapping.envelopes ∨ mark env = .free := by
    intro env member
    rcases List.mem_append.mp member with before | now
    · exact Or.inl before
    · rw [List.mem_singleton.mp now]
      exact Or.inr rfl
  unfold talks at silent
  unfold Mapping.mapResolved
  split
  · rename_i isAssistant
    simp only [isAssistant, Bool.not_eq_false'] at silent
    rw [if_pos silent]
    exact ⟨_, rfl, rfl, added _ _⟩
  · rename_i isUser
    simp only [isUser, Bool.and_eq_false_iff, Bool.not_eq_false'] at silent
    split
    · exact ⟨_, rfl, rfl, fun _ member => Or.inl member⟩
    · rename_i real
      have contents := silent.resolve_left real
      split
      · rename_i text content
        simp only [content, Bool.and_eq_false_iff, Bool.not_eq_false'] at contents
        refine ⟨_, rfl, ?_⟩
        unfold Mapping.mapUserText
        cases output : extractLocalCommandStdout text with
        | some stdout => exact ⟨rfl, added _ _⟩
        | none =>
          have command : isLocalCommandInvocation text = true := by simpa [output] using contents
          rw [if_pos command]
          exact ⟨rfl, fun _ member => Or.inl member⟩
      · rename_i content
        simp only [content, Bool.not_eq_false'] at contents
        refine ⟨mapping, ?_, rfl, fun _ member => Or.inl member⟩
        rw [Mapping.mapUserBlocks, if_pos contents]
  · exact ⟨_, rfl, rfl, fun _ member => Or.inl member⟩

/-- A prompt talks. -/
theorem prompt_talks {message : Json} (prompt : closesTurn message = true) : talks message = true := by
  simp only [closesTurn, Bool.and_eq_true, decide_eq_true_eq, Bool.not_eq_true'] at prompt
  obtain ⟨⟨⟨isUser, real⟩, _⟩, contents⟩ := prompt
  simp only [talks, isUser, real, Bool.not_false, Bool.true_and]
  cases content : Schema.string (pickMessageContent message) with
  | some text => simpa [content] using contents
  | none =>
    simp only [content, Bool.and_eq_true] at contents
    exact contents.1

/-- A line waits, or is mapped; the turn is as before. -/
theorem map_line_cases (message : Json) (state : MapperState) :
    ∃ resolved : MapperState, resolved.turn = state.turn ∧
      ((∃ provider, waits state message = true ∧ mapClaudeToEnvelopes minting message state =
          .ok ⟨resolved.bufferForSubagent provider message, []⟩) ∨
        ∃ replay subagent, mapClaudeToEnvelopes minting message state =
          Mapping.mapResolved minting replay message subagent ⟨resolved, []⟩) := by
  obtain ⟨prompts, resolved⟩ := resolve_state state message
  obtain ⟨uuids, remembered⟩ := remember_state (state.resolveProviderSubagent message).2 message
    (state.resolveProviderSubagent message).1
  refine ⟨(state.resolveProviderSubagent message).2.rememberSubagentForMessage message
    (state.resolveProviderSubagent message).1, ?_, ?_⟩
  · rw [remembered, resolved]
    rfl
  · unfold mapClaudeToEnvelopes mapLine
    simp only
    split
    · rename_i provider isProvider unknown
      exact Or.inl ⟨provider, by simpa [waits, isProvider] using unknown, rfl⟩
    · exact Or.inr ⟨_, _, rfl⟩

/-- What ends a turn belongs to it. -/
theorem close_turn_marks (state : MapperState) (status : TurnStatus) :
    ∀ env ∈ (closeClaudeTurnWithStatus minting state status).envelopes,
      ∃ span, state.turn = some span ∧ (mark env).span? = some span := by
  intro env member
  unfold closeClaudeTurnWithStatus Mapping.closeTurn at member
  cases isOpen : state.turn with
  | none =>
    simp only [isOpen] at member
    exact absurd member List.not_mem_nil
  | some span =>
    simp only [isOpen] at member
    refine ⟨span, rfl, ?_⟩
    have stops (subagents : List String) (mapping : Mapping) : ∀ env ∈
        (subagents.foldl (fun mapping subagent =>
          mapping.emitIn minting span (some subagent) .subStop) mapping).envelopes,
        env ∈ mapping.envelopes ∨ (mark env).span? = some span := by
      induction subagents generalizing mapping with
      | nil => exact fun _ held => Or.inl held
      | cons subagent rest inductionHypothesis =>
        intro env held
        rcases inductionHypothesis _ env held with before | now
        · rcases List.mem_append.mp before with earlier | added
          · exact Or.inl earlier
          · rw [List.mem_singleton.mp added]
            exact Or.inr rfl
        · exact Or.inr now
    rcases List.mem_append.mp member with before | last
    · exact (stops state.activeSubagents ⟨state, []⟩ env before).resolve_left List.not_mem_nil
    · rw [List.mem_singleton.mp last]
      rfl

variable {minting}

/-- No turn is open when a prompt that need not wait was mapped. -/
theorem map_prompt_idle {message : Json} {state : MapperState} (prompt : closesTurn message = true)
    (ready : waits state message = false) {mapping : Mapping}
    (mapped : mapClaudeToEnvelopes minting message state = .ok mapping) : mapping.state.turn = none := by
  obtain ⟨resolved, _, ⟨provider, waiting, _⟩ | ⟨replay, subagent, same⟩⟩ :=
    map_line_cases minting message state
  · exact absurd (waiting.symm.trans ready) (by simp)
  · obtain ⟨later, done, idle⟩ := prompt_idle minting prompt replay subagent ⟨resolved, []⟩
    obtain rfl := Except.ok.inj ((same.symm.trans mapped).symm.trans done)
    exact idle

/-- A line that does not talk sends nothing in a turn. -/
theorem map_silent {message : Json} {state : MapperState} (silent : talks message = false)
    {mapping : Mapping} (mapped : mapClaudeToEnvelopes minting message state = .ok mapping) :
    mapping.state.turn = state.turn ∧ ∀ env ∈ mapping.envelopes, mark env = .free := by
  obtain ⟨resolved, turn, ⟨provider, _, same⟩ | ⟨replay, subagent, same⟩⟩ :=
    map_line_cases minting message state
  · obtain rfl := Except.ok.inj (mapped.symm.trans same)
    exact ⟨turn, by simp⟩
  · obtain ⟨later, done, kept, free⟩ :=
      silent_line minting silent replay subagent ⟨resolved, []⟩
    obtain rfl := Except.ok.inj ((same.symm.trans mapped).symm.trans done)
    exact ⟨kept.trans turn, fun env member => (free env member).resolve_left List.not_mem_nil⟩

/-! ## What a step of the scanner does to the keys -/

/-- A line that is gone through keeps the keys. -/
theorem go_through_keys (scanner : Scanner) (reading : Reading) :
    scanner.processedEntryKeys ⊆ (scanner.goThrough reading).processedEntryKeys := by
  unfold Scanner.goThrough
  cases reading.line.entry? with
  | none => exact List.Subset.refl _
  | some entry =>
    simp only [Scanner.deliver, Scanner.markProcessed, addToSet]
    split_ifs
    · exact List.Subset.refl _
    · exact List.subset_append_left _ _
    · exact List.Subset.refl _
    · exact List.subset_append_left _ _

theorem mark_existing_keys (scanner : Scanner) (session : String) (contents : List UInt8) :
    scanner.processedEntryKeys ⊆ (scanner.markExisting session contents).processedEntryKeys := by
  have walk (readings : List Reading) (scanner : Scanner) :
      scanner.processedEntryKeys ⊆ (readings.foldl Scanner.goThrough scanner).processedEntryKeys := by
    induction readings generalizing scanner with
    | nil => exact List.Subset.refl _
    | cons reading rest inductionHypothesis =>
      exact List.Subset.trans (go_through_keys scanner reading) (inductionHypothesis _)
  exact walk _ scanner

/-- No key is forgotten. -/
theorem scanner_keys {transcripts : String → List UInt8} {scanner next : Scanner}
    {event : Scanner.Event} (taken : scanner.step transcripts event = some next) :
    scanner.processedEntryKeys ⊆ next.processedEntryKeys := by
  rcases Scanner.step_cases taken with called | resumed
  · rw [(Scanner.quiet_called called).keys]
    exact List.Subset.refl _
  · cases resumed with
    | flush _ _ =>
      rw [(Scanner.quiet_resume_flush scanner _).keys]
      exact List.Subset.refl _
    | cleanup _ _ => exact List.Subset.refl _
    | @announce session contents _ _ =>
      rw [(Scanner.quiet_switch _ _).keys]
      exact mark_existing_keys { scanner with announces := scanner.announces.erase session }
        session contents
    | read _ _ _ _ => exact List.Subset.refl _
    | goThrough _ _ => exact go_through_keys scanner _
    | @finish pass _ _ _ =>
      rw [(Scanner.quiet_end _ pass).keys]
      exact List.Subset.refl _
    | @fail pass _ _ =>
      rw [(Scanner.quiet_end _ pass).keys]
      exact List.Subset.refl _

namespace Session

/-- The key of what is handed over is new, and known from then on. -/
theorem hands_over_key {session : Session} {pass : Pass} {entry : Entry} {scanner : Scanner}
    (handed : session.handsOver pass = some entry)
    (taken : session.scanner.step session.transcripts (.goThrough pass) = some scanner) :
    entry.key ∉ session.scanner.processedEntryKeys ∧ entry.key ∈ scanner.processedEntryKeys := by
  obtain ⟨stands, new⟩ := Option.filter_eq_some_iff.mp handed
  have fresh : entry.key ∉ session.scanner.processedEntryKeys := of_decide_eq_true new
  refine ⟨fresh, ?_⟩
  obtain ⟨line, first, isEntry⟩ := Option.bind_eq_some_iff.mp stands
  obtain ⟨rest, lines⟩ := List.head?_eq_some_iff.mp first
  rcases Option.or_eq_some_iff.mp taken with called | ⟨_, resumed⟩
  · exact absurd called (Option.some_ne_none scanner).symm
  · simp only [Scanner.resume, lines] at resumed
    obtain ⟨_, ⟨⟩⟩ := Option.ite_none_right_eq_some.mp resumed
    simp [Scanner.keepPass, Scanner.goThrough, isEntry, Scanner.deliver, fresh]

/-- A step of the scanner hands over an entry, or touches nothing else. -/
theorem scan_cases {session next : Session} {event : Scanner.Event}
    (taken : session.scan minting event = some next) :
    ∃ scanner, session.scanner.step session.transcripts event = some scanner ∧
      (next = { session with scanner } ∨ ∃ pass entry, event = .goThrough pass ∧
        session.handsOver pass = some entry ∧
        session.onMessage minting scanner pass entry = some next) := by
  unfold scan at taken
  cases stepped : session.scanner.step session.transcripts event with
  | none =>
    rw [stepped] at taken
    cases event <;> contradiction
  | some scanner =>
    rw [stepped] at taken
    refine ⟨scanner, rfl, ?_⟩
    cases event with
    | flush => contradiction
    | resumeFlush flush => contradiction
    | goThrough pass =>
      simp only at taken
      cases handed : session.handsOver pass with
      | none =>
        rw [handed] at taken
        exact Or.inl (Option.some.inj taken).symm
      | some entry =>
        rw [handed] at taken
        exact Or.inr ⟨pass, entry, rfl, handed, taken⟩
    | _ => exact Or.inl (Option.some.inj taken).symm

/-! ## The open turn is the last prompt's -/

/-- Entries carry the number of prompts up to them. -/
def Numbered (entries : List Recorded) : Prop :=
  ∀ before entry, before ++ [entry] <+: entries → entry.turn = prompts (before ++ [entry])

/-- The records fit together, the open turn is that of the last prompt that was handed over, and
what calls have ended were their own turns. -/
structure Sound (minting : Minting) (session : Session) : Prop where
  keys : ∀ entry ∈ session.handed, entry.key ∈ session.scanner.processedEntryKeys
  talk : ∀ entry ∈ session.written ++ session.handed, entry.prompt = true → entry.talks = true
  numbered : Numbered (talking session.written)
  order : talking session.handed <+: talking session.written
  followed : Followed minting ⟨session.mapperState, session.sent.map Prod.snd⟩
  owner : ∀ span, session.mapperState.turn = some span →
    (.entry (prompts session.handed), .start span) ∈ session.marks ∧
      ∀ item ∈ session.marks, item.2.span? = some span → item.1 = .entry (prompts session.handed)
  done : ∀ item ∈ session.sent, ∀ turn, item.1 = .closing turn →
    ∀ entry ∈ session.written, entry.talks = true → entry.turn = turn → entry ∈ session.handed
  closes : ClosesOwnTurns session.marks

/-- Prompts talk, so they are among the entries that do. -/
theorem prompts_talking {entries : List Recorded}
    (talk : ∀ entry ∈ entries, entry.prompt = true → entry.talks = true) :
    prompts (talking entries) = prompts entries := by
  rw [prompts, talking, List.countP_filter, prompts]
  refine List.countP_congr (fun entry member => ?_)
  simpa using talk entry member

theorem prompts_snoc (entries : List Recorded) (entry : Recorded) :
    prompts (entries ++ [entry]) = prompts entries + entry.prompt.toNat := by
  rw [prompts, List.countP_append, List.countP_singleton, ← prompts]
  cases entry.prompt <;> rfl

theorem talking_snoc (entries : List Recorded) (entry : Recorded) :
    talking (entries ++ [entry]) =
      talking entries ++ if entry.talks = true then [entry] else [] := by
  rw [talking, List.filter_append, ← talking]
  cases talks : entry.talks <;> simp [talks]

/-- The marks of what was sent, without those for whom it was. -/
theorem marks_snd (session : Session) :
    session.marks.map Prod.snd = (session.sent.map Prod.snd).map mark := by
  rw [marks, List.map_map, List.map_map]
  rfl

/-- Calls still end their own turns when more is sent: nothing for an entry of a turn that a call
has ended, or the end of a turn by a call. -/
theorem ClosesOwnTurns.more {old new : List (Origin × Mark String)} (closes : ClosesOwnTurns old)
    (bracketed : Bracketed ((old ++ new).map Prod.snd))
    (early : ∀ item ∈ new, ∀ turn, item.1 = .entry turn → item.2.span? ≠ none →
      ∀ closed ∈ old, closed.1 ≠ .closing turn)
    (own : ∀ turn span, (.closing turn, .stop span) ∈ new → (.entry turn, .start span) ∈ old ∧
      (∀ item ∈ old ++ new, item.2.span? = some span →
        item.1 = .entry turn ∨ item.1 = .closing turn) ∧
      ∀ item ∈ new, ∀ other, item.1 ≠ .entry other) :
    ClosesOwnTurns (old ++ new) := by
  intro before turn span after split
  -- The turn is ended by what is new.
  have newly (between : List (Origin × Mark String)) (shape : before = old ++ between)
      (within : new = between ++ (.closing turn, .stop span) :: after) :
      (.entry turn, .start span) ∈ before ∧
        (∀ item ∈ before ++ after, item.2.span? = some span →
          item.1 = .entry turn ∨ item.1 = .closing turn) ∧
        ∀ item ∈ after, item.1 = .entry turn → item.2.span? = none := by
    have ends : (Origin.closing turn, Mark.stop span) ∈ new := by
      rw [within]
      exact List.mem_append_right _ List.mem_cons_self
    obtain ⟨started, belongs, calls⟩ := own turn span ends
    refine ⟨?_, ?_, ?_⟩
    · rw [shape]
      exact List.mem_append_left _ started
    · intro item member
      refine belongs item ?_
      rw [split]
      rcases List.mem_append.mp member with before | after
      · exact List.mem_append_left _ before
      · exact List.mem_append_right _ (List.mem_cons_of_mem _ after)
    · intro item member isEntry
      have among : item ∈ new := by
        rw [within]
        exact List.mem_append_right _ (List.mem_cons_of_mem _ member)
      exact absurd isEntry (calls item among turn)
  rcases List.append_eq_append_iff.mp split with ⟨between, shape, within⟩ | ⟨between, shape, within⟩
  · exact newly between shape within
  · cases between with
    | nil => exact newly [] (by rw [shape, List.append_nil, List.append_nil]) within.symm
    | cons ended between =>
      -- The turn was ended before.
      rw [List.cons_append] at within
      obtain ⟨rfl, rfl⟩ := List.cons.inj within
      subst shape
      obtain ⟨started, belongs, later⟩ := closes before turn span between rfl
      refine ⟨started, ?_, ?_⟩
      · intro item member held
        rw [← List.append_assoc] at member
        rcases List.mem_append.mp member with known | added
        · exact belongs item known held
        · rw [List.append_assoc, List.map_append, List.cons_append, List.map_cons] at bracketed
          have behind : item.2 ∈ (between ++ new).map Prod.snd :=
            List.mem_map_of_mem (List.mem_append_right _ added)
          exact absurd held (bracketed.after_stop behind)
      · intro item member isEntry
        rcases List.mem_append.mp member with known | added
        · exact later item known isEntry
        · by_contra bears
          exact early item added turn isEntry bears _
            (List.mem_append_right _ List.mem_cons_self) rfl

/-- Nothing that counts has changed. -/
theorem Sound.rest {session next : Session} (sound : Sound minting session)
    (keys : session.scanner.processedEntryKeys ⊆ next.scanner.processedEntryKeys)
    (mapperState : next.mapperState = session.mapperState) (written : next.written = session.written)
    (handed : next.handed = session.handed) (sent : next.sent = session.sent) :
    Sound minting next := by
  have marks : next.marks = session.marks := by rw [Session.marks, sent, Session.marks]
  refine ⟨?_, ?_, ?_, ?_, ?_, ?_, ?_, ?_⟩
  · rw [handed]
    exact fun entry member => keys (sound.keys entry member)
  · rw [handed, written]
    exact sound.talk
  · rw [written]
    exact sound.numbered
  · rw [handed, written]
    exact sound.order
  · rw [mapperState, sent]
    exact sound.followed
  · rw [mapperState, marks, handed]
    exact sound.owner
  · rw [sent, written, handed]
    exact sound.done
  · rw [marks]
    exact sound.closes

/-- A new line is numbered after the others. -/
theorem Sound.write {session : Session} (sound : Sound minting session) {id : String}
    {line : List UInt8} (timely : Timely session (.write id line)) :
    Sound minting (session.write id line) := by
  cases new : session.newEntry? id line with
  | none =>
    have same : session.write id line = { session with
        transcripts := Function.update session.transcripts id
          (session.transcripts id ++ line ++ [10]) } := by
      rw [Session.write, new]
      rfl
    rw [same]
    exact sound.rest (List.Subset.refl _) rfl rfl rfl rfl
  | some entry =>
    have same : session.write id line = { session with
        transcripts := Function.update session.transcripts id
          (session.transcripts id ++ line ++ [10])
        known := session.known ++ [entry.key]
        written := session.written ++ [session.recordNew entry] } := by
      rw [Session.write, new]
      rfl
    have talk : (session.recordNew entry).prompt = true → (session.recordNew entry).talks = true :=
      prompt_talks
    rw [same]
    refine ⟨sound.keys, ?_, ?_, ?_, sound.followed, sound.owner, ?_, sound.closes⟩
    · intro held member prompt
      rcases List.mem_append.mp member with written | handed
      · rcases List.mem_append.mp written with before | now
        · exact sound.talk held (List.mem_append_left _ before) prompt
        · obtain rfl := List.mem_singleton.mp now
          exact talk prompt
      · exact sound.talk held (List.mem_append_right _ handed) prompt
    · intro before held stands
      rw [talking_snoc] at stands
      split at stands
      · rcases List.prefix_concat_iff.mp stands with whole | earlier
        · obtain ⟨rfl, ⟨⟩⟩ := List.append_inj' whole rfl
          rw [prompts_snoc, prompts_talking
            (fun other member => sound.talk other (List.mem_append_left _ member))]
          rfl
        · exact sound.numbered before held earlier
      · rw [List.append_nil] at stands
        exact sound.numbered before held stands
    · rw [talking_snoc]
      exact sound.order.trans (List.prefix_append _ _)
    · intro item member turn isClosing held among talks ofTurn
      rcases List.mem_append.mp among with before | now
      · exact sound.done item member turn isClosing held before talks ofTurn
      · obtain rfl := List.mem_singleton.mp now
        exact absurd (isClosing.trans (congrArg Origin.closing ofTurn.symm))
          (timely entry new talks item member)

/-- A line that the mapper can read is mapped, and can be followed. -/
theorem Sound.mapped {session : Session} (sound : Sound minting session) {message : Json}
    (readable : readableLine message = true)
    (ready : closesTurn message = true → waits session.mapperState message = false)
    {answer : Result} (answers : mapClaudeToEnvelopes minting message session.mapperState = answer)
    (ends : answer ≠ .error .exhausted) :
    ∃ mapping, answer = .ok mapping ∧
      (∃ later, followAll ⟨[], session.mapperState.turn⟩ (mapping.envelopes.map mark) =
        some ⟨later, mapping.state.turn⟩) ∧
      Followed minting ⟨mapping.state, session.sent.map Prod.snd ++ mapping.envelopes⟩ := by
  have leads := map_line_leads minting (session.mapperState.buffered.length + 1) message
    session.mapperState sound.followed.quiet readable ready
  rw [← mapClaudeToEnvelopes, answers] at leads
  cases answer with
  | error failure =>
    obtain rfl : failure = .exhausted := leads
    exact absurd rfl ends
  | ok mapping =>
    have nothing : Drawn minting session.mapperState.issued [] := by simp [Drawn]
    obtain ⟨later, _, read⟩ := leads.1.advances.reads [] nothing
    refine ⟨mapping, rfl, ⟨later, read⟩, ?_⟩
    have taken : Mapped.step minting ⟨session.mapperState, session.sent.map Prod.snd⟩
        (.line message) = some ⟨mapping.state, session.sent.map Prod.snd ++ mapping.envelopes⟩ := by
      simp only [Mapped.step, answers]
      rfl
    have handled : Handled ⟨session.mapperState, session.sent.map Prod.snd⟩ (.line message) :=
      ⟨readable, ready⟩
    exact sound.followed.step handled taken

/-- An entry that talks is of the turn of the last prompt, itself counted. -/
theorem Sound.handed_turn {session : Session} (sound : Sound minting session) {record : Recorded}
    (next : talking session.handed ++ [record] <+: talking session.written) :
    record.turn = prompts session.handed + record.prompt.toNat := by
  rw [sound.numbered _ record next, prompts_snoc, prompts_talking
    (fun other member => sound.talk other (List.mem_append_right _ member))]

/-- The open turn is still that of the last prompt when an entry was handed over. -/
theorem Sound.owner_handed {session : Session} (sound : Sound minting session)
    {record : Recorded} {mapping : Mapping}
    (idle : record.prompt = true → mapping.state.turn = none)
    (ofTurn : record.talks = true → record.turn = prompts session.handed + record.prompt.toNat)
    (silent : record.talks = false → mapping.state.turn = session.mapperState.turn ∧
      ∀ env ∈ mapping.envelopes, mark env = .free)
    {seen : List String} (read : followAll ⟨[], session.mapperState.turn⟩
      (mapping.envelopes.map mark) = some ⟨seen, mapping.state.turn⟩)
    (followed : Followed minting ⟨mapping.state, session.sent.map Prod.snd ++ mapping.envelopes⟩)
    {span : String} (isOpen : mapping.state.turn = some span) :
    let marks := session.marks ++ mapping.envelopes.map (fun env => (.entry record.turn, mark env))
    (.entry (prompts session.handed), .start span) ∈ marks ∧
      ∀ item ∈ marks, item.2.span? = some span → item.1 = .entry (prompts session.handed) := by
  have plain : record.prompt = false := by
    by_contra prompt
    rw [idle (by simpa using prompt)] at isOpen
    contradiction
  cases talks : record.talks with
  | false =>
    obtain ⟨same, free⟩ := silent talks
    obtain ⟨started, belongs⟩ := sound.owner span (same.symm.trans isOpen)
    refine ⟨List.mem_append_left _ started, fun item member held => ?_⟩
    rcases List.mem_append.mp member with before | now
    · exact belongs item before held
    · obtain ⟨env, among, rfl⟩ := List.mem_map.mp now
      rw [free env among] at held
      contradiction
  | true =>
    have turn : record.turn = prompts session.handed := by
      rw [ofTurn talks, plain]
      rfl
    rw [turn]
    rcases follow_all_opens read isOpen with current | starts
    · obtain ⟨started, belongs⟩ := sound.owner span current
      refine ⟨List.mem_append_left _ started, fun item member held => ?_⟩
      rcases List.mem_append.mp member with before | now
      · exact belongs item before held
      · obtain ⟨env, _, rfl⟩ := List.mem_map.mp now
        rfl
    · obtain ⟨env, among, isStart⟩ := List.mem_map.mp starts
      refine ⟨List.mem_append_right _ (List.mem_map.mpr ⟨env, among, by rw [isStart]⟩), ?_⟩
      intro item member held
      rcases List.mem_append.mp member with before | now
      · -- What was sent before is in front of the start.
        have bracketed := followed.bracketed
        rw [List.map_append, ← marks_snd] at bracketed
        exact absurd held (bracketed.before_start starts (List.mem_map_of_mem before))
      · obtain ⟨env, _, rfl⟩ := List.mem_map.mp now
        rfl

/-- An entry that is handed over in time. -/
theorem Sound.on_message {session next : Session} (sound : Sound minting session)
    {scanner : Scanner} {pass : Pass} {entry : Entry}
    (timely : Timely session (.scan (.goThrough pass)))
    (stepped : session.scanner.step session.transcripts (.goThrough pass) = some scanner)
    (handed : session.handsOver pass = some entry)
    (taken : session.onMessage minting scanner pass entry = some next) : Sound minting next := by
  obtain ⟨readable, ready, inOrder⟩ := timely entry handed
  obtain ⟨fresh, known⟩ := hands_over_key handed stepped
  have ends : mapClaudeToEnvelopes minting (lineOf entry.message) session.mapperState ≠
      .error .exhausted := by
    intro exhausted
    simp only [onMessage, exhausted] at taken
    contradiction
  obtain ⟨mapping, mapped, ⟨seen, read⟩, followed⟩ := sound.mapped readable ready rfl ends
  simp only [onMessage, mapped] at taken
  cases taken
  have talk : (session.recordHanded entry).prompt = true →
      (session.recordHanded entry).talks = true := prompt_talks
  have promptsSame : (session.recordHanded entry).prompt = false →
      prompts (session.handed ++ [session.recordHanded entry]) = prompts session.handed := by
    intro plain
    rw [prompts_snoc, plain]
    rfl
  have marksNow : Session.marks { session with
        scanner
        entriesProcessedCount := session.entriesProcessedCount + 1
        handed := session.handed ++ [session.recordHanded entry]
        mapperState := mapping.state
        sent := session.sent ++ mapping.envelopes.map
          (fun env => (.entry (session.recordHanded entry).turn, env)) } =
      session.marks ++ mapping.envelopes.map
        (fun env => (.entry (session.recordHanded entry).turn, mark env)) := by
    simp [Session.marks]
  have idle : (session.recordHanded entry).prompt = true → mapping.state.turn = none :=
    fun prompt => map_prompt_idle prompt (ready prompt) mapped
  refine ⟨?_, ?_, sound.numbered, ?_, ?_, ?_, ?_, ?_⟩
  · intro held member
    rcases List.mem_append.mp member with before | now
    · exact scanner_keys stepped (sound.keys held before)
    · obtain rfl := List.mem_singleton.mp now
      exact known
  · intro held member prompt
    rw [← List.append_assoc] at member
    rcases List.mem_append.mp member with before | now
    · exact sound.talk held before prompt
    · obtain rfl := List.mem_singleton.mp now
      exact talk prompt
  · rw [talking_snoc]
    split
    · exact inOrder ‹_›
    · rw [List.append_nil]
      exact sound.order
  · simpa [List.map_append, List.map_map, Function.comp_def] using followed
  · intro span isOpen
    rw [marksNow]
    have plain : (session.recordHanded entry).prompt = false := by
      by_contra prompt
      rw [idle (by simpa using prompt)] at isOpen
      contradiction
    rw [promptsSame plain]
    exact sound.owner_handed idle (fun talks => sound.handed_turn (inOrder talks))
      (fun silent => map_silent silent mapped) read followed isOpen
  · intro item member turn isClosing held among talks ofTurn
    rcases List.mem_append.mp member with before | now
    · exact List.mem_append_left _ (sound.done item before turn isClosing held among talks ofTurn)
    · obtain ⟨env, _, rfl⟩ := List.mem_map.mp now
      contradiction
  · rw [marksNow]
    refine sound.closes.more ?_ ?_ ?_
    · have bracketed := followed.bracketed
      rw [List.map_append, ← marks_snd] at bracketed
      simpa [List.map_append, List.map_map, Function.comp_def] using bracketed
    · intro item member turn isEntry bears closed among isClosing
      obtain ⟨env, envMember, rfl⟩ := List.mem_map.mp member
      obtain rfl := Origin.entry.inj isEntry
      -- The entry bears on its turn, which a call has ended: it was handed over before.
      have talks : (session.recordHanded entry).talks = true := by
        by_contra noisy
        have silent : (session.recordHanded entry).talks = false := by simpa using noisy
        have free := (map_silent silent mapped).2 env envMember
        exact bears (by rw [free]; rfl)
      obtain ⟨sentItem, sentMember, rfl⟩ := List.mem_map.mp among
      have wrote : session.recordHanded entry ∈ session.written := by
        have inside := (inOrder talks).subset (List.mem_append_right _ (List.mem_singleton_self _))
        exact List.mem_of_mem_filter inside
      have before := sound.done sentItem sentMember _ isClosing _ wrote talks rfl
      exact fresh (sound.keys _ before)
    · intro turn span member
      obtain ⟨env, _, same⟩ := List.mem_map.mp member
      exact absurd (congrArg Prod.fst same) (by simp)

/-- A call that ends a turn in time. -/
theorem Sound.flushed {session next : Session} (sound : Sound minting session) {call : Nat}
    (timely : Timely session (.flushed call)) (taken : session.flushed minting call = some next) :
    Sound minting next := by
  obtain ⟨closing, found, taken⟩ := Option.bind_eq_some_iff.mp taken
  obtain ⟨_, _, taken⟩ := Option.bind_eq_some_iff.mp taken
  by_cases last : session.isLastFlush closing = true
  · rw [if_pos last] at taken
    cases taken
    cases isOpen : session.mapperState.turn with
    | none =>
      have same : closeClaudeTurnWithStatus minting session.mapperState closing.status =
          ⟨session.mapperState, []⟩ := by
        simp [closeClaudeTurnWithStatus, Mapping.closeTurn, isOpen]
      rw [same]
      exact sound.rest (List.Subset.refl _) rfl rfl rfl (List.append_nil _)
    | some span =>
      obtain ⟨current, all⟩ := timely closing found last (by simp [isOpen])
      obtain ⟨started, belongs⟩ := sound.owner span isOpen
      rw [current] at started belongs
      have taken : Mapped.step minting ⟨session.mapperState, session.sent.map Prod.snd⟩
          (.close closing.status) = some ⟨(closeClaudeTurnWithStatus minting session.mapperState
            closing.status).state, session.sent.map Prod.snd ++ (closeClaudeTurnWithStatus minting
            session.mapperState closing.status).envelopes⟩ := rfl
      have handled : Handled ⟨session.mapperState, session.sent.map Prod.snd⟩
        (.close closing.status) := trivial
      have followed := sound.followed.step handled taken
      have idle := close_turn_idle minting ⟨session.mapperState, []⟩ closing.status
      have ended := close_turn_marks minting session.mapperState closing.status
      generalize closed : closeClaudeTurnWithStatus minting session.mapperState closing.status =
        closedMapping at followed ended
      rw [← closeClaudeTurnWithStatus, closed] at idle
      have marksNow : Session.marks { session with
            mapperState := closedMapping.state
            closings := session.closings.set call { closing with phase := .returned }
            sent := session.sent ++ closedMapping.envelopes.map
              (fun env => (.closing closing.turn, env)) } =
          session.marks ++ closedMapping.envelopes.map
            (fun env => (.closing closing.turn, mark env)) := by
        simp [Session.marks]
      refine ⟨sound.keys, sound.talk, sound.numbered, sound.order, ?_, ?_, ?_, ?_⟩
      · simpa [List.map_append, List.map_map, Function.comp_def] using followed
      · intro other stillOpen
        rw [idle] at stillOpen
        contradiction
      · intro item member turn isClosing held among talks ofTurn
        rcases List.mem_append.mp member with before | now
        · exact sound.done item before turn isClosing held among talks ofTurn
        · obtain ⟨env, _, rfl⟩ := List.mem_map.mp now
          obtain rfl := Origin.closing.inj isClosing
          exact all held among talks ofTurn
      · rw [marksNow]
        refine sound.closes.more ?_ ?_ ?_
        · have bracketed := followed.bracketed
          rw [List.map_append, ← marks_snd] at bracketed
          simpa [List.map_append, List.map_map, Function.comp_def] using bracketed
        · intro item member turn isEntry
          obtain ⟨env, _, rfl⟩ := List.mem_map.mp member
          contradiction
        · intro turn other member
          obtain ⟨env, envMember, same⟩ := List.mem_map.mp member
          obtain ⟨⟨⟩, isStop⟩ := Prod.mk.inj same
          obtain ⟨open', known, held⟩ := ended env envMember
          obtain rfl := Option.some.inj (isOpen.symm.trans known)
          rw [isStop] at held
          cases held
          refine ⟨started, ?_, ?_⟩
          · intro item among itemHeld
            rcases List.mem_append.mp among with before | now
            · exact Or.inl (belongs item before itemHeld)
            · obtain ⟨env, _, rfl⟩ := List.mem_map.mp now
              exact Or.inr rfl
          · intro item among entryTurn isEntry
            obtain ⟨env, _, rfl⟩ := List.mem_map.mp among
            contradiction
  · rw [if_neg last] at taken
    cases taken
    exact sound.rest (List.Subset.refl _) rfl rfl rfl rfl

/-- Nothing is recorded at first. -/
theorem start_sound (sessionId : Option String) (armedUntil : Nat) (existing : List UInt8) :
    Sound minting (start sessionId armedUntil existing) where
  keys := fun _ member => absurd member List.not_mem_nil
  talk := fun _ member => absurd member List.not_mem_nil
  numbered := fun before entry stands =>
    absurd (List.prefix_nil.mp stands) (List.append_ne_nil_of_right_ne_nil before (List.cons_ne_nil _ _))
  order := List.prefix_rfl
  followed := fresh_followed
  owner := fun _ isOpen => absurd isOpen (by simp [start, createClaudeEnvelopeMapperState,
    MapperState.turn])
  done := fun _ member => absurd member List.not_mem_nil
  closes := fun before _ _ _ split =>
    absurd split.symm (List.append_ne_nil_of_right_ne_nil before (List.cons_ne_nil _ _))

/-- A flush changes the scanner only. -/
theorem Sound.attempt {session : Session} (sound : Sound minting session) (closing : Closing) :
    Sound minting (session.attempt closing).1 := by
  unfold Session.attempt
  dsimp only
  split
  · rename_i alive
    rw [Bool.and_eq_true] at alive
    have called : session.scanner.called .flush = some session.scanner.flush := if_pos alive.1
    refine sound.rest ?_ rfl rfl rfl rfl
    rw [(Scanner.quiet_called called).keys]
    exact List.Subset.refl _
  · exact sound

/-- A step in time keeps the records and the turns together. -/
theorem Sound.step {session next : Session} {event : Event} (sound : Sound minting session)
    (timely : Timely session event) (taken : session.step minting event = some next) :
    Sound minting next := by
  cases event with
  | write id line =>
    obtain ⟨_, ⟨⟩⟩ := Option.ite_none_left_eq_some.mp taken
    exact sound.write timely
  | stop status =>
    cases taken
    have flushed := sound.attempt ⟨status, session.turn, 0, 0, 0, .delaying⟩
    exact flushed.rest (List.Subset.refl _) rfl rfl rfl rfl
  | scan event =>
    obtain ⟨scanner, stepped, rfl | ⟨pass, entry, rfl, handed, taken⟩⟩ := scan_cases taken
    · exact sound.rest (scanner_keys stepped) rfl rfl rfl rfl
    · exact sound.on_message timely stepped handed taken
  | resumeFlush call =>
    obtain ⟨closing, _, taken⟩ := Option.bind_eq_some_iff.mp taken
    cases phase : closing.phase with
    | flushing waiting =>
      cases waiting with
      | none =>
        simp only [phase] at taken
        contradiction
      | some flush =>
        simp only [phase] at taken
        obtain ⟨scanner, stepped, taken⟩ := Option.bind_eq_some_iff.mp taken
        cases taken
        exact sound.rest (scanner_keys stepped) rfl rfl rfl rfl
    | delaying | returned =>
      simp only [phase] at taken
      contradiction
  | flushed call => exact sound.flushed timely taken
  | delayed call =>
    obtain ⟨closing, _, taken⟩ := Option.bind_eq_some_iff.mp taken
    obtain ⟨_, _, taken⟩ := Option.bind_eq_some_iff.mp taken
    cases taken
    have flushed := sound.attempt { closing with attempt := closing.attempt + 1 }
    exact flushed.rest (List.Subset.refl _) rfl rfl rfl rfl

/-- In every run whose steps are in time, a turn that a call ends is the one that the hook fired
for, and is whole. -/
theorem stop_hook_ends_own_turn (minting : Minting) (sessionId : Option String) (armedUntil : Nat)
    (existing : List UInt8) (events : List Event)
    (timely : Always (step minting) (fun session event _ => Timely session event)
      (start sessionId armedUntil existing) events) :
    Always (step minting) (fun _ _ next => ClosesOwnTurns next.marks)
      (start sessionId armedUntil existing) events := by
  refine always_under (Sound minting) Timely _ ?_ (start_sound sessionId armedUntil existing) timely
  intro session event next sound now taken
  have after := sound.step now taken
  exact ⟨after, after.closes⟩

instance (session : Session) : (event : Event) → Decidable (Timely session event)
  | .write id line =>
    inferInstanceAs (Decidable (∀ entry ∈ session.newEntry? id line,
      (session.recordNew entry).talks = true →
        ∀ item ∈ session.sent, item.1 ≠ .closing (session.recordNew entry).turn))
  | .scan (.goThrough pass) =>
    inferInstanceAs (Decidable (∀ entry ∈ session.handsOver pass,
      readableLine (lineOf entry.message) = true ∧
        (closesTurn (lineOf entry.message) = true →
          waits session.mapperState (lineOf entry.message) = false) ∧
        (talks (lineOf entry.message) = true →
          talking session.handed ++ [session.recordHanded entry] <+: talking session.written)))
  | .flushed call =>
    inferInstanceAs (Decidable (∀ closing ∈ session.closings[call]?,
      session.isLastFlush closing = true → session.mapperState.turn ≠ none →
        prompts session.handed = closing.turn ∧
          ∀ entry ∈ session.written, entry.talks = true → entry.turn = closing.turn →
            entry ∈ session.handed))
  | .stop _ | .resumeFlush _ | .delayed _ => Decidable.isTrue trivial
  | .scan (.invalidate) | .scan (.flush) | .scan (.resumeFlush _) | .scan .cleanup
  | .scan (.resumeCleanup _) | .scan (.onNewSession _ _) | .scan (.onNewFile _ _)
  | .scan (.onGaveUp _ _) | .scan (.resumeAnnounce _ _) | .scan (.read _ _) | .scan (.finish _)
  | .scan (.fail _) => Decidable.isTrue trivial

/-- A prompt of the user. -/
def promptLine : Json := transcriptLine "user" "u" (.str "go") []

/-- A text of the agent. -/
def answerLine (uuid : String) : Json :=
  transcriptLine "assistant" uuid (.arr [.obj [("type", .str "text"), ("text", .str "ok")]]) []

/-- The bytes of a line, without its line feed. -/
def bytesOf (line : Json) : List UInt8 := Utf8.encode (line.stringify 0)

/-- The bytes of a transcript. -/
def fileOf (lines : List Json) : List UInt8 := lines.flatMap (fun line => bytesOf line ++ [10])

/-- A pass that reads all of the one transcript. -/
def wholePass (promise : Nat) (lines : List Json) : List Event :=
  let contents := fileOf lines
  let pass (left : List ReadLine) : Pass := ⟨.call promise, ["s"], [], [("s", contents)], left⟩
  .scan (.read ⟨.call promise, ["s"], ["s"], [], []⟩ contents) ::
    (linesOf "s" contents).tails.dropLast.map (fun left => .scan (.goThrough (pass left))) ++
    [.scan (.finish (pass []))]

/-- The agent answers a prompt, the scanner reads both, and the hook fires. Two flushes find
nothing, and the call ends the turn. -/
def stoppedRun : List Event :=
  [.scan (.finish ⟨.creation, [], [], [], []⟩), .scan (.onNewSession "s" false),
    .write "s" (bytesOf promptLine), .write "s" (bytesOf (answerLine "a"))] ++
  wholePass 0 [promptLine, answerLine "a"] ++ [.stop .completed] ++
  wholePass 1 [promptLine, answerLine "a"] ++ [.resumeFlush 0, .flushed 0, .delayed 0] ++
  wholePass 2 [promptLine, answerLine "a"] ++ [.resumeFlush 0, .flushed 0]

/-- The last text of the turn is written after that. -/
def lateRun : List Event :=
  stoppedRun ++ [.write "s" (bytesOf (answerLine "b")), .scan .invalidate] ++
  wholePass 3 [promptLine, answerLine "a", answerLine "b"]

/-- Without the last text, the call ends its own turn. -/
theorem stopped_run_ends_own_turn :
    Always (step unaryMinting) (fun session event _ => Timely session event)
        (start none 0 []) stoppedRun ∧
      Always (step unaryMinting) (fun _ _ next => ClosesOwnTurns next.marks)
        (start none 0 []) stoppedRun ∧
      (run (step unaryMinting) (start none 0 []) stoppedRun).map Session.marks =
        some [(.entry 1, .free), (.entry 1, .start "xx"), (.entry 1, .within "xx"),
          (.closing 1, .stop "xx")] := by
  have timely : Always (step unaryMinting) (fun session event _ => Timely session event)
      (start none 0 []) stoppedRun := by decide +kernel
  exact ⟨timely, stop_hook_ends_own_turn unaryMinting none 0 [] stoppedRun timely,
    by decide +kernel⟩

/-- The last text of the turn comes after its end, in a turn of its own. -/
theorem late_text_after_end : ¬ ∀ (minting : Minting) (sessionId : Option String)
    (armedUntil : Nat) (existing : List UInt8) (events : List Event),
    Always (step minting) (fun _ _ next => ClosesOwnTurns next.marks)
      (start sessionId armedUntil existing) events := by
  intro holds
  have ended : (run (step unaryMinting) (start none 0 []) lateRun).map Session.marks =
      some [(.entry 1, .free), (.entry 1, .start "xx"), (.entry 1, .within "xx"),
        (.closing 1, .stop "xx"), (.entry 1, .start "xxxxxx"), (.entry 1, .within "xxxxxx")] := by
    decide +kernel
  generalize lateRun = events at ended
  have sound : Sound unaryMinting (start none 0 []) := start_sound none 0 []
  obtain ⟨final, ran, marks⟩ := Option.map_eq_some_iff.mp ended
  have closes := @always_run _ _ _ (fun session : Session => ClosesOwnTurns session.marks) _ _ _
    (holds unaryMinting none 0 [] events) sound.closes ran
  rw [marks] at closes
  obtain ⟨_, _, after⟩ := closes
    [(.entry 1, .free), (.entry 1, .start "xx"), (.entry 1, .within "xx")] 1 "xx"
    [(.entry 1, .start "xxxxxx"), (.entry 1, .within "xxxxxx")] rfl
  have started := after (.entry 1, .start "xxxxxx") List.mem_cons_self rfl
  exact absurd started (Option.some_ne_none _)

end Session

end Kvy.Cli.Claude.StopHook
