import Kvy.Cli.Claude.MapperRuns

/-!
# The identifiers of calls and subagents

The mapper draws the identifier of a tool call and that of the subagent it may spawn separately, so
a call that a tool start shows never tags an envelope.
-/

namespace Kvy.Cli.Claude

open General Wire

/-- An identifier that was drawn. -/
def IsDrawn (minting : Minting) (issued : Nat) (id : String) : Prop :=
  ∃ draw < issued, id = minting.createId draw

/-- The identifiers of calls and of subagents are drawn ones and none is both. -/
structure Apart (minting : Minting) (calls subagents : List String) (mapping : Mapping) : Prop where
  drawnCalls : ∀ id ∈ calls, IsDrawn minting mapping.state.issued id
  drawnSubagents : ∀ id ∈ subagents, IsDrawn minting mapping.state.issued id
  apart : ∀ id ∈ calls, id ∉ subagents
  callIds : ∀ provider id, mapping.state.providerCallIds.get? provider = some id → id ∈ calls
  subagentIds : ∀ provider id,
    mapping.state.providerSubagentIds.get? provider = some id → id ∈ subagents
  active : ∀ id ∈ mapping.state.activeSubagents, id ∈ subagents
  starts : ∀ env ∈ mapping.envelopes, ∀ call name title args risk,
    env.ev = .toolStart call name title args risk → call ∈ calls
  tags : ∀ env ∈ mapping.envelopes, ∀ id, env.subagent = some id → id ∈ subagents

/-- The identifiers are apart, these ones and further ones. -/
def Grows (minting : Minting) (calls subagents : List String) (mapping : Mapping) : Prop :=
  ∃ moreCalls moreSubagents, calls ⊆ moreCalls ∧ subagents ⊆ moreSubagents ∧
    Apart minting moreCalls moreSubagents mapping

/-- A subagent that is known, if there is one. -/
def Known (subagents : List String) (subagent : Option String) : Prop :=
  ∀ id, subagent = some id → id ∈ subagents

/-- A mapping that throws leaves its identifiers apart. -/
def ThrownApart (minting : Minting) (calls subagents : List String) : Failure → Prop
  | .thrown state => Grows minting calls subagents ⟨state, []⟩
  | .exhausted => True

/-- Replayed lines keep the identifiers apart. -/
def ReplaysApart (minting : Minting) (replay : Json → MapperState → Result) : Prop :=
  ∀ calls subagents message state, Apart minting calls subagents ⟨state, []⟩ →
    Ensures (Grows minting calls subagents) (ThrownApart minting calls subagents) (replay message state)

section
variable {minting : Minting} {calls subagents : List String} {mapping : Mapping}

theorem IsDrawn.later {issued more : Nat} {id : String} (drawn : IsDrawn minting issued id)
    (le : issued ≤ more) : IsDrawn minting more id := by
  obtain ⟨draw, before, rfl⟩ := drawn
  exact ⟨draw, Nat.lt_of_lt_of_le before le, rfl⟩

/-- The next identifier was not drawn before. -/
theorem fresh_id
    (minting : Minting) (issued : Nat) : ¬ IsDrawn minting issued (minting.createId issued) := by
  rintro ⟨draw, before, same⟩
  exact absurd (minting.injective same) (Nat.ne_of_gt before)

/-- A smaller collection grows to what a larger one grows to. -/
theorem Grows.less
    {fewerCalls fewerSubagents : List String} (grows : Grows minting calls subagents mapping)
    (callsLess : fewerCalls ⊆ calls) (subagentsLess : fewerSubagents ⊆ subagents) :
    Grows minting fewerCalls fewerSubagents mapping := by
  obtain ⟨moreCalls, moreSubagents, callsMore, subagentsMore, apart⟩ := grows
  exact ⟨moreCalls, moreSubagents, List.Subset.trans callsLess callsMore,
    List.Subset.trans subagentsLess subagentsMore, apart⟩

theorem Apart.grows (apart : Apart minting calls subagents mapping) :
    Grows minting calls subagents mapping :=
  ⟨calls, subagents, List.Subset.refl _, List.Subset.refl _, apart⟩

theorem ThrownApart.less {fewerCalls fewerSubagents : List String} {failure : Failure}
    (thrown : ThrownApart minting calls subagents failure)
    (callsLess : fewerCalls ⊆ calls) (subagentsLess : fewerSubagents ⊆ subagents) :
    ThrownApart minting fewerCalls fewerSubagents failure := by
  cases failure with
  | thrown state => exact Grows.less thrown callsLess subagentsLess
  | exhausted => trivial

/-- What a larger collection ensures, a smaller one does. -/
theorem ensures_less {fewerCalls fewerSubagents : List String} {result : Result}
    (callsLess : fewerCalls ⊆ calls) (subagentsLess : fewerSubagents ⊆ subagents)
    (ensures : Ensures (Grows minting calls subagents) (ThrownApart minting calls subagents) result) :
    Ensures (Grows minting fewerCalls fewerSubagents) (ThrownApart minting fewerCalls fewerSubagents)
      result := by
  cases result with
  | ok mapping => exact Grows.less ensures callsLess subagentsLess
  | error failure => exact ThrownApart.less ensures callsLess subagentsLess

/-- A change of the state that mints nothing. -/
theorem Apart.change (apart : Apart minting calls subagents mapping) {state : MapperState}
    (issued : mapping.state.issued ≤ state.issued)
    (callIds : state.providerCallIds = mapping.state.providerCallIds)
    (subagentIds : state.providerSubagentIds = mapping.state.providerSubagentIds)
    (active : ∀ id ∈ state.activeSubagents, id ∈ subagents) :
    Apart minting calls subagents { mapping with state := state } where
  drawnCalls id member := (apart.drawnCalls id member).later issued
  drawnSubagents id member := (apart.drawnSubagents id member).later issued
  apart := apart.apart
  callIds := by
    rw [callIds]
    exact apart.callIds
  subagentIds := by
    rw [subagentIds]
    exact apart.subagentIds
  active := active
  starts := apart.starts
  tags := apart.tags

/-- An envelope whose call and tag are known. -/
theorem Apart.emit (apart : Apart minting calls subagents mapping) (role : SessionRole)
    (ev : SessionEvent) (turn subagent : Option String)
    (starts : ∀ call name title args risk, ev = .toolStart call name title args risk → call ∈ calls)
    (known : Known subagents subagent) :
    Apart minting calls subagents (mapping.emit minting role ev turn subagent) where
  drawnCalls id member := (apart.drawnCalls id member).later (Nat.le_succ _)
  drawnSubagents id member := (apart.drawnSubagents id member).later (Nat.le_succ _)
  apart := apart.apart
  callIds := apart.callIds
  subagentIds := apart.subagentIds
  active := apart.active
  starts := by
    intro env member
    rcases List.mem_append.mp member with before | new
    · exact apart.starts env before
    · obtain rfl := List.mem_singleton.mp new
      exact starts
  tags := by
    intro env member
    rcases List.mem_append.mp member with before | new
    · exact apart.tags env before
    · obtain rfl := List.mem_singleton.mp new
      exact known

/-- An envelope that starts no tool. -/
theorem Apart.emit_plain (apart : Apart minting calls subagents mapping) (role : SessionRole)
    (ev : SessionEvent) (turn subagent : Option String)
    (plain : ∀ call name title args risk, ev ≠ .toolStart call name title args risk)
    (known : Known subagents subagent) :
    Apart minting calls subagents (mapping.emit minting role ev turn subagent) :=
  apart.emit role ev turn subagent (fun call name title args risk same => absurd same (plain call name title args risk)) known

/-- The tables and the tags know the subagents they hold. -/
theorem Apart.lookup (apart : Apart minting calls subagents mapping) (provider : String) :
    Known subagents (mapping.state.lookupSubagentId provider) := by
  intro id found
  exact apart.subagentIds provider id (Option.filter_eq_some_iff.mp found).1

/-! ## Drawing identifiers -/

/-- An identifier for a call is drawn or known. -/
theorem Apart.minted_call (apart : Apart minting calls subagents mapping) (provider : String) :
    ∃ moreCalls, calls ⊆ moreCalls ∧ (mapping.mintedCall minting provider).1 ∈ moreCalls ∧
      Apart minting moreCalls subagents (mapping.mintedCall minting provider).2 := by
  unfold Mapping.mintedCall
  split
  · rename_i existing found
    exact ⟨calls, List.Subset.refl _, apart.callIds provider existing (Option.filter_eq_some_iff.mp found).1, apart⟩
  · have fresh := fresh_id minting mapping.state.issued
    have drawn : IsDrawn minting (mapping.state.issued + 1) (minting.createId mapping.state.issued) :=
      ⟨_, Nat.lt_succ_self _, rfl⟩
    refine ⟨minting.createId mapping.state.issued :: calls, List.subset_cons_self _ _,
      List.mem_cons_self, ?_⟩
    constructor
    · intro id member
      rcases List.mem_cons.mp member with rfl | known
      · exact drawn
      · exact (apart.drawnCalls id known).later (Nat.le_succ _)
    · exact fun id member => (apart.drawnSubagents id member).later (Nat.le_succ _)
    · intro id member subagent
      rcases List.mem_cons.mp member with rfl | known
      · exact fresh (apart.drawnSubagents _ subagent)
      · exact apart.apart id known subagent
    · intro other id found
      simp only [MapperState.createId, OrderedMap.get_set] at found
      split at found
      · rw [← Option.some.inj found]
        exact List.mem_cons_self
      · exact List.mem_cons_of_mem _ (apart.callIds other id found)
    · exact apart.subagentIds
    · exact apart.active
    · exact fun env member call name title args risk same =>
        List.mem_cons_of_mem _ (apart.starts env member call name title args risk same)
    · exact apart.tags

/-- An identifier for a subagent is drawn or known. -/
theorem Apart.mint_subagent (apart : Apart minting calls subagents mapping) (provider : String) :
    ∃ moreSubagents, subagents ⊆ moreSubagents ∧
      Apart minting calls moreSubagents (mapping.mintSubagent minting provider) := by
  unfold Mapping.mintSubagent
  split
  · exact ⟨subagents, List.Subset.refl _, apart⟩
  · have fresh := fresh_id minting mapping.state.issued
    have drawn : IsDrawn minting (mapping.state.issued + 1) (minting.createId mapping.state.issued) :=
      ⟨_, Nat.lt_succ_self _, rfl⟩
    refine ⟨minting.createId mapping.state.issued :: subagents, List.subset_cons_self _ _, ?_⟩
    constructor
    · exact fun id member => (apart.drawnCalls id member).later (Nat.le_succ _)
    · intro id member
      rcases List.mem_cons.mp member with rfl | known
      · exact drawn
      · exact (apart.drawnSubagents id known).later (Nat.le_succ _)
    · intro id member subagent
      rcases List.mem_cons.mp subagent with rfl | known
      · exact fresh (apart.drawnCalls _ member)
      · exact apart.apart id member known
    · exact apart.callIds
    · intro other id found
      simp only [MapperState.createId, OrderedMap.get_set] at found
      split at found
      · rw [← Option.some.inj found]
        exact List.mem_cons_self
      · exact List.mem_cons_of_mem _ (apart.subagentIds other id found)
    · exact fun id member => List.mem_cons_of_mem _ (apart.active id member)
    · exact apart.starts
    · exact fun env member id same => List.mem_cons_of_mem _ (apart.tags env member id same)

/-! ## What mints nothing -/

theorem Apart.call_id (apart : Apart minting calls subagents mapping) (block : Json) :
    Apart minting calls subagents (mapping.pickCallId minting block).2 := by
  unfold Mapping.pickCallId
  split
  · exact apart
  · exact apart.change (Nat.le_succ _) rfl rfl apart.active

theorem Apart.ensure_turn (apart : Apart minting calls subagents mapping) :
    Apart minting calls subagents (mapping.ensureTurn minting).2 := by
  unfold Mapping.ensureTurn
  split
  · exact apart
  · have drawn : Apart minting calls subagents
        { mapping with state := (mapping.state.createId minting).2 } :=
      apart.change (Nat.le_succ _) rfl rfl apart.active
    have started := drawn.emit_plain .agent .turnStart (some (mapping.state.createId minting).1) none
      (by simp) (by simp [Known])
    exact started.change (Nat.le_refl _) rfl rfl started.active

variable {subagent : Option String}

theorem Apart.subagent_start (apart : Apart minting calls subagents mapping) (turn : String)
    (known : Known subagents subagent) :
    Apart minting calls subagents (mapping.maybeEmitSubagentStart minting turn subagent) := by
  unfold Mapping.maybeEmitSubagentStart
  split
  · exact apart
  · rename_i id
    split
    · exact apart
    · have started := apart.emit_plain .agent .subStart (some turn) (some id) (by simp) known
      have active : ∀ other ∈ addTo mapping.state.activeSubagents id, other ∈ subagents := by
        intro other member
        unfold addTo at member
        split at member
        · exact apart.active other member
        · rcases List.mem_append.mp member with before | new
          · exact apart.active other before
          · rw [List.mem_singleton.mp new]
            exact known id rfl
      exact started.change (Nat.le_refl _) rfl rfl active

theorem Apart.subagent_stop (apart : Apart minting calls subagents mapping) (turn id : String) :
    Apart minting calls subagents (mapping.maybeEmitSubagentStop minting turn id) := by
  unfold Mapping.maybeEmitSubagentStop
  split
  · rename_i member
    have stopped := apart.emit_plain .agent .subStop (some turn) (some id) (by simp)
      (fun other same => Option.some.inj same ▸ apart.active id member)
    exact stopped.change (Nat.le_refl _) rfl rfl
      (fun other member => apart.active other (List.mem_filter.mp member).1)
  · exact apart

/-- Closing a turn forgets all identifiers. -/
theorem Apart.close_turn (apart : Apart minting calls subagents mapping) (status : TurnStatus) :
    Apart minting calls subagents (mapping.closeTurn minting status) := by
  unfold Mapping.closeTurn
  split
  · exact apart
  · rename_i turn _
    have stops (active : List String) (known : ∀ id ∈ active, id ∈ subagents) (mapping : Mapping)
        (apart : Apart minting calls subagents mapping) :
        Apart minting calls subagents (active.foldl
          (fun mapping subagent => mapping.emitIn minting turn (some subagent) .subStop) mapping) := by
      induction active generalizing mapping with
      | nil => exact apart
      | cons id rest inductionHypothesis =>
        apply inductionHypothesis (fun id member => known id (List.mem_cons_of_mem _ member))
        exact apart.emit_plain .agent .subStop (some turn) (some id) (by simp)
          (fun other same => Option.some.inj same ▸ known id List.mem_cons_self)
    have stopped := stops mapping.state.activeSubagents apart.active mapping apart
    have ended : Apart minting calls subagents
        ((mapping.emitActiveSubagentStops minting turn).emitIn minting turn none (.turnEnd status)) := by
      apply Apart.emit_plain _ .agent (.turnEnd status) (some turn) none (by simp) (by simp [Known])
      exact stopped.change (Nat.le_refl _) rfl rfl (by simp)
    constructor
    · exact ended.drawnCalls
    · exact ended.drawnSubagents
    · exact ended.apart
    · simp [MapperState.clearSubagentTracking]
    · simp [MapperState.clearSubagentTracking]
    · simp [MapperState.clearSubagentTracking]
    · exact ended.starts
    · exact ended.tags

/-! ## Blocks -/

theorem Apart.image (apart : Apart minting calls subagents mapping) (role : SessionRole)
    (turn : Option String) (known : Known subagents subagent) (block : Json) :
    Apart minting calls subagents
      ((imageEvent block).elim mapping (fun ev => mapping.emit minting role ev turn subagent)) := by
  cases picked : imageEvent block with
  | none => exact apart
  | some ev =>
    apply apart.emit_plain role ev turn subagent _ known
    intro call name title args risk same
    obtain ⟨source, _, rfl⟩ := Option.map_eq_some_iff.mp picked
    simp only at same
    split at same <;> contradiction

/-- What a later mapping returns is put after what was returned before. -/
theorem Apart.append {moreCalls moreSubagents : List String} {later : Mapping}
    (apart : Apart minting calls subagents mapping) (callsMore : calls ⊆ moreCalls)
    (subagentsMore : subagents ⊆ moreSubagents) (held : Apart minting moreCalls moreSubagents later) :
    Apart minting moreCalls moreSubagents ⟨later.state, mapping.envelopes ++ later.envelopes⟩ where
  drawnCalls := held.drawnCalls
  drawnSubagents := held.drawnSubagents
  apart := held.apart
  callIds := held.callIds
  subagentIds := held.subagentIds
  active := held.active
  starts := by
    intro env member call name title args risk same
    rcases List.mem_append.mp member with before | after
    · exact callsMore (apart.starts env before call name title args risk same)
    · exact held.starts env after call name title args risk same
  tags := by
    intro env member id same
    rcases List.mem_append.mp member with before | after
    · exact subagentsMore (apart.tags env before id same)
    · exact held.tags env after id same

/-- The state without what was returned. -/
theorem Apart.silent (apart : Apart minting calls subagents mapping) :
    Apart minting calls subagents ⟨mapping.state, []⟩ :=
  { apart with starts := by simp, tags := by simp }

/-- A mapping that throws leaves its state. -/
theorem Apart.thrown (apart : Apart minting calls subagents mapping) :
    ThrownApart minting calls subagents (.thrown mapping.state) :=
  apart.silent.grows

variable {replay : Json → MapperState → Result}

/-- Lines that waited keep the identifiers apart. -/
theorem Apart.flush (apart : Apart minting calls subagents mapping)
    (replays : ReplaysApart minting replay) (provider : String) :
    Ensures (Grows minting calls subagents) (ThrownApart minting calls subagents)
      (mapping.flush replay provider) := by
  unfold Mapping.flush Mapping.replayAll
  apply Ensures.fold (Grows minting calls subagents)
  · exact Apart.grows (apart.change (Nat.le_refl _) rfl rfl apart.active)
  · rintro message _ during ⟨moreCalls, moreSubagents, callsMore, subagentsMore, held⟩
    apply ensures_less callsMore subagentsMore
    apply Ensures.bind (replays moreCalls moreSubagents message during.state held.silent)
    rintro replayed ⟨laterCalls, laterSubagents, callsLater, subagentsLater, later⟩
    exact ⟨laterCalls, laterSubagents, callsLater, subagentsLater,
      held.append callsLater subagentsLater later⟩

theorem Apart.tool_use (apart : Apart minting calls subagents mapping)
    (replays : ReplaysApart minting replay) (turn : String)
    (known : Known subagents subagent) (block : Json) :
    Ensures (Grows minting calls subagents) (ThrownApart minting calls subagents)
      (mapping.mapToolUse minting replay turn subagent block) := by
  unfold Mapping.mapToolUse
  obtain ⟨moreSubagents, subagentsMore, minted⟩ :=
    (apart.call_id block).mint_subagent (mapping.pickCallId minting block).1
  have stillKnown : Known moreSubagents subagent := fun id same => subagentsMore (known id same)
  apply ensures_less (List.Subset.refl _) subagentsMore
  simp only
  split
  · apply Apart.flush _ replays
    cases pickTaskPrompt (block.field? "input") with
    | none => exact minted.change (Nat.le_refl _) rfl rfl minted.active
    | some prompt => exact minted.change (Nat.le_refl _) rfl rfl minted.active
  · obtain ⟨moreCalls, callsMore, isCall, called⟩ := minted.minted_call (mapping.pickCallId minting block).1
    apply ensures_less callsMore (List.Subset.refl _)
    split
    · exact Apart.grows (called.silent.change (Nat.le_succ _) rfl rfl called.active)
    all_goals
      apply Apart.flush _ replays
      apply called.emit .agent _ (some turn) subagent _ stillKnown
      intro call name title args risk same
      rw [← (SessionEvent.toolStart.inj same).1]
      exact isCall

theorem Apart.assistant_block
    (apart : Apart minting calls subagents mapping) (replays : ReplaysApart minting replay)
    (turn : String) (known : Known subagents subagent) (block : Json) :
    Ensures (Grows minting calls subagents) (ThrownApart minting calls subagents)
      (mapping.mapAssistantBlock minting replay turn subagent block) := by
  unfold Mapping.mapAssistantBlock
  split
  · exact apart.thrown
  · split
    · exact (apart.emit_plain .agent _ (some turn) subagent (by simp) known).grows
    · exact (apart.emit_plain .agent _ (some turn) subagent (by simp) known).grows
    · exact apart.tool_use replays turn known _
    · exact apart.grows

theorem Apart.tool_result (apart : Apart minting calls subagents mapping) (turn : String)
    (known : Known subagents subagent) (block : Json) :
    Ensures (Grows minting calls subagents) (ThrownApart minting calls subagents)
      (mapping.mapToolResult minting turn subagent block) := by
  unfold Mapping.mapToolResult
  split
  · exact apart.grows
  · rename_i providerCallId _
    have stopped : Apart minting calls subagents ((mapping.state.lookupSubagentId providerCallId).elim
        mapping (mapping.maybeEmitSubagentStop minting turn)) := by
      cases mapping.state.lookupSubagentId providerCallId with
      | none => exact apart
      | some id => exact apart.subagent_stop turn id
    simp only
    split
    · exact Apart.grows (stopped.change (Nat.le_refl _) rfl rfl stopped.active)
    · obtain ⟨moreCalls, callsMore, _, called⟩ := stopped.minted_call providerCallId
      apply ensures_less callsMore (List.Subset.refl _)
      have ended := called.emit_plain .agent (.toolEnd (((mapping.state.lookupSubagentId
        providerCallId).elim mapping (mapping.maybeEmitSubagentStop minting turn)).mintedCall minting
          providerCallId).1 (!isTrue (block.field? "is_error")) (block.field? "content")) (some turn)
        subagent (by simp) known
      split
      · apply Ensures.fold (Grows minting moreCalls subagents) ended.grows
        rintro item _ during ⟨laterCalls, laterSubagents, callsLater, subagentsLater, held⟩
        apply ensures_less callsLater subagentsLater
        unfold Mapping.mapNestedImage
        split
        · exact held.thrown
        · simp only [Ensures.ok]
          split
          · exact (held.image .agent (some turn)
              (fun id same => subagentsLater (known id same)) item).grows
          · exact held.grows
      · exact ended.grows

theorem Apart.result_block (apart : Apart minting calls subagents mapping) (turn : String)
    (known : Known subagents subagent) (block : Json) :
    Ensures (Grows minting calls subagents) (ThrownApart minting calls subagents)
      (mapping.mapResultBlock minting turn subagent block) := by
  unfold Mapping.mapResultBlock
  split
  · exact apart.thrown
  · split
    · exact apart.tool_result turn known _
    · simp only [Ensures.ok]
      split
      · exact (apart.emit_plain .agent _ (some turn) subagent (by simp) known).grows
      · exact apart.grows
    · exact (apart.image .agent (some turn) known block).grows
    · exact apart.grows

theorem Apart.prompt_blocks (apart : Apart minting calls subagents mapping) (blocks : List Json) :
    Apart minting calls subagents (blocks.foldl (Mapping.mapPromptBlock minting) mapping) := by
  induction blocks generalizing mapping with
  | nil => exact apart
  | cons block rest inductionHypothesis =>
    apply inductionHypothesis
    unfold Mapping.mapPromptBlock
    split
    · split
      · exact apart.emit_plain .user _ none none (by simp) (by simp [Known])
      · exact apart
    · exact apart.image .user none (by simp [Known]) block
    · exact apart

/-! ## Lines -/

theorem Apart.assistant
    (apart : Apart minting calls subagents mapping) (replays : ReplaysApart minting replay)
    (message : Json) (known : Known subagents subagent) :
    Ensures (Grows minting calls subagents) (ThrownApart minting calls subagents)
      (mapping.mapAssistant minting replay message subagent) := by
  unfold Mapping.mapAssistant
  simp only
  have blocks : Ensures (Grows minting calls subagents) (ThrownApart minting calls subagents)
      ((pickContentBlocks message).foldlM (fun during block => during.mapAssistantBlock minting replay
          (mapping.ensureTurn minting).1 subagent block)
        ((mapping.ensureTurn minting).2.maybeEmitSubagentStart minting
          (mapping.ensureTurn minting).1 subagent)) := by
    apply Ensures.fold (Grows minting calls subagents)
    · exact (apart.ensure_turn.subagent_start _ known).grows
    · rintro block _ during ⟨moreCalls, moreSubagents, callsMore, subagentsMore, held⟩
      apply ensures_less callsMore subagentsMore
      exact held.assistant_block replays _ (fun id same => subagentsMore (known id same)) block
  apply Ensures.bind blocks
  rintro later ⟨moreCalls, moreSubagents, callsMore, subagentsMore, held⟩
  refine ⟨moreCalls, moreSubagents, callsMore, subagentsMore, ?_⟩
  cases pickUsage message with
  | none => exact held
  | some usage =>
    exact held.emit_plain .agent _ (some _) subagent (by simp)
      (fun id same => subagentsMore (known id same))

theorem Apart.user_text (apart : Apart minting calls subagents mapping) (message : Json)
    (known : Known subagents subagent) (content : String) :
    Apart minting calls subagents (mapping.mapUserText minting message subagent content) := by
  unfold Mapping.mapUserText
  split
  · exact apart.emit_plain .agent _ none none (by simp) (by simp [Known])
  · split
    · exact apart
    · split
      · exact (apart.ensure_turn.subagent_start _ known).emit_plain .agent _ (some _) subagent (by simp) known
      · exact (apart.close_turn .completed).emit_plain .user _ none none (by simp) (by simp [Known])

theorem Apart.user_blocks (apart : Apart minting calls subagents mapping) (message : Json)
    (known : Known subagents subagent) (blocks : List Json) :
    Ensures (Grows minting calls subagents) (ThrownApart minting calls subagents)
      (mapping.mapUserBlocks minting message subagent blocks) := by
  unfold Mapping.mapUserBlocks
  split
  · exact apart.grows
  · split
    · exact apart.thrown
    · simp only
      split
      · exact ((apart.close_turn .completed).prompt_blocks _).grows
      · apply Ensures.fold (Grows minting calls subagents)
        · split
          · exact (apart.ensure_turn.subagent_start _ known).grows
          · exact apart.ensure_turn.grows
        · rintro block _ during ⟨moreCalls, moreSubagents, callsMore, subagentsMore, held⟩
          apply ensures_less callsMore subagentsMore
          exact held.result_block _ (fun id same => subagentsMore (known id same)) block

theorem Apart.resolved
    (apart : Apart minting calls subagents mapping) (replays : ReplaysApart minting replay)
    (message : Json) (known : Known subagents subagent) :
    Ensures (Grows minting calls subagents) (ThrownApart minting calls subagents)
      (mapping.mapResolved minting replay message subagent) := by
  unfold Mapping.mapResolved
  split
  · split
    · exact (apart.emit_plain .agent _ none none (by simp) (by simp [Known])).grows
    · exact apart.assistant replays message known
  · split
    · exact apart.grows
    · split
      · exact (apart.user_text message known _).grows
      · exact apart.user_blocks message known _
  · exact apart.grows

/-- Every line keeps the identifiers apart, at any depth of replays. -/
theorem map_line_apart
    (minting : Minting) (fuel : Nat) : ReplaysApart minting (mapLine minting fuel) := by
  induction fuel with
  | zero => exact fun _ _ _ _ _ => trivial
  | succ fuel inductionHypothesis =>
    intro calls subagents message state apart
    obtain ⟨prompts, resolved⟩ := resolve_state state message
    obtain ⟨uuids, remembered⟩ := remember_state (state.resolveProviderSubagent message).2 message
      (state.resolveProviderSubagent message).1
    have settled : Apart minting calls subagents
        ⟨(state.resolveProviderSubagent message).2.rememberSubagentForMessage message
          (state.resolveProviderSubagent message).1, []⟩ := by
      rw [remembered, resolved]
      exact apart.change (Nat.le_refl _) rfl rfl apart.active
    unfold mapLine
    simp only
    split
    · exact Apart.grows (settled.change (Nat.le_refl _) rfl rfl settled.active)
    · apply settled.resolved inductionHypothesis message
      intro id found
      obtain ⟨provider, _, known⟩ := Option.bind_eq_some_iff.mp found
      rw [resolved] at known
      exact apart.lookup provider id known

/-- A call keeps the identifiers apart, with all that the session has put together. -/
theorem Apart.step {mapped next : Mapped} {request : MapperCall}
    (apart : Apart minting calls subagents ⟨mapped.state, mapped.output⟩)
    (taken : Mapped.step minting mapped request = some next) :
    Grows minting calls subagents ⟨next.state, next.output⟩ := by
  cases request with
  | close status =>
    cases taken
    exact (apart.append (List.Subset.refl _) (List.Subset.refl _) (apart.silent.close_turn status)).grows
  | line message =>
    have line := map_line_apart minting (mapped.state.buffered.length + 1) calls subagents message
      mapped.state apart.silent
    simp only [Mapped.step, mapClaudeToEnvelopes] at taken
    cases answer : mapLine minting (mapped.state.buffered.length + 1) message mapped.state with
    | ok mapping =>
      rw [answer] at line taken
      cases taken
      obtain ⟨moreCalls, moreSubagents, callsMore, subagentsMore, held⟩ := line
      exact ⟨moreCalls, moreSubagents, callsMore, subagentsMore, apart.append callsMore subagentsMore held⟩
    | error failure =>
      rw [answer] at line taken
      cases failure with
      | exhausted => contradiction
      | thrown state =>
        cases taken
        obtain ⟨moreCalls, moreSubagents, callsMore, subagentsMore, held⟩ := line
        have all := apart.append callsMore subagentsMore held
        rw [List.append_nil] at all
        exact ⟨moreCalls, moreSubagents, callsMore, subagentsMore, all⟩

end

/-- A session keeps the identifiers apart. -/
theorem mapped_apart {minting : Minting} {requests : List MapperCall} {mapped : Mapped}
    (ran : Runs.run (Mapped.step minting) Mapped.fresh requests = some mapped) :
    ∃ calls subagents, Apart minting calls subagents ⟨mapped.state, mapped.output⟩ := by
  apply Runs.run_invariant (fun mapped : Mapped =>
    ∃ calls subagents, Apart minting calls subagents ⟨mapped.state, mapped.output⟩) _ _ ran
  · rintro mapped request next ⟨calls, subagents, apart⟩ taken
    obtain ⟨moreCalls, moreSubagents, _, _, later⟩ := apart.step taken
    exact ⟨moreCalls, moreSubagents, later⟩
  · refine ⟨[], [], ?_⟩
    constructor <;> simp [Mapped.fresh, createClaudeEnvelopeMapperState]

/-- A call that a tool start shows tags no envelope. -/
theorem calls_tag_nothing {minting : Minting} {requests : List MapperCall} {mapped : Mapped}
    (ran : Runs.run (Mapped.step minting) Mapped.fresh requests = some mapped) {start env : SessionEnvelope}
    (shown : start ∈ mapped.output) {call name : String} {title : Option String} {args : Option Json}
    {risk : Option ToolRisk} (starts : start.ev = .toolStart call name title args risk)
    (member : env ∈ mapped.output) : env.subagent ≠ some call := by
  obtain ⟨calls, subagents, apart⟩ := mapped_apart ran
  intro tagged
  exact apart.apart call (apart.starts start shown call name title args risk starts)
    (apart.tags env member call tagged)

end Kvy.Cli.Claude
