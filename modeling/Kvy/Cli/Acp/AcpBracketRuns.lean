import Kvy.Cli.Acp.AcpOperations

/-!
# Turns, tool calls and subagents are bracketed

Every call of the mapper is followed from a sound state to a sound state, with what it announces
and what it reports to have ended. So a whole run is bracketed, as long as no update names an
inherited property as its kind: the mapper throws on such a tool call.
-/

namespace Kvy.Cli.Acp

open General Wire Streams
open Claude (Minting PickedRisk addTo IsDrawn)

variable {minting : Minting}

variable {update : Json}

namespace Holds
variable {course : Course} {mapping : Mapping}

/-! ## Updates -/

/-- A chunk of text. -/
theorem text_chunk (holds : Holds minting course mapping) (update : Json) (thinking : Bool) :
    Holds minting course (mapping.handleTextChunk minting update thinking) := by
  unfold Mapping.handleTextChunk
  split
  · rename_i turn text current _
    obtain ⟨resolved, known⟩ := holds.resolve update
    exact resolved.add_text (resolved.is_open (holds.current.symm.trans current)) known ..
  · exact holds

/-- A plan. -/
theorem plan (holds : Holds minting course mapping) (update : Json) :
    Holds minting course (mapping.handlePlan minting update) := by
  unfold Mapping.handlePlan
  split
  · exact holds
  · rename_i turn current
    obtain ⟨resolved, _⟩ := holds.resolve update
    exact resolved.write (resolved.is_open (holds.current.symm.trans current))
      (fun _ _ => ⟨rfl, rfl, rfl, rfl, rfl⟩) (fun _ _ => nofun) (fun _ _ => rfl)

/-- The call of an update that is filed. -/
theorem call_in {turn toolCallId call : String} {ids : OrderedMap String String}
    (inTurn : course.turn = some turn) (picked : pickToolCallId update = some toolCallId)
    (filed : ids.get? toolCallId = some call) : callIn course.turn update ids = some call := by
  rw [callIn, inTurn, picked]
  exact filed

/-- Outside a turn, or without an identifier, no call is filed. -/
theorem call_in_none (holds : Holds minting course mapping)
    (outside : mapping.state.currentTurnId = none ∨ pickToolCallId update = none)
    (ids : OrderedMap String String) : callIn course.turn update ids = none := by
  rw [callIn, ← holds.current]
  rcases outside with idle | unnamed
  · rw [idle]
    rfl
  · rw [unnamed]
    cases mapping.state.currentTurnId <;> rfl

/-- An announced tool call. -/
theorem tool_call (holds : Holds minting course mapping) (plain : pickAcpRisk update ≠ .inherited) :
    ∃ next, mapping.handleToolCall minting update = .ok next ∧
      Holds minting { course with
        announced := course.announced ++ (callIn course.turn update next.state.providerIds).toList } next := by
  cases current : mapping.state.currentTurnId with
  | none =>
    refine ⟨mapping, by simp [Mapping.handleToolCall, current], ?_⟩
    rw [holds.call_in_none (.inl current), Option.toList_none, List.append_nil]
    exact holds
  | some turn =>
  cases picked : pickToolCallId update with
  | none =>
    refine ⟨mapping, by simp [Mapping.handleToolCall, picked], ?_⟩
    rw [holds.call_in_none (.inr picked), Option.toList_none, List.append_nil]
    exact holds
  | some toolCallId =>
  have inTurn := holds.current.symm.trans current
  have found := holds.flush_text.1.resolve update
  cases scopeOf : (mapping.flushPendingText minting).resolveEnvelopeSubagent minting update with
  | mk subagent resolved =>
  rw [scopeOf] at found
  obtain ⟨resolvedHolds, known⟩ := found
  have minted := resolvedHolds.mint toolCallId
  have stillKnown : KnownScope (resolved.mintedId minting toolCallId).2.state.providerIds subagent :=
    fun scope ofUpdate => known_minted resolved (known scope ofUpdate) toolCallId
  cases callOf : resolved.mintedId minting toolCallId with
  | mk call next =>
  rw [callOf] at minted stillKnown
  have filed := minted.filed _ List.mem_cons_self
  let pending := Mapping.announcedStart turn call subagent update
  have announced : Holds minting { course with announced := course.announced ++ [call] }
      (next.hold pending) :=
    (minted.announce pending (minted.is_open inTurn) stillKnown plain
      (minted.known List.mem_cons_self)).forget (List.subset_cons_self ..)
  have result : mapping.handleToolCall minting update =
      if hasArgs pending.args then (next.hold pending).emitPendingToolStart minting pending
      else .ok (next.hold pending) := by
    simp only [Mapping.handleToolCall, current, picked, scopeOf, callOf]
    rfl
  cases known : hasArgs pending.args with
  | true =>
    have waits : (next.hold pending).state.pendingToolStarts.get? pending.call = some pending := by
      simp [Mapping.hold]
    obtain ⟨started, ran, startedHolds, _, ids, _⟩ := announced.start_call pending waits
    refine ⟨started, by rw [result, known]; exact ran, ?_⟩
    rw [call_in inTurn picked (by rw [ids]; exact filed)]
    exact startedHolds
  | false =>
    have filedCall : callIn course.turn update (next.hold pending).state.providerIds = some call :=
      call_in inTurn picked filed
    refine ⟨next.hold pending, by rw [result, known]; rfl, ?_⟩
    rw [filedCall]
    exact announced

/-- A refined start can be written. -/
theorem refined_fits {pending : PendingToolStart} (fits : pending.risk ≠ .inherited)
    (plain : pickAcpRisk update ≠ .inherited) :
    (refinePendingToolStart pending update).risk ≠ .inherited := by
  simp only [refinePendingToolStart]
  split
  · exact plain
  · exact fits

/-- Holding a refined start back. -/
theorem refine_held (holds : Holds minting course mapping) {call : String}
    {pending : PendingToolStart}
    (waits : mapping.state.pendingToolStarts.get? call = some pending)
    (plain : pickAcpRisk update ≠ .inherited) :
    Holds minting course (mapping.hold (refinePendingToolStart pending update)) ∧
      (refinePendingToolStart pending update).call = call := by
  obtain ⟨rfl, _, _, fits⟩ := holds.sound.held.starts call pending waits
  exact ⟨holds.refine_start waits rfl rfl rfl (refined_fits fits plain), rfl⟩

/-- An update that does not end its call. -/
theorem refine_call (holds : Holds minting course mapping)
    (plain : pickAcpRisk update ≠ .inherited) (call : String) :
    ∃ next, mapping.refineToolCall minting update call = .ok next ∧ Holds minting course next := by
  unfold Mapping.refineToolCall
  split
  · exact ⟨mapping, rfl, holds⟩
  · rename_i pending waits
    obtain ⟨refined, sameCall⟩ := holds.refine_held waits plain
    simp only
    split
    · obtain ⟨started, ran, startedHolds, _⟩ := refined.flush_text.1.start_call
        (refinePendingToolStart pending update) (by simp [Mapping.hold])
      exact ⟨started, ran, startedHolds⟩
    · exact ⟨_, rfl, refined⟩

/-- Before a call ends its start is written. -/
theorem start_before_end (holds : Holds minting course mapping)
    (plain : pickAcpRisk update ≠ .inherited) (call : String) :
    ∃ next, mapping.startBeforeEnd minting update call = .ok next ∧ Holds minting course next ∧
      next.state.pendingToolStarts.has call = false ∧
      next.state.providerIds = mapping.state.providerIds := by
  unfold Mapping.startBeforeEnd
  split
  · rename_i absent
    exact ⟨mapping, rfl, holds, by simp [OrderedMap.has, absent], rfl⟩
  · rename_i pending waits
    obtain ⟨refined, sameCall⟩ := holds.refine_held waits plain
    obtain ⟨started, ran, startedHolds, dropped, ids, _⟩ := refined.start_call
      (refinePendingToolStart pending update) (by simp [Mapping.hold])
    refine ⟨started, ran, startedHolds, ?_, ids⟩
    rw [dropped, sameCall]
    simp [OrderedMap.has]

/-- The end of a call is the last envelope, after its start where it was announced. -/
theorem end_call (holds : Holds minting course mapping) {turn call : String}
    (current : course.turn = some turn) (settled : mapping.state.pendingToolStarts.has call = false)
    (update : Json) (ok : Bool) :
    Holds minting { course with ends := course.ends ++ [call] }
        (mapping.endToolCall minting update turn call ok) ∧
      (call ∈ course.announced → ∃ earlier last,
        (mapping.endToolCall minting update turn call ok).envelopes = earlier ++ [last] ∧
        endedCall last = some call ∧ call ∈ (course.past ++ earlier).filterMap startedCall) := by
  obtain ⟨resolved, _⟩ := (holds.stop_subagent current call).resolve update
  refine ⟨?_, ?_⟩
  · unfold Mapping.endToolCall
    exact resolved.emit (some call) (resolved.is_open current)
      (fun _ _ => ⟨rfl, rfl, rfl, rfl, rfl⟩) (fun _ _ _ => nofun) (fun _ _ => rfl)
  · intro announced
    refine ⟨_, _, rfl, rfl, ?_⟩
    rcases resolved.sound.calls.least call announced with started | waits
    · exact started
    · simp [settled] at waits

/-- An update of a tool call. -/
theorem tool_call_update (holds : Holds minting course mapping)
    (plain : pickAcpRisk update ≠ .inherited) :
    ∃ next, mapping.handleToolCallUpdate minting update = .ok next ∧
      let ended := if isTerminalStatus (pickString (update.field? "status")) then
        callIn course.turn update next.state.providerIds else none
      Holds minting { course with ends := course.ends ++ ended.toList } next ∧
      ∀ call, ended = some call → call ∈ course.announced → ∃ earlier last,
        next.envelopes = earlier ++ [last] ∧ endedCall last = some call ∧
        call ∈ (course.past ++ earlier).filterMap startedCall := by
  cases current : mapping.state.currentTurnId with
  | none =>
    refine ⟨mapping, by simp [Mapping.handleToolCallUpdate, current], ?_⟩
    simpa [holds.call_in_none (.inl current)] using holds
  | some turn =>
  cases picked : pickToolCallId update with
  | none =>
    refine ⟨mapping, by simp [Mapping.handleToolCallUpdate, picked], ?_⟩
    simpa [holds.call_in_none (.inr picked)] using holds
  | some toolCallId =>
  have inTurn := holds.current.symm.trans current
  have minted := holds.mint toolCallId
  cases callOf : mapping.mintedId minting toolCallId with
  | mk call next =>
  rw [callOf] at minted
  cases terminal : isTerminalStatus (pickString (update.field? "status")) with
  | false =>
    obtain ⟨refined, ran, refinedHolds⟩ := (minted.forget (List.subset_cons_self ..)).refine_call plain call
    refine ⟨refined, ?_, ?_⟩
    · simpa only [Mapping.handleToolCallUpdate, current, picked, callOf, terminal,
        Bool.false_eq_true, ↓reduceIte] using ran
    · simpa using refinedHolds
  | true =>
    obtain ⟨started, ran, startedHolds, settled, _⟩ := minted.flush_text.1.start_before_end plain call
    obtain ⟨ended, ordered⟩ := startedHolds.end_call inTurn settled update
      (pickString (update.field? "status") = some "completed")
    have filedCall := call_in inTurn picked (ended.filed _ List.mem_cons_self)
    refine ⟨started.endToolCall minting update turn call
      (pickString (update.field? "status") = some "completed"), ?_, ?_⟩
    · simp only [Mapping.handleToolCallUpdate, current, picked, callOf, terminal, ↓reduceIte, ran]
      rfl
    · simp only [↓reduceIte]
      rw [filedCall]
      refine ⟨ended.forget (List.subset_cons_self ..), ?_⟩
      rintro _ ⟨⟩
      exact ordered

end Holds

/-! ## Runs -/

/-- The kind of an update is not the name of a property that every object inherits. -/
def AcpEvent.Plain : AcpEvent → Prop
  | .update content => pickAcpRisk content ≠ .inherited
  | _ => True

/-- What holds after a history. -/
structure Followed (minting : Minting) (history : List Moment) (session : AcpSession) : Prop where
  sound : SoundState minting (history.filterMap Moment.announced) (outgoing history) session.mapper
  settled : session.mapper.currentTurnId = none →
    ∀ call, session.mapper.pendingToolStarts.has call = false
  ends : (outgoing history).filterMap endedCall = history.filterMap Moment.ended
  ordered : Lawful EndsAfterStart history
  permissions : PermissionsOnly session.handler.ledger

section
variable {history : List Moment} {session : AcpSession}

/-- A call of the mapper is under way. -/
theorem Followed.holds (followed : Followed minting history session) :
    Holds minting ⟨outgoing history, history.filterMap Moment.announced,
      session.mapper.currentTurnId, [], []⟩ ⟨session.mapper, []⟩ where
  sound := by simpa using followed.sound
  current := rfl
  filed := nofun
  ends := rfl

variable {event : AcpEvent} {next : Mapping}

/-- One more event of the mapper. -/
theorem Followed.mapped (followed : Followed minting history session)
    {turn announced ended : Option String}
    (ofAnnounced : (session.mapped event (.ok next)).announced = announced)
    (ofEnded : (session.mapped event (.ok next)).ended = ended)
    (holds : Holds minting ⟨outgoing history,
      history.filterMap Moment.announced ++ announced.toList, turn, [], ended.toList⟩ next)
    (settled : turn = none → ∀ call, next.state.pendingToolStarts.has call = false)
    (ordered : ∀ call, ended = some call → call ∈ history.filterMap Moment.announced →
      ∃ earlier last, next.envelopes = earlier ++ [last] ∧ endedCall last = some call ∧
        call ∈ (outgoing history ++ earlier).filterMap startedCall) :
    Followed minting (history ++ [session.mapped event (.ok next)])
      (session.mapped event (.ok next)).after where
  sound := by
    have announces : (history ++ [session.mapped event (.ok next)]).filterMap Moment.announced =
        history.filterMap Moment.announced ++ announced.toList := by
      rw [List.filterMap_append, ← ofAnnounced]
      cases held : (session.mapped event (.ok next)).announced <;> simp [held]
    rw [announces, outgoing_append, outgoing_single]
    exact holds.sound
  settled := by
    intro idle
    exact settled (holds.current.symm.trans idle)
  ends := by
    have ends : (history ++ [session.mapped event (.ok next)]).filterMap Moment.ended =
        history.filterMap Moment.ended ++ ended.toList := by
      rw [List.filterMap_append, ← ofEnded]
      cases held : (session.mapped event (.ok next)).ended <;> simp [held]
    rw [ends, outgoing_append, outgoing_single, List.filterMap_append, followed.ends]
    exact congrArg _ holds.ends
  ordered := by
    refine (lawful_snoc _ _).mpr ⟨followed.ordered, ?_⟩
    intro call isEnded announcedBefore
    exact ordered call (ofEnded.symm.trans isEnded) announcedBefore
  permissions := followed.permissions

/-- An event of the mapper that announces and ends no call. -/
theorem Followed.mapped_silent (followed : Followed minting history session) {turn : Option String}
    (noAnnounced : (session.mapped event (.ok next)).announced = none)
    (noEnded : (session.mapped event (.ok next)).ended = none)
    (holds : Holds minting ⟨outgoing history, history.filterMap Moment.announced, turn, [], []⟩ next)
    (settled : turn = none → ∀ call, next.state.pendingToolStarts.has call = false) :
    Followed minting (history ++ [session.mapped event (.ok next)])
      (session.mapped event (.ok next)).after :=
  followed.mapped noAnnounced noEnded (by simpa using holds) settled nofun

/-- A turn that is closed. -/
theorem Followed.closed (followed : Followed minting history session)
    (status : TurnStatus) (noAnnounced : ∀ result, (session.mapped event result).announced = none)
    (noEnded : ∀ result, (session.mapped event result).ended = none) :
    let moment := session.mapped event (closeAcpTurnWithStatus minting session.mapper status)
    Followed minting (history ++ [moment]) moment.after := by
  unfold closeAcpTurnWithStatus
  split
  · rename_i idle
    exact followed.mapped_silent (noAnnounced _) (noEnded _) followed.holds followed.settled
  · rename_i turn current
    obtain ⟨closed, ran, holds, settled⟩ := followed.holds.close_turn current status
    rw [ran]
    refine followed.mapped_silent (noAnnounced _) (noEnded _) holds ?_
    intro _ call
    rw [settled]
    rfl

/-- The current turn stays the current one, and so nothing waits without one. -/
theorem Followed.stays (followed : Followed minting history session)
    (same : session.mapper.currentTurnId = none → next = ⟨session.mapper, []⟩) :
    session.mapper.currentTurnId = none → ∀ call, next.state.pendingToolStarts.has call = false := by
  intro idle
  rw [same idle]
  exact followed.settled idle

/-- The calls of an update of the kind. -/
theorem call_of_kind {kind : String} (counts : Json → Bool) (next : Mapping)
    (same : Schema.string (update.field? "sessionUpdate") = some kind) :
    (session.mapped (.update update) (.ok next)).callOf kind counts =
      if counts update then callIn session.mapper.currentTurnId update next.state.providerIds
      else none := by
  simp [Moment.callOf, AcpSession.mapped, same]

/-- An update of another kind. -/
theorem call_of_other {kind : String} (counts : Json → Bool) (next : Mapping)
    (other : Schema.string (update.field? "sessionUpdate") ≠ some kind) :
    (session.mapped (.update update) (.ok next)).callOf kind counts = none := by
  simp [Moment.callOf, AcpSession.mapped, other]

/-- An update that announces and ends no call. -/
theorem Followed.updated_silent (followed : Followed minting history session)
    (notCall : Schema.string (update.field? "sessionUpdate") ≠ some "tool_call")
    (notUpdate : Schema.string (update.field? "sessionUpdate") ≠ some "tool_call_update")
    (holds : Holds minting ⟨outgoing history, history.filterMap Moment.announced,
      session.mapper.currentTurnId, [], []⟩ next)
    (same : session.mapper.currentTurnId = none → next = ⟨session.mapper, []⟩) :
    Followed minting (history ++ [session.mapped (.update update) (.ok next)])
      (session.mapped (.update update) (.ok next)).after :=
  followed.mapped_silent (call_of_other _ next notCall) (call_of_other _ next notUpdate) holds
    (followed.stays same)

/-- An update. -/
theorem Followed.updated (followed : Followed minting history session)
    (plain : pickAcpRisk update ≠ .inherited) :
    let moment := session.mapped (.update update)
      (mapAcpUpdateToEnvelopes minting update session.mapper)
    Followed minting (history ++ [moment]) moment.after := by
  unfold mapAcpUpdateToEnvelopes
  simp only
  split
  · rename_i kind
    refine followed.updated_silent (by simp [kind]) (by simp [kind])
      (followed.holds.text_chunk update false) ?_
    intro idle
    simp [Mapping.handleTextChunk, idle]
  · rename_i kind
    refine followed.updated_silent (by simp [kind]) (by simp [kind])
      (followed.holds.text_chunk update true) ?_
    intro idle
    simp [Mapping.handleTextChunk, idle]
  · rename_i kind
    obtain ⟨next, ran, holds⟩ := followed.holds.tool_call plain
    rw [ran]
    refine followed.mapped (call_of_kind _ next kind) (call_of_other _ next (by simp [kind])) holds
      (followed.stays ?_) nofun
    intro idle
    simpa [Mapping.handleToolCall, idle, eq_comm] using ran
  · rename_i kind
    obtain ⟨next, ran, holds, ordered⟩ := followed.holds.tool_call_update plain
    rw [ran]
    refine followed.mapped (call_of_other _ next (by simp [kind])) (call_of_kind _ next kind)
      (by simpa using holds) (followed.stays ?_) ordered
    intro idle
    simpa [Mapping.handleToolCallUpdate, idle, eq_comm] using ran
  · rename_i kind
    refine followed.updated_silent (by simp [kind]) (by simp [kind]) (followed.holds.plan update) ?_
    intro idle
    simp [Mapping.handlePlan, idle]
  · rename_i notCall notUpdate _
    exact followed.updated_silent notCall notUpdate followed.holds (fun _ => rfl)

theorem permission_plain
    {env : SessionEnvelope} (isPermission : IsPermission env.ev) : Plain env := by
  obtain ⟨id, time, role, turn, subagent, ev⟩ := env
  cases ev <;> first | exact ⟨rfl, rfl, rfl, rfl, rfl⟩ | exact isPermission.elim

theorem permission_scope {env : SessionEnvelope} (isPermission : IsPermission env.ev) :
    contentScope env = none ∧ endedCall env = none := by
  obtain ⟨id, time, role, turn, subagent, ev⟩ := env
  cases ev <;> first | exact ⟨rfl, rfl⟩ | exact isPermission.elim

/-- Requests and resolutions outside of turns may be written at any time. -/
theorem SoundState.permissions {announced : List String} {out : List SessionEnvelope}
    {state : AcpEnvelopeMapperState} (sound : SoundState minting announced out state)
    (written : List SessionEnvelope)
    (free : ∀ env ∈ written, env.turn = none ∧ env.subagent = none ∧ IsPermission env.ev) :
    SoundState minting announced (out ++ written)
      { state with issued := state.issued + written.length } := by
  induction written generalizing out state with
  | nil => simpa using sound
  | cons env rest inductionHypothesis =>
    obtain ⟨noTurn, noScope, isPermission⟩ := free env List.mem_cons_self
    have one := sound.plain (permission_plain isPermission) (by simp [noTurn])
      (by simp [permission_scope isPermission]) 1
    have all := inductionHypothesis one (fun other member => free other (List.mem_cons_of_mem _ member))
    rw [List.append_assoc, List.singleton_append] at all
    simpa [Nat.add_assoc, Nat.add_comm 1] using all

/-- A permission event. -/
theorem Followed.permitted (followed : Followed minting history session)
    (event : AcpPermissionHandler.Event) :
    Followed minting (history ++ [session.handled minting event])
      (session.handled minting event).after := by
  have free := handled_envelopes minting followed.permissions event
  have noCall (pick : Moment → Option String) (none : pick (session.handled minting event) = none) :
      (history ++ [session.handled minting event]).filterMap pick = history.filterMap pick := by
    rw [List.filterMap_append]
    simp [none]
  have length : (session.handled minting event).envelopes.length =
      (emitted ((session.handler.step event).ledger.calls.drop
        session.handler.ledger.calls.length)).length := List.length_mapIdx
  constructor
  · have sound := followed.sound.permissions _ free
    rw [noCall Moment.announced rfl, outgoing_append, outgoing_single]
    rw [length] at sound
    exact sound
  · exact followed.settled
  · rw [noCall Moment.ended rfl, outgoing_append, outgoing_single, List.filterMap_append,
      followed.ends]
    have nothing : (session.handled minting event).envelopes.filterMap endedCall = [] := by
      refine List.filterMap_eq_nil_iff.mpr ?_
      intro env member
      exact (permission_scope (free env member).2.2).2
    rw [nothing, List.append_nil]
  · exact (lawful_snoc _ _).mpr ⟨followed.ordered, nofun⟩
  · exact AcpPermissionHandler.only_step followed.permissions event

/-- One more event. -/
theorem Followed.step (followed : Followed minting history session) (plain : event.Plain) :
    Followed minting (history ++ [session.moment minting event])
      (session.moment minting event).after := by
  have silent {event : AcpEvent} {kind : String} {counts : Json → Bool}
      (noUpdate : ∀ update, event ≠ .update update) (result : Result) :
      (session.mapped event result).callOf kind counts = none := by
    have sameEvent : (session.mapped event result).event = event := by cases result <;> rfl
    unfold Moment.callOf
    rw [sameEvent]
    split
    · rename_i update
      exact absurd rfl (noUpdate update)
    · rfl
  cases event with
  | startAcpTurn =>
    refine followed.mapped_silent rfl rfl ⟨?_, rfl, nofun, rfl⟩ nofun
    exact followed.sound.start_turn 1
  | closeAcpTurnWithStatus status => exact followed.closed status (silent nofun) (silent nofun)
  | endAcpTurn stopReason => exact followed.closed _ (silent nofun) (silent nofun)
  | flushAcpText =>
    refine followed.mapped_silent rfl rfl followed.holds.flush_text.1 ?_
    intro idle call
    rw [flushAcpText, flush_pending_starts]
    exact followed.settled idle call
  | update update => exact followed.updated plain
  | permission event => exact followed.permitted event

end

/-- What holds after every run. -/
theorem followed_run (minting : Minting) (attention : Bool) (events : List AcpEvent)
    (plain : ∀ event ∈ events, event.Plain) :
    Followed minting ((AcpSession.create attention).history minting events)
      ((AcpSession.create attention).final minting events) := by
  induction events using List.reverseRecOn with
  | nil =>
    exact ⟨created_sound minting, fun _ _ => rfl, rfl, lawful_nil, ⟨by rintro _ ⟨⟩⟩⟩
  | append_singleton events event inductionHypothesis =>
    rw [AcpSession.history_snoc, AcpSession.final_snoc]
    exact (inductionHypothesis (fun other member => plain other (List.mem_append_left _ member))).step
      (plain event (List.mem_append_right _ (List.mem_singleton_self event)))

/-- In every run whose updates have kinds that are not inherited, turns, calls and subagents are
bracketed. -/
theorem mapper_brackets (minting : Minting) (attention : Bool) (events : List AcpEvent)
    (plain : ∀ event ∈ events, event.Plain) :
    Bracketed ((AcpSession.create attention).history minting events)
      ((AcpSession.create attention).final minting events) := by
  have followed := followed_run minting attention events plain
  constructor
  · exact followed.sound.lawful
  · intro call announced
    rcases followed.sound.calls.least call announced with started | waits
    · have once := List.count_pos_iff.mpr started
      omega
    · simp [AcpSession.waiting, waits]
  · exact followed.sound.calls.most
  · intro idle call
    simp [AcpSession.waiting, followed.settled idle call]
  · exact followed.ends
  · exact followed.ordered
  · exact followed.sound.apart

/-- A tool call that is announced and never reported to have ended, in a turn that completes. -/
def unfinishedCall : List AcpEvent :=
  [.startAcpTurn,
    .update (.obj [("sessionUpdate", .str "tool_call"), ("toolCallId", .str "t")]),
    .endAcpTurn "end_turn"]

/-- The turn with the unfinished call. -/
theorem unfinished_call_bracketed :
    Bracketed ((AcpSession.create true).history Claude.unaryMinting unfinishedCall)
      ((AcpSession.create true).final Claude.unaryMinting unfinishedCall) := by
  refine mapper_brackets Claude.unaryMinting true unfinishedCall ?_
  simp only [unfinishedCall, List.forall_mem_cons, List.not_mem_nil, false_implies, implies_true,
    and_true]
  exact ⟨trivial, fun same => by contradiction, trivial⟩

/-- The call has no end when the turn is closed. -/
theorem announced_call_unended :
    ¬ ∀ (minting : Minting) (attention : Bool) (events : List AcpEvent),
      ((AcpSession.create attention).final minting events).mapper.currentTurnId = none →
      ∀ call ∈ ((AcpSession.create attention).history minting events).filterMap Moment.announced,
        call ∈ (outgoing ((AcpSession.create attention).history minting events)).filterMap
          endedCall := by
  intro always
  have announced : ((AcpSession.create true).history Claude.unaryMinting
      unfinishedCall).filterMap Moment.announced = ["xxx"] := by decide
  have nothing : (outgoing ((AcpSession.create true).history Claude.unaryMinting
      unfinishedCall)).filterMap endedCall = [] := by decide
  have ended := always Claude.unaryMinting true unfinishedCall (by decide) "xxx" (by
    rw [announced]
    exact List.mem_singleton_self _)
  rw [nothing] at ended
  contradiction

end Kvy.Cli.Acp
