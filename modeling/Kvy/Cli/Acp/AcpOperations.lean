import Kvy.Cli.Acp.AcpBrackets

/-!
# What the operations of the mapper keep

A call of the mapper starts from a sound state and goes through operations: it mints identifiers,
starts and stops subagents, writes the text and the calls that are held back and closes the turn. Each
operation keeps what the call may rely on.
-/

namespace Kvy.Cli.Acp

open General Wire Streams
open Claude (Minting PickedRisk addTo IsDrawn)

variable {minting : Minting}

/-- What a call of the mapper may rely on: what was written before it, what has been announced,
the current turn, the identifiers it looked up, and the calls that it ended. -/
structure Course where
  past : List SessionEnvelope
  announced : List String
  turn : Option String
  filed : List (String × String)
  ends : List String

/-- A call under way. -/
structure Holds (minting : Minting) (course : Course) (mapping : Mapping) : Prop where
  sound : SoundState minting course.announced (course.past ++ mapping.envelopes) mapping.state
  current : mapping.state.currentTurnId = course.turn
  filed : ∀ entry ∈ course.filed, mapping.state.providerIds.get? entry.1 = some entry.2
  ends : mapping.envelopes.filterMap endedCall = course.ends

/-! ## What the operations leave alone -/

section
variable (mapping : Mapping) (turn : String) (scope : Option String)

@[simp] theorem start_provider_ids :
    (mapping.maybeEmitSubagentStart minting turn scope).state.providerIds =
      mapping.state.providerIds := by
  cases scope with
  | none => rfl
  | some subagent =>
    unfold Mapping.maybeEmitSubagentStart
    simp only
    split <;> rfl

@[simp] theorem start_pending_starts :
    (mapping.maybeEmitSubagentStart minting turn scope).state.pendingToolStarts =
      mapping.state.pendingToolStarts := by
  cases scope with
  | none => rfl
  | some subagent =>
    unfold Mapping.maybeEmitSubagentStart
    simp only
    split <;> rfl

@[simp] theorem flush_provider_ids :
    (mapping.flushPendingText minting).state.providerIds = mapping.state.providerIds := by
  unfold Mapping.flushPendingText
  split
  · rfl
  · simp only
    split
    · rfl
    · simp [Mapping.emit]

@[simp] theorem flush_pending_starts :
    (mapping.flushPendingText minting).state.pendingToolStarts =
      mapping.state.pendingToolStarts := by
  unfold Mapping.flushPendingText
  split
  · rfl
  · simp only
    split
    · rfl
    · simp [Mapping.emit]

@[simp] theorem stop_pending_starts (subagent : String) :
    (mapping.maybeEmitSubagentStop minting turn subagent).state.pendingToolStarts =
      mapping.state.pendingToolStarts := by
  unfold Mapping.maybeEmitSubagentStop
  split <;> rfl

@[simp] theorem minted_pending_starts (providerId : String) :
    (mapping.mintedId minting providerId).2.state.pendingToolStarts =
      mapping.state.pendingToolStarts := by
  unfold Mapping.mintedId
  split <;> rfl

@[simp] theorem resolve_pending_starts (update : Json) :
    (mapping.resolveEnvelopeSubagent minting update).2.state.pendingToolStarts =
      mapping.state.pendingToolStarts := by
  unfold Mapping.resolveEnvelopeSubagent
  split <;> simp

/-- A known identifier stays known. -/
theorem known_minted {id : String} (known : Known mapping.state.providerIds id)
    (providerId : String) : Known (mapping.mintedId minting providerId).2.state.providerIds id := by
  unfold Mapping.mintedId
  split
  · exact known
  · rename_i absent
    obtain ⟨other, held⟩ := known
    refine ⟨other, ?_⟩
    rw [OrderedMap.get_set, if_neg ?_, held]
    rintro rfl
    rw [absent] at held
    contradiction

/-- Dropping a start that is held back and starting a subagent commute. -/
theorem start_dropped (call : String) :
    Mapping.maybeEmitSubagentStart minting { mapping with state := { mapping.state with
      pendingToolStarts := mapping.state.pendingToolStarts.delete call } } turn scope =
    { mapping.maybeEmitSubagentStart minting turn scope with
      state := { (mapping.maybeEmitSubagentStart minting turn scope).state with
        pendingToolStarts := (mapping.maybeEmitSubagentStart minting turn
          scope).state.pendingToolStarts.delete call } } := by
  cases scope with
  | none => rfl
  | some subagent =>
    unfold Mapping.maybeEmitSubagentStart
    simp only
    split <;> rfl

end

namespace Holds
variable {course : Course} {mapping : Mapping}

variable {turn : String}

/-- The current turn is open. -/
theorem is_open (holds : Holds minting course mapping)
    (current : course.turn = some turn) : OpenTurn (course.past ++ mapping.envelopes) turn :=
  holds.sound.held.current turn (holds.current.trans current)

/-- A known identifier is found or drawn. -/
theorem mint (holds : Holds minting course mapping) (providerId : String) :
    Holds minting
      { course with filed := (providerId, (mapping.mintedId minting providerId).1) :: course.filed }
      (mapping.mintedId minting providerId).2 := by
  unfold Mapping.mintedId
  split
  · rename_i existing held
    exact ⟨holds.sound, holds.current, List.forall_mem_cons.mpr ⟨held, holds.filed⟩, holds.ends⟩
  · rename_i absent
    refine ⟨holds.sound.mint absent, holds.current, List.forall_mem_cons.mpr ⟨by simp, ?_⟩,
      holds.ends⟩
    intro entry member
    have held := holds.filed entry member
    simp only [OrderedMap.get_set]
    split
    · rename_i same
      rw [same, absent] at held
      contradiction
    · exact held

/-- A looked up identifier is known. -/
theorem known (holds : Holds minting course mapping) {providerId id : String}
    (filed : (providerId, id) ∈ course.filed) : Known mapping.state.providerIds id :=
  ⟨providerId, holds.filed _ filed⟩

/-- Less may be relied on. -/
theorem forget (holds : Holds minting course mapping) {fewer : List (String × String)}
    (less : fewer ⊆ course.filed) : Holds minting { course with filed := fewer } mapping :=
  ⟨holds.sound, holds.current, fun entry member => holds.filed entry (less member), holds.ends⟩

variable {scope : Option String}

/-- A subagent starts before what is written in its scope. -/
theorem start_subagent
    (holds : Holds minting course mapping)     (isOpen : OpenTurn (course.past ++ mapping.envelopes) turn)
    (known : KnownScope mapping.state.providerIds scope) :
    Holds minting course (mapping.maybeEmitSubagentStart minting turn scope) ∧
      (∀ subagent, scope = some subagent → subagent ∈ (course.past ++
        (mapping.maybeEmitSubagentStart minting turn scope).envelopes).filterMap startedSubagent) ∧
      ∀ turn', OpenTurn (course.past ++ mapping.envelopes) turn' → OpenTurn (course.past ++
        (mapping.maybeEmitSubagentStart minting turn scope).envelopes) turn' := by
  cases scope with
  | none => exact ⟨holds, nofun, fun _ isOpen => isOpen⟩
  | some subagent =>
    unfold Mapping.maybeEmitSubagentStart
    simp only
    split
    · rename_i started
      refine ⟨holds, ?_, fun _ isOpen => isOpen⟩
      rintro _ ⟨⟩
      exact holds.sound.subagents.hasStarted subagent started
    · rename_i fresh
      simp only [Mapping.emit]
      refine ⟨⟨?_, holds.current, holds.filed, ?_⟩, ?_, ?_⟩
      · rw [← List.append_assoc]
        exact holds.sound.start_subagent isOpen (known subagent rfl) fresh 1
      · rw [picked_snoc]
        simpa only [endedCall, Option.toList_none, List.append_nil] using holds.ends
      · rintro _ ⟨⟩
        rw [← List.append_assoc, picked_snoc]
        exact List.mem_append_right _ (List.mem_singleton_self _)
      · intro other isOpen
        rw [← List.append_assoc]
        exact isOpen.snoc nofun

/-- A plain envelope of an open turn. -/
theorem emit
    (holds : Holds minting course mapping)     (ended : Option String) {ev : SessionEvent} (isOpen : OpenTurn (course.past ++ mapping.envelopes) turn)
    (plain : ∀ id time, Plain ⟨id, time, .agent, some turn, scope, ev⟩)
    (started : ∀ id time subagent,
      contentScope ⟨id, time, .agent, some turn, scope, ev⟩ = some subagent →
      subagent ∈ (course.past ++ mapping.envelopes).filterMap startedSubagent)
    (ends : ∀ id time, endedCall ⟨id, time, .agent, some turn, scope, ev⟩ = ended) :
    Holds minting { course with ends := course.ends ++ ended.toList }
      (mapping.emit minting turn scope ev) where
  sound := by
    simp only [Mapping.emit, ← List.append_assoc]
    refine holds.sound.plain (plain _ _) ?_ (started _ _) 1
    rintro _ ⟨⟩
    exact isOpen
  current := holds.current
  filed := holds.filed
  ends := by
    simp only [Mapping.emit]
    rw [picked_snoc, holds.ends, ends]

/-- A plain envelope of an open turn that ends no call. -/
theorem write
    (holds : Holds minting course mapping)     {ev : SessionEvent} (isOpen : OpenTurn (course.past ++ mapping.envelopes) turn)
    (plain : ∀ id time, Plain ⟨id, time, .agent, some turn, scope, ev⟩)
    (started : ∀ id time subagent,
      contentScope ⟨id, time, .agent, some turn, scope, ev⟩ = some subagent →
      subagent ∈ (course.past ++ mapping.envelopes).filterMap startedSubagent)
    (ends : ∀ id time, endedCall ⟨id, time, .agent, some turn, scope, ev⟩ = none) :
    Holds minting course (mapping.emit minting turn scope ev) := by
  have written := holds.emit none isOpen plain started ends
  simpa only [Option.toList_none, List.append_nil] using written

/-- What is held back may change while a call is under way. -/
theorem hold_back (holds : Holds minting course mapping) {text : Option PendingTextRun}
    {starts : OrderedMap String PendingToolStart} {scopes : OrderedMap String String}
    {calls : List String}
    (held : HeldBack (course.past ++ mapping.envelopes) mapping.state.providerIds
      mapping.state.currentTurnId text starts scopes)
    (drawn : ∀ call ∈ calls, IsDrawn minting mapping.state.issued call)
    (waits : Calls calls ((course.past ++ mapping.envelopes).filterMap startedCall) starts.has) :
    Holds minting { course with announced := calls } { mapping with state := { mapping.state with
      pendingText := text, pendingToolStarts := starts, subagentByCall := scopes } } where
  sound := holds.sound.hold_back held drawn waits
  current := holds.current
  filed := holds.filed
  ends := holds.ends

/-- The open run of text may be exchanged for one that can be written, or for none. -/
theorem hold_text (holds : Holds minting course mapping) {text : Option PendingTextRun}
    (fits : ∀ run, text = some run → OpenTurn (course.past ++ mapping.envelopes) run.turn ∧
      KnownScope mapping.state.providerIds run.subagent) :
    Holds minting course { mapping with state := { mapping.state with pendingText := text } } :=
  holds.hold_back ⟨holds.sound.held.current, fits, holds.sound.held.starts, holds.sound.held.scopes⟩
    holds.sound.drawn.calls holds.sound.calls

/-- Text is written in its turn and its scope. -/
theorem flush_text (holds : Holds minting course mapping) :
    Holds minting course (mapping.flushPendingText minting) ∧
      ∀ turn, OpenTurn (course.past ++ mapping.envelopes) turn →
        OpenTurn (course.past ++ (mapping.flushPendingText minting).envelopes) turn := by
  unfold Mapping.flushPendingText
  split
  · exact ⟨holds, fun _ isOpen => isOpen⟩
  · rename_i run pending
    obtain ⟨isOpen, known⟩ := holds.sound.held.text run pending
    have cleared := holds.hold_text (fun _ (absent : none = some _) => nomatch absent)
    simp only
    split
    · exact ⟨cleared, fun _ isOpen => isOpen⟩
    · obtain ⟨started, inScope, stays⟩ := cleared.start_subagent isOpen known
      refine ⟨?_, ?_⟩
      · exact started.write (stays run.turn isOpen) (fun _ _ => ⟨rfl, rfl, rfl, rfl, rfl⟩)
          (fun _ _ => inScope) (fun _ _ => rfl)
      · intro turn isOpen
        simp only [Mapping.emit, ← List.append_assoc]
        exact (stays turn isOpen).snoc nofun

/-- A start that waits is written, and waits no more. -/
theorem start_call (holds : Holds minting course mapping) (pending : PendingToolStart)
    (waits : mapping.state.pendingToolStarts.get? pending.call = some pending) :
    ∃ started, mapping.emitPendingToolStart minting pending = .ok started ∧
      Holds minting course started ∧
      started.state.pendingToolStarts = mapping.state.pendingToolStarts.delete pending.call ∧
      started.state.providerIds = mapping.state.providerIds ∧
      ∀ turn, OpenTurn (course.past ++ mapping.envelopes) turn →
        OpenTurn (course.past ++ started.envelopes) turn := by
  obtain ⟨_, isOpen, known, fits⟩ := holds.sound.held.starts _ _ waits
  obtain ⟨started, inScope, stays⟩ := holds.start_subagent isOpen known
  have still : (mapping.maybeEmitSubagentStart minting pending.turn
      pending.subagent).state.pendingToolStarts.has pending.call = true := by
    simp [OrderedMap.has, waits]
  have written (risk : Option ToolRisk) :
      let next := Mapping.emit minting { mapping.maybeEmitSubagentStart minting pending.turn
        pending.subagent with
        state := { (mapping.maybeEmitSubagentStart minting pending.turn pending.subagent).state with
          pendingToolStarts := (mapping.maybeEmitSubagentStart minting pending.turn
            pending.subagent).state.pendingToolStarts.delete pending.call } }
        pending.turn pending.subagent
        (.toolStart pending.call pending.name pending.title (some (.obj pending.args)) risk)
      Holds minting course next ∧
        next.state.pendingToolStarts = mapping.state.pendingToolStarts.delete pending.call ∧
        next.state.providerIds = mapping.state.providerIds ∧
        ∀ turn, OpenTurn (course.past ++ mapping.envelopes) turn →
          OpenTurn (course.past ++ next.envelopes) turn := by
    refine ⟨⟨?_, started.current, started.filed, ?_⟩, by simp [Mapping.emit], by simp [Mapping.emit],
      ?_⟩
    · simp only [Mapping.emit, ← List.append_assoc]
      exact started.sound.start_call (stays _ isOpen) inScope still _ _ _ _ 1
    · simp only [Mapping.emit]
      rw [picked_snoc]
      simpa only [endedCall, Option.toList_none, List.append_nil] using started.ends
    · intro turn isOpen
      simp only [Mapping.emit, ← List.append_assoc]
      exact (stays turn isOpen).snoc (by simp [endedTurn])
  unfold Mapping.emitPendingToolStart
  simp only [start_dropped]
  cases ofRisk : pending.risk with
  | inherited => exact absurd ofRisk fits
  | absent => exact ⟨_, rfl, written none⟩
  | risk risk => exact ⟨_, rfl, written (some risk)⟩

/-- Starts that wait are written one after the other. -/
theorem start_calls (holds : Holds minting course mapping)
    (entries : List (String × PendingToolStart))
    (waiting : mapping.state.pendingToolStarts.entries = entries) :
    ∃ started, (entries.map Prod.snd).foldlM (Mapping.emitPendingToolStart minting) mapping =
        .ok started ∧
      Holds minting course started ∧ started.state.pendingToolStarts.entries = [] ∧
      ∀ turn, OpenTurn (course.past ++ mapping.envelopes) turn →
        OpenTurn (course.past ++ started.envelopes) turn := by
  induction entries generalizing mapping with
  | nil => exact ⟨mapping, rfl, holds, waiting, fun _ isOpen => isOpen⟩
  | cons entry rest inductionHypothesis =>
    obtain ⟨call, pending⟩ := entry
    have held : mapping.state.pendingToolStarts.get? call = some pending :=
      (OrderedMap.mem_entries _ call pending).mp (waiting ▸ List.mem_cons_self)
    obtain rfl := (holds.sound.held.starts call pending held).1
    obtain ⟨first, ran, firstHolds, dropped, _, stays⟩ := holds.start_call _ held
    have others : first.state.pendingToolStarts.entries = rest := by
      have distinct := mapping.state.pendingToolStarts.distinct
      rw [waiting, List.map_cons, List.nodup_cons] at distinct
      rw [dropped]
      simp only [OrderedMap.delete, OrderedMap.filter, waiting, List.filter_cons, ne_eq,
        not_true_eq_false, decide_false, Bool.false_eq_true, ↓reduceIte, List.filter_eq_self,
        decide_eq_true_eq]
      intro other member same
      exact distinct.1 (List.mem_map.mpr ⟨other, member, same⟩)
    obtain ⟨last, rested, lastHolds, nothing, remains⟩ := inductionHypothesis firstHolds others
    refine ⟨last, ?_, lastHolds, nothing, fun turn isOpen => remains turn (stays turn isOpen)⟩
    rw [List.map_cons, List.foldlM_cons, ran]
    exact rested

/-- The scope of an update is known. -/
theorem resolve (holds : Holds minting course mapping) (update : Json) :
    Holds minting course (mapping.resolveEnvelopeSubagent minting update).2 ∧
      KnownScope (mapping.resolveEnvelopeSubagent minting update).2.state.providerIds
        (mapping.resolveEnvelopeSubagent minting update).1 := by
  unfold Mapping.resolveEnvelopeSubagent
  split
  · rename_i parent toolCall _ _
    have minted := (holds.mint parent).mint toolCall
    have known := minted.known (List.mem_cons_of_mem _ List.mem_cons_self)
    refine ⟨(minted.hold_back ⟨minted.sound.held.current, minted.sound.held.text,
      minted.sound.held.starts, ?_⟩ minted.sound.drawn.calls minted.sound.calls).forget
      (fun _ member => List.mem_cons_of_mem _ (List.mem_cons_of_mem _ member)), ?_⟩
    · intro call subagent held
      rw [OrderedMap.get_set] at held
      split at held
      · cases held
        exact known
      · exact minted.sound.held.scopes call subagent held
    · rintro _ ⟨⟩
      exact known
  · rename_i parent _ _
    have minted := holds.mint parent
    refine ⟨minted.forget (List.subset_cons_self ..), ?_⟩
    rintro _ ⟨⟩
    exact minted.known List.mem_cons_self
  · rename_i toolCall _ _
    have minted := holds.mint toolCall
    exact ⟨minted.forget (List.subset_cons_self ..), minted.sound.held.scopes _⟩
  · exact ⟨holds, by rintro _ ⟨⟩⟩

/-- A chunk of text is held back. -/
theorem add_text
    (holds : Holds minting course mapping)     (isOpen : OpenTurn (course.past ++ mapping.envelopes) turn)
    (known : KnownScope mapping.state.providerIds scope) (thinking : Bool) (messageId : Option String)
    (text : String) :
    Holds minting course (mapping.addText minting turn scope thinking messageId text) := by
  unfold Mapping.addText
  split
  · rename_i run continued
    have pending := (Option.filter_eq_some_iff.mp continued).1
    refine holds.hold_text ?_
    rintro _ ⟨⟩
    exact holds.sound.held.text run pending
  · obtain ⟨flushed, stays⟩ := holds.flush_text
    refine flushed.hold_text ?_
    rintro _ ⟨⟩
    exact ⟨stays turn isOpen, by simpa using known⟩

/-- The start of an announced call is held back. -/
theorem announce (holds : Holds minting course mapping) (pending : PendingToolStart)
    (isOpen : OpenTurn (course.past ++ mapping.envelopes) pending.turn)
    (known : KnownScope mapping.state.providerIds pending.subagent)
    (fits : pending.risk ≠ .inherited) (filed : Known mapping.state.providerIds pending.call) :
    Holds minting { course with announced := course.announced ++ [pending.call] }
      (mapping.hold pending) := by
  refine holds.hold_back ⟨holds.sound.held.current, holds.sound.held.text, ?_,
    holds.sound.held.scopes⟩ ?_ ?_
  · intro call held waits
    rw [OrderedMap.get_set] at waits
    split at waits
    · cases waits
      exact ⟨Eq.symm ‹_›, isOpen, known, fits⟩
    · exact holds.sound.held.starts call held waits
  · intro call member
    rcases List.mem_append.mp member with before | now
    · exact holds.sound.drawn.calls call before
    · exact List.mem_singleton.mp now ▸ holds.sound.drawn.known _ filed
  · rw [OrderedMap.has_set]
    exact holds.sound.calls.announce pending.call

/-- A start that is held back may be refined. -/
theorem refine_start (holds : Holds minting course mapping) {pending refined : PendingToolStart}
    (waits : mapping.state.pendingToolStarts.get? pending.call = some pending)
    (sameCall : refined.call = pending.call) (sameTurn : refined.turn = pending.turn)
    (sameScope : refined.subagent = pending.subagent) (fits : refined.risk ≠ .inherited) :
    Holds minting course (mapping.hold refined) := by
  have same : (mapping.state.pendingToolStarts.set refined.call refined).has =
      mapping.state.pendingToolStarts.has := by
    rw [OrderedMap.has_set, sameCall]
    funext call
    by_cases isCall : call = pending.call
    · simp [isCall, OrderedMap.has, waits]
    · simp [isCall]
  obtain ⟨_, isOpen, known, _⟩ := holds.sound.held.starts _ _ waits
  refine holds.hold_back ⟨holds.sound.held.current, holds.sound.held.text, ?_,
    holds.sound.held.scopes⟩ holds.sound.drawn.calls (by rw [same]; exact holds.sound.calls)
  intro call held other
  rw [OrderedMap.get_set] at other
  split at other
  · cases other
    exact ⟨Eq.symm ‹_›, sameTurn ▸ isOpen, sameScope ▸ known, fits⟩
  · exact holds.sound.held.starts call held other

/-- An active subagent stops. -/
theorem stop_subagent (holds : Holds minting course mapping)
    (current : course.turn = some turn) (subagent : String) :
    Holds minting course (mapping.maybeEmitSubagentStop minting turn subagent) := by
  unfold Mapping.maybeEmitSubagentStop
  split
  · rename_i active
    refine ⟨?_, holds.current, holds.filed, ?_⟩
    · simp only [Mapping.emit, ← List.append_assoc]
      exact holds.sound.stop_subagent (holds.is_open current) active 1
    · simp only [Mapping.emit]
      rw [picked_snoc]
      simpa only [endedCall, Option.toList_none, List.append_nil] using holds.ends
  · exact holds

/-- The active subagents stop one after the other; the rest are those that have not stopped yet. -/
theorem stop_rest (current : course.turn = some turn) (rest : List String) (mapping : Mapping)
    (holds : Holds minting course
      { mapping with state := { mapping.state with activeSubagents := rest } }) :
    let stopped := rest.foldl
      (fun mapping subagent => mapping.emit minting turn (some subagent) .subStop) mapping
    Holds minting course { stopped with state := { stopped.state with activeSubagents := [] } } ∧
      stopped.state.pendingToolStarts = mapping.state.pendingToolStarts := by
  induction rest generalizing mapping with
  | nil => exact ⟨holds, rfl⟩
  | cons subagent rest inductionHypothesis =>
    have distinct := List.nodup_cons.mp holds.sound.subagents.distinct
    have others : (subagent :: rest).filter (· ≠ subagent) = rest := by
      simp only [ne_eq, List.filter_cons, not_true_eq_false, decide_false, Bool.false_eq_true,
        ↓reduceIte, List.filter_eq_self, decide_eq_true_eq]
      intro other member same
      exact distinct.1 (same ▸ member)
    refine inductionHypothesis (mapping.emit minting turn (some subagent) .subStop)
      ⟨?_, holds.current, holds.filed, ?_⟩
    · simp only [Mapping.emit, ← List.append_assoc]
      simpa only [others] using
        holds.sound.stop_subagent (holds.is_open current) List.mem_cons_self 1
    simp only [Mapping.emit]
    rw [picked_snoc]
    simpa only [endedCall, Option.toList_none, List.append_nil] using holds.ends

/-- A turn that is closed has written what was held back, and its subagents have stopped. -/
theorem close_turn (holds : Holds minting course mapping)
    (current : course.turn = some turn) (status : TurnStatus) :
    ∃ closed, mapping.closeTurn minting turn status = .ok closed ∧
      Holds minting { course with turn := none, filed := [] } closed ∧
      closed.state.pendingToolStarts = .empty := by
  obtain ⟨flushed, _⟩ := holds.flush_text
  obtain ⟨started, ran, startedHolds, nothing, _⟩ := flushed.start_calls _ rfl
  obtain ⟨stopped, same⟩ : Holds minting course (started.emitActiveSubagentStops minting turn) ∧ _ :=
    stop_rest current started.state.activeSubagents started startedHolds
  have settled (call : String) :
      (started.emitActiveSubagentStops minting turn).state.pendingToolStarts.has call = false := by
    have empty : (started.emitActiveSubagentStops minting turn).state.pendingToolStarts =
        started.state.pendingToolStarts := same
    rw [empty]
    simp [OrderedMap.has, OrderedMap.get?, nothing]
  have closes : mapping.closeTurn minting turn status = .ok
      ((started.emitActiveSubagentStops minting turn).endTurn minting turn status) := by
    unfold Mapping.closeTurn Mapping.flushPendingToolStarts
    rw [ran]
    rfl
  refine ⟨_, closes, ⟨?_, rfl, fun _ member => absurd member List.not_mem_nil, ?_⟩, rfl⟩
  · simp only [Mapping.endTurn, Mapping.emit, ← List.append_assoc]
    exact stopped.sound.end_turn (stopped.is_open current) settled rfl status 1
  · simp only [Mapping.endTurn, Mapping.emit]
    rw [picked_snoc]
    simpa only [endedCall, Option.toList_none, List.append_nil] using stopped.ends

end Holds

end Kvy.Cli.Acp
