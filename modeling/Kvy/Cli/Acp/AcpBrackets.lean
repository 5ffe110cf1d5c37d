import Kvy.Cli.Acp.AcpTimeline
import Kvy.Cli.Claude.SubagentIds

/-!
# SoundState states of the mapper

A state is sound for what was announced and written so far: its identifiers are drawn, what it
holds back belongs to turns that are open, its subagents are those that have started and not
stopped, and each announced call has started or waits. Every operation of the mapper keeps the
state sound for what it adds.
-/

namespace Kvy.Cli.Acp

open General Wire Streams
open Claude (Minting PickedRisk addTo IsDrawn fresh_id)

variable {minting : Minting}

/-- The identifier is one of the current turn's tool calls or subagents. -/
def Known (providerIds : OrderedMap String String) (id : String) : Prop :=
  ∃ providerId, providerIds.get? providerId = some id

/-- The turn has started and has not ended. -/
def OpenTurn (out : List SessionEnvelope) (turn : String) : Prop :=
  turn ∈ out.filterMap startedTurn ∧ turn ∉ out.filterMap endedTurn

/-! ## SoundState states -/

/-- Every identifier in use was drawn. -/
structure DrawnIds (minting : Minting) (announced : List String) (out : List SessionEnvelope)
    (issued : Nat) (ids : OrderedMap String String) : Prop where
  turns : ∀ env ∈ out, ∀ turn, env.turn = some turn → IsDrawn minting issued turn
  subagents : ∀ subagent ∈ out.filterMap startedSubagent, IsDrawn minting issued subagent
  calls : ∀ call ∈ announced, IsDrawn minting issued call
  known : ∀ id, Known ids id → IsDrawn minting issued id

/-- A subagent, if there is one, is known. -/
def KnownScope (ids : OrderedMap String String) (scope : Option String) : Prop :=
  ∀ subagent, scope = some subagent → Known ids subagent

/-- What is held back can still be written. -/
structure HeldBack (out : List SessionEnvelope) (ids : OrderedMap String String)
    (current : Option String) (text : Option PendingTextRun)
    (starts : OrderedMap String PendingToolStart) (scopes : OrderedMap String String) : Prop where
  current : ∀ turn, current = some turn → OpenTurn out turn
  text : ∀ run, text = some run → OpenTurn out run.turn ∧ KnownScope ids run.subagent
  starts : ∀ call pending, starts.get? call = some pending → pending.call = call ∧
    OpenTurn out pending.turn ∧ KnownScope ids pending.subagent ∧ pending.risk ≠ .inherited
  scopes : ∀ call, KnownScope ids (scopes.get? call)

/-- The subagents that are started and active are those that have started and not stopped. -/
structure Subagents (starts stops : List String) (known : String → Prop)
    (started active : List String) : Prop where
  hasStarted : ∀ subagent ∈ started, subagent ∈ starts
  remembered : ∀ subagent, known subagent → subagent ∈ starts → subagent ∈ started
  running : ∀ subagent, subagent ∈ active ↔ subagent ∈ starts ∧ subagent ∉ stops
  distinct : active.Nodup
  inOrder : ∀ subagent ∈ stops, subagent ∈ starts

/-- Each announced call has started or waits, at most as often as it was announced. -/
structure Calls (announced starts : List String) (waits : String → Bool) : Prop where
  least : ∀ call ∈ announced, call ∈ starts ∨ waits call = true
  most : ∀ call, starts.count call + (waits call).toNat ≤ announced.count call

/-- A state that is sound for what was announced and written. -/
structure SoundState (minting : Minting) (announced : List String) (out : List SessionEnvelope)
    (state : AcpEnvelopeMapperState) : Prop where
  lawful : Lawful Fits out
  drawn : DrawnIds minting announced out state.issued state.providerIds
  apart : ∀ first second call, state.providerIds.get? first = some call →
    state.providerIds.get? second = some call → first = second
  held : HeldBack out state.providerIds state.currentTurnId state.pendingText
    state.pendingToolStarts state.subagentByCall
  subagents : Subagents (out.filterMap startedSubagent) (out.filterMap stoppedSubagent)
    (Known state.providerIds) state.startedSubagents state.activeSubagents
  calls : Calls announced (out.filterMap startedCall) state.pendingToolStarts.has

/-- The state of a new mapper is sound. -/
theorem created_sound
    (minting : Minting) : SoundState minting [] [] createAcpEnvelopeMapperState where
  lawful := lawful_nil
  drawn := ⟨by simp, by simp, by simp, by rintro id ⟨_, ⟨⟩⟩⟩
  apart := by rintro first second call ⟨⟩
  held := ⟨by rintro turn ⟨⟩, by rintro run ⟨⟩, by rintro call pending ⟨⟩, by rintro call _ ⟨⟩⟩
  subagents := ⟨nofun, by rintro id ⟨_, ⟨⟩⟩, by simp [createAcpEnvelopeMapperState], List.nodup_nil, nofun⟩
  calls := ⟨by simp, by simp [createAcpEnvelopeMapperState, OrderedMap.has]⟩

/-! ## One more envelope -/

section
variable {announced : List String} {out : List SessionEnvelope} {state : AcpEnvelopeMapperState}

/-- What one more envelope adds to a list that is picked from the envelopes. -/
theorem picked_snoc (pick : SessionEnvelope → Option String) (out : List SessionEnvelope)
    (env : SessionEnvelope) :
    (out ++ [env]).filterMap pick = out.filterMap pick ++ (pick env).toList := by
  rw [List.filterMap_append]
  cases held : pick env <;> simp [held]

/-- A turn that is written to was drawn. -/
theorem OpenTurn.drawn {issued : Nat} {ids : OrderedMap String String}
    (drawn : DrawnIds minting announced out issued ids) {turn : String} (isOpen : OpenTurn out turn) :
    IsDrawn minting issued turn := by
  obtain ⟨env, member, starts⟩ := List.mem_filterMap.mp isOpen.1
  refine drawn.turns env member turn ?_
  unfold startedTurn at starts
  split at starts
  · exact starts
  · contradiction

variable {env : SessionEnvelope}

/-- An open turn stays open under an envelope that ends another turn or none. -/
theorem OpenTurn.snoc {turn : String} (isOpen : OpenTurn out turn)
    (other : endedTurn env ≠ some turn) : OpenTurn (out ++ [env]) turn := by
  obtain ⟨started, notEnded⟩ := isOpen
  refine ⟨?_, ?_⟩
  · rw [picked_snoc]
    exact List.mem_append_left _ started
  · rw [picked_snoc, List.mem_append, Option.mem_toList, not_or]
    exact ⟨notEnded, other⟩

/-- Identifiers stay drawn when a further envelope uses drawn ones. -/
theorem DrawnIds.snoc {issued more : Nat} {ids : OrderedMap String String}
    (drawn : DrawnIds minting announced out issued ids)
    (turn : ∀ turn, env.turn = some turn → IsDrawn minting (issued + more) turn)
    (subagent : ∀ subagent, startedSubagent env = some subagent → IsDrawn minting issued subagent) :
    DrawnIds minting announced (out ++ [env]) (issued + more) ids where
  turns := by
    intro held member heldTurn ofTurn
    rcases List.mem_append.mp member with before | now
    · exact (drawn.turns held before heldTurn ofTurn).later (Nat.le_add_right ..)
    · obtain rfl := List.mem_singleton.mp now
      exact turn heldTurn ofTurn
  subagents := by
    intro started member
    rw [picked_snoc] at member
    rcases List.mem_append.mp member with before | now
    · exact (drawn.subagents started before).later (Nat.le_add_right ..)
    · exact (subagent started (Option.mem_toList.mp now)).later (Nat.le_add_right ..)
  calls := fun call member => (drawn.calls call member).later (Nat.le_add_right ..)
  known := fun id known => (drawn.known id known).later (Nat.le_add_right ..)

/-- Forgetting the identifiers in use. -/
theorem DrawnIds.forget {issued : Nat} {ids : OrderedMap String String}
    (drawn : DrawnIds minting announced out issued ids) :
    DrawnIds minting announced out issued .empty where
  turns := drawn.turns
  subagents := drawn.subagents
  calls := drawn.calls
  known := by rintro id ⟨_, ⟨⟩⟩

section
variable {ids scopes : OrderedMap String String} {current : Option String}
  {text : Option PendingTextRun} {starts : OrderedMap String PendingToolStart}

/-- What is held back can be written while its turns stay open. -/
theorem HeldBack.snoc (held : HeldBack out ids current text starts scopes)
    (noEnd : endedTurn env = none) : HeldBack (out ++ [env]) ids current text starts scopes := by
  have stays (turn : String) (isOpen : OpenTurn out turn) : OpenTurn (out ++ [env]) turn :=
    isOpen.snoc (by simp [noEnd])
  constructor
  · exact fun turn isCurrent => stays turn (held.current turn isCurrent)
  · intro run pending
    obtain ⟨isOpen, known⟩ := held.text run pending
    exact ⟨stays run.turn isOpen, known⟩
  · intro call pending waits
    obtain ⟨same, isOpen, known, fits⟩ := held.starts call pending waits
    exact ⟨same, stays pending.turn isOpen, known, fits⟩
  · exact held.scopes

/-- Another turn may be the current one. -/
theorem HeldBack.switch (held : HeldBack out ids current text starts scopes) {next : Option String}
    (isOpen : ∀ turn, next = some turn → OpenTurn out turn) :
    HeldBack out ids next text starts scopes where
  current := isOpen
  text := held.text
  starts := held.starts
  scopes := held.scopes

/-- A start that is no longer held back. -/
theorem HeldBack.drop (held : HeldBack out ids current text starts scopes) (call : String) :
    HeldBack out ids current text (starts.delete call) scopes where
  current := held.current
  text := held.text
  starts := by
    intro other pending waits
    rw [OrderedMap.get_delete] at waits
    split at waits
    · contradiction
    · exact held.starts other pending waits
  scopes := held.scopes

/-- More identifiers may be known. -/
theorem HeldBack.known (held : HeldBack out ids current text starts scopes)
    {more : OrderedMap String String} (keeps : ∀ id, Known ids id → Known more id) :
    HeldBack out more current text starts scopes where
  current := held.current
  text := by
    intro run pending
    obtain ⟨isOpen, known⟩ := held.text run pending
    exact ⟨isOpen, fun subagent ofRun => keeps subagent (known subagent ofRun)⟩
  starts := by
    intro call pending waits
    obtain ⟨same, isOpen, known, fits⟩ := held.starts call pending waits
    exact ⟨same, isOpen, fun subagent ofStart => keeps subagent (known subagent ofStart), fits⟩
  scopes := fun call subagent held_scope => keeps subagent (held.scopes call subagent held_scope)

end

/-- An envelope that neither starts nor ends a turn, a subagent or a call. -/
structure Plain (env : SessionEnvelope) : Prop where
  startsTurn : startedTurn env = none
  endsTurn : endedTurn env = none
  startsSubagent : startedSubagent env = none
  stopsSubagent : stoppedSubagent env = none
  startsCall : startedCall env = none

/-- A plain envelope of an open turn, or of none, keeps the state sound. -/
theorem SoundState.plain (sound : SoundState minting announced out state)
    (plain : Plain env) (inTurn : ∀ turn, env.turn = some turn → OpenTurn out turn)
    (scope : ∀ subagent, contentScope env = some subagent →
      subagent ∈ out.filterMap startedSubagent) (more : Nat) :
    SoundState minting announced (out ++ [env]) { state with issued := state.issued + more } where
  lawful := by
    refine (lawful_snoc out env).mpr ⟨sound.lawful, ?_, fun turn ofTurn _ => inTurn turn ofTurn, ?_,
      scope, ?_, ?_⟩
    · simp [plain.startsTurn]
    · simp [plain.startsSubagent]
    · simp [plain.stopsSubagent]
    · simp [plain.endsTurn]
  drawn := by
    refine sound.drawn.snoc ?_ (by simp [plain.startsSubagent])
    exact fun turn ofTurn => ((inTurn turn ofTurn).drawn sound.drawn).later (Nat.le_add_right ..)
  apart := sound.apart
  held := sound.held.snoc plain.endsTurn
  subagents := by
    rw [picked_snoc, picked_snoc, plain.startsSubagent, plain.stopsSubagent]
    simpa only [Option.toList_none, List.append_nil] using sound.subagents
  calls := by
    rw [picked_snoc, plain.startsCall]
    simpa only [Option.toList_none, List.append_nil] using sound.calls

theorem mem_add_to (members : List String) (member tested : String) :
    tested ∈ addTo members member ↔ tested ∈ members ∨ tested = member := by
  unfold addTo
  split
  · constructor
    · exact .inl
    · rintro (held | rfl)
      · exact held
      · assumption
  · simp

section
variable {starts stops : List String} {known : String → Prop} {started active : List String}
  {waits : String → Bool} {subagent call : String}

/-- A subagent that starts is remembered as started and active. -/
theorem Subagents.start (subagents : Subagents starts stops known started active)
    (isKnown : known subagent) (fresh : subagent ∉ started) :
    Subagents (starts ++ [subagent]) stops known (addTo started subagent) (addTo active subagent) := by
  have unstarted : subagent ∉ starts := fun member =>
    fresh (subagents.remembered subagent isKnown member)
  have unstopped : subagent ∉ stops := fun member => unstarted (subagents.inOrder subagent member)
  have inactive : subagent ∉ active := fun member =>
    unstarted ((subagents.running subagent).mp member).1
  constructor
  · intro other member
    rcases (mem_add_to ..).mp member with before | rfl
    · exact List.mem_append_left _ (subagents.hasStarted other before)
    · exact List.mem_append_right _ (List.mem_singleton_self other)
  · intro other otherKnown member
    rcases List.mem_append.mp member with before | now
    · exact (mem_add_to ..).mpr (.inl (subagents.remembered other otherKnown before))
    · exact (mem_add_to ..).mpr (.inr (List.mem_singleton.mp now))
  · intro other
    rw [mem_add_to, subagents.running other, List.mem_append, List.mem_singleton]
    constructor
    · rintro (⟨hasStarted, runs⟩ | rfl)
      · exact ⟨.inl hasStarted, runs⟩
      · exact ⟨.inr rfl, unstopped⟩
    · rintro ⟨hasStarted | rfl, runs⟩
      · exact .inl ⟨hasStarted, runs⟩
      · exact .inr rfl
  · simp only [addTo, inactive, ↓reduceIte]
    exact List.nodup_append.mpr ⟨subagents.distinct, by simp, by
      intro held member other isNew same
      have isSubagent : other = subagent := by simpa using isNew
      exact inactive (isSubagent ▸ same ▸ member)⟩
  · exact fun other member => List.mem_append_left _ (subagents.inOrder other member)

/-- A subagent that stops is no longer active. -/
theorem Subagents.stop (subagents : Subagents starts stops known started active)
    (member : subagent ∈ active) :
    Subagents starts (stops ++ [subagent]) known started (active.filter (· ≠ subagent)) where
  hasStarted := subagents.hasStarted
  remembered := subagents.remembered
  running := by
    intro other
    simp only [List.mem_filter, subagents.running other, decide_eq_true_eq, List.mem_append,
      List.mem_singleton, not_or, and_assoc, ne_eq]
  distinct := subagents.distinct.filter _
  inOrder := by
    intro other stopped
    rcases List.mem_append.mp stopped with before | now
    · exact subagents.inOrder other before
    · obtain rfl := List.mem_singleton.mp now
      exact ((subagents.running other).mp member).1

/-- A call that starts does not wait any more. -/
theorem Calls.start (calls : Calls announced starts waits) (waiting : waits call = true) :
    Calls announced (starts ++ [call]) (fun other => waits other && other ≠ call) where
  least := by
    intro other member
    by_cases same : other = call
    · exact .inl (List.mem_append_right _ (List.mem_singleton.mpr same))
    · rcases calls.least other member with started | waits
      · exact .inl (List.mem_append_left _ started)
      · exact .inr (by simp [waits, same])
  most := by
    intro other
    have before := calls.most other
    by_cases same : other = call
    · subst same
      simpa [waiting] using before
    · simpa [same, Ne.symm same] using before

/-- A call that is announced waits. -/
theorem Calls.announce (calls : Calls announced starts waits) (call : String) :
    Calls (announced ++ [call]) starts (fun other => waits other || other = call) where
  least := by
    intro other member
    rcases List.mem_append.mp member with before | now
    · rcases calls.least other before with started | waiting
      · exact .inl started
      · exact .inr (by simp [waiting])
    · exact .inr (by simp [List.mem_singleton.mp now])
  most := by
    intro other
    have before := calls.most other
    by_cases same : other = call
    · subst same
      simp only [decide_true, Bool.or_true, Bool.toNat_true, List.count_append,
        List.count_singleton_self]
      omega
    · simpa [same, Ne.symm same] using before

end

variable {id : String} {time : Decimal} {role : SessionRole} {turn subagent : String}

/-- The first envelope of a subagent keeps the state sound, once the state remembers it. -/
theorem SoundState.start_subagent
    (sound : SoundState minting announced out state) (isOpen : OpenTurn out turn)
    (known : Known state.providerIds subagent) (fresh : subagent ∉ state.startedSubagents) (more : Nat) :
    SoundState minting announced (out ++ [⟨id, time, role, some turn, some subagent, .subStart⟩])
      { state with
        issued := state.issued + more
        startedSubagents := addTo state.startedSubagents subagent
        activeSubagents := addTo state.activeSubagents subagent } where
  lawful := by
    refine (lawful_snoc _ _).mpr ⟨sound.lawful, nofun, ?_, ?_, nofun, nofun, nofun⟩
    · rintro _ ⟨⟩ _
      exact isOpen
    · rintro _ ⟨⟩ member
      exact fresh (sound.subagents.remembered subagent known member)
  drawn := by
    refine sound.drawn.snoc ?_ ?_
    · rintro _ ⟨⟩
      exact (isOpen.drawn sound.drawn).later (Nat.le_add_right ..)
    · rintro _ ⟨⟩
      exact sound.drawn.known subagent known
  apart := sound.apart
  held := sound.held.snoc rfl
  subagents := by
    rw [picked_snoc, picked_snoc]
    simpa [startedSubagent, stoppedSubagent] using sound.subagents.start known fresh
  calls := by
    rw [picked_snoc]
    simpa [startedCall] using sound.calls

/-- The stop of an active subagent keeps the state sound, once it is no longer active. -/
theorem SoundState.stop_subagent
    (sound : SoundState minting announced out state) (isOpen : OpenTurn out turn)
    (active : subagent ∈ state.activeSubagents) (more : Nat) :
    SoundState minting announced (out ++ [⟨id, time, role, some turn, some subagent, .subStop⟩])
      { state with
        issued := state.issued + more
        activeSubagents := state.activeSubagents.filter (· ≠ subagent) } where
  lawful := by
    refine (lawful_snoc _ _).mpr ⟨sound.lawful, nofun, ?_, nofun, nofun, ?_, nofun⟩
    · rintro _ ⟨⟩ _
      exact isOpen
    · rintro _ ⟨⟩
      exact (sound.subagents.running subagent).mp active
  drawn := by
    refine sound.drawn.snoc ?_ nofun
    rintro _ ⟨⟩
    exact (isOpen.drawn sound.drawn).later (Nat.le_add_right ..)
  apart := sound.apart
  held := sound.held.snoc rfl
  subagents := by
    rw [picked_snoc, picked_snoc]
    simpa [startedSubagent, stoppedSubagent] using sound.subagents.stop active
  calls := by
    rw [picked_snoc]
    simpa [startedCall] using sound.calls

/-- The start of a call that waits keeps the state sound, once the call does not wait any more. -/
theorem SoundState.start_call
    (sound : SoundState minting announced out state) (isOpen : OpenTurn out turn)
    {scope : Option String} (started : ∀ subagent, scope = some subagent →
      subagent ∈ out.filterMap startedSubagent) {call : String}
    (waits : state.pendingToolStarts.has call = true) (name : String) (title : Option String)
    (args : Option Json) (risk : Option ToolRisk) (more : Nat) :
    SoundState minting announced
      (out ++ [⟨id, time, role, some turn, scope, .toolStart call name title args risk⟩])
      { state with
        issued := state.issued + more
        pendingToolStarts := state.pendingToolStarts.delete call } where
  lawful := by
    refine (lawful_snoc _ _).mpr ⟨sound.lawful, nofun, ?_, nofun, started, nofun, nofun⟩
    rintro _ ⟨⟩ _
    exact isOpen
  drawn := by
    refine sound.drawn.snoc ?_ nofun
    rintro _ ⟨⟩
    exact (isOpen.drawn sound.drawn).later (Nat.le_add_right ..)
  apart := sound.apart
  held := (sound.held.snoc rfl).drop call
  subagents := by
    rw [picked_snoc, picked_snoc]
    simpa [startedSubagent, stoppedSubagent] using sound.subagents
  calls := by
    rw [picked_snoc, OrderedMap.has_delete]
    exact sound.calls.start waits

/-- The end of a turn keeps the state sound, where nothing is held back, no subagent runs and the
state is cleared. -/
theorem SoundState.end_turn
    (sound : SoundState minting announced out state) (isOpen : OpenTurn out turn)
    (settled : ∀ call, state.pendingToolStarts.has call = false)
    (stopped : state.activeSubagents = []) (status : TurnStatus) (more : Nat) :
    SoundState minting announced (out ++ [⟨id, time, role, some turn, none, .turnEnd status⟩])
      (clearMapperState { state with issued := state.issued + more, currentTurnId := none }) where
  lawful := by
    refine (lawful_snoc _ _).mpr ⟨sound.lawful, nofun, ?_, nofun, nofun, nofun, ?_⟩
    · rintro _ ⟨⟩ _
      exact isOpen
    · rintro _ _ subagent started
      by_contra runs
      have active := (sound.subagents.running subagent).mpr ⟨started, runs⟩
      rw [stopped] at active
      contradiction
  drawn := by
    refine DrawnIds.forget (sound.drawn.snoc ?_ nofun)
    rintro _ ⟨⟩
    exact (isOpen.drawn sound.drawn).later (Nat.le_add_right ..)
  apart := by rintro first second call ⟨⟩
  held := ⟨by rintro turn ⟨⟩, by rintro run ⟨⟩, by rintro call pending ⟨⟩, by rintro call _ ⟨⟩⟩
  subagents := by
    have running := sound.subagents.running
    rw [stopped] at running
    rw [picked_snoc, picked_snoc]
    simp only [startedSubagent, stoppedSubagent, Option.toList_none, List.append_nil]
    exact ⟨nofun, by rintro id ⟨_, ⟨⟩⟩, running, List.nodup_nil, sound.subagents.inOrder⟩
  calls := by
    have nothing : state.pendingToolStarts.has = fun _ => false := funext settled
    have calls := sound.calls
    rw [nothing] at calls
    rw [picked_snoc]
    simp only [startedCall, Option.toList_none, List.append_nil]
    exact calls

/-- The start of a new turn keeps the state sound, once the turn is the current one. -/
theorem SoundState.start_turn (sound : SoundState minting announced out state) (more : Nat) :
    SoundState minting announced
      (out ++ [⟨id, time, role, some (minting.createId state.issued), none, .turnStart⟩])
      { state with
        issued := state.issued + (more + 1)
        currentTurnId := some (minting.createId state.issued) } := by
  have unused : ∀ env ∈ out, env.turn ≠ some (minting.createId state.issued) := by
    intro env member ofTurn
    exact fresh_id minting state.issued (sound.drawn.turns env member _ ofTurn)
  have unended : minting.createId state.issued ∉ out.filterMap endedTurn := by
    intro ended
    obtain ⟨env, member, ends⟩ := List.mem_filterMap.mp ended
    unfold endedTurn at ends
    split at ends
    · exact unused env member ends
    · contradiction
  constructor
  · refine (lawful_snoc _ _).mpr ⟨sound.lawful, ?_, ?_, nofun, nofun, nofun, nofun⟩
    · rintro _ ⟨⟩
      exact unused
    · rintro _ _ ⟨⟩
  · refine sound.drawn.snoc ?_ nofun
    rintro _ ⟨⟩
    exact ⟨state.issued, by omega, rfl⟩
  · exact sound.apart
  · refine HeldBack.switch (sound.held.snoc rfl) ?_
    rintro _ ⟨⟩
    refine ⟨?_, ?_⟩
    · simp [startedTurn]
    · simpa [endedTurn] using unended
  · rw [picked_snoc, picked_snoc]
    simpa [startedSubagent, stoppedSubagent] using sound.subagents
  · rw [picked_snoc]
    simpa [startedCall] using sound.calls

/-! ## Silent changes -/

/-- A new identifier keeps the state sound. -/
theorem SoundState.mint (sound : SoundState minting announced out state) {providerId : String}
    (absent : state.providerIds.get? providerId = none) :
    SoundState minting announced out { state with
      issued := state.issued + 1
      providerIds := state.providerIds.set providerId (minting.createId state.issued) } := by
  have keeps {id : String} (known : Known state.providerIds id) :
      Known (state.providerIds.set providerId (minting.createId state.issued)) id := by
    obtain ⟨other, held⟩ := known
    refine ⟨other, ?_⟩
    rw [OrderedMap.get_set, if_neg ?_, held]
    rintro rfl
    rw [absent] at held
    contradiction
  have known_cases {id : String} (known : Known (state.providerIds.set providerId
      (minting.createId state.issued)) id) :
      Known state.providerIds id ∨ id = minting.createId state.issued := by
    obtain ⟨other, held⟩ := known
    rw [OrderedMap.get_set] at held
    split at held
    · exact .inr (Option.some.inj held).symm
    · exact .inl ⟨other, held⟩
  have fresh := fresh_id minting state.issued
  constructor
  · exact sound.lawful
  · refine ⟨?_, ?_, ?_, ?_⟩
    · exact fun env member turn ofTurn =>
        (sound.drawn.turns env member turn ofTurn).later (Nat.le_succ _)
    · exact fun subagent member => (sound.drawn.subagents subagent member).later (Nat.le_succ _)
    · exact fun call member => (sound.drawn.calls call member).later (Nat.le_succ _)
    · intro id known
      rcases known_cases known with before | rfl
      · exact (sound.drawn.known id before).later (Nat.le_succ _)
      · exact ⟨state.issued, Nat.lt_succ_self _, rfl⟩
  · intro first second call one two
    simp only [OrderedMap.get_set] at one two
    split at one <;> split at two
    · exact Eq.trans ‹first = _› (Eq.symm ‹second = _›)
    · cases one
      exact absurd (sound.drawn.known _ ⟨second, two⟩) fresh
    · cases two
      exact absurd (sound.drawn.known _ ⟨first, one⟩) fresh
    · exact sound.apart first second call one two
  · exact sound.held.known (fun _ => keeps)
  · obtain ⟨hasStarted, remembered, running, distinct, inOrder⟩ := sound.subagents
    refine ⟨hasStarted, ?_, running, distinct, inOrder⟩
    intro subagent known started
    rcases known_cases known with before | rfl
    · exact remembered subagent before started
    · exact absurd (sound.drawn.subagents _ started) fresh
  · exact sound.calls

/-- What is held back may change, as long as it can be written. -/
theorem SoundState.hold_back
    (sound : SoundState minting announced out state) {text : Option PendingTextRun}
    {starts : OrderedMap String PendingToolStart} {scopes : OrderedMap String String}
    {calls : List String}
    (held : HeldBack out state.providerIds state.currentTurnId text starts scopes)
    (drawn : ∀ call ∈ calls, IsDrawn minting state.issued call)
    (waits : Calls calls (out.filterMap startedCall) starts.has) :
    SoundState minting calls out { state with
      pendingText := text, pendingToolStarts := starts, subagentByCall := scopes } where
  lawful := sound.lawful
  drawn := ⟨sound.drawn.turns, sound.drawn.subagents, drawn, sound.drawn.known⟩
  apart := sound.apart
  held := held
  subagents := sound.subagents
  calls := waits

end

end Kvy.Cli.Acp
