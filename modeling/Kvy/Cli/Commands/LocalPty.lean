import Kvy.Cli.Claude.PreToolPermissionRuns

/-!
# Local outcomes of a terminal session

The tool ends of the transcript complete the local permission requests. They are matched by the
name of the tool, oldest request first, and taken for the decision at the terminal. They report
the decision about the very call of a request exactly when the matched tool end agrees with it.
-/

namespace Kvy.Cli.Commands

open General General.Runs Wire Permissions Claude Claude.PreToolPermissionBridge

/-! ## The session -/

/-- What `runLocalPty` keeps of its permission requests. -/
structure LocalPty where
  bridge : PreToolPermissionBridge
  toolNameByCall : OrderedMap String String

namespace LocalPty

/-- The name of the tool that an envelope ends, and whether it went well. An unknown call and
the empty name are skipped. -/
def ended (pty : LocalPty) : SessionEvent → Option (String × Bool)
  | .toolEnd call ok _ =>
    ((pty.toolNameByCall.get? call).filter (fun name => name ≠ "")).map (fun name => (name, ok))
  | _ => none

/-- The names of the running calls after an envelope. -/
def names (pty : LocalPty) : SessionEvent → OrderedMap String String
  | .toolStart call name _ _ _ => pty.toolNameByCall.set call name
  | .toolEnd call _ _ => pty.toolNameByCall.delete call
  | _ => pty.toolNameByCall

/-- One envelope in `onEnvelopes`. -/
def noteEnvelope (pty : LocalPty) (ev : SessionEvent) (now : Decimal) : LocalPty where
  bridge :=
    match pty.ended ev with
    | some (toolName, ok) => pty.bridge.resolveLocalOutcome toolName ok now
    | none => pty.bridge
  toolNameByCall := pty.names ev

/-- `onEnvelopes`, as far as it concerns the permission requests. -/
def onEnvelopes (pty : LocalPty) (envelopes : List SessionEnvelope) (now : Decimal) : LocalPty :=
  envelopes.foldl (fun noted envelope => noted.noteEnvelope envelope.ev now) pty

end LocalPty

/-! ## Runs -/

/-- A local request and the tool call that raised it. -/
structure Raised where
  reqId : String
  call : String

/-- What can happen in a session: something at the bridge, where a hook is raised by a tool call;
a decision of the human about a call; an envelope of the transcript. -/
inductive LocalEvent where
  | bridge (event : Event) (call : String)
  | decide (call : String) (allowed : Bool)
  | envelope (ev : SessionEvent) (now : Decimal)

/-- The local request that a hook opens. -/
def raisedBy (call : String) : Event → Option Raised
  | .preToolUse reqId input isWebTurnActive _ =>
    if isAskUserQuestion input.toolName && !isWebTurnActive then some ⟨reqId, call⟩ else none
  | .permissionRequest reqId input isWebTurnActive _ =>
    if !isAskUserQuestion input.toolName && !isWebTurnActive then some ⟨reqId, call⟩ else none
  | _ => none

/-- A session, what its bridge has seen, the local requests and the decisions of the human. -/
structure Session where
  pty : LocalPty
  calls : List HookCall
  oks : List String
  raised : List Raised
  decided : List (String × Bool)

namespace Session

/-- Before anything happens. -/
def start (deps : BridgeDeps) : Session := ⟨⟨.create deps, .empty⟩, [], [], [], []⟩

/-- The bridge beside what it has seen. -/
def recorded (session : Session) : PreToolPermissionRuns.Observed :=
  ⟨session.pty.bridge, session.calls, session.oks⟩

/-- The human has allowed a call. -/
def Allowed (session : Session) (call : String) : Prop := (call, true) ∈ session.decided

/-- Whether an event is the outcome of a tool, which only an envelope reports. -/
def isOutcome : Event → Bool
  | .resolveLocalOutcome _ _ _ => true
  | _ => false

/-- A step of a session. The human decides about a call once. -/
def step (session : Session) : LocalEvent → Option Session
  | .bridge event call =>
    if isOutcome event then none
    else (PreToolPermissionRuns.observe session.recorded event).map (fun next =>
      { pty := { session.pty with bridge := next.bridge }, calls := next.calls, oks := next.oks
        raised := session.raised ++ (raisedBy call event).toList, decided := session.decided })
  | .decide call allowed =>
    if call ∈ session.decided.map Prod.fst then none
    else some { session with decided := session.decided ++ [(call, allowed)] }
  | .envelope ev now => some { session with pty := session.pty.noteEnvelope ev now }

/-- The decisions on the card of a request. -/
def decisions (session : Session) (reqId : String) : List PermDecision :=
  (session.pty.bridge.ledger.card reqId).decisions

/-- A card says allow exactly when the human allowed the call that raised its request. -/
def Truthful (session : Session) : Prop :=
  ∀ raised ∈ session.raised, ∀ decision ∈ session.decisions raised.reqId,
    (allows decision = true ↔ session.Allowed raised.call)

/-- What an event must meet. A tool end that finds local requests of its tool went well exactly
when the human allowed the call that raised the oldest of them; a call is not allowed after the
card of its request was closed; a reset finds no open request whose call was allowed. -/
def Agrees (session : Session) : LocalEvent → Prop
  | .bridge event _ => ∀ reason clock, event = .reset reason clock →
      ∀ raised ∈ session.raised, session.decisions raised.reqId = [] → ¬ session.Allowed raised.call
  | .decide call allowed => allowed = true →
      ∀ raised ∈ session.raised, raised.call = call → session.decisions raised.reqId = []
  | .envelope ev _ => ∀ toolName ok entry, session.pty.ended ev = some (toolName, ok) →
      session.pty.bridge.localOutcomePending.find? (fun held => held.toolName = toolName) =
        some entry →
      ∀ raised ∈ session.raised, raised.reqId = entry.reqId → (ok = true ↔ session.Allowed raised.call)

/-- Where a local request stands. -/
def AtTerminal : Stage → Prop
  | .atTerminal _ => True
  | .done _ => True
  | _ => False

/-- What is kept of a session, whatever happens. -/
structure Sound (session : Session) : Prop where
  recorded : PreToolPermissionRuns.Sound session.recorded
  stage : ∀ raised ∈ session.raised, ∃ stage,
    Shows stage (session.pty.bridge.view session.oks raised.reqId) ∧
      PreToolPermissionRuns.Follows session.calls raised.reqId stage ∧ AtTerminal stage

/-! ## What a step does to a local request -/

/-- The decisions a stage has seen. -/
def decisionsOf : Stage → List PermDecision
  | .done decision => [decision]
  | _ => []

theorem decisions_view {stage : Stage} {view : BridgeView} (shows : Shows stage view)
    (passed : AtTerminal stage) : view.card.decisions = decisionsOf stage := by
  cases shows with
  | atTerminal => rfl
  | done => rfl
  | blank | passed | question | permission | stuck => contradiction

variable {event : Event}

/-- A local request keeps its decision, or is completed by the event. -/
theorem local_moves {bridge : PreToolPermissionBridge} {reqId : String}
    {stage after : Stage} (passed : AtTerminal stage) (moved : StageStep bridge event reqId stage after) :
    AtTerminal after ∧
      ((decisionsOf after = decisionsOf stage ∧
          (decisionsOf stage = [] → ∀ decision, ¬ Concludes bridge event reqId decision)) ∨
        (decisionsOf stage = [] ∧
          ∃ decision, Concludes bridge event reqId decision ∧ decisionsOf after = [decision])) := by
  cases moved with
  | stay _ old undisturbed =>
    refine ⟨passed, Or.inl ⟨rfl, ?_⟩⟩
    intro undecided
    cases stage with
    | atTerminal driven => exact undisturbed
    | done decision => contradiction
    | blank | passed | question | permission | stuck => contradiction
  | start opens made => contradiction
  | drive old undecided => exact ⟨trivial, Or.inl ⟨rfl, fun _ => undecided⟩⟩
  | finish _ decision old finishes =>
    cases stage with
    | atTerminal driven => exact ⟨trivial, Or.inr ⟨rfl, decision, finishes, rfl⟩⟩
    | done other => contradiction
    | blank | passed | question | permission | stuck => contradiction
  | fail old fails => contradiction

/-- All completions of a request by an event allow, or all deny. -/
theorem concludes_allows {bridge : PreToolPermissionBridge} {reqId : String}
    {first second : PermDecision} (one : Concludes bridge event reqId first)
    (other : Concludes bridge event reqId second) : allows first = allows second := by
  cases one with
  | outcome toolName approved now happens entry oldest named =>
    cases other with
    | outcome _ _ _ again _ _ _ =>
      rw [happens] at again
      cases again
      rfl
    | reset _ _ again _ => exact absurd (happens.symm.trans again) (by simp)
  | reset reason clock happens message =>
    cases other with
    | outcome _ _ _ again _ _ _ => exact absurd (happens.symm.trans again) (by simp)
    | reset _ _ again _ => rfl

/-- The open local requests that an event completes, completed as the human decided. -/
def Honest (session : Session) (event : Event) : Prop :=
  ∀ raised ∈ session.raised, session.decisions raised.reqId = [] → ∀ decision,
    Concludes session.pty.bridge event raised.reqId decision →
      (allows decision = true ↔ session.Allowed raised.call)

/-- A step of the bridge, seen from the session. -/
structure BridgeStep (session next : Session) (event : Event) (call : String) : Prop where
  taken : PreToolPermissionRuns.observe session.recorded event = some next.recorded
  raised : next.raised = session.raised ++ (raisedBy call event).toList
  decided : next.decided = session.decided

variable {raised : Raised}

/-- A hook that raises a local request is a new call that stands at the terminal. -/
theorem raisedBy_opened {call : String}     (raises : raisedBy call event = some raised) :
    event.call? = some ⟨raised.reqId, true⟩ ∧ event.opened = .atTerminal false := by
  cases event with
  | preToolUse reqId input isWebTurnActive now =>
    obtain ⟨kind, same⟩ := Option.ite_none_right_eq_some.mp raises
    cases same
    simp only [Bool.and_eq_true, Bool.not_eq_true'] at kind
    simp [Event.call?, Event.opened, kind]
  | permissionRequest reqId input isWebTurnActive now =>
    obtain ⟨kind, same⟩ := Option.ite_none_right_eq_some.mp raises
    cases same
    simp only [Bool.and_eq_true, Bool.not_eq_true'] at kind
    simp [Event.call?, Event.opened, kind]
  | resolve | resolveLocalOutcome | reset | notePermissionMode | waitForModeEcho | fire => contradiction

variable {session next : Session} {event : Event} {call : String}

/-- An old local request keeps its decision, or is completed by the event. -/
theorem BridgeStep.old (stepped : BridgeStep session next event call) (sound : Sound session)
    (member : raised ∈ session.raised) :
    (∃ stage, Shows stage (next.pty.bridge.view next.oks raised.reqId) ∧
      PreToolPermissionRuns.Follows next.calls raised.reqId stage ∧ AtTerminal stage) ∧
      ((next.decisions raised.reqId = session.decisions raised.reqId ∧
          (session.decisions raised.reqId = [] →
            ∀ decision, ¬ Concludes session.pty.bridge event raised.reqId decision)) ∨
        (session.decisions raised.reqId = [] ∧
          ∃ decision, Concludes session.pty.bridge event raised.reqId decision ∧
            next.decisions raised.reqId = [decision])) := by
  obtain ⟨stage, shows, follows, passed⟩ := sound.stage raised member
  obtain ⟨after, showsAfter, followsAfter, moved⟩ :=
    PreToolPermissionRuns.observe_moves stepped.taken raised.reqId shows follows
  obtain ⟨passedAfter, moves⟩ := local_moves passed moved
  refine ⟨⟨after, showsAfter, followsAfter, passedAfter⟩, ?_⟩
  rw [show session.decisions raised.reqId = decisionsOf stage from decisions_view shows passed,
    show next.decisions raised.reqId = decisionsOf after from decisions_view showsAfter passedAfter]
  exact moves

/-- A new local request stands at the terminal. -/
theorem BridgeStep.new (stepped : BridgeStep session next event call) (sound : Sound session)
    (raises : raisedBy call event = some raised) :
    Shows (.atTerminal false) (next.pty.bridge.view next.oks raised.reqId) ∧
      PreToolPermissionRuns.Follows next.calls raised.reqId (.atTerminal false) := by
  obtain ⟨made, opened⟩ := raisedBy_opened raises
  obtain ⟨fresh, _⟩ := PreToolPermissionRuns.observe_cases stepped.taken
  obtain ⟨stage, shows, follows⟩ := sound.recorded.stage raised.reqId
  obtain rfl := PreToolPermissionRuns.blank_of_fresh (fresh _ made) follows
  obtain ⟨after, showsAfter, followsAfter, moved⟩ :=
    PreToolPermissionRuns.observe_moves stepped.taken raised.reqId shows follows
  cases moved with
  | stay _ old undisturbed => exact absurd rfl (old _ made)
  | start opens _ => exact opened ▸ ⟨showsAfter, followsAfter⟩
  | finish _ decision old finishes => contradiction

theorem BridgeStep.sound (stepped : BridgeStep session next event call) (sound : Sound session) :
    Sound next := by
  refine ⟨sound.recorded.step stepped.taken, ?_⟩
  intro raised member
  rw [stepped.raised, List.mem_append] at member
  rcases member with before | added
  · exact (stepped.old sound before).1
  · obtain ⟨shows, follows⟩ := stepped.new sound (Option.mem_toList.mp added)
    exact ⟨_, shows, follows, trivial⟩

/-- The cards stay truthful exactly when the event completes requests as the human decided. -/
theorem BridgeStep.truthful (stepped : BridgeStep session next event call) (sound : Sound session)
    (truthful : Truthful session) : Truthful next ↔ Honest session event := by
  have same (called : String) : next.Allowed called ↔ session.Allowed called := by
    rw [Allowed, Allowed, stepped.decided]
  constructor
  · intro after raised member undecided decision concludes
    obtain ⟨_, kept | ⟨_, other, completes, decided⟩⟩ := stepped.old sound member
    · exact absurd concludes (kept.2 undecided decision)
    · have kept : raised ∈ next.raised := stepped.raised ▸ List.mem_append_left _ member
      have said := after raised kept other (by simp [decided])
      rw [concludes_allows concludes completes, said, same]
  · intro honest raised member decision decided
    rw [same]
    rw [stepped.raised, List.mem_append] at member
    rcases member with before | added
    · obtain ⟨_, kept | ⟨undecided, other, completes, isDecided⟩⟩ := stepped.old sound before
      · exact truthful raised before decision (kept.1 ▸ decided)
      · rw [isDecided] at decided
        obtain rfl := List.mem_singleton.mp decided
        exact honest raised before undecided decision completes
    · obtain ⟨shows, _⟩ := stepped.new sound (Option.mem_toList.mp added)
      have none : next.decisions raised.reqId = [] := decisions_view shows trivial
      rw [none] at decided
      contradiction

/-! ## Main result -/

/-- An open local request has no decision yet. -/
theorem Sound.undecided (sound : Sound session) (member : raised ∈ session.raised)
    {entry : LocalOutcome} (listed : entry ∈ session.pty.bridge.localOutcomePending)
    (named : raised.reqId = entry.reqId) : session.decisions raised.reqId = [] := by
  obtain ⟨stage, shows, _, passed⟩ := sound.stage raised member
  have held : entry ∈ (session.pty.bridge.view session.oks raised.reqId).entries :=
    List.mem_filter.mpr ⟨listed, decide_eq_true named.symm⟩
  obtain ⟨request, answer, rfl, _⟩ := shows.of_entry held
  exact decisions_view shows passed

/-- An event at the bridge that is no outcome completes requests in a reset alone. -/
theorem honest_bridge (other : isOutcome event = false) :
    Honest session event ↔ Agrees session (.bridge event call) := by
  constructor
  · rintro honest reason clock rfl raised member undecided
    have denies := honest raised member undecided (.deny none) (.reset reason clock rfl none)
    simpa [allows] using denies
  · intro agrees raised member undecided decision concludes
    cases concludes with
    | outcome toolName approved now happens entry oldest named =>
      rw [happens] at other
      contradiction
    | reset reason clock happens message =>
      have closed := agrees reason clock happens raised member undecided
      simpa [allows] using closed

/-- A tool end completes the oldest request of its tool. -/
theorem honest_outcome (sound : Sound session) {ev : SessionEvent} {toolName : String} {ok : Bool}
    (ends : session.pty.ended ev = some (toolName, ok)) (now : Decimal) :
    Honest session (.resolveLocalOutcome toolName ok now) ↔ Agrees session (.envelope ev now) := by
  have allowsOutcome : allows (localDecision ok) = true ↔ ok = true := by cases ok <;> simp [localDecision, allows]
  constructor
  · intro honest name flag entry isEnd oldest raised member named
    obtain ⟨rfl, rfl⟩ := Prod.mk.inj (Option.some.inj (ends.symm.trans isEnd))
    have undecided := sound.undecided member (List.mem_of_find?_eq_some oldest) named
    rw [← allowsOutcome]
    exact honest raised member undecided _ (.outcome toolName ok now rfl entry oldest named.symm)
  · intro agrees raised member undecided decision concludes
    cases concludes with
    | outcome _ _ _ happens entry oldest named =>
      cases happens
      rw [allowsOutcome]
      exact agrees toolName ok entry ends oldest raised member named.symm
    | reset _ _ happens _ => contradiction

theorem sound_start (deps : BridgeDeps) : Sound (start deps) where
  recorded := PreToolPermissionRuns.sound_start deps
  stage := by simp [start]

/-- A step of the bridge that happens, taken apart. -/
theorem step_bridge (taken : step session (.bridge event call) = some next) :
    isOutcome event = false ∧ BridgeStep session next event call := by
  obtain ⟨other, happens⟩ := Option.ite_none_left_eq_some.mp taken
  obtain ⟨recorded, observed, rfl⟩ := Option.map_eq_some_iff.mp happens
  exact ⟨Bool.eq_false_iff.mpr other, observed, rfl, rfl⟩

/-- A tool end is a step of the bridge. -/
theorem step_ended {ev : SessionEvent} {now : Decimal} {toolName : String} {ok : Bool}
    (taken : step session (.envelope ev now) = some next)
    (ends : session.pty.ended ev = some (toolName, ok)) :
    BridgeStep session next (.resolveLocalOutcome toolName ok now) call := by
  cases taken
  refine ⟨?_, (List.append_nil _).symm, rfl⟩
  have bridge : (session.pty.noteEnvelope ev now).bridge =
      session.pty.bridge.resolveLocalOutcome toolName ok now := by
    simp only [LocalPty.noteEnvelope, ends]
  have fresh : ∀ made ∈ (Event.resolveLocalOutcome toolName ok now).call?,
      made.reqId ∉ session.recorded.calls.map HookCall.reqId := by simp [Event.call?]
  rw [PreToolPermissionRuns.observe, if_pos fresh]
  simp only [recorded, bridge, PreToolPermissionBridge.step, Event.call?, accepted, Option.map_some,
    Option.toList_none, List.append_nil]

/-- An envelope that ends no tool leaves the bridge as it is. -/
theorem step_unended {ev : SessionEvent} {now : Decimal}
    (taken : step session (.envelope ev now) = some next) (running : session.pty.ended ev = none) :
    next.pty.bridge = session.pty.bridge ∧ next.calls = session.calls ∧ next.oks = session.oks ∧
      next.raised = session.raised ∧ next.decided = session.decided := by
  cases taken
  refine ⟨?_, rfl, rfl, rfl, rfl⟩
  simp only [LocalPty.noteEnvelope, running]

/-- Where the bridge is unchanged, everything kept of a session is. -/
theorem sound_same (sound : Sound session) (bridge : next.pty.bridge = session.pty.bridge)
    (calls : next.calls = session.calls) (oks : next.oks = session.oks)
    (raised : next.raised = session.raised) : Sound next := by
  have recorded : next.recorded = session.recorded := by
    simp only [Session.recorded, bridge, calls, oks]
  refine ⟨recorded ▸ sound.recorded, ?_⟩
  rw [raised, bridge, calls, oks]
  exact sound.stage

theorem Sound.step {event : LocalEvent} (sound : Sound session)
    (taken : step session event = some next) : Sound next := by
  cases event with
  | bridge event call => exact (step_bridge taken).2.sound sound
  | decide call allowed =>
    obtain ⟨_, same⟩ := Option.ite_none_left_eq_some.mp taken
    cases same
    exact sound_same sound rfl rfl rfl rfl
  | envelope ev now =>
    cases ends : session.pty.ended ev with
    | none =>
      obtain ⟨bridge, calls, oks, raised, _⟩ := step_unended taken ends
      exact sound_same sound bridge calls oks raised
    | some ended =>
      have stepped : BridgeStep session next (.resolveLocalOutcome ended.1 ended.2 now) "" :=
        step_ended taken ends
      exact stepped.sound sound

/-- A decision of the human keeps the cards truthful exactly when it does not allow a call whose
card was closed. -/
theorem truthful_decide {allowed : Bool} (truthful : Truthful session)
    (fresh : call ∉ session.decided.map Prod.fst) :
    Truthful { session with decided := session.decided ++ [(call, allowed)] } ↔
      Agrees session (.decide call allowed) := by
  have undecided : ¬ session.Allowed call := fun member => fresh (List.mem_map_of_mem member)
  constructor
  · rintro after rfl raised member rfl
    apply List.eq_nil_iff_forall_not_mem.mpr
    intro decision decided
    have now : allows decision = true := (after raised member decision decided).mpr
      (List.mem_append_right _ (List.mem_singleton_self _))
    exact undecided ((truthful raised member decision decided).mp now)
  · intro agrees raised member decision decided
    have before := truthful raised member decision decided
    rw [before]
    constructor
    · exact List.mem_append_left _
    · intro isAllowed
      rcases List.mem_append.mp isAllowed with held | added
      · exact held
      · obtain ⟨isCall, isAllowed⟩ := Prod.mk.inj (List.mem_singleton.mp added)
        have unclosed := agrees isAllowed.symm raised member isCall
        exact absurd (unclosed ▸ decided) List.not_mem_nil

/-- The cards stay truthful in a step exactly when its event agrees with the human. -/
theorem truthful_step {event : LocalEvent} (sound : Sound session) (truthful : Truthful session)
    (taken : step session event = some next) : Truthful next ↔ Agrees session event := by
  cases event with
  | bridge event call =>
    obtain ⟨other, stepped⟩ := step_bridge taken
    rw [stepped.truthful sound truthful]
    exact honest_bridge other
  | decide call allowed =>
    obtain ⟨fresh, same⟩ := Option.ite_none_left_eq_some.mp taken
    cases same
    exact truthful_decide truthful fresh
  | envelope ev now =>
    cases ends : session.pty.ended ev with
    | none =>
      obtain ⟨bridge, _, _, raised, decided⟩ := step_unended taken ends
      have kept : Truthful next := by
        rw [Truthful, raised]
        simp only [decisions, Allowed, bridge, decided]
        exact truthful
      refine iff_of_true kept ?_
      intro toolName ok entry isEnd
      exact absurd (ends.symm.trans isEnd) (by simp)
    | some ended =>
      have stepped : BridgeStep session next (.resolveLocalOutcome ended.1 ended.2 now) "" :=
        step_ended taken ends
      rw [stepped.truthful sound truthful]
      exact honest_outcome sound ends now

/-- Every card of a local request reports the decision about the call that raised it, exactly
when all tool ends, decisions and resets of the session agree with the human. -/
theorem cards_truthful_iff (deps : BridgeDeps) (events : List LocalEvent) :
    Always step (fun _ _ next => Truthful next) (start deps) events ↔
      Always step (fun session event _ => Agrees session event) (start deps) events := by
  apply always_state_iff Sound Truthful Agrees
  · intro session event next sound taken
    exact sound.step taken
  · intro session event next sound truthful taken
    exact truthful_step sound truthful taken
  · exact sound_start deps
  · simp [Truthful, start]

/-- A command that the human allowed and that fails is reported as denied. -/
theorem failed_is_denied :
    ¬ ∀ deps events, Always step (fun _ _ next => Truthful next) (start deps) events := by
  intro always
  have truthful := ((((always ⟨false, false, 600000, none⟩
    [.envelope (.toolStart "c" "Bash" none none none) (Decimal.ofInt 0),
      .bridge (.permissionRequest "r" ⟨"Bash", none, none⟩ false (Decimal.ofInt 0)) "c",
      .decide "c" true, .envelope (.toolEnd "c" false none) (Decimal.ofInt 0)]
    _ rfl).2 _ rfl).2 _ rfl).2 _ rfl).1
  have said := truthful ⟨"r", "c"⟩ (List.mem_singleton_self _) (localDecision false)
    (List.mem_singleton_self _)
  have denied := said.mpr (List.mem_singleton_self _)
  contradiction

end Session

end Kvy.Cli.Commands
