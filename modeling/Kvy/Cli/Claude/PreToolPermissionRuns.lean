import Kvy.Cli.Claude.AskAnswerReason
import Kvy.Cli.Claude.PreToolPermissionSteps
import Kvy.General.Runs

/-!
# Runs of the permission bridge

A bridge beside the hook calls made to it and the answers it accepted. Each request is in one
place while it is published, is asked and decided once, and each hook is answered once, exactly
as long as the answers to a question can be put into words.
-/

namespace Kvy.Cli.Claude

open General General.Runs Wire Permissions PreToolPermissionBridge

variable {stage : Stage}

variable {event : Event} {next observed : Observed}

namespace PreToolPermissionRuns

/-- A bridge, the hook calls made to it and the answers it accepted. -/
structure Observed where
  bridge : PreToolPermissionBridge
  calls : List HookCall
  oks : List String

/-- Before anything happens. -/
def Observed.start (deps : BridgeDeps) : Observed := ⟨.create deps, [], []⟩

/-- A step beside what is recorded. Every hook call gets a new id. -/
def observe (observed : Observed) (event : Event) : Option Observed :=
  if ∀ call ∈ event.call?, call.reqId ∉ observed.calls.map HookCall.reqId then
    (observed.bridge.step event).map (fun next =>
      ⟨next, observed.calls ++ event.call?.toList, observed.oks ++ observed.bridge.accepted event⟩)
  else none

/-- The calls that a stage follows. -/
def Follows (calls : List HookCall) (reqId : String) : Stage → Prop
  | .blank => reqId ∉ calls.map HookCall.reqId
  | .passed => ⟨reqId, false⟩ ∈ calls
  | _ => ⟨reqId, true⟩ ∈ calls

/-- What is kept of the hook calls, whatever happens. -/
structure Sound (observed : Observed) : Prop where
  published : observed.bridge.ledger.Published
  distinct : (observed.calls.map HookCall.reqId).Nodup
  stage : ∀ reqId, ∃ stage, Shows stage (observed.bridge.view observed.oks reqId) ∧
    Follows observed.calls reqId stage

theorem sound_start (deps : BridgeDeps) : Sound (.start deps) where
  published := PermissionLedger.published_create
  distinct := List.nodup_nil
  stage := by
    intro reqId
    exact ⟨.blank, .blank, List.not_mem_nil⟩

/-- A recorded step, taken apart. -/
theorem observe_cases (taken : observe observed event = some next) :
    (∀ call ∈ event.call?, call.reqId ∉ observed.calls.map HookCall.reqId) ∧
      ∃ bridge, observed.bridge.step event = some bridge ∧
        next = ⟨bridge, observed.calls ++ event.call?.toList,
          observed.oks ++ observed.bridge.accepted event⟩ := by
  unfold observe at taken
  split at taken
  · rename_i fresh
    obtain ⟨bridge, stepped, rfl⟩ := Option.map_eq_some_iff.mp taken
    exact ⟨fresh, bridge, stepped, rfl⟩
  · contradiction

/-- A call that is made stands where its kind says. -/
theorem follows_opened {reqId : String} {opens : Bool} {calls : List HookCall}
    (made : event.call? = some ⟨reqId, opens⟩) (added : ⟨reqId, opens⟩ ∈ calls) :
    Follows calls reqId event.opened := by
  cases event with
  | preToolUse called input isWebTurnActive now =>
    obtain ⟨rfl, rfl⟩ := HookCall.mk.inj (Option.some.inj made)
    simp only [Event.opened]
    cases kind : isAskUserQuestion input.toolName with
    | true =>
      rw [kind] at added
      cases isWebTurnActive <;> exact added
    | false =>
      rw [kind] at added
      exact added
  | permissionRequest called input isWebTurnActive now =>
    obtain ⟨rfl, rfl⟩ := HookCall.mk.inj (Option.some.inj made)
    simp only [Event.opened]
    cases kind : isAskUserQuestion input.toolName with
    | true =>
      rw [kind] at added
      exact added
    | false =>
      rw [kind] at added
      cases isWebTurnActive <;> exact added
  | resolve | resolveLocalOutcome | reset | notePermissionMode | waitForModeEcho | fire => contradiction

/-- A stage follows the calls that led to it. -/
theorem follows_step {bridge : PreToolPermissionBridge} {reqId : String}
    {after : Stage} {calls : List HookCall} (follows : Follows calls reqId stage)
    (moved : StageStep bridge event reqId stage after) :
    Follows (calls ++ event.call?.toList) reqId after := by
  cases moved with
  | stay _ old undisturbed =>
    cases stage with
    | blank =>
      intro member
      rw [List.map_append, List.mem_append] at member
      rcases member with before | added
      · exact follows before
      · obtain ⟨call, made, same⟩ := List.mem_map.mp added
        exact old call (Option.mem_toList.mp made) same
    | passed => exact List.mem_append_left _ follows
    | question => exact List.mem_append_left _ follows
    | permission => exact List.mem_append_left _ follows
    | atTerminal driven => exact List.mem_append_left _ follows
    | done decision => exact List.mem_append_left _ follows
    | stuck => exact List.mem_append_left _ follows
  | start opens made =>
    have added : (⟨reqId, opens⟩ : HookCall) ∈ calls ++ event.call?.toList :=
      List.mem_append_right _ (Option.mem_toList.mpr made)
    exact follows_opened made added
  | drive old undecided => exact List.mem_append_left _ follows
  | finish _ decision old finishes =>
    cases stage with
    | question | permission | atTerminal => exact List.mem_append_left _ follows
    | blank | passed | done | stuck => contradiction
  | fail old fails => exact List.mem_append_left _ follows

/-- A name that a call may take was not used. -/
theorem blank_of_fresh {calls : List HookCall} {reqId : String}
    (fresh : reqId ∉ calls.map HookCall.reqId) (follows : Follows calls reqId stage) :
    stage = .blank := by
  have unmade (opens : Bool) : ⟨reqId, opens⟩ ∉ calls := by
    intro member
    exact fresh (List.mem_map_of_mem member)
  cases stage with
  | blank => rfl
  | passed => exact absurd follows (unmade false)
  | question => exact absurd follows (unmade true)
  | permission => exact absurd follows (unmade true)
  | atTerminal driven => exact absurd follows (unmade true)
  | done decision => exact absurd follows (unmade true)
  | stuck => exact absurd follows (unmade true)

/-- Every hook call moves along its stages. -/
theorem observe_moves (taken : observe observed event = some next) (reqId : String)
    (shows : Shows stage (observed.bridge.view observed.oks reqId))
    (follows : Follows observed.calls reqId stage) :
    ∃ after, Shows after (next.bridge.view next.oks reqId) ∧ Follows next.calls reqId after ∧
      StageStep observed.bridge event reqId stage after := by
  obtain ⟨fresh, bridge, stepped, rfl⟩ := observe_cases taken
  obtain ⟨after, showsAfter, moved⟩ := step_shows stepped shows (by
    intro call made same
    exact blank_of_fresh (same ▸ fresh call made) follows)
  exact ⟨after, showsAfter, follows_step follows moved, moved⟩

/-- Every step keeps the hook calls to their stages. -/
theorem Sound.step (sound : Sound observed)
    (taken : observe observed event = some next) : Sound next := by
  refine ⟨?_, ?_, ?_⟩
  · obtain ⟨_, bridge, stepped, rfl⟩ := observe_cases taken
    exact step_published stepped sound.published
  · obtain ⟨fresh, bridge, stepped, rfl⟩ := observe_cases taken
    rw [List.map_append, List.nodup_append]
    cases made : event.call? with
    | none => exact ⟨sound.distinct, List.nodup_nil, by simp⟩
    | some call =>
      refine ⟨sound.distinct, List.nodup_singleton _, ?_⟩
      intro held before other added
      obtain rfl : other = call.reqId := by simpa using added
      rintro rfl
      exact fresh call made before
  · intro reqId
    obtain ⟨stage, shows, follows⟩ := sound.stage reqId
    obtain ⟨after, showsAfter, followsAfter, _⟩ := observe_moves taken reqId shows follows
    exact ⟨after, showsAfter, followsAfter⟩

/-! ## Consistency -/

/-- In how many places a request waits. -/
def places (bridge : PreToolPermissionBridge) (reqId : String) : Nat :=
  (if bridge.pending.has reqId then 1 else 0) + (if bridge.permRequestPending.has reqId then 1 else 0) +
    bridge.localOutcomePending.countP (fun entry => entry.reqId = reqId)

/-- What is said of the requests: each waits in one place exactly while it is published, is put
onto the timeline once, decided and accepted at most once, and each hook waits or is answered. -/
structure Consistent (observed : Observed) : Prop where
  places : ∀ reqId, places observed.bridge reqId =
    if observed.bridge.ledger.published.has reqId then 1 else 0
  asked : ∀ call ∈ observed.calls,
    (observed.bridge.ledger.card call.reqId).asked = if call.opens then 1 else 0
  decided : ∀ reqId, (observed.bridge.ledger.card reqId).decisions.length ≤ 1
  accepted : ∀ reqId, observed.oks.count reqId ≤ 1
  settled : ∀ call ∈ observed.calls,
    (observed.bridge.ledger.card call.reqId).answers.length +
      (if observed.bridge.pending.has call.reqId || observed.bridge.permRequestPending.has call.reqId
        then 1 else 0) = 1

/-- Nothing waits and nothing is published. -/
structure Cleared (bridge : PreToolPermissionBridge) : Prop where
  questions : bridge.pending.entries = []
  permissions : bridge.permRequestPending.entries = []
  locals : bridge.localOutcomePending = []
  driven : bridge.drivenLocalReqIds = []
  published : bridge.ledger.published.entries = []

/-- No hook call is stuck. -/
def Unstuck (observed : Observed) : Prop :=
  ∀ reqId, ¬ Shows .stuck (observed.bridge.view observed.oks reqId)

/-- The places of a request, read off its view. -/
theorem places_view (bridge : PreToolPermissionBridge) (oks : List String) (reqId : String) :
    places bridge reqId =
      (if (bridge.view oks reqId).question.isSome then 1 else 0) +
        (if (bridge.view oks reqId).permission.isSome then 1 else 0) +
        (bridge.view oks reqId).entries.length := by
  rw [places, List.countP_eq_length_filter]
  rfl

/-- Whether a request is published, read off its view. -/
theorem Sound.published_view (sound : Sound observed) (reqId : String) :
    observed.bridge.ledger.published.has reqId =
      (observed.bridge.view observed.oks reqId).card.request.isSome := by
  rw [show observed.bridge.ledger.published = observed.bridge.ledger.requests from sound.published]
  rfl

/-- A call stands where its stage says. -/
theorem Sound.stage_call (sound : Sound observed) {call : HookCall} (made : call ∈ observed.calls) :
    ∃ stage, Shows stage (observed.bridge.view observed.oks call.reqId) ∧ stage ≠ .blank ∧
      (stage = .passed ↔ call.opens = false) := by
  obtain ⟨stage, shows, follows⟩ := sound.stage call.reqId
  refine ⟨stage, shows, ?_⟩
  have opens (other : Bool) (member : ⟨call.reqId, other⟩ ∈ observed.calls) : call.opens = other :=
    congrArg HookCall.opens (List.inj_on_of_nodup_map sound.distinct made member rfl)
  cases stage with
  | blank => exact absurd (List.mem_map_of_mem made) follows
  | passed => simp [opens false follows]
  | question => simp [opens true follows]
  | permission => simp [opens true follows]
  | atTerminal driven => simp [opens true follows]
  | done decision => simp [opens true follows]
  | stuck => simp [opens true follows]

end PreToolPermissionRuns

section

variable {stage : Stage} {view : BridgeView}

/-- A request that is not stuck waits in one place exactly while it is open. -/
theorem Shows.places (shows : Shows stage view) (unstuck : stage ≠ .stuck) :
    (if view.question.isSome then 1 else 0) + (if view.permission.isSome then 1 else 0) +
      view.entries.length = if view.card.request.isSome then 1 else 0 := by
  cases shows with
  | stuck request => contradiction
  | blank | passed | question | permission | atTerminal | done => rfl

/-- A call that was made has put its request onto the timeline when it opened one. -/
theorem Shows.asked (shows : Shows stage view) (made : stage ≠ .blank) {opens : Bool}
    (passed : stage = .passed ↔ opens = false) : view.card.asked = if opens then 1 else 0 := by
  cases opens with
  | false =>
    obtain rfl := passed.mpr rfl
    cases shows
    rfl
  | true =>
    have opened : stage ≠ .passed := by simp [passed]
    cases shows with
    | blank => contradiction
    | passed => contradiction
    | question | permission | atTerminal | done | stuck => rfl

theorem Shows.decided (shows : Shows stage view) : view.card.decisions.length ≤ 1 := by
  cases shows with
  | blank | passed | question | permission | atTerminal | stuck => exact Nat.zero_le 1
  | done => exact le_rfl

theorem Shows.accepted (shows : Shows stage view) : view.oks ≤ 1 := by
  cases shows with
  | blank | passed | question | permission | stuck => exact Nat.zero_le 1
  | atTerminal driven => cases driven <;> simp
  | done _ _ oks once => exact once

/-- A hook that is not stuck waits or is answered. -/
theorem Shows.settled
    (shows : Shows stage view) (made : stage ≠ .blank) (unstuck : stage ≠ .stuck) :
    view.card.answers.length + (if view.question.isSome || view.permission.isSome then 1 else 0) =
      1 := by
  cases shows with
  | blank => contradiction
  | stuck request => contradiction
  | passed | question | permission | atTerminal | done => rfl

end

namespace PreToolPermissionRuns

/-- Being unstuck is all there is to show. -/
theorem Sound.consistent (sound : Sound observed) :
    Consistent observed ↔ Unstuck observed := by
  constructor
  · intro consistent reqId shows
    have waits := consistent.places reqId
    rw [places_view observed.bridge observed.oks, sound.published_view] at waits
    generalize observed.bridge.view observed.oks reqId = view at shows waits
    cases shows
    simp at waits
  · intro unstuck
    have free {reqId : String} {stage : Stage}
        (shows : Shows stage (observed.bridge.view observed.oks reqId)) : stage ≠ .stuck := by
      rintro rfl
      exact unstuck reqId shows
    refine ⟨?_, ?_, ?_, ?_, ?_⟩
    · intro reqId
      obtain ⟨stage, shows, _⟩ := sound.stage reqId
      rw [places_view observed.bridge observed.oks, sound.published_view]
      exact shows.places (free shows)
    · intro call made
      obtain ⟨stage, shows, used, passed⟩ := sound.stage_call made
      exact shows.asked used passed
    · intro reqId
      obtain ⟨stage, shows, _⟩ := sound.stage reqId
      exact shows.decided
    · intro reqId
      obtain ⟨stage, shows, _⟩ := sound.stage reqId
      exact shows.accepted
    · intro call made
      obtain ⟨stage, shows, used, _⟩ := sound.stage_call made
      exact shows.settled used (free shows)

/-! ## Resets -/

/-- A map without keys has no entries. -/
theorem entries_empty {β : Type} (map : OrderedMap String β) (absent : ∀ key, map.get? key = none) :
    map.entries = [] := by
  apply List.eq_nil_iff_forall_not_mem.mpr
  rintro ⟨key, value⟩ member
  have held := (map.mem_entries key value).mp member
  exact absurd ((absent key).symm.trans held) (by simp)

/-- After a reset nothing waits. -/
theorem Sound.cleared {reason : Option String} {clock : String → Decimal}
    (sound : Sound observed) (taken : observe observed (.reset reason clock) = some next)
    (consistent : Consistent next) : Cleared next.bridge := by
  obtain ⟨_, bridge, stepped, rfl⟩ := observe_cases taken
  cases stepped
  have view (reqId : String) : ∃ first second answer,
      (observed.bridge.reset reason clock).view observed.oks reqId =
        (observed.bridge.view observed.oks reqId).cancel (.deny first) (.deny second) answer := by
    obtain ⟨stage, shows, _⟩ := sound.stage reqId
    exact view_reset reason clock shows.entries_le
  have question (reqId : String) : (observed.bridge.reset reason clock).pending.get? reqId = none := by
    obtain ⟨first, second, answer, isView⟩ := view reqId
    exact congrArg BridgeView.question isView
  have permission (reqId : String) :
      (observed.bridge.reset reason clock).permRequestPending.get? reqId = none := by
    obtain ⟨first, second, answer, isView⟩ := view reqId
    exact congrArg BridgeView.permission isView
  refine ⟨entries_empty _ question, entries_empty _ permission, rfl, rfl, ?_⟩
  apply entries_empty
  intro reqId
  have waits := consistent.places reqId
  rw [places, OrderedMap.has, OrderedMap.has, question, permission] at waits
  by_contra present
  have isPublished : (observed.bridge.reset reason clock).ledger.published.has reqId = true :=
    Option.isSome_iff_ne_none.mpr present
  rw [if_pos isPublished] at waits
  contradiction

/-! ## Main result -/

/-- Answers to a pending question can be put into words: its questions are a list and each of
its lines can be written. -/
def AnswersWorded (bridge : PreToolPermissionBridge) (event : Event) : Prop :=
  ∀ reqId decision drove now pending answers, event = .resolve reqId decision drove now →
    bridge.pending.get? reqId = some pending → answersOf decision = some answers →
    ∃ items, pending.questions = .arr items ∧ ∀ question ∈ items, Worded answers question

/-- The decision about a question throws exactly for answers that cannot be put into words. -/
theorem mapDecision_none {pending : PendingPreToolRequest} (asks : pending.isQuestion = true)
    (decision : PermDecision) :
    mapDecision pending decision = none ↔ ∃ answers, answersOf decision = some answers ∧
      ¬ ∃ items, pending.questions = .arr items ∧ ∀ question ∈ items, Worded answers question := by
  unfold mapDecision
  rw [if_pos asks]
  cases answersOf decision with
  | none => cases decision <;> simp
  | some answers =>
    simp only [Option.map_eq_none_iff, Option.some.injEq, exists_eq_left',
      ← composeAskAnswerReason_isSome, Option.not_isSome_iff_eq_none]

/-- A failing decision is one about a question with answers that cannot be put into words. -/
theorem fails_iff {bridge : PreToolPermissionBridge}
    (asks : ∀ reqId pending, bridge.pending.get? reqId = some pending → pending.isQuestion = true) :
    AnswersWorded bridge event ↔ ∀ reqId, ¬ Fails bridge event reqId := by
  constructor
  · rintro worded reqId ⟨decision, drove, now, pending, resolved, held, throws⟩
    obtain ⟨answers, isAnswers, unworded⟩ := (mapDecision_none (asks reqId pending held) decision).mp throws
    exact unworded (worded reqId decision drove now pending answers resolved held isAnswers)
  · intro fine reqId decision drove now pending answers resolved held isAnswers
    by_contra unworded
    have throws := (mapDecision_none (asks reqId pending held) decision).mpr ⟨answers, isAnswers, unworded⟩
    exact fine reqId ⟨decision, drove, now, pending, resolved, held, throws⟩

/-- What waits for an answer in the map of questions is a question. -/
theorem Sound.asks (sound : Sound observed) (reqId : String)
    (pending : PendingPreToolRequest) (held : observed.bridge.pending.get? reqId = some pending) :
    pending.isQuestion = true := by
  obtain ⟨stage, shows, _⟩ := sound.stage reqId
  obtain ⟨request, _, asks, _⟩ := shows.of_question held
  exact asks

/-- A view shows no other stage beside the stuck one. -/
theorem stuck_only {view : BridgeView} (shows : Shows stage view)
    (stuck : Shows .stuck view) : stage = .stuck := by
  cases stuck
  cases shows
  rfl

/-- A call that is made is not stuck. -/
theorem opened_not_stuck (event : Event) : event.opened ≠ .stuck := by
  unfold Event.opened
  split
  · split
    · split <;> simp
    · simp
  · split
    · simp
    · split <;> simp
  · simp

/-- A step leaves nothing stuck exactly when no decision fails. -/
theorem unstuck_step (sound : Sound observed)
    (unstuck : Unstuck observed) (taken : observe observed event = some next) :
    Unstuck next ↔ ∀ reqId, ¬ Fails observed.bridge event reqId := by
  constructor
  · intro free reqId fails
    obtain ⟨decision, drove, now, pending, resolved, held, throws⟩ := id fails
    obtain ⟨stage, shows, follows⟩ := sound.stage reqId
    obtain ⟨request, rfl, _⟩ := shows.of_question held
    obtain ⟨after, showsAfter, _, moved⟩ := observe_moves taken reqId shows follows
    cases moved with
    | stay _ _ fine => exact fine fails
    | finish _ _ _ fine => exact fine fails
    | fail _ _ => exact free reqId showsAfter
  · intro fine reqId stuck
    obtain ⟨stage, shows, follows⟩ := sound.stage reqId
    obtain ⟨after, showsAfter, _, moved⟩ := observe_moves taken reqId shows follows
    have isStuck := stuck_only showsAfter stuck
    cases moved with
    | stay _ _ _ => exact unstuck reqId (isStuck ▸ shows)
    | start _ _ => exact absurd isStuck (opened_not_stuck event)
    | drive _ _ => contradiction
    | finish _ _ _ _ => contradiction
    | fail _ fails => exact fine reqId fails

/-- What is said of a step: the requests are consistent after it, and a reset leaves nothing. -/
def Orderly (event : Event) (next : Observed) : Prop :=
  Consistent next ∧ ∀ reason clock, event = .reset reason clock → Cleared next.bridge

/-- The requests of a bridge are consistent along a run, and every reset clears them, exactly
when all answers given to its pending questions can be put into words. -/
theorem requests_consistent_iff (deps : BridgeDeps) (events : List Event) :
    Always observe (fun _ event next => Orderly event next) (.start deps) events ↔
      Always observe (fun observed event _ => AnswersWorded observed.bridge event) (.start deps)
        events := by
  have consistent : Always observe (fun _ _ next => Consistent next) (.start deps) events ↔
      Always observe (fun observed event _ => AnswersWorded observed.bridge event) (.start deps)
        events := by
    apply always_state_iff Sound Consistent (fun observed event => AnswersWorded observed.bridge event)
    · intro observed event next sound taken
      exact sound.step taken
    · intro observed event next sound holds taken
      rw [(sound.step taken).consistent, fails_iff sound.asks]
      exact unstuck_step sound (sound.consistent.mp holds) taken
    · exact sound_start deps
    · apply (sound_start deps).consistent.mpr
      intro reqId stuck
      exact absurd (stuck_only .blank stuck) (by simp)
  rw [← consistent]
  constructor
  · apply always_along (fun _ => True)
    · intro observed event next _ orderly taken
      exact ⟨trivial, orderly.1⟩
    · trivial
  · apply always_along Sound
    · rintro observed event next sound holds taken
      refine ⟨sound.step taken, holds, ?_⟩
      rintro reason clock rfl
      exact sound.cleared taken holds
    · exact sound_start deps

/-- The questions are no list: the answer to them throws, and its hook is never answered. -/
theorem answer_lost :
    ¬ ∀ deps events, Always observe (fun _ event next => Orderly event next) (.start deps) events := by
  intro always
  have orderly := ((always ⟨false, false, 600000, none⟩
    [.preToolUse "r" ⟨"AskUserQuestion", some [("questions", .str "x")], none⟩ true (Decimal.ofInt 0),
      .resolve "r" (.allow .once (some (.obj [("answers", .obj [])]))) none (Decimal.ofInt 0)]
    _ rfl).2 _ rfl).1
  have settled := orderly.1.settled ⟨"r", true⟩ (List.mem_singleton_self _)
  contradiction

end PreToolPermissionRuns

end Kvy.Cli.Claude
