import Kvy.Cli.Commands.LocalPty

/-!
# Web answers to dialogs of the terminal

The terminal shows the dialogs of local requests one at a time. An answer from the web to a request whose
tool has not ended is typed into the terminal, whichever dialog is on screen. Keys are typed once for
each request, and into its own dialog exactly where the answer comes while that dialog is the first open
one.
-/

namespace Kvy.Cli.Commands

open General General.Runs Wire Permissions Claude Claude.PreToolPermissionBridge

/-! ## The system -/

/-- Whether an answer types keys into the terminal: it is for a local request, none were typed for it,
and the driver types them. -/
def typesKeys (bridge : PreToolPermissionBridge) (reqId : String) (drove : Option Bool) : Bool :=
  (bridge.localOutcomePending.find? (fun entry => entry.reqId = reqId)).any (fun entry =>
    reqId ∉ bridge.drivenLocalReqIds && bridge.drive entry drove = some true)

/-- The request for which an event types keys into the terminal. -/
def drives? (bridge : PreToolPermissionBridge) : Event → Option String
  | .resolve reqId _ drove _ => if typesKeys bridge reqId drove then some reqId else none
  | _ => none

/-- A bridge, the local requests in the order in which their dialogs were raised, those whose dialog is
closed, and those for which keys were typed. -/
structure LocalDialogs where
  observed : PreToolPermissionRuns.Observed
  raised : List String
  closed : List String
  driven : List String

/-- What can happen: something at the bridge, or an answer at the keyboard. -/
inductive DialogEvent where
  | bridge (event : Event)
  | keyboard

namespace LocalDialogs

/-- Before anything happens. -/
def start (deps : BridgeDeps) : LocalDialogs := ⟨.start deps, [], [], []⟩

/-- The request whose dialog is on screen. -/
def onScreen (dialogs : LocalDialogs) : Option String :=
  dialogs.raised.find? (fun reqId => reqId ∉ dialogs.closed)

/-- A step. Keys that are typed for a request close the dialog on screen. -/
def step (dialogs : LocalDialogs) : DialogEvent → Option LocalDialogs
  | .bridge event =>
    (PreToolPermissionRuns.observe dialogs.observed event).map (fun observed =>
      { observed := observed
        raised := dialogs.raised ++ ((raisedBy "" event).map Raised.reqId).toList
        closed :=
          if (drives? dialogs.observed.bridge event).isSome then
            dialogs.closed ++ dialogs.onScreen.toList
          else dialogs.closed
        driven := dialogs.driven ++ (drives? dialogs.observed.bridge event).toList })
  | .keyboard =>
    dialogs.onScreen.map (fun reqId => { dialogs with closed := dialogs.closed ++ [reqId] })

/-- Keys are typed into the dialog of their own request, and never again. -/
def OwnDialog (dialogs : LocalDialogs) : DialogEvent → Prop
  | .bridge event => ∀ reqId ∈ drives? dialogs.observed.bridge event,
      dialogs.onScreen = some reqId ∧ reqId ∉ dialogs.driven
  | .keyboard => True

/-- An answer for which keys are typed finds its dialog open, and every dialog that was raised before it
closed. -/
def Timely (dialogs : LocalDialogs) : DialogEvent → Prop
  | .bridge event => ∀ reqId ∈ drives? dialogs.observed.bridge event,
      reqId ∉ dialogs.closed ∧
        ∀ earlier ∈ dialogs.raised.takeWhile (fun other => other ≠ reqId), earlier ∈ dialogs.closed
  | .keyboard => True

end LocalDialogs

/-! ## What is typed -/

variable {reqId : String}

/-- Keys are typed exactly where an answer to a local request is accepted. -/
theorem typesKeys_iff {bridge : PreToolPermissionBridge} {decision : PermDecision}
    {drove : Option Bool} {now : Decimal} :
    typesKeys bridge reqId drove = true ↔
      (∃ entry ∈ bridge.localOutcomePending, entry.reqId = reqId) ∧
        (bridge.resolve reqId decision drove now).1 = some .ok := by
  unfold typesKeys PreToolPermissionBridge.resolve
  cases found : bridge.localOutcomePending.find? (fun entry => entry.reqId = reqId) with
  | none =>
    have missing : ¬ ∃ entry ∈ bridge.localOutcomePending, entry.reqId = reqId := by
      simpa using found
    simp [missing]
  | some entry =>
    have held : ∃ entry ∈ bridge.localOutcomePending, entry.reqId = reqId :=
      ⟨entry, List.mem_of_find?_eq_some found, by simpa using List.find?_some found⟩
    by_cases again : reqId ∈ bridge.drivenLocalReqIds
    · simp [again]
    · cases took : bridge.drive entry drove with
      | none => simp [again, took]
      | some took' => cases took' <;> simp [again, took, held]

variable {event : Event}

/-- What it takes for keys to be typed. -/
theorem drives_cases
    {bridge : PreToolPermissionBridge}     (drives : drives? bridge event = some reqId) :
    (∃ entry ∈ bridge.localOutcomePending, entry.reqId = reqId) ∧
      reqId ∉ bridge.drivenLocalReqIds ∧ accepted bridge event = [reqId] := by
  cases event with
  | resolve named decision drove now =>
    obtain ⟨types, same⟩ := Option.ite_none_right_eq_some.mp drives
    cases same
    obtain ⟨held, ok⟩ := typesKeys_iff.mp types
    obtain ⟨entry, -, undriven⟩ := (Option.any_eq_true _ _).mp types
    rw [Bool.and_eq_true, decide_eq_true_eq] at undriven
    refine ⟨held, undriven.1, ?_⟩
    rw [accepted, ok]
    rfl
  | _ => simp [drives?] at drives

/-! ## Runs -/

namespace LocalDialogs

variable {dialogs next : LocalDialogs}

/-- What holds in every run: a request that stands at the terminal was raised, and keys are typed for
accepted answers alone. -/
structure Sound (dialogs : LocalDialogs) : Prop where
  bridge : PreToolPermissionRuns.Sound dialogs.observed
  stage : ∀ reqId, ∃ stage,
    Shows stage (dialogs.observed.bridge.view dialogs.observed.oks reqId) ∧
      PreToolPermissionRuns.Follows dialogs.observed.calls reqId stage ∧
      (∀ driven, stage = .atTerminal driven → reqId ∈ dialogs.raised)
  driven : ∀ reqId ∈ dialogs.driven, reqId ∈ dialogs.observed.oks

theorem sound_start (deps : BridgeDeps) : Sound (start deps) where
  bridge := PreToolPermissionRuns.sound_start deps
  stage := fun reqId => ⟨.blank, .blank, List.not_mem_nil, by simp⟩
  driven := by simp [start]

/-- A request that comes to stand at the terminal is raised by the event. -/
theorem raised_of_opened {opens driven : Bool}
    (made : event.call? = some ⟨reqId, opens⟩) (opened : event.opened = .atTerminal driven) :
    (raisedBy "" event).map Raised.reqId = some reqId := by
  cases event with
  | preToolUse named input isWebTurnActive now =>
    obtain ⟨rfl, -⟩ := HookCall.mk.inj (Option.some.inj made)
    cases kind : isAskUserQuestion input.toolName <;> cases isWebTurnActive <;>
      simp_all [Event.opened, raisedBy]
  | permissionRequest named input isWebTurnActive now =>
    obtain ⟨rfl, -⟩ := HookCall.mk.inj (Option.some.inj made)
    cases kind : isAskUserQuestion input.toolName <;> cases isWebTurnActive <;>
      simp_all [Event.opened, raisedBy]
  | _ => simp [Event.call?] at made

/-- A request that stands at the terminal stood there before, or is raised. -/
theorem raised_step
    {bridge : PreToolPermissionBridge}     {stage after : Stage} (moved : StageStep bridge event reqId stage after) {driven : Bool}
    (terminal : after = .atTerminal driven) : (∃ driven, stage = .atTerminal driven) ∨
      (raisedBy "" event).map Raised.reqId = some reqId := by
  cases moved with
  | stay _ old undisturbed => exact .inl ⟨driven, terminal⟩
  | start opens made => exact .inr (raised_of_opened made terminal)
  | drive old undecided => exact .inl ⟨false, rfl⟩
  | finish _ decision old finishes => cases terminal
  | fail old fails => cases terminal

theorem Sound.step {event : DialogEvent} (sound : Sound dialogs)
    (taken : dialogs.step event = some next) : Sound next := by
  cases event with
  | keyboard =>
    obtain ⟨reqId, _, rfl⟩ := Option.map_eq_some_iff.mp taken
    exact ⟨sound.bridge, sound.stage, sound.driven⟩
  | bridge event =>
    obtain ⟨observed, seen, rfl⟩ := Option.map_eq_some_iff.mp taken
    refine ⟨sound.bridge.step seen, ?_, ?_⟩
    · intro reqId
      obtain ⟨stage, shows, follows, raised⟩ := sound.stage reqId
      obtain ⟨after, showsAfter, followsAfter, moved⟩ :=
        PreToolPermissionRuns.observe_moves seen reqId shows follows
      refine ⟨after, showsAfter, followsAfter, ?_⟩
      intro driven terminal
      rcases raised_step moved terminal with ⟨before, same⟩ | now
      · exact List.mem_append_left _ (raised before same)
      · exact List.mem_append_right _ (Option.mem_toList.mpr now)
    · obtain ⟨_, bridge, _, rfl⟩ := PreToolPermissionRuns.observe_cases seen
      intro reqId typed
      rcases List.mem_append.mp typed with before | now
      · exact List.mem_append_left _ (sound.driven reqId before)
      · obtain ⟨-, -, accepts⟩ := drives_cases (Option.mem_toList.mp now)
        rw [accepts]
        exact List.mem_append_right _ (List.mem_singleton_self _)

/-- Keys are typed for a request that was raised, and for which none were typed before. -/
theorem Sound.drives
    (sound : Sound dialogs)     (drives : drives? dialogs.observed.bridge event = some reqId) :
    reqId ∈ dialogs.raised ∧ reqId ∉ dialogs.driven := by
  obtain ⟨⟨entry, listed, rfl⟩, undriven, -⟩ := drives_cases drives
  obtain ⟨stage, shows, -, raised⟩ := sound.stage entry.reqId
  have held : entry ∈ (dialogs.observed.bridge.view dialogs.observed.oks entry.reqId).entries :=
    List.mem_filter.mpr ⟨listed, decide_eq_true rfl⟩
  obtain ⟨request, answer, rfl, same⟩ := shows.of_entry held
  refine ⟨raised _ rfl, ?_⟩
  intro typed
  have count : dialogs.observed.oks.count entry.reqId = 0 := by
    have oks := congrArg BridgeView.oks same
    simpa [view, undriven] using oks
  exact List.count_eq_zero.mp count (sound.driven _ typed)

/-- The dialog of a raised request is on screen where it is open and every earlier one is closed. -/
theorem onScreen_iff (raised : reqId ∈ dialogs.raised) :
    dialogs.onScreen = some reqId ↔ reqId ∉ dialogs.closed ∧
      ∀ earlier ∈ dialogs.raised.takeWhile (fun other => other ≠ reqId), earlier ∈ dialogs.closed := by
  unfold onScreen
  generalize dialogs.raised = all at raised
  induction all with
  | nil => exact absurd raised List.not_mem_nil
  | cons first rest inductionHypothesis =>
    by_cases same : first = reqId
    · subst same
      by_cases closed : first ∈ dialogs.closed
      · have other : rest.find? (fun reqId => !decide (reqId ∈ dialogs.closed)) ≠ some first := by
          intro found
          exact absurd closed (by simpa using List.find?_some found)
        simpa [closed] using other
      · simp [closed]
    · have later : reqId ∈ rest := (List.mem_cons.mp raised).resolve_left (Ne.symm same)
      by_cases closed : first ∈ dialogs.closed
      · simpa [closed, same] using inductionHypothesis later
      · simp [closed, same]

end LocalDialogs

end Kvy.Cli.Commands
