import Kvy.Cli.Claude.InjectionGates
import Kvy.Cli.Claude.RemotePermissionHook
import Kvy.Cli.Commands.LocalPty

/-!
# The gate before open dialogs

One flag and one timer stand for all dialogs of the terminal. A hook that may open a dialog sets the
flag. The end of any tool, the end of a turn and the timer clear it, whichever dialogs are still open.
The flag is set while a young dialog is open exactly as long as none of the three happens during one.
-/

namespace Kvy.Cli.Commands

open General General.Runs Wire Permissions Claude Claude.PreToolPermissionBridge

/-- `PROMPT_OPEN_FAILSAFE_MS`. -/
def promptOpenFailsafeMs : Nat := 120000

/-! ## The system -/

/-- A dialog of a local request that is not answered, and when it was raised. -/
structure Dialog where
  reqId : String
  raisedAt : Nat
deriving DecidableEq

/-- A session with its clock, the times at which its failsafe timers were set, and the dialogs that are
open. -/
structure PromptGate where
  pty : LocalPty
  controller : InjectionController
  now : Nat
  failsafes : List (Nat × Nat)
  dialogs : List Dialog

/-- What can happen: time passes, something at the bridge, an attention hook, envelopes of the
transcript, the answer to a dialog, something else at the controller. -/
inductive GateEvent where
  | elapse (ms : Nat)
  | bridge (event : Event)
  | attention (kind : AttentionKind) (isWebTurnActive : Bool)
  | envelopes (envelopes : List SessionEnvelope) (clock : Decimal)
  | answer (reqId : String)
  | controller (event : InjectionController.Event)

/-- Whether a call is `onPromptLikely`. -/
def isPromptLikely : PermissionCall HookOutput → Bool
  | .onPromptLikely => true
  | _ => false

/-- Whether `onPromptLikely` is called on the way from one bridge to the next. -/
def promptLikely (bridge next : PreToolPermissionBridge) : Bool :=
  (next.ledger.calls.drop bridge.ledger.calls.length).any isPromptLikely

/-- Whether an envelope is a `tool-end`. -/
def isToolEnd (envelope : SessionEnvelope) : Bool :=
  match envelope.ev with
  | .toolEnd _ _ _ => true
  | _ => false

namespace PromptGate

/-- Before anything happens. -/
def start (deps : BridgeDeps) : PromptGate := ⟨⟨.create deps, .empty⟩, .create, 0, [], []⟩

/-- `setPromptOpen`. The time is noted where it sets its timer. -/
def setPromptOpen (gate : PromptGate) (isOpen : Bool) : PromptGate :=
  { gate with
    controller := gate.controller.setPromptOpen isOpen
    failsafes :=
      if isOpen && !gate.controller.promptOpen then
        gate.failsafes ++ [(gate.controller.timers.next, gate.now)]
      else gate.failsafes }

/-- `onAttention`. -/
def onAttention (gate : PromptGate) (kind : AttentionKind) (isWebTurnActive : Bool) : PromptGate :=
  match kind with
  | .done => gate.setPromptOpen false
  | _ => if isWebTurnActive then gate else gate.setPromptOpen true

/-- `onEnvelopes`. -/
def onEnvelopes (gate : PromptGate) (envelopes : List SessionEnvelope) (clock : Decimal) :
    PromptGate :=
  let cleared := if envelopes.any isToolEnd then gate.setPromptOpen false else gate
  { cleared with pty := cleared.pty.onEnvelopes envelopes clock }

/-- The bridge has moved on: its dialog, and `onPromptLikely`. -/
def note (gate : PromptGate) (event : Event)
    (bridge : PreToolPermissionBridge) : PromptGate :=
  let raised := (raisedBy "" event).toList.map (fun raised => Dialog.mk raised.reqId gate.now)
  let noted :=
    { gate with pty := { gate.pty with bridge := bridge }, dialogs := gate.dialogs ++ raised }
  if promptLikely gate.pty.bridge bridge then noted.setPromptOpen true else noted

/-- A failsafe timer fires when its time has come. -/
def Due (gate : PromptGate) : InjectionController.Event → Prop
  | .fire ⟨handle, .promptOpenFailsafe⟩ =>
    ∃ set ∈ gate.failsafes, set.1 = handle ∧ set.2 + promptOpenFailsafeMs ≤ gate.now
  | .setPromptOpen _ => False
  | .dispose => False
  | _ => True

instance (gate : PromptGate) : DecidablePred gate.Due := by
  intro event
  unfold Due
  split <;> infer_instance

/-- A step. -/
def step (gate : PromptGate) : GateEvent → Option PromptGate
  | .elapse ms => some { gate with now := gate.now + ms }
  | .bridge event => (gate.pty.bridge.step event).map (gate.note event)
  | .attention kind isWebTurnActive => some (gate.onAttention kind isWebTurnActive)
  | .envelopes envelopes clock => some (gate.onEnvelopes envelopes clock)
  | .answer reqId =>
    some { gate with dialogs := gate.dialogs.filter (fun dialog => dialog.reqId ≠ reqId) }
  | .controller event =>
    if gate.Due event then
      (gate.controller.step event).map (fun controller => { gate with controller := controller })
    else none

/-- A dialog that was raised less than the time of the failsafe ago is open. -/
def YoungOpen (gate : PromptGate) : Prop :=
  ∃ dialog ∈ gate.dialogs, gate.now < dialog.raisedAt + promptOpenFailsafeMs

/-- The flag is set while a young dialog is open. -/
def Closed (gate : PromptGate) : Prop := gate.YoungOpen → gate.controller.promptOpen = true

/-- No tool ends, no turn ends and no failsafe timer fires while a young dialog is open. -/
def Undisturbed (gate : PromptGate) : GateEvent → Prop
  | .attention .done _ => ¬ gate.YoungOpen
  | .envelopes envelopes _ => envelopes.any isToolEnd = true → ¬ gate.YoungOpen
  | .controller (.fire ⟨_, .promptOpenFailsafe⟩) => ¬ gate.YoungOpen
  | _ => True

end PromptGate

/-! ## What the parts of a step do to the flag -/

/-- What has been told stays, and more may follow. -/
theorem told_cachePermissionMode (bridge : PreToolPermissionBridge) (raw : Option String) :
    bridge.ledger.calls <+: (bridge.cachePermissionMode raw).ledger.calls := by
  have watchers : ∀ (watchers : List Nat) (mode : Option PermissionMode)
      (told : PreToolPermissionBridge),
      told.ledger.calls <+: (watchers.foldl (tellWatcher · mode ·) told).ledger.calls := by
    intro watchers mode
    induction watchers with
    | nil => exact fun told => List.prefix_refl _
    | cons watcher rest inductionHypothesis =>
      intro told
      exact (List.prefix_append _ _).trans (inductionHypothesis (told.tellWatcher mode watcher))
  unfold cachePermissionMode
  cases raw.bind permissionMode? with
  | none => exact List.prefix_refl _
  | some mode =>
    refine List.IsPrefix.trans ?_ (watchers _ _ _)
    dsimp only
    split
    · exact List.prefix_append _ _
    · exact List.prefix_refl _

/-- A local request tells that a dialog is likely. -/
theorem promptLikely_of_raised {bridge next : PreToolPermissionBridge} {event : Event}
    {raised : Raised} (raises : raisedBy "" event = some raised)
    (taken : bridge.step event = some next) : promptLikely bridge next = true := by
  have told : ∀ {cached : List (PermissionCall HookOutput)} (first second third answer),
      bridge.ledger.calls <+: cached →
      ((cached ++ [first] ++ [second] ++ [third] ++ [PermissionCall.onPromptLikely] ++ [answer]).drop
        bridge.ledger.calls.length).any isPromptLikely = true := by
    rintro cached first second third answer ⟨more, rfl⟩
    simp [List.append_assoc, List.drop_left', isPromptLikely]
  cases event with
  | preToolUse reqId input isWebTurnActive now =>
    cases taken
    obtain ⟨asks, isLocal⟩ : isAskUserQuestion input.toolName = true ∧ isWebTurnActive = false := by
      simpa [raisedBy] using (Option.ite_none_right_eq_some.mp raises).1
    have cached := told_cachePermissionMode bridge input.permissionMode
    unfold promptLikely
    rw [isLocal, handlePreToolUse, if_pos asks]
    exact told _ _ _ _ cached
  | permissionRequest reqId input isWebTurnActive now =>
    cases taken
    obtain ⟨asks, isLocal⟩ : isAskUserQuestion input.toolName = false ∧ isWebTurnActive = false := by
      simpa [raisedBy] using (Option.ite_none_right_eq_some.mp raises).1
    have cached := told_cachePermissionMode bridge input.permissionMode
    unfold promptLikely
    rw [isLocal, handlePermissionRequest, asks]
    exact told _ _ _ _ cached
  | _ => cases raises

/-- Nothing but `dispose` ends a controller. -/
theorem running_step {controller next : InjectionController} {event : InjectionController.Event}
    (running : controller.disposed = false) (taken : controller.step event = some next)
    (other : event ≠ .dispose) : next.disposed = false := by
  have flushed : ∀ changed : InjectionController, changed.disposed = false →
      changed.tryFlush.disposed = false := by
    intro changed held
    exact (congrArg InjectionGates.disposed (InjectionController.tryFlush_gates changed)).trans held
  cases event with
  | enqueue message =>
    cases taken
    unfold InjectionController.enqueue
    split
    · exact running
    · exact flushed _ running
  | setBusy busy =>
    cases taken
    unfold InjectionController.setBusy
    split_ifs
    · exact running
    · exact running
    · exact flushed _ running
  | markReady =>
    cases taken
    unfold InjectionController.markReady
    split
    · exact running
    · exact flushed _ running
  | setPromptOpen isOpen =>
    cases taken
    have gates := InjectionController.follows_setPromptOpen controller running isOpen
    exact (congrArg InjectionGates.disposed gates).trans running
  | setLocalDraft active =>
    cases taken
    unfold InjectionController.setLocalDraft
    split_ifs
    · exact running
    · exact running
    · exact flushed _ running
  | dispose => exact absurd rfl other
  | fire timer =>
    obtain ⟨-, taken⟩ := Option.ite_none_right_eq_some.mp taken
    cases taken
    obtain ⟨handle, callback⟩ := timer
    cases callback with
    | submit message =>
      change (InjectionController.submitFires _ message).disposed = false
      rw [InjectionController.submitFires, if_neg (by simp [running])]
      exact running
    | cooldown =>
      change (InjectionController.cooldownFires _).disposed = false
      unfold InjectionController.cooldownFires
      dsimp only
      split
      · exact running
      · exact flushed _ running
    | promptOpenFailsafe =>
      have gates := InjectionController.follows_setPromptOpen
        { controller with
          timers := controller.timers.clear handle
          promptOpenFailsafeTimer := none } running false
      exact (congrArg InjectionGates.disposed gates).trans running

namespace PromptGate

variable {gate next : PromptGate}

/-- Setting the flag sets it, and nothing else of what a gate is judged by. -/
theorem setPromptOpen_gates (running : gate.controller.disposed = false) (isOpen : Bool) :
    (gate.setPromptOpen isOpen).controller.promptOpen = isOpen ∧
      (gate.setPromptOpen isOpen).controller.disposed = false := by
  have gates := InjectionController.follows_setPromptOpen gate.controller running isOpen
  exact ⟨congrArg InjectionGates.promptOpen gates, (congrArg InjectionGates.disposed gates).trans running⟩

/-- Where the flag is cleared, the gate is closed exactly if no young dialog is open. -/
theorem closed_cleared (cleared : next.controller.promptOpen = false) :
    next.Closed ↔ ¬ next.YoungOpen := by
  unfold Closed
  rw [cleared]
  simp

/-- A set flag closes the gate. -/
theorem closed_set (set : next.controller.promptOpen = true) : next.Closed := fun _ => set

/-- Where the flag stays and no dialog is new, the gate stays closed. -/
theorem Closed.kept (closed : gate.Closed) (same : next.controller.promptOpen = gate.controller.promptOpen)
    (later : gate.now ≤ next.now) (fewer : ∀ dialog ∈ next.dialogs, dialog ∈ gate.dialogs) :
    next.Closed := by
  rintro ⟨dialog, held, young⟩
  rw [same]
  exact closed ⟨dialog, fewer dialog held, Nat.lt_of_le_of_lt later young⟩

theorem step_running {event : GateEvent} (running : gate.controller.disposed = false)
    (taken : gate.step event = some next) : next.controller.disposed = false := by
  cases event with
  | elapse ms =>
    cases taken
    exact running
  | bridge event =>
    obtain ⟨bridge, _, rfl⟩ := Option.map_eq_some_iff.mp taken
    unfold note
    dsimp only
    split
    · exact (setPromptOpen_gates running true).2
    · exact running
  | attention kind isWebTurnActive =>
    cases taken
    cases kind with
    | done => exact (setPromptOpen_gates running false).2
    | perm =>
      cases isWebTurnActive with
      | true => exact running
      | false => exact (setPromptOpen_gates running true).2
    | question =>
      cases isWebTurnActive with
      | true => exact running
      | false => exact (setPromptOpen_gates running true).2
  | envelopes envelopes clock =>
    cases taken
    unfold onEnvelopes
    dsimp only
    split
    · exact (setPromptOpen_gates running false).2
    · exact running
  | answer reqId =>
    cases taken
    exact running
  | controller event =>
    obtain ⟨due, taken⟩ := Option.ite_none_right_eq_some.mp taken
    obtain ⟨controller, stepped, rfl⟩ := Option.map_eq_some_iff.mp taken
    refine running_step running stepped ?_
    rintro rfl
    exact due

/-- A step keeps the gate closed exactly where it is undisturbed. -/
theorem closed_step {event : GateEvent} (running : gate.controller.disposed = false)
    (closed : gate.Closed) (taken : gate.step event = some next) :
    next.Closed ↔ gate.Undisturbed event := by
  cases event with
  | elapse ms =>
    cases taken
    exact iff_of_true (closed.kept rfl (Nat.le_add_right _ _) (fun _ held => held)) trivial
  | bridge event =>
    obtain ⟨bridge, stepped, rfl⟩ := Option.map_eq_some_iff.mp taken
    refine iff_of_true ?_ trivial
    unfold note
    dsimp only
    split
    · exact closed_set (setPromptOpen_gates running true).1
    · rename_i quiet
      refine closed.kept rfl (Nat.le_refl _) ?_
      intro dialog held
      rcases List.mem_append.mp held with held | added
      · exact held
      · cases raises : raisedBy "" event with
        | none => simp [raises] at added
        | some raised => exact absurd (promptLikely_of_raised raises stepped) quiet
  | attention kind isWebTurnActive =>
    cases taken
    cases kind with
    | done => exact closed_cleared (setPromptOpen_gates running false).1
    | perm =>
      cases isWebTurnActive with
      | true => exact iff_of_true closed trivial
      | false => exact iff_of_true (closed_set (setPromptOpen_gates running true).1) trivial
    | question =>
      cases isWebTurnActive with
      | true => exact iff_of_true closed trivial
      | false => exact iff_of_true (closed_set (setPromptOpen_gates running true).1) trivial
  | envelopes envelopes clock =>
    cases taken
    unfold onEnvelopes Undisturbed
    by_cases ends : envelopes.any isToolEnd = true
    · simp only [ends, ↓reduceIte, forall_const]
      exact closed_cleared (setPromptOpen_gates running false).1
    · simp only [ends, Bool.false_eq_true, ↓reduceIte, false_implies, iff_true]
      exact closed
  | answer reqId =>
    cases taken
    exact iff_of_true (closed.kept rfl (Nat.le_refl _)
      (fun dialog held => (List.mem_filter.mp held).1)) trivial
  | controller event =>
    obtain ⟨due, taken⟩ := Option.ite_none_right_eq_some.mp taken
    obtain ⟨controller, stepped, rfl⟩ := Option.map_eq_some_iff.mp taken
    have follows := (InjectionController.step_follows running stepped).promptOpen
    have same : ∀ changed : PromptGate, changed = { gate with controller := controller } →
        controller.promptOpen = gate.controller.promptOpen → changed.Closed := by
      rintro changed rfl flag
      exact closed.kept flag (Nat.le_refl _) (fun _ held => held)
    cases event with
    | setPromptOpen isOpen => exact due.elim
    | dispose => exact due.elim
    | fire timer =>
      obtain ⟨handle, callback⟩ := timer
      cases callback with
      | promptOpenFailsafe => exact closed_cleared follows
      | submit message => exact iff_of_true (same _ rfl follows) trivial
      | cooldown => exact iff_of_true (same _ rfl follows) trivial
    | enqueue message => exact iff_of_true (same _ rfl follows) trivial
    | setBusy busy => exact iff_of_true (same _ rfl follows) trivial
    | markReady => exact iff_of_true (same _ rfl follows) trivial
    | setLocalDraft active => exact iff_of_true (same _ rfl follows) trivial

/-- In a run, the flag is set while a young dialog is open exactly as long as no tool ends, no turn ends
and no failsafe timer fires during one. -/
theorem gate_closed_iff (deps : BridgeDeps) (events : List GateEvent) :
    Always step (fun _ _ next => next.Closed) (start deps) events ↔
      Always step (fun gate event _ => gate.Undisturbed event) (start deps) events := by
  apply always_state_iff (fun gate => gate.controller.disposed = false) Closed Undisturbed
  · intro gate event next running taken
    exact step_running running taken
  · intro gate event next running closed taken
    exact closed_step running closed taken
  · rfl
  · rintro ⟨dialog, held, _⟩
    exact absurd held List.not_mem_nil

/-- The end of another tool opens the gate before a dialog that is open. -/
theorem other_tool_opens :
    ¬ ∀ deps events, Always step (fun _ _ next => next.Closed) (start deps) events := by
  intro always
  have closed := (((always ⟨true, true, 600000, none⟩
    [.bridge (.permissionRequest "r" ⟨"Bash", none, none⟩ false (Decimal.ofInt 0)),
      .envelopes [⟨"e", Decimal.ofInt 0, .agent, none, none, .toolEnd "other" true none⟩]
        (Decimal.ofInt 0)] _ rfl).2 _ rfl).1)
  have decided := closed ⟨⟨"r", 0⟩, List.mem_singleton_self _, by decide⟩
  cases decided

end PromptGate

end Kvy.Cli.Commands
