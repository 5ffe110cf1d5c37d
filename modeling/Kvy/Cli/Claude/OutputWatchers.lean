import Kvy.General.RollingBuffer
import Kvy.Wire.Session

/-!
# Watchers of the terminal output

While the agent runs on a terminal, two watchers read its raw output: one confirms the dialog of
a model switch, the other waits for the status line of a permission mode. Each keeps the last five
hundred units of what it received and looks for its pattern only after cutting them. A string is
its sequence of sixteen-bit units.
-/

namespace Kvy.Cli.Claude

open General Wire

/-- The units of a text of the basic plane. -/
def plainUnits (text : String) : List UInt16 := text.toList.map fun char => UInt16.ofNat char.toNat

/-- `MODEL_SWITCH_CONFIRM_PATTERN`. -/
def modelSwitchConfirmPattern : List UInt16 := plainUnits "Switch model?"

/-- `MODEL_SWITCH_CONFIRM_BUFFER_MAX`. -/
def modelSwitchConfirmBufferMax : Nat := 500

/-- `MODE_STATUS_PATTERNS`. -/
def modeStatusPattern : PermissionMode → Option (List UInt16)
  | .default => some (plainUnits "⏸ manual mode on")
  | .acceptEdits => some (plainUnits "⏵⏵ accept edits on")
  | .plan => some (plainUnits "⏸ plan mode on")
  | .bypassPermissions => none

/-- `MODE_STATUS_BUFFER_MAX`. -/
def modeStatusBufferMax : Nat := 500

/-- What a session keeps for its watchers, what it wrote to the terminal's input, and how the
promises of `waitForModeStatus` settled. Promises are numbered. -/
structure OutputWatchers where
  awaitingModelSwitchConfirm : Bool
  modelSwitchConfirmBuffer : List UInt16
  modeStatusTarget : Option PermissionMode
  modeStatusBuffer : List UInt16
  modeStatusResolve : Option Nat
  promises : Nat
  written : List String
  settled : List (Nat × Bool)

namespace OutputWatchers

/-- `SUBMIT_KEY`. -/
def submitKey : String := "\r"

/-- `disarmModelSwitchConfirmWatcher`, also what its timer does. -/
def disarmModelSwitchConfirmWatcher (watchers : OutputWatchers) : OutputWatchers :=
  { watchers with awaitingModelSwitchConfirm := false, modelSwitchConfirmBuffer := [] }

/-- `armModelSwitchConfirmWatcher`. -/
def armModelSwitchConfirmWatcher (watchers : OutputWatchers) : OutputWatchers :=
  { watchers.disarmModelSwitchConfirmWatcher with awaitingModelSwitchConfirm := true }

/-- `finishModeStatusWatcher`, also what its timer does. -/
def finishModeStatusWatcher (watchers : OutputWatchers) (matched : Bool) : OutputWatchers :=
  { watchers with
    modeStatusTarget := none
    modeStatusBuffer := []
    modeStatusResolve := none
    settled := watchers.settled ++ watchers.modeStatusResolve.toList.map (·, matched) }

/-- `waitForModeStatus`: its promise and the session after it. -/
def waitForModeStatus (watchers : OutputWatchers) (target : PermissionMode) : Nat × OutputWatchers :=
  let promise := watchers.promises
  let watchers := { watchers with promises := watchers.promises + 1 }
  match modeStatusPattern target with
  | none => (promise, { watchers with settled := watchers.settled ++ [(promise, false)] })
  | some _ =>
    (promise, { watchers.finishModeStatusWatcher false with
      modeStatusTarget := some target
      modeStatusBuffer := []
      modeStatusResolve := some promise })

/-- The part of the `onData` handler that confirms a model switch. -/
def confirmModelSwitch (watchers : OutputWatchers) (data : List UInt16) : OutputWatchers :=
  if watchers.awaitingModelSwitchConfirm then
    let buffer := (watchers.modelSwitchConfirmBuffer ++ data).rtake modelSwitchConfirmBufferMax
    if modelSwitchConfirmPattern <:+: buffer then
      let disarmed := watchers.disarmModelSwitchConfirmWatcher
      { disarmed with written := disarmed.written ++ ["1", submitKey] }
    else { watchers with modelSwitchConfirmBuffer := buffer }
  else watchers

/-- The part of the `onData` handler that waits for a status line. -/
def watchModeStatus (watchers : OutputWatchers) (data : List UInt16) : OutputWatchers :=
  match watchers.modeStatusTarget with
  | none => watchers
  | some target =>
    let buffer := (watchers.modeStatusBuffer ++ data).rtake modeStatusBufferMax
    let watchers := { watchers with modeStatusBuffer := buffer }
    match modeStatusPattern target with
    | none => watchers
    | some pattern =>
      if pattern <:+: buffer then watchers.finishModeStatusWatcher true else watchers

/-- The `onData` handler. -/
def onData (watchers : OutputWatchers) (data : List UInt16) : OutputWatchers :=
  (watchers.confirmModelSwitch data).watchModeStatus data

/-- The handler over the chunks of a text. -/
def onChunks (watchers : OutputWatchers) (chunks : List (List UInt16)) : OutputWatchers :=
  chunks.foldl onData watchers

/-- The buffer of the confirmation while it is armed. -/
def confirming (watchers : OutputWatchers) : Option (List UInt16) :=
  if watchers.awaitingModelSwitchConfirm then some watchers.modelSwitchConfirmBuffer else none

@[simp] theorem finish_confirming (watchers : OutputWatchers) (matched : Bool) :
    (watchers.finishModeStatusWatcher matched).confirming = watchers.confirming := rfl

@[simp] theorem finish_written (watchers : OutputWatchers) (matched : Bool) :
    (watchers.finishModeStatusWatcher matched).written = watchers.written := rfl

/-- A status watcher's part leaves the confirmation alone. -/
theorem watch_mode_status_confirming (watchers : OutputWatchers) (data : List UInt16) :
    (watchers.watchModeStatus data).confirming = watchers.confirming ∧
      (watchers.watchModeStatus data).written = watchers.written := by
  unfold watchModeStatus
  split
  · exact ⟨rfl, rfl⟩
  · simp only
    split
    · simp [confirming]
    · split
      · rw [finish_confirming, finish_written]
        simp [confirming]
      · simp [confirming]

/-- The confirmation's part leaves the status watcher alone. -/
theorem confirm_model_switch_status (watchers : OutputWatchers) (data : List UInt16) :
    (watchers.confirmModelSwitch data).modeStatusTarget = watchers.modeStatusTarget ∧
      (watchers.confirmModelSwitch data).modeStatusBuffer = watchers.modeStatusBuffer ∧
      (watchers.confirmModelSwitch data).modeStatusResolve = watchers.modeStatusResolve ∧
      (watchers.confirmModelSwitch data).settled = watchers.settled := by
  unfold confirmModelSwitch
  split
  · simp only
    split
    · exact ⟨rfl, rfl, rfl, rfl⟩
    · exact ⟨rfl, rfl, rfl, rfl⟩
  · exact ⟨rfl, rfl, rfl, rfl⟩

/-- What the confirmation writes when its watcher is armed before and not after. -/
def keysFor (before after : Option (List UInt16)) : List String :=
  if before.isSome && after.isNone then ["1", submitKey] else []

/-- The confirmation is a watcher of the text through a rolling buffer; it writes when it sees
its pattern. -/
theorem confirming_on_data (watchers : OutputWatchers) (data : List UInt16) :
    (watchers.onData data).confirming = watchers.confirming.bind (fun held =>
        RollingBuffer.feed modelSwitchConfirmBufferMax modelSwitchConfirmPattern held data) ∧
      (watchers.onData data).written =
        watchers.written ++ keysFor watchers.confirming (watchers.onData data).confirming := by
  have other := watch_mode_status_confirming (watchers.confirmModelSwitch data) data
  simp only [onData]
  rw [other.1, other.2]
  unfold confirmModelSwitch
  cases armed : watchers.awaitingModelSwitchConfirm with
  | false => simp [confirming, armed, keysFor]
  | true =>
    simp only [↓reduceIte, RollingBuffer.feed, confirming, armed, Option.bind_some]
    split
    · simp [disarmModelSwitchConfirmWatcher, keysFor]
    · simp [keysFor]

/-- Over a text, the confirmation writes its keys once if it sees its pattern. -/
theorem written_on_chunks (watchers : OutputWatchers) (chunks : List (List UInt16)) :
    (watchers.onChunks chunks).written = watchers.written ++ keysFor watchers.confirming
      (RollingBuffer.watch modelSwitchConfirmBufferMax modelSwitchConfirmPattern chunks
        watchers.confirming) := by
  induction chunks generalizing watchers with
  | nil =>
    cases held : watchers.confirming <;> simp [onChunks, RollingBuffer.watch, keysFor]
  | cons chunk chunks inductionHypothesis =>
    obtain ⟨next, writes⟩ := watchers.confirming_on_data chunk
    have unfolds : watchers.onChunks (chunk :: chunks) = (watchers.onData chunk).onChunks chunks := rfl
    have same : RollingBuffer.watch modelSwitchConfirmBufferMax modelSwitchConfirmPattern
        (chunk :: chunks) watchers.confirming = RollingBuffer.watch modelSwitchConfirmBufferMax
          modelSwitchConfirmPattern chunks (watchers.onData chunk).confirming := by
      rw [next]
      rfl
    rw [unfolds, inductionHypothesis, writes, same, List.append_assoc]
    congr 1
    cases held : watchers.confirming with
    | none =>
      rw [held] at next
      simp [next, keysFor]
    | some buffer =>
      cases seen : (watchers.onData chunk).confirming with
      | none =>
        rw [RollingBuffer.watch_none]
        simp [keysFor]
      | some buffer => simp [keysFor]

/-- The buffer of the status watcher while it waits for a promise, with its pattern. -/
def waiting (watchers : OutputWatchers) (target : PermissionMode) (promise : Nat) :
    Option (List UInt16) :=
  if watchers.modeStatusTarget = some target ∧ watchers.modeStatusResolve = some promise then
    some watchers.modeStatusBuffer
  else none

/-- How a promise settles when its watcher waits before and not after. -/
def settlesFor (promise : Nat) (before after : Option (List UInt16)) : List (Nat × Bool) :=
  if before.isSome && after.isNone then [(promise, true)] else []

/-- A status watcher that waits or is done. -/
def Watches (watchers : OutputWatchers) (target : PermissionMode) (promise : Nat) : Prop :=
  watchers.modeStatusTarget = some target ∧ watchers.modeStatusResolve = some promise ∨
    watchers.modeStatusTarget = none

variable {pattern : List UInt16} {target : PermissionMode}

/-- The status watcher is a watcher of the text through a rolling buffer; its promise settles when
it sees its pattern. -/
theorem waiting_on_data {watchers : OutputWatchers} {promise : Nat}
    (known : modeStatusPattern target = some pattern)
    (watches : watchers.Watches target promise) (data : List UInt16) :
    (watchers.onData data).Watches target promise ∧
      (watchers.onData data).waiting target promise = (watchers.waiting target promise).bind
        (fun held => RollingBuffer.feed modeStatusBufferMax pattern held data) ∧
      (watchers.onData data).settled = watchers.settled ++ settlesFor promise
        (watchers.waiting target promise) ((watchers.onData data).waiting target promise) := by
  obtain ⟨targets, buffers, resolves, settles⟩ := watchers.confirm_model_switch_status data
  rcases watches with ⟨own, promised⟩ | done
  · simp only [onData, watchModeStatus, targets, own, known]
    simp only [buffers, Watches, waiting, own, promised]
    simp only [and_self, ↓reduceIte, RollingBuffer.feed, Option.bind_some]
    split
    · simp [finishModeStatusWatcher, resolves, promised, settles, settlesFor]
    · simp [resolves, promised, targets, own, settles, settlesFor]
  · simp only [onData, watchModeStatus, targets, done]
    simp [Watches, waiting, targets, done, settles, settlesFor]

/-- Over a text, the promise of a status watcher settles once if it sees its pattern. -/
theorem settled_on_chunks {watchers : OutputWatchers} {promise : Nat}
    (known : modeStatusPattern target = some pattern)
    (watches : watchers.Watches target promise) (chunks : List (List UInt16)) :
    (watchers.onChunks chunks).settled = watchers.settled ++ settlesFor promise
      (watchers.waiting target promise)
      (RollingBuffer.watch modeStatusBufferMax pattern chunks (watchers.waiting target promise)) := by
  induction chunks generalizing watchers with
  | nil =>
    cases held : watchers.waiting target promise <;> simp [onChunks, RollingBuffer.watch, settlesFor]
  | cons chunk chunks inductionHypothesis =>
    obtain ⟨still, next, settles⟩ := waiting_on_data known watches chunk
    have unfolds : watchers.onChunks (chunk :: chunks) = (watchers.onData chunk).onChunks chunks := rfl
    have same : RollingBuffer.watch modeStatusBufferMax pattern (chunk :: chunks)
        (watchers.waiting target promise) = RollingBuffer.watch modeStatusBufferMax pattern chunks
          ((watchers.onData chunk).waiting target promise) := by
      rw [next]
      rfl
    rw [unfolds, inductionHypothesis still, settles, same, List.append_assoc]
    congr 1
    cases held : watchers.waiting target promise with
    | none =>
      rw [held] at next
      simp [next, settlesFor]
    | some buffer =>
      cases seen : (watchers.onData chunk).waiting target promise with
      | none =>
        rw [RollingBuffer.watch_none]
        simp [settlesFor]
      | some buffer => simp [settlesFor]

/-- The confirmation from its arming on: its keys are written once if the pattern is caught. -/
theorem confirm_written (watchers : OutputWatchers) (chunks : List (List UInt16)) :
    (watchers.armModelSwitchConfirmWatcher.onChunks chunks).written = watchers.written ++
      if RollingBuffer.watch modelSwitchConfirmBufferMax modelSwitchConfirmPattern chunks (some []) =
        none then ["1", submitKey] else [] := by
  have armed : watchers.armModelSwitchConfirmWatcher.confirming = some [] := rfl
  have same : watchers.armModelSwitchConfirmWatcher.written = watchers.written := rfl
  rw [written_on_chunks, armed, same]
  cases RollingBuffer.watch modelSwitchConfirmBufferMax modelSwitchConfirmPattern chunks (some []) <;>
    simp [keysFor]

/-- The status watcher from its arming on: its promise settles once if the pattern is caught. -/
theorem wait_settled
    (watchers : OutputWatchers)     (known : modeStatusPattern target = some pattern) (chunks : List (List UInt16)) :
    ((watchers.waitForModeStatus target).2.onChunks chunks).settled =
      (watchers.waitForModeStatus target).2.settled ++
        if RollingBuffer.watch modeStatusBufferMax pattern chunks (some []) = none then
          [((watchers.waitForModeStatus target).1, true)] else [] := by
  have armed : (watchers.waitForModeStatus target).2.waiting target
      (watchers.waitForModeStatus target).1 = some [] := by
    simp [waitForModeStatus, known, waiting]
  have watches : (watchers.waitForModeStatus target).2.Watches target
      (watchers.waitForModeStatus target).1 := by
    simp [waitForModeStatus, known, Watches]
  rw [settled_on_chunks known watches, armed]
  cases RollingBuffer.watch modeStatusBufferMax pattern chunks (some []) <;> simp [settlesFor]

/-- Two outcomes that are told apart by something written agree when their conditions do. -/
theorem outcome_eq_iff {α : Type} {before outcome : List α} (some_outcome : outcome ≠ [])
    {first second : Prop} [Decidable first] [Decidable second] :
    ((before ++ if first then outcome else []) = before ++ if second then outcome else []) ↔
      (first ↔ second) := by
  rw [List.append_right_inj]
  by_cases one : first <;> by_cases other : second <;> simp [one, other, some_outcome, eq_comm]

/-- The pattern of a watcher is some text that fits its buffer. -/
theorem status_pattern_fits (known : modeStatusPattern target = some pattern) :
    pattern ≠ [] ∧ pattern.length ≤ modeStatusBufferMax := by
  cases target <;> simp only [modeStatusPattern, Option.some.injEq, reduceCtorEq] at known <;>
    subst known <;> decide

/-- The keys that confirm a model switch are written once if the text since arming has the pattern,
and not otherwise. -/
def ConfirmsByText (watchers : OutputWatchers) (chunks : List (List UInt16)) : Prop :=
  (watchers.armModelSwitchConfirmWatcher.onChunks chunks).written = watchers.written ++
    if modelSwitchConfirmPattern <:+: chunks.flatten then ["1", submitKey] else []

/-- The promise of a status watcher settles once, as a match, if the text since arming has the
pattern, and not otherwise. -/
def MatchesByText (watchers : OutputWatchers) (target : PermissionMode) (pattern : List UInt16)
    (chunks : List (List UInt16)) : Prop :=
  ((watchers.waitForModeStatus target).2.onChunks chunks).settled =
    (watchers.waitForModeStatus target).2.settled ++
      if pattern <:+: chunks.flatten then [((watchers.waitForModeStatus target).1, true)] else []

/-- A watcher sees what it catches, and that is in the text. -/
theorem seen_iff {limit : Nat} (some_pattern : pattern ≠ []) (chunks : List (List UInt16)) :
    (RollingBuffer.watch limit pattern chunks (some []) = none ↔ pattern <:+: chunks.flatten) ↔
      (pattern <:+: chunks.flatten → RollingBuffer.Caught limit pattern chunks) := by
  rw [RollingBuffer.watch_none_iff some_pattern]
  exact ⟨fun same => same.mpr, fun caught => ⟨fun held => held.occurs, caught⟩⟩

/-- The confirmation goes by the text exactly when a pattern in the text is caught. -/
theorem confirms_iff (watchers : OutputWatchers) (chunks : List (List UInt16)) :
    watchers.ConfirmsByText chunks ↔ (modelSwitchConfirmPattern <:+: chunks.flatten →
      RollingBuffer.Caught modelSwitchConfirmBufferMax modelSwitchConfirmPattern chunks) := by
  rw [ConfirmsByText, confirm_written, outcome_eq_iff (by decide), seen_iff (by decide)]

/-- The status watcher goes by the text exactly when a pattern in the text is caught. -/
theorem matches_iff
    (watchers : OutputWatchers)     (known : modeStatusPattern target = some pattern) (chunks : List (List UInt16)) :
    watchers.MatchesByText target pattern chunks ↔ (pattern <:+: chunks.flatten →
      RollingBuffer.Caught modeStatusBufferMax pattern chunks) := by
  rw [MatchesByText, wait_settled watchers known, outcome_eq_iff (List.cons_ne_nil _ _),
    seen_iff (status_pattern_fits known).1]

/-- The confirmation and any cuts of a text into chunks. -/
structure ConfirmationCuts (watchers : OutputWatchers) : Prop where
  one_cut : ∀ chunks, watchers.ConfirmsByText chunks ↔
    (modelSwitchConfirmPattern <:+: chunks.flatten →
      RollingBuffer.Caught modelSwitchConfirmBufferMax modelSwitchConfirmPattern chunks)
  every_cut : ∀ text, (∀ chunks, chunks.flatten = text → watchers.ConfirmsByText chunks) ↔
    (modelSwitchConfirmPattern <:+: text →
      modelSwitchConfirmPattern <:+: text.rtake modelSwitchConfirmBufferMax)
  two_cuts : ∀ text, (∀ first second, first.flatten = text → second.flatten = text →
      (watchers.armModelSwitchConfirmWatcher.onChunks first).written =
        (watchers.armModelSwitchConfirmWatcher.onChunks second).written) ↔
    (modelSwitchConfirmPattern <:+: text →
      modelSwitchConfirmPattern <:+: text.rtake modelSwitchConfirmBufferMax)

/-- The status watcher of a mode and any cuts of a text into chunks. -/
structure StatusCuts (watchers : OutputWatchers) (target : PermissionMode) (pattern : List UInt16) :
    Prop where
  one_cut : ∀ chunks, watchers.MatchesByText target pattern chunks ↔
    (pattern <:+: chunks.flatten → RollingBuffer.Caught modeStatusBufferMax pattern chunks)
  every_cut : ∀ text,
    (∀ chunks, chunks.flatten = text → watchers.MatchesByText target pattern chunks) ↔
      (pattern <:+: text → pattern <:+: text.rtake modeStatusBufferMax)
  two_cuts : ∀ text, (∀ first second, first.flatten = text → second.flatten = text →
      ((watchers.waitForModeStatus target).2.onChunks first).settled =
        ((watchers.waitForModeStatus target).2.onChunks second).settled) ↔
    (pattern <:+: text → pattern <:+: text.rtake modeStatusBufferMax)

/-- Both watchers go by the text of the output, for a given cut of it, exactly when some place of
the pattern is within five hundred units at the end of a chunk. They do so for every cut of a text,
and any two cuts of it have one outcome, exactly when the pattern does not occur in the text or
occurs in its last five hundred units. -/
theorem watchers_by_text (watchers : OutputWatchers) :
    watchers.ConfirmationCuts ∧
      ∀ target, match modeStatusPattern target with
        | some pattern => watchers.StatusCuts target pattern
        | none => (watchers.waitForModeStatus target).2.settled =
            watchers.settled ++ [((watchers.waitForModeStatus target).1, false)] := by
  refine ⟨⟨watchers.confirms_iff, fun text => ?_, fun text => ?_⟩, fun target => ?_⟩
  · rw [← RollingBuffer.every_cut_iff (by decide)]
    exact forall_congr' fun chunks => imp_congr_right fun _ => watchers.confirms_iff chunks
  · rw [← RollingBuffer.two_cuts_iff (by decide) (by decide)]
    refine forall_congr' fun first => forall_congr' fun second =>
      imp_congr_right fun _ => imp_congr_right fun _ => ?_
    rw [confirm_written, confirm_written, outcome_eq_iff (by decide),
      RollingBuffer.watch_none_iff (by decide), RollingBuffer.watch_none_iff (by decide)]
  · split
    · rename_i pattern known
      obtain ⟨nonempty, fits⟩ := status_pattern_fits known
      refine ⟨watchers.matches_iff known, fun text => ?_, fun text => ?_⟩
      · rw [← RollingBuffer.every_cut_iff nonempty]
        exact forall_congr' fun chunks => imp_congr_right fun _ => watchers.matches_iff known chunks
      · rw [← RollingBuffer.two_cuts_iff nonempty fits]
        refine forall_congr' fun first => forall_congr' fun second =>
          imp_congr_right fun _ => imp_congr_right fun _ => ?_
        rw [wait_settled watchers known, wait_settled watchers known,
          outcome_eq_iff (List.cons_ne_nil _ _), RollingBuffer.watch_none_iff nonempty,
          RollingBuffer.watch_none_iff nonempty]
    · rename_i unknown
      simp [waitForModeStatus, unknown]

/-- A session without watchers. -/
def idle : OutputWatchers := ⟨false, [], none, [], none, 0, [], []⟩

/-- The dialog and what the screen shows below it. -/
def dialog : List UInt16 := plainUnits "Switch model?" ++ List.replicate 500 (32 : UInt16)

/-- The dialog in one chunk with five hundred units behind it is not confirmed; cut behind its
question it is. -/
theorem dialog_in_one_chunk_missed :
    modelSwitchConfirmPattern <:+: dialog ∧
      (idle.armModelSwitchConfirmWatcher.onChunks [dialog]).written = [] ∧
      (idle.armModelSwitchConfirmWatcher.onChunks
        [plainUnits "Switch model?", List.replicate 500 32]).written = ["1", submitKey] := by
  decide +kernel

end OutputWatchers
end Kvy.Cli.Claude
