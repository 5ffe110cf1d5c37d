import Kvy.Cli.Claude.InjectionRuns

/-!
# Keys at an idle prompt

A text is written only when every gate is open. Its submit key follows from a timer that looks
at nothing but the disposal, so it falls onto an idle prompt exactly when the events in between
leave the controller neither busy nor with a dialog or a draft.
-/

namespace Kvy.Cli.Claude

open General General.Runs

/-- Whether the terminal is busy after an event. -/
def InjectionController.Event.busyAfter (busy : Bool) : InjectionController.Event → Bool
  | .setBusy value => value
  | _ => busy

/-- Whether a dialog is open after an event. -/
def InjectionController.Event.promptAfter (promptOpen : Bool) : InjectionController.Event → Bool
  | .setPromptOpen value => value
  | .fire ⟨_, .promptOpenFailsafe⟩ => false
  | _ => promptOpen

/-- Whether the human has a draft after an event. -/
def InjectionController.Event.draftAfter (localDraft : Bool) : InjectionController.Event → Bool
  | .setLocalDraft value => value
  | _ => localDraft

variable {next : InjectionController}

variable {event : Event}

namespace InjectionController

/-- The events, in their order, leave the terminal neither busy nor with a dialog or a draft,
when it starts so. -/
def LeaveIdle (events : List Event) : Prop :=
  events.foldl Event.busyAfter false = false ∧ events.foldl Event.promptAfter false = false ∧
    events.foldl Event.draftAfter false = false

instance (events : List Event) : Decidable (LeaveIdle events) := by
  unfold LeaveIdle
  infer_instance

/-- Every key was sent with every gate open. -/
def AtPrompt (controller : InjectionController) : Prop :=
  ∀ entry ∈ controller.calls, entry.1.keystroke? ≠ none → entry.2.open = true

variable {controller : InjectionController}

/-- The event is the submit timer of a message. -/
def Event.Submits (event : Event) : Prop :=
  ∃ handle message, event = .fire ⟨handle, .submit message⟩

/-- The keys a step sends. -/
inductive Sends (controller : InjectionController) (event : Event) (next : InjectionController) : Prop
  | nothing (silent : event.Submits → controller.disposed = true)
      (more : List (InjectionCall × InjectionGates))
      (keyless : ∀ entry ∈ more, entry.1.keystroke? = none)
      (calls : next.calls = controller.calls ++ more)
  | text (silent : event.Submits → controller.disposed = true) (text : String)
      (isOpen : next.gates.open = true)
      (calls : next.calls = controller.calls ++ [(.writeText text, next.gates)])
  | enter (submits : event.Submits) (running : controller.disposed = false) (id : String)
      (calls : next.calls =
        controller.calls ++ [(.submit, controller.gates), (.onInjected id, controller.gates)])

/-- An event that is not a submit timer. -/
theorem silent_of (other : ∀ handle message, event ≠ .fire ⟨handle, .submit message⟩) :
    event.Submits → controller.disposed = true := by
  rintro ⟨handle, message, same⟩
  exact absurd same (other handle message)

/-- What a flush shows: nothing, or a text written with every gate open. -/
theorem tryFlush_gates
    (changed : InjectionController) : changed.tryFlush.gates = changed.gates := by
  obtain same | ⟨message, queue, _, _, typed⟩ := tryFlush_cases changed
  · rw [same]
  · rw [typed]
    rfl

theorem sends_flush {changed : InjectionController}
    (silent : event.Submits → controller.disposed = true) (calls : changed.calls = controller.calls) :
    Sends controller event changed.tryFlush := by
  obtain same | ⟨message, queue, _, can, typed⟩ := tryFlush_cases changed
  · rw [same]
    exact .nothing silent [] (by simp) (by simp [calls])
  · have isOpen : changed.tryFlush.gates.open = true := by
      rw [tryFlush_gates]
      exact ((canInjectNow_iff changed).mp can).1
    apply Sends.text silent message.text isOpen
    rw [tryFlush_gates, typed, ← calls]
    rfl

theorem sends_same {changed : InjectionController}
    (silent : event.Submits → controller.disposed = true) (calls : changed.calls = controller.calls) :
    Sends controller event changed := .nothing silent [] (by simp) (by simp [calls])

theorem calls_clearTimer (controller : InjectionController) (handle : Option Nat) :
    (controller.clearTimer handle).calls = controller.calls := by
  cases handle <;> rfl

theorem gates_clearTimer (controller : InjectionController) (handle : Option Nat) :
    (controller.clearTimer handle).gates = controller.gates := by
  cases handle <;> rfl

theorem sends_setPromptOpen {changed : InjectionController}
    (silent : event.Submits → controller.disposed = true) (calls : changed.calls = controller.calls)
    (isOpen : Bool) : Sends controller event (changed.setPromptOpen isOpen) := by
  unfold setPromptOpen
  split
  · exact sends_same silent calls
  · split
    · exact sends_same silent calls
    · apply sends_flush silent
      exact (calls_clearTimer changed changed.promptOpenFailsafeTimer).trans calls

theorem calls_cancelTimers (controller : InjectionController) :
    controller.cancelTimers.calls = controller.calls :=
  (calls_clearTimer _ _).trans (calls_clearTimer _ _)

theorem sends_dispose (controller : InjectionController) :
    Sends controller .dispose controller.dispose := by
  have silent : Event.Submits .dispose → controller.disposed = true := silent_of (by simp)
  unfold dispose
  split
  · exact sends_same silent rfl
  · have cancelled := calls_cancelTimers { controller with disposed := true }
    split
    · apply Sends.nothing silent [(.onDropped controller.queue, _)]
      · simp [InjectionCall.keystroke?]
      · rw [call, cancelled]
    · exact sends_same silent cancelled

theorem sends_fire (controller : InjectionController) (timer : Timer InjectionTimer) :
    Sends controller (.fire timer)
      ({ controller with timers := controller.timers.clear timer.handle }.runTimer timer.callback) := by
  obtain ⟨handle, callback⟩ := timer
  cases callback with
  | submit message =>
    change Sends controller _ (submitFires _ message)
    unfold submitFires
    split
    · rename_i disposed
      exact .nothing (fun _ => disposed) [(.onDropped [message], _)]
        (by simp [InjectionCall.keystroke?]) rfl
    · rename_i running
      apply Sends.enter ⟨handle, message, rfl⟩ (by simpa using running) message.id
      simp [call, gates]
  | cooldown =>
    have silent : Event.Submits (.fire ⟨handle, .cooldown⟩) → controller.disposed = true :=
      silent_of (by simp)
    change Sends controller _ (cooldownFires _)
    unfold cooldownFires
    by_cases disposed : controller.disposed = true
    · simp only [disposed, ↓reduceIte]
      exact sends_same silent rfl
    · simp only [disposed]
      exact sends_flush silent rfl
  | promptOpenFailsafe =>
    have silent : Event.Submits (.fire ⟨handle, .promptOpenFailsafe⟩) → controller.disposed = true :=
      silent_of (by simp)
    have calls : ({ controller with
        timers := controller.timers.clear handle
        promptOpenFailsafeTimer := none } : InjectionController).calls = controller.calls := rfl
    exact sends_setPromptOpen silent calls false

/-- A step sends nothing, a text with every gate open, or the submit key. -/
theorem step_sends (taken : controller.step event = some next) : Sends controller event next := by
  cases event with
  | enqueue message =>
    cases taken
    have silent : Event.Submits (.enqueue message) → controller.disposed = true := silent_of (by simp)
    unfold enqueue
    split
    · exact sends_same silent rfl
    · exact sends_flush silent rfl
  | setBusy busy =>
    cases taken
    have silent : Event.Submits (.setBusy busy) → controller.disposed = true := silent_of (by simp)
    unfold setBusy
    split
    · exact sends_same silent rfl
    · split
      · exact sends_same silent rfl
      · exact sends_flush silent rfl
  | markReady =>
    cases taken
    have silent : Event.Submits .markReady → controller.disposed = true := silent_of (by simp)
    unfold markReady
    split
    · exact sends_same silent rfl
    · exact sends_flush silent rfl
  | setPromptOpen isOpen =>
    cases taken
    exact sends_setPromptOpen (silent_of (by simp)) rfl isOpen
  | setLocalDraft active =>
    cases taken
    have silent : Event.Submits (.setLocalDraft active) → controller.disposed = true :=
      silent_of (by simp)
    unfold setLocalDraft
    split
    · exact sends_same silent rfl
    · split
      · exact sends_same silent rfl
      · exact sends_flush silent rfl
  | dispose =>
    cases taken
    exact sends_dispose controller
  | fire timer =>
    by_cases pending : timer ∈ controller.timers.pending
    · rw [step, if_pos pending] at taken
      cases taken
      exact sends_fire controller timer
    · rw [step, if_neg pending] at taken
      contradiction

/-- How an event changes the gates of a controller that is not disposed of. -/
structure Follows (gates : InjectionGates) (event : Event) (next : InjectionGates) : Prop where
  ready : gates.ready = true → next.ready = true
  busy : next.busy = event.busyAfter gates.busy
  promptOpen : next.promptOpen = event.promptAfter gates.promptOpen
  localDraft : next.localDraft = event.draftAfter gates.localDraft

theorem follows_setPromptOpen (controller : InjectionController)
    (running : controller.disposed = false) (isOpen : Bool) :
    (controller.setPromptOpen isOpen).gates = { controller.gates with promptOpen := isOpen } := by
  unfold setPromptOpen
  split
  · rename_i same
    simp only [running, Bool.false_or, beq_iff_eq] at same
    rw [← same]
    rfl
  · split
    · rfl
    · have cleared := gates_clearTimer controller controller.promptOpenFailsafeTimer
      rw [tryFlush_gates]
      exact congrArg (fun gates => { gates with promptOpen := isOpen }) cleared

theorem gates_dispose (controller : InjectionController) (running : controller.disposed = false) :
    controller.dispose.gates = { controller.gates with disposed := true } := by
  have cancelled : ({ controller with disposed := true }.cancelTimers).gates =
      { controller.gates with disposed := true } :=
    (gates_clearTimer _ _).trans (gates_clearTimer _ _)
  unfold dispose
  rw [if_neg (by simp [running])]
  split
  · exact cancelled
  · exact cancelled

/-- The gates follow the events. -/
theorem step_follows
    (running : controller.disposed = false) (taken : controller.step event = some next) :
    Follows controller.gates event next.gates := by
  cases event with
  | enqueue message =>
    cases taken
    rw [enqueue, if_neg (by simp [running]), tryFlush_gates]
    exact ⟨id, rfl, rfl, rfl⟩
  | setBusy busy =>
    cases taken
    unfold setBusy
    split
    · rename_i same
      simp only [running, Bool.false_or, beq_iff_eq] at same
      exact ⟨id, same, rfl, rfl⟩
    · split
      · exact ⟨id, rfl, rfl, rfl⟩
      · rw [tryFlush_gates]
        exact ⟨id, rfl, rfl, rfl⟩
  | markReady =>
    cases taken
    unfold markReady
    split
    · exact ⟨id, rfl, rfl, rfl⟩
    · rw [tryFlush_gates]
      exact ⟨fun _ => rfl, rfl, rfl, rfl⟩
  | setPromptOpen isOpen =>
    cases taken
    rw [follows_setPromptOpen controller running]
    exact ⟨id, rfl, rfl, rfl⟩
  | setLocalDraft active =>
    cases taken
    unfold setLocalDraft
    split
    · rename_i same
      simp only [running, Bool.false_or, beq_iff_eq] at same
      exact ⟨id, rfl, rfl, same⟩
    · split
      · exact ⟨id, rfl, rfl, rfl⟩
      · rw [tryFlush_gates]
        exact ⟨id, rfl, rfl, rfl⟩
  | dispose =>
    cases taken
    rw [gates_dispose controller running]
    exact ⟨id, rfl, rfl, rfl⟩
  | fire timer =>
    by_cases pending : timer ∈ controller.timers.pending
    · rw [step, if_pos pending] at taken
      cases taken
      obtain ⟨handle, callback⟩ := timer
      cases callback with
      | submit message =>
        change Follows _ _ (submitFires _ message).gates
        rw [submitFires, if_neg (by simp [running])]
        exact ⟨id, rfl, rfl, rfl⟩
      | cooldown =>
        change Follows _ _ (cooldownFires _).gates
        simp only [cooldownFires, running, Bool.false_eq_true, ↓reduceIte, tryFlush_gates]
        exact ⟨id, rfl, rfl, rfl⟩
      | promptOpenFailsafe =>
        change Follows _ _ (promptOpenFailsafeFires _).gates
        rw [promptOpenFailsafeFires, follows_setPromptOpen _ (by exact running)]
        exact ⟨id, rfl, rfl, rfl⟩
    · rw [step, if_neg pending] at taken
      contradiction

end InjectionController

/-! ## Runs -/

open InjectionController

/-- While a submit is pending, the gates are what the events since its text make of them. -/
structure Watched (observed : Observed) : Prop where
  tracked : Tracked observed
  window : observed.controller.inFlight ≠ [] → observed.controller.disposed = false →
    observed.controller.ready = true ∧
    observed.controller.busy = observed.window.foldl Event.busyAfter false ∧
    observed.controller.promptOpen = observed.window.foldl Event.promptAfter false ∧
    observed.controller.localDraft = observed.window.foldl Event.draftAfter false

/-- With a submit pending, the gates are open when the window leaves the terminal idle. -/
theorem Watched.open_iff {observed : Observed} (watched : Watched observed)
    (typing : observed.controller.inFlight ≠ []) (running : observed.controller.disposed = false) :
    observed.controller.gates.open = true ↔ LeaveIdle observed.window := by
  obtain ⟨ready, busy, promptOpen, localDraft⟩ := watched.window typing running
  simp only [InjectionGates.open, gates, ready, running, busy, promptOpen, localDraft, LeaveIdle,
    Bool.and_eq_true, Bool.not_eq_true']
  tauto

/-- Calls without a key write no text. -/
theorem keyless_text {more : List (InjectionCall × InjectionGates)}
    (keyless : ∀ entry ∈ more, entry.1.keystroke? = none) :
    more.filterMap (fun entry => entry.1.text?) = [] := by
  apply List.filterMap_eq_nil_iff.mpr
  rintro ⟨called, gates⟩ member
  have none := keyless _ member
  cases called with
  | writeText text => contradiction
  | submit => rfl
  | onInjected id => rfl
  | onDropped messages => rfl

/-- A step that writes ends with every gate open. -/
theorem open_of_written {controller : InjectionController} (sends : Sends controller event next)
    (wrote : next.written.length ≠ controller.written.length) : next.gates.open = true := by
  cases sends with
  | nothing silent more keyless calls =>
    exact absurd (by simp [written, calls, keyless_text keyless]) wrote
  | text silent text isOpen calls => exact isOpen
  | enter submits running id calls =>
    exact absurd (by simp [written, calls, InjectionCall.text?]) wrote

/-- A submit that is pending after a step that writes nothing was pending before, and the
controller is not disposed of. -/
theorem typing_before
    {observed : Observed}     (tracked : Tracked observed) (moves : Moves observed.controller.flow event next.flow)
    (quiet : next.written.length = observed.controller.written.length)
    (typing : next.inFlight ≠ []) (running : next.disposed = false) :
    observed.controller.inFlight ≠ [] ∧ observed.controller.disposed = false := by
  have unwritten {flow : Flow} (same : flow.written = observed.controller.written)
      (flushed : flow.Flushed next.flow) : next.flow = flow := by
    obtain stays | ⟨message, queue, _, _, _, writes⟩ := flushed
    · exact stays
    · have longer := congrArg (fun flow => flow.written.length) writes
      simp only [Flow.write, List.length_append, List.length_singleton, same] at longer
      have lengths : next.flow.written.length = next.written.length := rfl
      omega
  cases moves with
  | refuse message enters closed same =>
    have still : next.disposed = observed.controller.disposed := congrArg Flow.closed same
    exact absurd (running.symm.trans (still.trans closed)) (by decide)
  | enter message enters wasRunning flushed =>
    have same := congrArg Flow.inFlight (unwritten rfl flushed)
    exact ⟨fun empty => typing (same.trans empty), wasRunning⟩
  | flush silent flushed =>
    have same := unwritten rfl flushed
    have flight : next.inFlight = observed.controller.inFlight := congrArg Flow.inFlight same
    have still : next.disposed = observed.controller.disposed := congrArg Flow.closed same
    exact ⟨fun empty => typing (flight.trans empty), still.symm.trans running⟩
  | close silent wasRunning same =>
    have closed : next.disposed = true := congrArg Flow.closed same
    exact absurd (running.symm.trans closed) (by decide)
  | submit silent wasRunning message others held same =>
    have landed := (tracked.sound.inFlight_eq held).2
    exact absurd ((congrArg Flow.inFlight same).trans landed) typing
  | drop silent closed message others held same =>
    have landed := (tracked.sound.inFlight_eq held).2
    exact absurd ((congrArg Flow.inFlight same).trans landed) typing

theorem Watched.step {observed next : Observed} (watched : Watched observed)
    (taken : observe observed event = some next) : Watched next := by
  refine ⟨watched.tracked.step taken, ?_⟩
  intro typing running
  obtain ⟨_, stepped, _, window⟩ := observe_cases taken
  by_cases quiet : next.controller.written.length = observed.controller.written.length
  · have moves := (step_moves watched.tracked.armed stepped).2
    obtain ⟨wasTyping, wasRunning⟩ := typing_before watched.tracked moves quiet typing running
    obtain ⟨ready, busy, promptOpen, localDraft⟩ := watched.window wasTyping wasRunning
    have follows := step_follows wasRunning stepped
    rw [window, if_pos quiet, List.foldl_append, List.foldl_append, List.foldl_append, ← busy,
      ← promptOpen, ← localDraft]
    exact ⟨follows.ready ready, follows.busy, follows.promptOpen, follows.localDraft⟩
  · have isOpen := open_of_written (step_sends stepped) quiet
    simp only [InjectionGates.open, gates, Bool.and_eq_true, Bool.not_eq_true'] at isOpen
    obtain ⟨⟨⟨⟨ready, _⟩, busy⟩, promptOpen⟩, localDraft⟩ := isOpen
    rw [window, if_neg quiet]
    exact ⟨ready, busy, promptOpen, localDraft⟩

/-- A submit timer that fires was pending. -/
theorem typing_of_submits {controller : InjectionController}
    (submits : event.Submits) (taken : controller.step event = some next) :
    controller.inFlight ≠ [] := by
  obtain ⟨handle, message, rfl⟩ := submits
  by_cases pending : ⟨handle, .submit message⟩ ∈ controller.timers.pending
  · have held : message ∈ controller.inFlight :=
      List.mem_filterMap.mpr ⟨.submit message, List.mem_map_of_mem pending, rfl⟩
    exact List.ne_nil_of_mem held
  · rw [InjectionController.step, if_neg pending] at taken
    contradiction

/-- Every text and every submit key falls onto an idle prompt exactly when, at each submit, the
events since the text leave the terminal neither busy nor with a dialog or a draft. -/
theorem keys_at_prompt_iff (events : List Event) :
    Always observe (fun _ _ next => AtPrompt next.controller) .start events ↔
      Always observe (fun observed event _ =>
        event.Submits → observed.controller.disposed = false → LeaveIdle observed.window)
        .start events := by
  apply always_state_iff Watched (fun observed => AtPrompt observed.controller)
  · intro observed event next watched taken
    exact watched.step taken
  · intro observed event next watched atPrompt taken
    obtain ⟨_, stepped, _, _⟩ := observe_cases taken
    cases step_sends stepped with
    | nothing silent more keyless calls =>
      constructor
      · intro _ submits running
        exact absurd (running.symm.trans (silent submits)) (by decide)
      · intro _ entry member key
        rw [calls] at member
        rcases List.mem_append.mp member with before | added
        · exact atPrompt entry before key
        · exact absurd (keyless entry added) key
    | text silent text isOpen calls =>
      constructor
      · intro _ submits running
        exact absurd (running.symm.trans (silent submits)) (by decide)
      · intro _ entry member key
        rw [calls] at member
        rcases List.mem_append.mp member with before | added
        · exact atPrompt entry before key
        · obtain rfl := List.mem_singleton.mp added
          exact isOpen
    | enter submits running id calls =>
      have opens := watched.open_iff (typing_of_submits submits stepped) running
      constructor
      · intro nextAtPrompt _ _
        apply opens.mp
        apply nextAtPrompt (.submit, observed.controller.gates)
        · rw [calls]
          simp
        · simp [InjectionCall.keystroke?]
      · intro condition entry member key
        rw [calls] at member
        rcases List.mem_append.mp member with before | added
        · exact atPrompt entry before key
        · rcases List.mem_cons.mp added with rfl | reported
          · exact opens.mpr (condition submits running)
          · obtain rfl := List.mem_singleton.mp reported
            exact absurd rfl key
  · exact ⟨tracked_start, fun typing => absurd rfl typing⟩
  · intro entry member
    exact absurd member (by simp [Observed.start, create])

/-- A dialog that opens before the submit key is answered by it. -/
theorem dialog_answered :
    ¬ ∀ events, Always observe (fun _ _ next => AtPrompt next.controller) .start events := by
  intro always
  have last := ((((always [.markReady, .enqueue ⟨"m", "hello"⟩, .setPromptOpen true,
    .fire ⟨0, .submit ⟨"m", "hello"⟩⟩] _ rfl).2 _ rfl).2 _ rfl).2 _ rfl).1
  have sent := last (.submit, ⟨true, false, true, false, false⟩) (by decide) (by decide)
  exact absurd sent (by decide)

end Kvy.Cli.Claude
