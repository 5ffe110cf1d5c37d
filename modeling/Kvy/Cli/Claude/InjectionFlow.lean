import Kvy.Cli.Claude.InjectionController

/-!
# Where the messages are

Seen from its messages, the controller is a queue, a message whose submit is pending, and two
lists of reports. Four moves take a message from one place to the next, and a fifth closes the
flow and empties the queue. Every step of the controller is such a move, followed by a write
when the controller flushes.
-/

namespace Kvy.Cli.Claude

open General InjectionController

/-- What the controller holds and has reported. -/
structure Flow where
  queue : List PendingInjection
  injecting : Bool
  inFlight : List PendingInjection
  injected : List String
  dropped : List PendingInjection
  written : List String
  keystrokes : List Keystroke
  closed : Bool

namespace Flow

/-- A message joins the queue. -/
def enter (flow : Flow) (message : PendingInjection) : Flow :=
  { flow with queue := flow.queue ++ [message] }

/-- The text of a message is written. -/
def write (flow : Flow) (message : PendingInjection) (queue : List PendingInjection) : Flow :=
  { flow with
    queue := queue
    injecting := true
    inFlight := flow.inFlight ++ [message]
    written := flow.written ++ [message.text]
    keystrokes := flow.keystrokes ++ [.text] }

/-- A message is submitted. -/
def submit (flow : Flow) (message : PendingInjection) (others : List PendingInjection) : Flow :=
  { flow with
    injecting := false
    inFlight := others
    injected := flow.injected ++ [message.id]
    keystrokes := flow.keystrokes ++ [.enter] }

/-- A message whose text is written is given up. -/
def drop (flow : Flow) (message : PendingInjection) (others : List PendingInjection) : Flow :=
  { flow with inFlight := others, dropped := flow.dropped ++ [message] }

/-- The flow is closed and its queue dropped. -/
def close (flow : Flow) : Flow :=
  { flow with closed := true, queue := [], dropped := flow.dropped ++ flow.queue }

/-- The places of the messages, by id. -/
def places (flow : Flow) : List String :=
  flow.queue.map PendingInjection.id ++ flow.inFlight.map PendingInjection.id ++ flow.injected ++
    flow.dropped.map PendingInjection.id

/-- The reported messages, by id. -/
def reported (flow : Flow) : List String :=
  flow.injected ++ flow.dropped.map PendingInjection.id

/-- The flow, or the flow after the oldest message is written. -/
def Flushed (flow next : Flow) : Prop :=
  next = flow ∨ ∃ message queue, flow.queue = message :: queue ∧ flow.injecting = false ∧
    flow.closed = false ∧ next = flow.write message queue

/-! ## Messages keep to their places -/

theorem places_enter (flow : Flow) (message : PendingInjection) :
    (flow.enter message).places.Perm (message.id :: flow.places) := by
  apply List.perm_iff_count.mpr
  intro id
  simp only [places, enter, List.map_append, List.map_cons, List.map_nil, List.count_append,
    List.count_cons, List.count_nil]
  omega

variable {flow : Flow}

theorem places_write {message : PendingInjection} {queue : List PendingInjection}
    (held : flow.queue = message :: queue) : (flow.write message queue).places.Perm flow.places := by
  apply List.perm_iff_count.mpr
  intro id
  simp only [places, write, held, List.map_append, List.map_cons, List.map_nil, List.count_append,
    List.count_cons, List.count_nil]
  omega

theorem places_flushed {next : Flow} (flushed : flow.Flushed next) :
    next.places.Perm flow.places := by
  obtain rfl | ⟨message, queue, held, _, _, rfl⟩ := flushed
  · exact List.Perm.refl _
  · exact places_write held

theorem places_submit {message : PendingInjection} {others : List PendingInjection}
    (held : flow.inFlight.Perm (message :: others)) :
    (flow.submit message others).places.Perm flow.places := by
  apply List.perm_iff_count.mpr
  intro id
  have taken := (held.map PendingInjection.id).count_eq id
  simp only [places, submit, List.map_cons, List.count_append, List.count_cons,
    List.count_nil] at taken ⊢
  omega

theorem places_drop {message : PendingInjection} {others : List PendingInjection}
    (held : flow.inFlight.Perm (message :: others)) :
    (flow.drop message others).places.Perm flow.places := by
  apply List.perm_iff_count.mpr
  intro id
  have taken := (held.map PendingInjection.id).count_eq id
  simp only [places, drop, List.map_append, List.map_cons, List.map_nil, List.count_append,
    List.count_cons, List.count_nil] at taken ⊢
  omega

theorem places_close (flow : Flow) : flow.close.places.Perm flow.places := by
  apply List.perm_iff_count.mpr
  intro id
  simp only [places, close, List.map_append, List.map_nil, List.count_append, List.count_nil]
  omega

end Flow

namespace InjectionController

/-- The flow of a controller. -/
def flow (controller : InjectionController) : Flow where
  queue := controller.queue
  injecting := controller.injecting
  inFlight := controller.inFlight
  injected := controller.injected
  dropped := controller.dropped
  written := controller.written
  keystrokes := controller.keystrokes
  closed := controller.disposed

/-- A stored handle belongs to no pending submit, now or later. -/
def Harmless (timers : Timers InjectionTimer) (handle : Option Nat) : Prop :=
  ∀ stored, handle = some stored → stored < timers.next ∧
    ∀ timer ∈ timers.pending, timer.handle = stored → timer.callback.message? = none

/-- The stored handles are those of the cooldown and of the failsafe. -/
structure Armed (controller : InjectionController) : Prop where
  cooldown : Harmless controller.timers controller.cooldownTimer
  failsafe : Harmless controller.timers controller.promptOpenFailsafeTimer

theorem harmless_none (timers : Timers InjectionTimer) : Harmless timers none := by
  intro stored absent
  contradiction

theorem Harmless.clear {timers : Timers InjectionTimer} {handle : Option Nat}
    (harmless : Harmless timers handle) (cleared : Nat) : Harmless (timers.clear cleared) handle := by
  intro stored held
  obtain ⟨issued, others⟩ := harmless stored held
  refine ⟨issued, ?_⟩
  intro timer pending same
  exact others timer (Timers.mem_clear.mp pending).1 same

theorem Harmless.set {timers : Timers InjectionTimer} {handle : Option Nat}
    (harmless : Harmless timers handle) (callback : InjectionTimer) :
    Harmless (timers.set callback) handle := by
  intro stored held
  obtain ⟨issued, others⟩ := harmless stored held
  refine ⟨Nat.lt_succ_of_lt issued, ?_⟩
  intro timer pending same
  rcases List.mem_append.mp pending with before | added
  · exact others timer before same
  · obtain rfl := List.mem_singleton.mp added
    exact absurd same (Nat.ne_of_gt issued)

/-- The handle of a new timer without a message. -/
theorem harmless_new (timers : Timers InjectionTimer) {callback : InjectionTimer}
    (empty : callback.message? = none) : Harmless (timers.set callback) (some timers.next) := by
  intro stored held
  cases held
  refine ⟨Nat.lt_succ_self _, ?_⟩
  intro timer pending same
  rcases List.mem_append.mp pending with before | added
  · exact absurd same (Nat.ne_of_lt (timers.issued timer before))
  · obtain rfl := List.mem_singleton.mp added
    exact empty

/-- Clearing a stored handle leaves the pending submits. -/
theorem inFlight_clear {timers : Timers InjectionTimer} {handle : Nat}
    (harmless : Harmless timers (some handle)) :
    (timers.clear handle).callbacks.filterMap InjectionTimer.message? =
      timers.callbacks.filterMap InjectionTimer.message? :=
  Timers.filterMap_clear InjectionTimer.message? (harmless handle rfl).2

variable {controller : InjectionController}

theorem flow_clearTimer {handle : Option Nat} (harmless : Harmless controller.timers handle) :
    (controller.clearTimer handle).flow = controller.flow := by
  cases handle with
  | none => rfl
  | some handle => simp only [clearTimer, flow, inFlight, inFlight_clear harmless]; rfl

theorem armed_clearTimer (armed : Armed controller) (handle : Option Nat) :
    Armed (controller.clearTimer handle) := by
  cases handle with
  | none => exact armed
  | some handle => exact ⟨armed.cooldown.clear handle, armed.failsafe.clear handle⟩

/-- What a flush does: nothing, or it types the oldest message at an open prompt. -/
theorem tryFlush_cases (controller : InjectionController) :
    controller.tryFlush = controller ∨ ∃ message queue, controller.queue = message :: queue ∧
      controller.canInjectNow = true ∧
      controller.tryFlush = controller.typeMessage message queue := by
  unfold tryFlush
  by_cases can : controller.canInject = true
  · rw [if_pos can]
    have now : controller.canInjectNow = true := by
      simp only [canInject, Bool.and_eq_true] at can
      exact can.1
    cases held : controller.queue with
    | nil => exact Or.inl rfl
    | cons message queue => exact Or.inr ⟨message, queue, rfl, now, rfl⟩
  · rw [if_neg can]
    exact Or.inl rfl

theorem canInjectNow_iff (controller : InjectionController) :
    controller.canInjectNow = true ↔ controller.gates.open = true ∧
      controller.injecting = false ∧ controller.cooldown = false := by
  simp only [canInjectNow, InjectionGates.open, gates, Bool.and_eq_true, Bool.not_eq_true']
  tauto

theorem flow_typeMessage (controller : InjectionController) (message : PendingInjection)
    (queue : List PendingInjection) :
    (controller.typeMessage message queue).flow = controller.flow.write message queue := by
  simp [typeMessage, flow, call, Flow.write, inFlight, injected, dropped, written, keystrokes,
    InjectionTimer.message?, InjectionCall.text?, InjectionCall.injected?, InjectionCall.dropped,
    InjectionCall.keystroke?]

theorem armed_typeMessage (armed : Armed controller) (message : PendingInjection)
    (queue : List PendingInjection) : Armed (controller.typeMessage message queue) :=
  ⟨armed.cooldown.set _, armed.failsafe.set _⟩

/-- A flush writes the oldest message or changes nothing. -/
theorem tryFlush_flow (armed : Armed controller) :
    Armed controller.tryFlush ∧ controller.flow.Flushed controller.tryFlush.flow := by
  obtain same | ⟨message, queue, held, can, typed⟩ := tryFlush_cases controller
  · rw [same]
    exact ⟨armed, Or.inl rfl⟩
  · rw [typed]
    obtain ⟨isOpen, idle, _⟩ := (canInjectNow_iff controller).mp can
    have running : controller.disposed = false := by
      simp only [InjectionGates.open, gates, Bool.and_eq_true, Bool.not_eq_true'] at isOpen
      exact isOpen.1.1.1.2
    exact ⟨armed_typeMessage armed message queue,
      Or.inr ⟨message, queue, held, idle, running, flow_typeMessage controller message queue⟩⟩

/-- The message an event hands over. -/
def Event.message? : Event → Option PendingInjection
  | .enqueue message => some message
  | _ => none

/-- What a step does to the flow of its messages. -/
inductive Moves (flow : Flow) (event : Event) (next : Flow) : Prop
  | refuse (message : PendingInjection) (enters : event.message? = some message)
      (closed : flow.closed = true) (same : next = flow)
  | enter (message : PendingInjection) (enters : event.message? = some message)
      (running : flow.closed = false) (flushed : (flow.enter message).Flushed next)
  | flush (silent : event.message? = none) (flushed : flow.Flushed next)
  | close (silent : event.message? = none) (running : flow.closed = false) (same : next = flow.close)
  | submit (silent : event.message? = none) (running : flow.closed = false)
      (message : PendingInjection) (others : List PendingInjection)
      (held : flow.inFlight.Perm (message :: others)) (same : next = flow.submit message others)
  | drop (silent : event.message? = none) (closed : flow.closed = true)
      (message : PendingInjection) (others : List PendingInjection)
      (held : flow.inFlight.Perm (message :: others)) (same : next = flow.drop message others)

variable {event : Event}

/-- A flush after a change that the flow does not show. -/
theorem moves_flush {changed : InjectionController} (silent : event.message? = none)
    (armed : Armed changed) (same : changed.flow = controller.flow) :
    Armed changed.tryFlush ∧ Moves controller.flow event changed.tryFlush.flow := by
  obtain ⟨stillArmed, flushed⟩ := tryFlush_flow armed
  rw [same] at flushed
  exact ⟨stillArmed, .flush silent flushed⟩

/-- A change that the flow does not show. -/
theorem moves_same {changed : InjectionController} (silent : event.message? = none)
    (armed : Armed changed) (same : changed.flow = controller.flow) :
    Armed changed ∧ Moves controller.flow event changed.flow :=
  ⟨armed, .flush silent (Or.inl same)⟩

theorem moves_setPromptOpen (silent : event.message? = none)
    (armed : Armed controller) (isOpen : Bool) :
    Armed (controller.setPromptOpen isOpen) ∧
      Moves controller.flow event (controller.setPromptOpen isOpen).flow := by
  unfold setPromptOpen
  split
  · exact moves_same silent armed rfl
  · split
    · apply moves_same silent ⟨armed.cooldown.set _, harmless_new _ rfl⟩
      simp [flow, inFlight, injected, dropped, written, keystrokes, InjectionTimer.message?]
    · have cleared := armed_clearTimer armed controller.promptOpenFailsafeTimer
      apply moves_flush silent
      · exact ⟨cleared.cooldown, harmless_none _⟩
      · exact flow_clearTimer armed.failsafe

/-- Reporting dropped messages. -/
theorem flow_call_dropped (controller : InjectionController) (messages : List PendingInjection) :
    (controller.call (.onDropped messages)).flow =
      { controller.flow with dropped := controller.dropped ++ messages } := by
  simp [flow, call, inFlight, injected, dropped, written, keystrokes, InjectionCall.text?,
    InjectionCall.injected?, InjectionCall.dropped, InjectionCall.keystroke?]

/-- Cancelling the stored timers leaves the pending submits. -/
theorem flow_cancelTimers (armed : Armed controller) :
    Armed controller.cancelTimers ∧ controller.cancelTimers.flow = controller.flow := by
  have failsafe : Harmless (controller.clearTimer controller.cooldownTimer).timers
      controller.promptOpenFailsafeTimer := by
    cases controller.cooldownTimer with
    | none => exact armed.failsafe
    | some handle => exact armed.failsafe.clear handle
  have cleared := (flow_clearTimer failsafe).trans (flow_clearTimer armed.cooldown)
  exact ⟨⟨harmless_none _, harmless_none _⟩, cleared⟩

/-- Disposing closes the flow. -/
theorem flow_dispose (armed : Armed controller) (running : controller.disposed = false) :
    Armed controller.dispose ∧ controller.dispose.flow = controller.flow.close := by
  have marked : Armed { controller with disposed := true } := ⟨armed.cooldown, armed.failsafe⟩
  obtain ⟨cancelledArmed, cancelled⟩ := flow_cancelTimers marked
  have emptiedFlow : { { controller with disposed := true }.cancelTimers with queue := [] }.flow =
      { controller.flow with closed := true, queue := [] } :=
    congrArg (fun flow => { flow with queue := [] }) cancelled
  have emptiedDropped :
      { { controller with disposed := true }.cancelTimers with queue := [] }.dropped =
        controller.dropped := congrArg Flow.dropped emptiedFlow
  unfold dispose
  rw [if_neg (by simp [running])]
  by_cases waiting : 0 < controller.queue.length
  · simp only [if_pos waiting]
    refine ⟨⟨cancelledArmed.cooldown, cancelledArmed.failsafe⟩, ?_⟩
    rw [flow_call_dropped, emptiedFlow, emptiedDropped]
    rfl
  · simp only [if_neg waiting]
    refine ⟨⟨cancelledArmed.cooldown, cancelledArmed.failsafe⟩, ?_⟩
    have empty : controller.queue = [] := List.eq_nil_of_length_eq_zero (by omega)
    rw [emptiedFlow]
    simp [Flow.close, flow, empty]

/-- Taking a fired timer out keeps the other handles. -/
theorem armed_fire (armed : Armed controller) (handle : Nat) :
    Armed { controller with timers := controller.timers.clear handle } :=
  ⟨armed.cooldown.clear handle, armed.failsafe.clear handle⟩

/-- A fired timer without a message leaves the flow. -/
theorem flow_fire {timer : Timer InjectionTimer} (pending : timer ∈ controller.timers.pending)
    (empty : timer.callback.message? = none) :
    { controller with timers := controller.timers.clear timer.handle }.flow = controller.flow := by
  have others : (controller.timers.clear timer.handle).callbacks.filterMap InjectionTimer.message? =
      controller.timers.callbacks.filterMap InjectionTimer.message? := by
    apply Timers.filterMap_clear
    intro other otherPending same
    rwa [Timers.eq_of_handle otherPending pending same]
  simp only [flow, inFlight, others]
  rfl

/-- The submit of a message is one of those pending. -/
theorem inFlight_fire {timer : Timer InjectionTimer} (message : PendingInjection)
    (pending : timer ∈ controller.timers.pending) (holds : timer.callback.message? = some message) :
    controller.inFlight.Perm (message ::
      (controller.timers.clear timer.handle).callbacks.filterMap InjectionTimer.message?) := by
  have taken := (Timers.callbacks_clear pending).filterMap InjectionTimer.message?
  rwa [List.filterMap_cons_some holds] at taken

theorem moves_fire {timer : Timer InjectionTimer} (armed : Armed controller)
    (pending : timer ∈ controller.timers.pending) :
    let fired := { controller with timers := controller.timers.clear timer.handle }
    Armed (fired.runTimer timer.callback) ∧
      Moves controller.flow (.fire timer) (fired.runTimer timer.callback).flow := by
  intro fired
  have firedArmed : Armed fired := armed_fire armed timer.handle
  cases callback : timer.callback with
  | submit message =>
    have held := inFlight_fire message pending (by rw [callback]; rfl)
    change Armed (fired.submitFires message) ∧
      Moves controller.flow (.fire timer) (fired.submitFires message).flow
    unfold submitFires
    by_cases disposed : fired.disposed = true
    · rw [if_pos disposed]
      refine ⟨⟨firedArmed.cooldown, firedArmed.failsafe⟩, .drop rfl disposed message _ held ?_⟩
      rw [flow_call_dropped]
      rfl
    · rw [if_neg disposed]
      have running : controller.disposed = false := by simpa using disposed
      refine ⟨⟨harmless_new _ rfl, firedArmed.failsafe.set _⟩, .submit rfl running message _ held ?_⟩
      simp [fired, flow, call, Flow.submit, inFlight, injected, dropped, written, keystrokes,
        InjectionTimer.message?, InjectionCall.text?, InjectionCall.injected?,
        InjectionCall.dropped, InjectionCall.keystroke?]
  | cooldown =>
    have same : fired.flow = controller.flow := flow_fire pending (by rw [callback]; rfl)
    change Armed fired.cooldownFires ∧ Moves controller.flow (.fire timer) fired.cooldownFires.flow
    by_cases disposed : fired.disposed = true
    · have cleared : fired.cooldownFires = { fired with cooldownTimer := none } := if_pos disposed
      rw [cleared]
      exact moves_same rfl ⟨harmless_none _, firedArmed.failsafe⟩ same
    · have released : fired.cooldownFires =
          { fired with cooldownTimer := none, cooldown := false }.tryFlush := if_neg disposed
      rw [released]
      exact moves_flush rfl ⟨harmless_none _, firedArmed.failsafe⟩ same
  | promptOpenFailsafe =>
    have same : fired.flow = controller.flow := flow_fire pending (by rw [callback]; rfl)
    have cleared : Armed { fired with promptOpenFailsafeTimer := none } :=
      ⟨firedArmed.cooldown, harmless_none _⟩
    have silent : (Event.fire timer).message? = none := rfl
    obtain ⟨stillArmed, moves⟩ := moves_setPromptOpen silent cleared false
    rw [← same]
    exact ⟨stillArmed, moves⟩

/-- Every step is a move of the flow, and keeps the stored handles. -/
theorem step_moves {next : InjectionController} (armed : Armed controller)
    (taken : controller.step event = some next) :
    Armed next ∧ Moves controller.flow event next.flow := by
  cases event with
  | enqueue message =>
    cases taken
    unfold enqueue
    by_cases disposed : controller.disposed = true
    · rw [if_pos disposed]
      exact ⟨armed, .refuse message rfl disposed rfl⟩
    · rw [if_neg disposed]
      have queued : Armed { controller with queue := controller.queue ++ [message] } :=
        ⟨armed.cooldown, armed.failsafe⟩
      obtain ⟨stillArmed, flushed⟩ := tryFlush_flow queued
      have running : controller.disposed = false := by simpa using disposed
      exact ⟨stillArmed, .enter message rfl running flushed⟩
  | setBusy busy =>
    cases taken
    have marked : Armed { controller with busy := busy } := ⟨armed.cooldown, armed.failsafe⟩
    unfold setBusy
    split
    · exact moves_same rfl armed rfl
    · split
      · exact moves_same rfl marked rfl
      · exact moves_flush rfl marked rfl
  | markReady =>
    cases taken
    have marked : Armed { controller with ready := true } := ⟨armed.cooldown, armed.failsafe⟩
    unfold markReady
    split
    · exact moves_same rfl armed rfl
    · exact moves_flush rfl marked rfl
  | setPromptOpen isOpen =>
    cases taken
    exact moves_setPromptOpen rfl armed isOpen
  | setLocalDraft active =>
    cases taken
    have marked : Armed { controller with localDraft := active } := ⟨armed.cooldown, armed.failsafe⟩
    unfold setLocalDraft
    split
    · exact moves_same rfl armed rfl
    · split
      · exact moves_same rfl marked rfl
      · exact moves_flush rfl marked rfl
  | dispose =>
    cases taken
    by_cases disposed : controller.disposed = true
    · have same : controller.dispose = controller := by rw [dispose, if_pos disposed]
      rw [same]
      exact moves_same rfl armed rfl
    · have running : controller.disposed = false := by simpa using disposed
      obtain ⟨stillArmed, same⟩ := flow_dispose armed running
      exact ⟨stillArmed, .close rfl running same⟩
  | fire timer =>
    by_cases pending : timer ∈ controller.timers.pending
    · rw [step, if_pos pending] at taken
      cases taken
      exact moves_fire armed pending
    · rw [step, if_neg pending] at taken
      contradiction

end InjectionController

end Kvy.Cli.Claude
