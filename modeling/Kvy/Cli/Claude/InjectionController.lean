import Kvy.General.Timers

/-!
# Typing web messages into the terminal

The controller holds the messages that arrive from the web until the terminal program is idle
at its prompt. It then writes the text of the oldest one, and a timer sends the submit key. A
cooldown after the submit keeps the next message back.

The calls to the terminal and to the owner of the controller are recorded in order, each with
the gates at the moment of the call. None of them calls the controller back.
-/

namespace Kvy.Cli.Claude

open General

/-- `PendingInjection`. -/
structure PendingInjection where
  id : String
  text : String
deriving DecidableEq

/-- The timers of the controller. -/
inductive InjectionTimer where
  | submit (message : PendingInjection)
  | cooldown
  | promptOpenFailsafe
deriving DecidableEq

/-- The message whose submit a timer holds. -/
def InjectionTimer.message? : InjectionTimer → Option PendingInjection
  | .submit message => some message
  | _ => none

/-- A call through `InjectionControllerDeps`. -/
inductive InjectionCall where
  | writeText (text : String)
  | submit
  | onInjected (id : String)
  | onDropped (messages : List PendingInjection)
deriving DecidableEq

/-- A key that reaches the terminal: a text, or the submit key. -/
inductive Keystroke where
  | text
  | enter
deriving DecidableEq

/-- The text a call writes. -/
def InjectionCall.text? : InjectionCall → Option String
  | .writeText text => some text
  | _ => none

/-- The message a call reports as injected. -/
def InjectionCall.injected? : InjectionCall → Option String
  | .onInjected id => some id
  | _ => none

/-- The messages a call reports as dropped. -/
def InjectionCall.dropped : InjectionCall → List PendingInjection
  | .onDropped messages => messages
  | _ => []

/-- The key a call sends. -/
def InjectionCall.keystroke? : InjectionCall → Option Keystroke
  | .writeText _ => some .text
  | .submit => some .enter
  | _ => none

/-- What is known of the terminal at the moment of a call. -/
structure InjectionGates where
  ready : Bool
  busy : Bool
  promptOpen : Bool
  localDraft : Bool
  disposed : Bool
deriving DecidableEq

/-- The controller is ready, and nothing but the prompt has the keyboard. -/
def InjectionGates.open (gates : InjectionGates) : Bool :=
  gates.ready && !gates.disposed && !gates.busy && !gates.promptOpen && !gates.localDraft

/-- `InjectionController`. -/
structure InjectionController where
  queue : List PendingInjection
  ready : Bool
  busy : Bool
  injecting : Bool
  cooldown : Bool
  promptOpen : Bool
  localDraft : Bool
  disposed : Bool
  cooldownTimer : Option Nat
  promptOpenFailsafeTimer : Option Nat
  timers : Timers InjectionTimer
  calls : List (InjectionCall × InjectionGates)

namespace InjectionController

/-- A new controller. -/
def create : InjectionController where
  queue := []
  ready := false
  busy := false
  injecting := false
  cooldown := false
  promptOpen := false
  localDraft := false
  disposed := false
  cooldownTimer := none
  promptOpenFailsafeTimer := none
  timers := .idle
  calls := []

/-- The gates at this moment. -/
def gates (controller : InjectionController) : InjectionGates where
  ready := controller.ready
  busy := controller.busy
  promptOpen := controller.promptOpen
  localDraft := controller.localDraft
  disposed := controller.disposed

/-- Call a dependency. -/
def call (controller : InjectionController) (called : InjectionCall) : InjectionController :=
  { controller with calls := controller.calls ++ [(called, controller.gates)] }

/-- `canInjectNow`. -/
def canInjectNow (controller : InjectionController) : Bool :=
  !controller.disposed && controller.ready && !controller.busy && !controller.injecting &&
    !controller.cooldown && !controller.promptOpen && !controller.localDraft

/-- `canInject`. -/
def canInject (controller : InjectionController) : Bool :=
  controller.canInjectNow && decide (0 < controller.queue.length)

/-- The part of `tryFlush` after a message is shifted off the queue. -/
def typeMessage (controller : InjectionController) (message : PendingInjection)
    (queue : List PendingInjection) : InjectionController :=
  let typed := { controller with queue := queue, injecting := true }.call (.writeText message.text)
  { typed with timers := typed.timers.set (.submit message) }

/-- `tryFlush`. -/
def tryFlush (controller : InjectionController) : InjectionController :=
  if controller.canInject then
    match controller.queue with
    | [] => controller
    | message :: queue => controller.typeMessage message queue
  else controller

/-- `enqueue`. -/
def enqueue (controller : InjectionController) (message : PendingInjection) : InjectionController :=
  if controller.disposed then controller
  else { controller with queue := controller.queue ++ [message] }.tryFlush

/-- `setBusy`. -/
def setBusy (controller : InjectionController) (busy : Bool) : InjectionController :=
  if controller.disposed || controller.busy == busy then controller
  else if busy then { controller with busy := busy }
  else { controller with busy := busy }.tryFlush

/-- `markReady`. -/
def markReady (controller : InjectionController) : InjectionController :=
  if controller.disposed || controller.ready then controller
  else { controller with ready := true }.tryFlush

/-- `clearTimeout` on a handle that may be absent. -/
def clearTimer (controller : InjectionController) (handle : Option Nat) : InjectionController :=
  match handle with
  | none => controller
  | some handle => { controller with timers := controller.timers.clear handle }

/-- `setPromptOpen`. -/
def setPromptOpen (controller : InjectionController) (isOpen : Bool) : InjectionController :=
  if controller.disposed || controller.promptOpen == isOpen then controller
  else if isOpen then
    { controller with
      promptOpen := isOpen
      promptOpenFailsafeTimer := some controller.timers.next
      timers := controller.timers.set .promptOpenFailsafe }
  else
    let cleared := controller.clearTimer controller.promptOpenFailsafeTimer
    { cleared with promptOpen := isOpen, promptOpenFailsafeTimer := none }.tryFlush

/-- `setLocalDraft`. -/
def setLocalDraft (controller : InjectionController) (active : Bool) : InjectionController :=
  if controller.disposed || controller.localDraft == active then controller
  else if active then { controller with localDraft := active }
  else { controller with localDraft := active }.tryFlush

/-- The part of `dispose` that cancels the stored timers. -/
def cancelTimers (controller : InjectionController) : InjectionController :=
  let cleared := (controller.clearTimer controller.cooldownTimer).clearTimer
    controller.promptOpenFailsafeTimer
  { cleared with cooldownTimer := none, promptOpenFailsafeTimer := none }

/-- `dispose`. -/
def dispose (controller : InjectionController) : InjectionController :=
  if controller.disposed then controller
  else
    let emptied := { { controller with disposed := true }.cancelTimers with queue := [] }
    if 0 < controller.queue.length then emptied.call (.onDropped controller.queue) else emptied

/-- The submit timer of a message: the submit key, the report and the cooldown, or the report
that the controller was disposed of first. -/
def submitFires (controller : InjectionController) (message : PendingInjection) :
    InjectionController :=
  if controller.disposed then controller.call (.onDropped [message])
  else
    let submitted := { controller.call .submit with injecting := false }
    let injected := submitted.call (.onInjected message.id)
    { injected with
      cooldown := true
      cooldownTimer := some injected.timers.next
      timers := injected.timers.set .cooldown }

/-- The cooldown timer. -/
def cooldownFires (controller : InjectionController) : InjectionController :=
  let cleared := { controller with cooldownTimer := none }
  if cleared.disposed then cleared else { cleared with cooldown := false }.tryFlush

/-- The timer of `setPromptOpen`. -/
def promptOpenFailsafeFires (controller : InjectionController) : InjectionController :=
  { controller with promptOpenFailsafeTimer := none }.setPromptOpen false

/-- What a timer of the controller runs. -/
def runTimer (controller : InjectionController) : InjectionTimer → InjectionController
  | .submit message => controller.submitFires message
  | .cooldown => controller.cooldownFires
  | .promptOpenFailsafe => controller.promptOpenFailsafeFires

/-- What can happen to a controller. -/
inductive Event where
  | enqueue (message : PendingInjection)
  | setBusy (busy : Bool)
  | markReady
  | setPromptOpen (isOpen : Bool)
  | setLocalDraft (active : Bool)
  | dispose
  | fire (timer : Timer InjectionTimer)
deriving DecidableEq

/-- A public call, or a pending timer that fires. -/
def step (controller : InjectionController) : Event → Option InjectionController
  | .enqueue message => some (controller.enqueue message)
  | .setBusy busy => some (controller.setBusy busy)
  | .markReady => some controller.markReady
  | .setPromptOpen isOpen => some (controller.setPromptOpen isOpen)
  | .setLocalDraft active => some (controller.setLocalDraft active)
  | .dispose => some controller.dispose
  | .fire timer =>
    if timer ∈ controller.timers.pending then
      some ({ controller with timers := controller.timers.clear timer.handle }.runTimer timer.callback)
    else none

/-! ## What the controller has done -/

/-- The messages whose text is written and whose submit is pending. -/
def inFlight (controller : InjectionController) : List PendingInjection :=
  controller.timers.callbacks.filterMap InjectionTimer.message?

/-- The texts written, in order. -/
def written (controller : InjectionController) : List String :=
  controller.calls.filterMap (fun entry => entry.1.text?)

/-- The messages reported by `onInjected`, by id. -/
def injected (controller : InjectionController) : List String :=
  controller.calls.filterMap (fun entry => entry.1.injected?)

/-- The messages reported by `onDropped`. -/
def dropped (controller : InjectionController) : List PendingInjection :=
  controller.calls.flatMap (fun entry => entry.1.dropped)

/-- The keys sent, in order. -/
def keystrokes (controller : InjectionController) : List Keystroke :=
  controller.calls.filterMap (fun entry => entry.1.keystroke?)

end InjectionController

end Kvy.Cli.Claude
