import Kvy.Cli.Claude.InjectionFlow
import Kvy.General.Runs
import Mathlib.Data.List.Chain

/-!
# Runs of the injection controller

Messages handed over carry distinct ids. Beside the controller, a run records them and the
events since the last text was written. A message handed over before the controller is disposed
of is always in one place, and reported once in the end; one handed over afterwards is in no
place. The submit key follows its text onto an open prompt exactly when the events between them
leave no gate closed.
-/

namespace Kvy.Cli.Claude

open General General.Runs InjectionController

/-- A controller, the messages handed to it, and the events since it last wrote a text. -/
structure Observed where
  controller : InjectionController
  handed : List PendingInjection
  window : List Event

/-- Before anything happens. -/
def Observed.start : Observed := ⟨.create, [], []⟩

/-- A step beside what is recorded of it. A message is handed over under a new id. -/
def observe (observed : Observed) (event : Event) : Option Observed :=
  if ∀ message ∈ event.message?, message.id ∉ observed.handed.map PendingInjection.id then
    (observed.controller.step event).map (fun next =>
      { controller := next
        handed := observed.handed ++ event.message?.toList
        window := if next.written.length = observed.controller.written.length
          then observed.window ++ [event] else [] })
  else none

/-- A recorded step, taken apart. -/
theorem observe_cases {observed next : Observed} {event : Event}
    (taken : observe observed event = some next) :
    (∀ message ∈ event.message?, message.id ∉ observed.handed.map PendingInjection.id) ∧
      observed.controller.step event = some next.controller ∧
      next.handed = observed.handed ++ event.message?.toList ∧
      next.window = if next.controller.written.length = observed.controller.written.length
        then observed.window ++ [event] else [] := by
  unfold observe at taken
  split at taken
  · rename_i fresh
    obtain ⟨controller, stepped, rfl⟩ := Option.map_eq_some_iff.mp taken
    exact ⟨fresh, stepped, rfl, rfl⟩
  · contradiction

/-! ## Dispositions -/

/-- What is kept of the messages, whatever happens. -/
structure Sound (handed : List PendingInjection) (flow : Flow) : Prop where
  distinct : (handed.map PendingInjection.id).Nodup
  idle : flow.injecting = false → flow.inFlight = []
  single : flow.inFlight.length ≤ 1
  texts : flow.closed = false →
    flow.written ++ flow.queue.map PendingInjection.text = handed.map PendingInjection.text
  ids : flow.closed = false → flow.injected ++ flow.inFlight.map PendingInjection.id ++
    flow.queue.map PendingInjection.id = handed.map PendingInjection.id
  emptied : flow.closed = true → flow.queue = []
  written : flow.written <+: handed.map PendingInjection.text
  injected : flow.injected <+: handed.map PendingInjection.id
  placed : ∀ id ∈ flow.places, id ∈ handed.map PendingInjection.id
  enters : flow.keystrokes.IsChain (fun first second => ¬ (first = .enter ∧ second = .enter))
  typed : flow.inFlight ≠ [] → flow.keystrokes.getLast? = some .text

/-- Adding a keystroke that does not repeat the submit key. -/
theorem enters_snoc {keystrokes : List Keystroke} {key : Keystroke}
    (enters : keystrokes.IsChain (fun first second => ¬ (first = .enter ∧ second = .enter)))
    (differs : key = .text ∨ keystrokes.getLast? = some .text) :
    (keystrokes ++ [key]).IsChain (fun first second => ¬ (first = .enter ∧ second = .enter)) := by
  apply List.isChain_append.mpr
  refine ⟨enters, List.isChain_singleton _, ?_⟩
  intro last isLast new isNew both
  obtain rfl : key = new := by simpa using isNew
  rcases differs with isText | lastText
  · exact absurd (both.2.symm.trans isText) (by decide)
  · obtain rfl := Option.some.inj (lastText.symm.trans isLast)
    exact absurd both.1 (by decide)

variable {message : PendingInjection}

/-- A new id keeps the ids distinct. -/
theorem ids_snoc {handed : List PendingInjection}
    (distinct : (handed.map PendingInjection.id).Nodup)
    (fresh : message.id ∉ handed.map PendingInjection.id) :
    ((handed ++ [message]).map PendingInjection.id).Nodup := by
  rw [List.map_append, List.nodup_append]
  refine ⟨distinct, List.nodup_singleton _, ?_⟩
  rintro id held other added rfl
  obtain rfl : id = message.id := by simpa using added
  exact fresh held

namespace Sound

variable {handed : List PendingInjection} {flow next : Flow}

/-- A message handed over while the flow is open joins the queue. -/
theorem enter (sound : Sound handed flow) (running : flow.closed = false)
    (fresh : message.id ∉ handed.map PendingInjection.id) :
    Sound (handed ++ [message]) (flow.enter message) where
  distinct := ids_snoc sound.distinct fresh
  idle := sound.idle
  single := sound.single
  texts := by
    intro still
    simp [Flow.enter, ← sound.texts still]
  ids := by
    intro still
    simp [Flow.enter, ← sound.ids still]
  emptied := by
    intro closed
    exact absurd (running.symm.trans closed) (by decide)
  written := sound.written.trans (by simp)
  injected := sound.injected.trans (by simp)
  placed := by
    intro id member
    rw [List.map_append, List.mem_append]
    rcases List.mem_cons.mp ((Flow.places_enter flow message).mem_iff.mp member) with rfl | before
    · exact Or.inr (by simp)
    · exact Or.inl (sound.placed id before)
  enters := sound.enters
  typed := sound.typed

/-- A message handed over when the flow is closed goes nowhere. -/
theorem refuse (sound : Sound handed flow) (closed : flow.closed = true)
    (fresh : message.id ∉ handed.map PendingInjection.id) :
    Sound (handed ++ [message]) flow where
  distinct := ids_snoc sound.distinct fresh
  idle := sound.idle
  single := sound.single
  texts := by
    intro still
    exact absurd (still.symm.trans closed) (by decide)
  ids := by
    intro still
    exact absurd (still.symm.trans closed) (by decide)
  emptied := sound.emptied
  written := sound.written.trans (by simp)
  injected := sound.injected.trans (by simp)
  placed := by
    intro id member
    rw [List.map_append, List.mem_append]
    exact Or.inl (sound.placed id member)
  enters := sound.enters
  typed := sound.typed

/-- A written message moves from the queue into flight. -/
theorem write (sound : Sound handed flow)
    {queue : List PendingInjection} (held : flow.queue = message :: queue)
    (free : flow.injecting = false) (running : flow.closed = false) :
    Sound handed (flow.write message queue) := by
  have none : flow.inFlight = [] := sound.idle free
  have texts : flow.written ++ [message.text] ++ queue.map PendingInjection.text =
      handed.map PendingInjection.text := by
    rw [← sound.texts running, held]
    simp
  constructor
  · exact sound.distinct
  · intro off
    exact absurd off (by simp [Flow.write])
  · simp [Flow.write, none]
  · intro _
    exact texts
  · intro _
    rw [← sound.ids running, held, none]
    simp [Flow.write, none]
  · intro closed
    exact absurd (running.symm.trans closed) (by decide)
  · exact ⟨_, texts⟩
  · exact sound.injected
  · intro id member
    exact sound.placed id ((Flow.places_write held).mem_iff.mp member)
  · exact enters_snoc sound.enters (Or.inl rfl)
  · intro _
    simp [Flow.write]

/-- The only message in flight. -/
theorem inFlight_eq (sound : Sound handed flow)
    {others : List PendingInjection} (held : flow.inFlight.Perm (message :: others)) :
    flow.inFlight = [message] ∧ others = [] := by
  have length := held.length_eq
  rw [List.length_cons] at length
  have none : others = [] := List.eq_nil_of_length_eq_zero (by have := sound.single; omega)
  rw [none] at held ⊢
  exact ⟨List.perm_singleton.mp held, rfl⟩

/-- A submitted message moves out of flight. -/
theorem submit (sound : Sound handed flow) (running : flow.closed = false)
    {others : List PendingInjection}
    (held : flow.inFlight.Perm (message :: others)) :
    Sound handed (flow.submit message others) := by
  obtain ⟨single, rfl⟩ := sound.inFlight_eq held
  have ids : flow.injected ++ [message.id] ++ flow.queue.map PendingInjection.id =
      handed.map PendingInjection.id := by
    rw [← sound.ids running, single]
    rfl
  constructor
  · exact sound.distinct
  · intro _
    rfl
  · simp [Flow.submit]
  · exact sound.texts
  · intro _
    simpa [Flow.submit] using ids
  · exact sound.emptied
  · exact sound.written
  · exact ⟨_, ids⟩
  · intro id member
    exact sound.placed id ((Flow.places_submit held).mem_iff.mp member)
  · exact enters_snoc sound.enters (Or.inr (sound.typed (by simp [single])))
  · intro some
    exact absurd rfl some

/-- A message given up after its text was written moves out of flight. -/
theorem drop (sound : Sound handed flow) (closed : flow.closed = true)
    {others : List PendingInjection}
    (held : flow.inFlight.Perm (message :: others)) :
    Sound handed (flow.drop message others) := by
  obtain ⟨single, rfl⟩ := sound.inFlight_eq held
  constructor
  · exact sound.distinct
  · intro _
    rfl
  · simp [Flow.drop]
  · intro still
    exact absurd (still.symm.trans closed) (by decide)
  · intro still
    exact absurd (still.symm.trans closed) (by decide)
  · exact sound.emptied
  · exact sound.written
  · exact sound.injected
  · intro id member
    exact sound.placed id ((Flow.places_drop held).mem_iff.mp member)
  · exact sound.enters
  · intro some
    exact absurd rfl some

/-- Closing moves the queue to the dropped messages. -/
theorem close (sound : Sound handed flow) : Sound handed flow.close := by
  constructor
  · exact sound.distinct
  · exact sound.idle
  · exact sound.single
  · intro still
    exact absurd still (by simp [Flow.close])
  · intro still
    exact absurd still (by simp [Flow.close])
  · intro _
    rfl
  · exact sound.written
  · exact sound.injected
  · intro id member
    exact sound.placed id ((Flow.places_close flow).mem_iff.mp member)
  · exact sound.enters
  · exact sound.typed

theorem flushed (sound : Sound handed flow) (flushes : flow.Flushed next) : Sound handed next := by
  obtain rfl | ⟨message, queue, held, free, running, rfl⟩ := flushes
  · exact sound
  · exact sound.write held free running

end Sound

/-- What holds between the steps. -/
structure Tracked (observed : Observed) : Prop where
  armed : Armed observed.controller
  sound : Sound observed.handed observed.controller.flow

theorem tracked_start : Tracked .start where
  armed := ⟨harmless_none _, harmless_none _⟩
  sound := by
    constructor <;> simp [Observed.start, create, flow, inFlight, injected, dropped, written, keystrokes,
      Flow.places]

/-- Every step keeps the messages in their places. -/
theorem Tracked.step {observed next : Observed} {event : Event} (tracked : Tracked observed)
    (taken : observe observed event = some next) : Tracked next := by
  obtain ⟨fresh, stepped, handed, _⟩ := observe_cases taken
  obtain ⟨armed, moves⟩ := step_moves tracked.armed stepped
  refine ⟨armed, ?_⟩
  rw [handed]
  cases moves with
  | refuse message enters closed same =>
    rw [same, enters]
    exact tracked.sound.refuse closed (fresh message enters)
  | enter message enters running flushed =>
    rw [enters]
    exact (tracked.sound.enter running (fresh message enters)).flushed flushed
  | flush silent flushed =>
    rw [silent, Option.toList_none, List.append_nil]
    exact tracked.sound.flushed flushed
  | close silent running same =>
    rw [silent, Option.toList_none, List.append_nil, same]
    exact tracked.sound.close
  | submit silent running message others held same =>
    rw [silent, Option.toList_none, List.append_nil, same]
    exact tracked.sound.submit running held
  | drop silent closed message others held same =>
    rw [silent, Option.toList_none, List.append_nil, same]
    exact tracked.sound.drop closed held

/-- A message joins the places unless it is handed over when the flow is closed. -/
theorem moves_places {flow next : Flow} {event : Event} (moves : Moves flow event next) :
    (flow.closed = true ∧ event.message? ≠ none ∧ next = flow) ∨
      ((flow.closed = true → event.message? = none) ∧
        next.places.Perm (event.message?.toList.map PendingInjection.id ++ flow.places)) := by
  cases moves with
  | refuse message enters closed same => exact Or.inl ⟨closed, by simp [enters], same⟩
  | enter message enters running flushed =>
    right
    rw [enters]
    refine ⟨fun closed => absurd (running.symm.trans closed) (by decide), ?_⟩
    exact (Flow.places_flushed flushed).trans (Flow.places_enter flow message)
  | flush silent flushed =>
    rw [silent]
    exact Or.inr ⟨fun _ => rfl, Flow.places_flushed flushed⟩
  | close silent running same =>
    rw [silent, same]
    exact Or.inr ⟨fun _ => rfl, Flow.places_close flow⟩
  | submit silent running message others held same =>
    rw [silent, same]
    exact Or.inr ⟨fun _ => rfl, Flow.places_submit held⟩
  | drop silent closed message others held same =>
    rw [silent, same]
    exact Or.inr ⟨fun _ => rfl, Flow.places_drop held⟩

/-- What is said of the messages: each is in one place, they are typed in order, the submit key
follows a text at most once, and in the end each is reported once. -/
structure Accounted (observed : Observed) : Prop where
  once : ∀ message ∈ observed.handed, observed.controller.flow.places.count message.id = 1
  written : observed.controller.written <+: observed.handed.map PendingInjection.text
  injected : observed.controller.injected <+: observed.handed.map PendingInjection.id
  enters : ∀ before middle after,
    observed.controller.keystrokes = before ++ .text :: middle ++ after →
      Keystroke.text ∉ middle → middle.count .enter ≤ 1
  ends : observed.controller.disposed = true → observed.controller.timers.pending = [] →
    ∀ message ∈ observed.handed, observed.controller.flow.reported.count message.id = 1

/-- Keys without a repeated submit key hold it once at most between two texts. -/
theorem enters_between {before middle after : List Keystroke}
    (enters : (before ++ .text :: middle ++ after).IsChain
      (fun first second => ¬ (first = .enter ∧ second = .enter)))
    (between : Keystroke.text ∉ middle) : middle.count .enter ≤ 1 := by
  have tail := (List.isChain_append.mp (List.isChain_append.mp enters).1).2.1.tail
  match middle with
  | [] => exact Nat.zero_le 1
  | [key] => exact List.count_le_length
  | .text :: second :: rest => exact absurd (by simp) between
  | .enter :: .text :: rest => exact absurd (by simp) between
  | .enter :: .enter :: rest => exact absurd ⟨rfl, rfl⟩ (List.isChain_cons_cons.mp tail).1

/-- Being in one place is all there is to show. -/
theorem Tracked.accounted {observed : Observed} (tracked : Tracked observed) :
    Accounted observed ↔
      ∀ message ∈ observed.handed, observed.controller.flow.places.count message.id = 1 := by
  constructor
  · exact Accounted.once
  · intro once
    refine ⟨once, tracked.sound.written, tracked.sound.injected, ?_, ?_⟩
    · intro before middle after split between
      have enters := tracked.sound.enters
      rw [show observed.controller.flow.keystrokes = observed.controller.keystrokes from rfl,
        split] at enters
      exact enters_between enters between
    · intro disposed fired message member
      have emptied : observed.controller.flow.queue = [] := tracked.sound.emptied disposed
      have landed : observed.controller.flow.inFlight = [] := by
        simp [flow, inFlight, Timers.callbacks, fired]
      have placed := once message member
      rwa [Flow.places, emptied, landed, List.map_nil, List.nil_append, List.nil_append] at placed

/-- Each message handed over is always in one place, and everything else said of the messages
holds, exactly when none is handed over after the controller is disposed of. -/
theorem injections_accounted_iff (events : List Event) :
    Always observe (fun _ _ next => Accounted next) .start events ↔
      Always observe (fun observed event _ =>
        observed.controller.disposed = true → event.message? = none) .start events := by
  apply always_state_iff Tracked
  · intro observed event next tracked taken
    exact tracked.step taken
  · intro observed event next tracked accounted taken
    obtain ⟨fresh, stepped, handed, _⟩ := observe_cases taken
    have moves := (step_moves tracked.armed stepped).2
    rw [(tracked.step taken).accounted, handed]
    obtain ⟨closed, enters, same⟩ | ⟨met, places⟩ := moves_places moves
    · obtain ⟨message, entered⟩ := Option.ne_none_iff_exists'.mp enters
      constructor
      · intro once
        have lost := once message (by simp [entered])
        rw [same] at lost
        have placed : message.id ∈ observed.controller.flow.places :=
          List.count_pos_iff.mp (by omega)
        exact absurd (tracked.sound.placed message.id placed) (fresh message entered)
      · intro condition
        exact absurd (condition closed) enters
    · constructor
      · intro _
        exact met
      · intro _ message member
        rw [places.count_eq, List.count_append]
        rcases List.mem_append.mp member with before | added
        · have apart : message.id ∉ event.message?.toList.map PendingInjection.id := by
            intro new
            obtain ⟨other, isNew, same⟩ := List.mem_map.mp new
            apply fresh other (Option.mem_toList.mp isNew)
            rw [same]
            exact List.mem_map_of_mem before
          rw [List.count_eq_zero_of_not_mem apart, accounted.once message before]
        · have isNew := Option.mem_toList.mp added
          have absent : message.id ∉ observed.controller.flow.places := by
            intro placed
            exact fresh message isNew (tracked.sound.placed message.id placed)
          rw [List.count_eq_zero_of_not_mem absent, isNew]
          simp
  · exact tracked_start
  · exact tracked_start.accounted.mpr (by simp [Observed.start])

/-- A message handed over after the end is in no place. -/
theorem late_message_lost :
    ¬ ∀ events, Always observe (fun _ _ next => Accounted next) .start events := by
  intro always
  have last := ((always [.dispose, .enqueue ⟨"m", "hello"⟩] _ rfl).2 _ rfl).1
  exact absurd (last.once ⟨"m", "hello"⟩ (by simp [Observed.start, Event.message?])) (by decide)

end Kvy.Cli.Claude
