import Kvy.General.Runs
import Kvy.Wire.Session
import Mathlib.Data.List.Infix

/-!
# The ordered queue of outgoing envelopes

Envelopes leave in the order they were pushed in. A `tool-start` is held, and holds up what is
behind it, until its `tool-end` is pushed, its timer fires or the queue is flushed.

The queue calls its sink in the middle of draining. What the sink does is not known here: while it
is called, further envelopes may be pushed and the queue may be flushed again. Timers and microtasks
run with no call under way.
-/

namespace Kvy.Cli.Remote

open General Wire

/-- An item of the queue; its timer is there while it is armed. -/
structure QueueItem where
  id : Nat
  envelope : SessionEnvelope
  released : Bool
  releaseKey : Option String
  timer : Bool

/-- A queue, the calls of `drain` that are under way, and what was pushed and handed to the sink so
far. -/
structure OrderedEnvelopeQueue where
  queue : List QueueItem
  nextId : Nat
  drainScheduled : Bool
  disposed : Bool
  draining : Nat
  pushed : List (Nat × SessionEnvelope)
  flushed : List (Nat × SessionEnvelope)

/-- What the sink gets of an item, with the item's number. -/
def QueueItem.entry (item : QueueItem) : Nat × SessionEnvelope := (item.id, item.envelope)

/-- An item that is released, without its timer. -/
def QueueItem.free (item : QueueItem) : QueueItem := { item with released := true, timer := false }

@[simp] theorem QueueItem.free_entry (item : QueueItem) : item.free.entry = item.entry := rfl

@[simp] theorem QueueItem.free_released (item : QueueItem) : item.free.released = true := rfl

@[simp] theorem QueueItem.free_timer (item : QueueItem) : item.free.timer = false := rfl

/-- The key that releases an envelope early; only a `tool-start` has one. -/
def releaseKeyOf : SessionEvent → Option String
  | .toolStart call .. => some call
  | _ => none

namespace OrderedEnvelopeQueue

/-- A new queue. -/
def fresh : OrderedEnvelopeQueue := ⟨[], 1, false, false, 0, [], []⟩

/-- `release`. -/
def release (queue : OrderedEnvelopeQueue) (id : Nat) : OrderedEnvelopeQueue :=
  if queue.queue.any (fun item => item.id = id && !item.released) then
    { queue with
      queue := queue.queue.map (fun item => if item.id = id then item.free else item)
      drainScheduled := true }
  else queue

/-- The held item that a call's end releases. -/
def pendingStart (queue : OrderedEnvelopeQueue) (call : String) : Option QueueItem :=
  queue.queue.find? (fun item => item.releaseKey = some call && !item.released)

/-- A new item at the end. -/
def enqueue (queue : OrderedEnvelopeQueue) (envelope : SessionEnvelope) : OrderedEnvelopeQueue :=
  let releaseKey := releaseKeyOf envelope.ev
  { queue with
    queue := queue.queue ++
      [⟨queue.nextId, envelope, releaseKey.isNone, releaseKey, releaseKey.isSome⟩]
    nextId := queue.nextId + 1
    pushed := queue.pushed ++ [(queue.nextId, envelope)] }

/-- `push`. -/
def push (queue : OrderedEnvelopeQueue) (envelope : SessionEnvelope) : OrderedEnvelopeQueue :=
  if queue.disposed then queue
  else
    let queue := queue.enqueue envelope
    let queue :=
      match envelope.ev with
      | .toolEnd call _ _ =>
        match queue.pendingStart call with
        | some start => queue.release start.id
        | none => queue
      | _ => queue
    { queue with drainScheduled := true }

/-- `drain` up to its next call of the sink, or to its end. -/
def drain (queue : OrderedEnvelopeQueue) : OrderedEnvelopeQueue :=
  match queue.queue with
  | [] => { queue with draining := queue.draining - 1 }
  | head :: rest =>
    if head.released then
      { queue with queue := rest, flushed := queue.flushed ++ [head.entry] }
    else { queue with draining := queue.draining - 1 }

/-- `flush`, up to its call of `drain`. -/
def flush (queue : OrderedEnvelopeQueue) : OrderedEnvelopeQueue :=
  { queue with queue := queue.queue.map QueueItem.free, draining := queue.draining + 1 }

/-- `dispose`. -/
def dispose (queue : OrderedEnvelopeQueue) : OrderedEnvelopeQueue :=
  { queue with disposed := true, queue := [] }

end OrderedEnvelopeQueue

/-- What can happen to a queue. -/
inductive Event where
  | push (envelope : SessionEnvelope)
  | flush
  | dispose
  /-- The timer of an item fires. -/
  | timer (id : Nat)
  /-- The microtask that `scheduleDrain` has queued runs. -/
  | microtask
  /-- The call of `drain` that was made last goes on. -/
  | resume

namespace OrderedEnvelopeQueue

/-- One step of a queue. -/
def step (queue : OrderedEnvelopeQueue) : Event → Option OrderedEnvelopeQueue
  | .push envelope => some (queue.push envelope)
  | .flush => some queue.flush
  | .dispose => some queue.dispose
  | .timer id =>
    if queue.draining = 0 ∧ queue.queue.any (fun item => item.id = id && item.timer) then
      some (queue.release id)
    else none
  | .microtask =>
    if queue.draining = 0 ∧ queue.drainScheduled then
      some { queue with drainScheduled := false, draining := 1 }
    else none
  | .resume => if queue.draining = 0 then none else some queue.drain

/-! ## What holds of every queue -/

/-- The items are what was pushed and not handed to the sink yet, in order; the held ones are those
with a timer, and one of them is in front whenever no drain is due. -/
structure Sound (queue : OrderedEnvelopeQueue) : Prop where
  rising : (queue.pushed.map Prod.fst).Pairwise (· < ·)
  issued : ∀ entry ∈ queue.pushed, entry.1 < queue.nextId
  handed : queue.flushed <+: queue.pushed
  waiting : queue.disposed = false → queue.pushed = queue.flushed ++ queue.queue.map QueueItem.entry
  dropped : queue.disposed = true → queue.queue = []
  armed : ∀ item ∈ queue.queue, item.timer = !item.released
  idle : queue.drainScheduled = false → queue.draining = 0 →
    ∀ head ∈ queue.queue.head?, head.released = false

theorem fresh_sound : fresh.Sound where
  rising := .nil
  issued := fun _ member => absurd member List.not_mem_nil
  handed := List.prefix_rfl
  waiting := fun _ => rfl
  dropped := fun _ => rfl
  armed := fun _ member => absurd member List.not_mem_nil
  idle := fun _ _ _ member => absurd member (by simp [fresh])

variable {queue next : OrderedEnvelopeQueue}

/-- An item of a queue is numbered after everything that was handed to the sink. -/
theorem Sound.behind (sound : queue.Sound) {item : QueueItem} (held : item ∈ queue.queue) :
    ∀ entry ∈ queue.flushed, entry.1 < item.id := by
  intro entry member
  have alive : queue.disposed = false := by
    cases disposed : queue.disposed with
    | false => rfl
    | true => simp [sound.dropped disposed] at held
  have rising := sound.rising
  rw [sound.waiting alive, List.map_append, List.pairwise_append] at rising
  refine rising.2.2 entry.1 (List.mem_map_of_mem member) item.id ?_
  rw [List.map_map]
  exact List.mem_map_of_mem held

/-- Items are known by their numbers. -/
theorem Sound.same_item (sound : queue.Sound) {item other : QueueItem} (held : item ∈ queue.queue)
    (otherHeld : other ∈ queue.queue) (same : item.id = other.id) : item = other := by
  have alive : queue.disposed = false := by
    cases disposed : queue.disposed with
    | false => rfl
    | true => simp [sound.dropped disposed] at held
  have rising := sound.rising
  rw [sound.waiting alive, List.map_append, List.pairwise_append, List.map_map] at rising
  have distinct : (queue.queue.map QueueItem.id).Nodup :=
    rising.2.1.imp (fun {_ _} below => Nat.ne_of_lt below)
  exact List.inj_on_of_nodup_map distinct held otherHeld same

theorem Sound.release (sound : queue.Sound) (id : Nat) : (queue.release id).Sound := by
  unfold OrderedEnvelopeQueue.release
  split
  · have entries : (queue.queue.map (fun item => if item.id = id then item.free else item)).map
        QueueItem.entry = queue.queue.map QueueItem.entry := by
      rw [List.map_map]
      refine List.map_congr_left (fun item _ => ?_)
      simp only [Function.comp]
      split <;> rfl
    exact {
      rising := sound.rising
      issued := sound.issued
      handed := sound.handed
      waiting := fun alive => (sound.waiting alive).trans (by rw [entries])
      dropped := fun disposed => by simp [sound.dropped disposed]
      armed := by
        intro item member
        obtain ⟨before, held, rfl⟩ := List.mem_map.mp member
        split
        · rfl
        · exact sound.armed before held
      idle := nofun }
  · exact sound

theorem Sound.enqueue (sound : queue.Sound) (alive : queue.disposed = false)
    (envelope : SessionEnvelope) :
    ({ queue.enqueue envelope with drainScheduled := true } : OrderedEnvelopeQueue).Sound where
  rising := by
    simp only [OrderedEnvelopeQueue.enqueue, List.map_append, List.map_cons, List.map_nil]
    refine List.pairwise_append.mpr ⟨sound.rising, List.pairwise_singleton _ _, ?_⟩
    intro id member other single
    obtain rfl := List.mem_singleton.mp single
    obtain ⟨entry, pushed, rfl⟩ := List.mem_map.mp member
    exact sound.issued entry pushed
  issued := by
    intro entry member
    rcases List.mem_append.mp member with before | now
    · exact Nat.lt_succ_of_lt (sound.issued entry before)
    · obtain rfl := List.mem_singleton.mp now
      exact Nat.lt_succ_self _
  handed := sound.handed.trans (List.prefix_append _ _)
  waiting := fun _ => by
    simp [OrderedEnvelopeQueue.enqueue, sound.waiting alive, QueueItem.entry]
  dropped := fun disposed => absurd (disposed.symm.trans alive) (by decide)
  armed := by
    intro item member
    rcases List.mem_append.mp member with before | now
    · exact sound.armed item before
    · obtain rfl := List.mem_singleton.mp now
      cases releaseKeyOf envelope.ev <;> rfl
  idle := nofun

theorem Sound.push (sound : queue.Sound) (envelope : SessionEnvelope) :
    (queue.push envelope).Sound := by
  unfold OrderedEnvelopeQueue.push
  split
  · exact sound
  · rename_i alive
    have added := sound.enqueue (by simpa using alive) envelope
    have scheduled (id : Nat) :
        ({ (queue.enqueue envelope).release id with drainScheduled := true } :
          OrderedEnvelopeQueue) =
          ({ queue.enqueue envelope with drainScheduled := true } : OrderedEnvelopeQueue).release
            id := by
      simp only [OrderedEnvelopeQueue.release]
      split <;> rfl
    simp only
    split
    · split
      · rw [scheduled]
        exact added.release _
      · exact added
    · exact added

theorem Sound.drain (sound : queue.Sound) (under : queue.draining ≠ 0) : queue.drain.Sound := by
  unfold OrderedEnvelopeQueue.drain
  split
  · rename_i empty
    exact { sound with idle := fun _ _ head member => absurd member (by simp [empty]) }
  · rename_i head rest items
    split
    · have alive : queue.disposed = false := by
        cases disposed : queue.disposed with
        | false => rfl
        | true => simp [sound.dropped disposed] at items
      have kept : queue.pushed = queue.flushed ++ [head.entry] ++ rest.map QueueItem.entry := by
        rw [sound.waiting alive, items]
        simp
      exact {
        rising := sound.rising
        issued := sound.issued
        handed := ⟨_, kept.symm⟩
        waiting := fun _ => kept
        dropped := fun disposed => absurd (disposed.symm.trans alive) (by decide)
        armed := fun item member => sound.armed item (items ▸ List.mem_cons_of_mem head member)
        idle := fun _ ended => absurd ended under }
    · rename_i held
      refine { sound with idle := fun _ _ other member => ?_ }
      obtain rfl : head = other := by simpa [items] using member
      simpa using held

theorem Sound.flush (sound : queue.Sound) : queue.flush.Sound where
  rising := sound.rising
  issued := sound.issued
  handed := sound.handed
  waiting := fun alive => (sound.waiting alive).trans (by
    simp [OrderedEnvelopeQueue.flush, Function.comp_def])
  dropped := fun disposed => by simp [OrderedEnvelopeQueue.flush, sound.dropped disposed]
  armed := by
    intro item member
    obtain ⟨before, held, rfl⟩ := List.mem_map.mp member
    rfl
  idle := fun _ ended => absurd ended (Nat.succ_ne_zero _)

theorem Sound.dispose (sound : queue.Sound) : queue.dispose.Sound where
  rising := sound.rising
  issued := sound.issued
  handed := sound.handed
  waiting := fun alive => absurd alive (by simp [OrderedEnvelopeQueue.dispose])
  dropped := fun _ => rfl
  armed := fun _ member => absurd member List.not_mem_nil
  idle := fun _ _ _ member => absurd member (by simp [OrderedEnvelopeQueue.dispose])

/-- Every step keeps a queue sound. -/
theorem Sound.step (sound : queue.Sound) {event : Event}
    (taken : queue.step event = some next) : next.Sound := by
  cases event with
  | push envelope =>
    cases taken
    exact sound.push envelope
  | flush =>
    cases taken
    exact sound.flush
  | dispose =>
    cases taken
    exact sound.dispose
  | timer id =>
    obtain ⟨_, same⟩ := Option.ite_none_right_eq_some.mp taken
    cases same
    exact sound.release id
  | microtask =>
    obtain ⟨_, same⟩ := Option.ite_none_right_eq_some.mp taken
    cases same
    exact { sound with idle := fun _ ended => absurd ended Nat.one_ne_zero }
  | resume =>
    obtain ⟨under, same⟩ := Option.ite_none_left_eq_some.mp taken
    cases same
    exact sound.drain under

/-! ## What a step does to a held item -/

/-- The event releases the item: its `tool-end` is pushed, its timer fires, or the queue is
flushed. -/
def Releases (queue : OrderedEnvelopeQueue) (item : QueueItem) : Event → Prop
  | .push envelope =>
    ∃ call ok output, envelope.ev = .toolEnd call ok output ∧ queue.pendingStart call = some item
  | .timer id => id = item.id
  | .flush => True
  | .dispose | .microtask | .resume => False

/-- A held item stays in the queue, and nothing behind it leaves, unless the event releases it or
disposes of the queue. -/
def Blocks (queue : OrderedEnvelopeQueue) (event : Event) (next : OrderedEnvelopeQueue) : Prop :=
  ∀ item ∈ queue.queue, item.released = false →
    queue.Releases item event ∨ event = .dispose ∨
      item ∈ next.queue ∧ ∀ entry ∈ next.flushed, entry.1 < item.id

/-- A release leaves the other items. -/
theorem mem_release {item : QueueItem} {id : Nat} (held : item ∈ queue.queue) (other : item.id ≠ id) :
    item ∈ (queue.release id).queue := by
  unfold OrderedEnvelopeQueue.release
  split
  · exact List.mem_map.mpr ⟨item, held, if_neg other⟩
  · exact held

/-- The end of a call finds the items that were there before it. -/
theorem pending_enqueued {envelope : SessionEnvelope} {call : String} {ok : Bool}
    {output : Option Json} (ended : envelope.ev = .toolEnd call ok output) (other : String) :
    (queue.enqueue envelope).pendingStart other = queue.pendingStart other := by
  simp [pendingStart, OrderedEnvelopeQueue.enqueue, List.find?_append, ended, releaseKeyOf]

/-- A push leaves the items it does not release. -/
theorem mem_push (sound : queue.Sound) {item : QueueItem} {envelope : SessionEnvelope}
    (held : item ∈ queue.queue)
    (stays : ¬queue.Releases item (.push envelope)) : item ∈ (queue.push envelope).queue := by
  have alive : queue.disposed = false := by
    cases disposed : queue.disposed with
    | false => rfl
    | true => simp [sound.dropped disposed] at held
  have added : item ∈ (queue.enqueue envelope).queue := List.mem_append_left _ held
  simp only [OrderedEnvelopeQueue.push, alive, Bool.false_eq_true, if_false]
  split
  · rename_i call ok output ended
    split
    · rename_i start found
      rw [pending_enqueued ended] at found
      refine mem_release added (fun same => stays ⟨call, ok, output, ended, ?_⟩)
      obtain rfl := sound.same_item held (List.mem_of_find?_eq_some found) same
      exact found
    · exact added
  · exact added

/-- A held item stops `drain`. -/
theorem mem_drain {item : QueueItem} (held : item ∈ queue.queue) (kept : item.released = false) :
    item ∈ queue.drain.queue := by
  unfold OrderedEnvelopeQueue.drain
  split
  · exact held
  · rename_i head rest items
    rw [items] at held
    split
    · rename_i freed
      rcases List.mem_cons.mp held with rfl | behind
      · rw [kept] at freed
        contradiction
      · exact behind
    · exact items ▸ held

/-- Every step blocks what is behind a held item. -/
theorem Sound.blocks (sound : queue.Sound) {event : Event} (taken : queue.step event = some next) :
    queue.Blocks event next := by
  intro item held kept
  by_cases freed : queue.Releases item event
  · exact .inl freed
  by_cases disposes : event = .dispose
  · exact .inr (.inl disposes)
  refine .inr (.inr ?_)
  have stays : item ∈ next.queue := by
    cases event with
    | push envelope =>
      cases taken
      exact mem_push sound held freed
    | flush => exact absurd trivial freed
    | dispose => exact absurd rfl disposes
    | timer id =>
      obtain ⟨_, same⟩ := Option.ite_none_right_eq_some.mp taken
      cases same
      exact mem_release held (fun same => freed same.symm)
    | microtask =>
      obtain ⟨_, same⟩ := Option.ite_none_right_eq_some.mp taken
      cases same
      exact held
    | resume =>
      obtain ⟨_, same⟩ := Option.ite_none_left_eq_some.mp taken
      cases same
      exact mem_drain held kept
  exact ⟨stays, (sound.step taken).behind stays⟩

/-! ## Flushing -/

/-- Draining released items hands them all over. -/
theorem drain_all (items : List QueueItem) (freed : ∀ item ∈ items, item.released = true)
    (queue : OrderedEnvelopeQueue) (holds : queue.queue = items) (under : queue.draining ≠ 0) :
    Runs.run step queue (List.replicate (items.length + 1) .resume) =
      some { queue with
        queue := []
        flushed := queue.flushed ++ items.map QueueItem.entry
        draining := queue.draining - 1 } := by
  induction items generalizing queue with
  | nil => simp [Runs.run, step, under, drain, holds]
  | cons head rest inductionHypothesis =>
    obtain ⟨first, later⟩ := List.forall_mem_cons.mp freed
    have moved : queue.step .resume =
        some { queue with queue := rest, flushed := queue.flushed ++ [head.entry] } := by
      simp [step, under, drain, holds, first]
    rw [List.length_cons, List.replicate_succ, Runs.run, moved, Option.bind_some,
      inductionHypothesis later { queue with
        queue := rest, flushed := queue.flushed ++ [head.entry] } rfl under]
    simp

/-- A flush runs to its end: the queue is empty then, and all that was pushed has been handed to the
sink. -/
def Flushes (queue : OrderedEnvelopeQueue) : Prop :=
  ∃ last, Runs.run step queue (.flush :: List.replicate (queue.queue.length + 1) .resume) = some last ∧
    last.queue = [] ∧ last.draining = queue.draining ∧ last.pushed = queue.pushed ∧
    (queue.disposed = false → last.flushed = queue.pushed)

theorem Sound.flushes (sound : queue.Sound) : queue.Flushes := by
  have freed : ∀ item ∈ queue.queue.map QueueItem.free, item.released = true := by
    intro item member
    obtain ⟨before, _, rfl⟩ := List.mem_map.mp member
    rfl
  have drained := drain_all (queue.queue.map QueueItem.free) freed queue.flush rfl (Nat.succ_ne_zero _)
  rw [List.length_map] at drained
  refine ⟨_, drained, rfl, rfl, rfl, fun alive => ?_⟩
  simp [OrderedEnvelopeQueue.flush, Function.comp_def, sound.waiting alive]

/-! ## Every run -/

/-- What was handed to the sink is a beginning of what was pushed, and nothing was pushed twice. A
held item in front has its timer, and an item in front with no drain due is held. -/
structure Orderly (queue : OrderedEnvelopeQueue) : Prop where
  handed : queue.flushed <+: queue.pushed
  once : (queue.pushed.map Prod.fst).Nodup
  waiting : queue.disposed = false → queue.pushed = queue.flushed ++ queue.queue.map QueueItem.entry
  armed : ∀ head ∈ queue.queue.head?, head.released = false → head.timer = true
  idle : queue.drainScheduled = false → queue.draining = 0 →
    ∀ head ∈ queue.queue.head?, head.released = false
  flushes : queue.Flushes

theorem Sound.orderly (sound : queue.Sound) : queue.Orderly where
  handed := sound.handed
  once := sound.rising.imp Nat.ne_of_lt
  waiting := sound.waiting
  armed := by
    intro head front held
    rw [sound.armed head (List.mem_of_mem_head? front), held]
    rfl
  idle := sound.idle
  flushes := sound.flushes

@[simp] theorem disposed_release (id : Nat) : (queue.release id).disposed = queue.disposed := by
  unfold OrderedEnvelopeQueue.release
  split <;> rfl

@[simp] theorem disposed_push (envelope : SessionEnvelope) :
    (queue.push envelope).disposed = queue.disposed := by
  unfold OrderedEnvelopeQueue.push
  split
  · rfl
  · simp only
    split
    · split
      · exact disposed_release _
      · rfl
    · rfl

/-- Only `dispose` disposes of a queue. -/
theorem step_disposed {event : Event} (taken : queue.step event = some next) :
    event = .dispose ∨ next.disposed = queue.disposed := by
  cases event with
  | push envelope =>
    cases taken
    exact .inr (disposed_push envelope)
  | flush =>
    cases taken
    exact .inr rfl
  | dispose => exact .inl rfl
  | timer id =>
    obtain ⟨_, same⟩ := Option.ite_none_right_eq_some.mp taken
    cases same
    exact .inr (disposed_release id)
  | microtask =>
    obtain ⟨_, same⟩ := Option.ite_none_right_eq_some.mp taken
    cases same
    exact .inr rfl
  | resume =>
    obtain ⟨_, same⟩ := Option.ite_none_left_eq_some.mp taken
    cases same
    refine .inr ?_
    unfold drain
    split
    · rfl
    · split <;> rfl

end OrderedEnvelopeQueue

end Kvy.Cli.Remote
