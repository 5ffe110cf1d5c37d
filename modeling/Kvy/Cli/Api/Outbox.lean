import Kvy.Cli.Api.Queue
import Kvy.General.Runs

/-!
# The transcript outbox

Envelopes are buffered, sealed into batches, queued on disk and posted one batch
at a time. A step runs one synchronous piece of the source: a public call, a timer,
the settling of one awaited request or sleep, the continuation of the drain, or the
start of a new process on the file the last one left.

The queue file is replaced by one rename, after the queue in memory has changed. A
crash inside a step leaves the file of the state before it or of the state after it,
so a restart between steps covers every crash.
-/

namespace Kvy.Cli.Outbox

open General Wire Queue

universe u v

/-- The options of an outbox. `sealBatch` encrypts a batch under the session's key;
its randomness is an argument. -/
structure Options (Envelope : Type u) (Nonce : Type v) where
  sealBatch : List Envelope → Nonce → EncryptedBox
  maxBatchSize : Nat
  maxQueueBytes : ℚ

/-- What one sealing draws: the identifier from `createId` and the nonce. -/
structure Minted (Nonce : Type v) where
  localId : String
  nonce : Nonce

/-- Where the drain stands. `settled` lies between the return of `sendUntil2xx` and
the continuation of `drain` that awaited it. -/
inductive Drain where
  | idle
  | posting (batch : QueuedBatch)
  | sleeping (batch : QueuedBatch)
  | settled (batch : QueuedBatch) (acked : Bool)

/-- The batch that the drain took from the queue and has not finished. -/
def Drain.held : Drain → Option QueuedBatch
  | .idle => none
  | .posting batch => some batch
  | .sleeping batch => some batch
  | .settled batch _ => some batch

/-- An outbox and its queue file. The last two fields record the history: the
identifiers in the order they were minted, and those whose post was answered 2xx. -/
structure State (Envelope : Type u) where
  buf : List Envelope
  timer : Bool
  queue : List QueuedBatch
  drain : Drain
  disposed : Bool
  disk : Option (List Char)
  minted : List String
  answered : List String

/-- One step of the outbox or of its environment. A sealing draws `minted`. -/
inductive Event (Envelope : Type u) (Nonce : Type v) where
  | enqueue (events : List Envelope) (minted : Minted Nonce)
  | flush (minted : Minted Nonce)
  | timer (minted : Minted Nonce)
  | dispose (minted : Minted Nonce)
  | answer (ok : Bool)
  | wake
  | resume
  | restart

variable {Envelope : Type u} {Nonce : Type v}

/-- The draw of an event that may seal. -/
def Event.minted? : Event Envelope Nonce → Option (Minted Nonce)
  | .enqueue _ minted => some minted
  | .flush minted => some minted
  | .timer minted => some minted
  | .dispose minted => some minted
  | _ => none

/-- The head of the loop in `drain`, up to the request it awaits. -/
def drainLoop (state : State Envelope) : State Envelope :=
  if state.disposed then { state with drain := .idle }
  else
    match state.queue with
    | [] => { state with drain := .idle }
    | next :: _ => { state with drain := .posting next }

/-- `drain`, entered only once at a time. -/
def startDrain (state : State Envelope) : State Envelope :=
  match state.drain with
  | .idle => drainLoop state
  | _ => state

/-- The constructor, on the file left by an earlier process. -/
def construct (disk : Option (List Char)) (minted answered : List String) : State Envelope :=
  drainLoop
    { buf := [], timer := false, queue := loadQueue disk, drain := .idle, disposed := false, disk,
      minted, answered }

/-- The first outbox of a session, which has no queue file yet. -/
def fresh : State Envelope := construct none [] []

/-- The batch that the buffer seals into. -/
def sealBuffer (options : Options Envelope Nonce) (buf : List Envelope) (minted : Minted Nonce) :
    QueuedBatch :=
  makeQueuedBatch minted.localId (options.sealBatch buf minted.nonce)

@[simp] theorem seal_local_id (options : Options Envelope Nonce) (buf : List Envelope)
    (minted : Minted Nonce) : (sealBuffer options buf minted).localId = minted.localId := rfl

/-- `flush`. -/
def flush (options : Options Envelope Nonce) (minted : Minted Nonce) (state : State Envelope) :
    State Envelope :=
  if state.buf.isEmpty then { state with timer := false }
  else
    let queue := appendWithCap state.queue (sealBuffer options state.buf minted)
      options.maxQueueBytes
    startDrain
      { state with
        buf := [], timer := false, queue, disk := persistQueue queue,
        minted := state.minted ++ [minted.localId] }

/-- `enqueue`. -/
def enqueue (options : Options Envelope Nonce) (events : List Envelope) (minted : Minted Nonce)
    (state : State Envelope) : State Envelope :=
  if state.disposed || events.isEmpty then state
  else
    let state := { state with buf := state.buf ++ events }
    if options.maxBatchSize ≤ state.buf.length then flush options minted state
    else { state with timer := true }

/-- `dispose`. -/
def dispose (options : Options Envelope Nonce) (minted : Minted Nonce) (state : State Envelope) :
    State Envelope :=
  let state := if state.buf.isEmpty then state else flush options minted state
  { state with disposed := true, timer := false }

/-- The awaited request of `sendUntil2xx` settles; a thrown error counts as not ok. -/
def answer (ok : Bool) (state : State Envelope) : Option (State Envelope) :=
  match state.drain with
  | .posting batch =>
    if ok then
      some { state with
        drain := .settled batch true, answered := state.answered ++ [batch.localId] }
    else some { state with drain := .sleeping batch }
  | _ => none

/-- The backoff of `sendUntil2xx` ends. -/
def wake (state : State Envelope) : Option (State Envelope) :=
  match state.drain with
  | .sleeping batch =>
    some { state with drain := if state.disposed then .settled batch false else .posting batch }
  | _ => none

/-- `drain` continues after `sendUntil2xx` returned. -/
def resume (state : State Envelope) : Option (State Envelope) :=
  match state.drain with
  | .settled _ true =>
    let queue := state.queue.drop 1
    some (drainLoop { state with queue, disk := persistQueue queue })
  | .settled _ false => some { state with drain := .idle }
  | _ => none

/-- One step. `createId` never repeats an identifier. -/
def step (options : Options Envelope Nonce) (state : State Envelope)
    (event : Event Envelope Nonce) : Option (State Envelope) :=
  if event.minted?.any (fun minted => minted.localId ∈ state.minted) then none
  else
    match event with
    | .enqueue events minted => some (enqueue options events minted state)
    | .flush minted => some (flush options minted state)
    | .timer minted => if state.timer then some (flush options minted state) else none
    | .dispose minted => some (dispose options minted state)
    | .answer ok => answer ok state
    | .wake => wake state
    | .resume => resume state
    | .restart => some (construct state.disk state.minted state.answered)

/-- The batch that an event seals and appends, if it seals one. -/
def sealed? (options : Options Envelope Nonce) (state : State Envelope) :
    Event Envelope Nonce → Option QueuedBatch
  | .enqueue events minted =>
    if state.disposed || events.isEmpty then none
    else
      let buf := state.buf ++ events
      if options.maxBatchSize ≤ buf.length then some (sealBuffer options buf minted) else none
  | .flush minted | .timer minted | .dispose minted =>
    if state.buf.isEmpty then none else some (sealBuffer options state.buf minted)
  | _ => none

/-- The loop changes nothing but the drain, which goes on with the head or stops. -/
theorem drain_loop_shape (state : State Envelope) :
    ∃ drain, drainLoop state = { state with drain } ∧
      (∀ batch, drain.held = some batch → state.queue.head? = some batch) ∧
      ∀ batch, drain ≠ .settled batch true := by
  unfold drainLoop
  split
  · exact ⟨.idle, rfl, by simp [Drain.held], by simp⟩
  · split
    · exact ⟨.idle, rfl, by simp [Drain.held], by simp⟩
    · rename_i next rest shape
      exact ⟨.posting next, rfl, by simp [Drain.held, shape], by simp⟩

@[simp] theorem drain_loop_queue (state : State Envelope) :
    (drainLoop state).queue = state.queue := by
  obtain ⟨drain, shape, _⟩ := drain_loop_shape state
  rw [shape]

/-- A drain that is already running is left alone. -/
theorem start_drain_shape (state : State Envelope) :
    ∃ drain, startDrain state = { state with drain } ∧
      (∀ batch, drain.held = some batch →
        state.drain.held = some batch ∨ state.queue.head? = some batch) ∧
      ∀ batch, drain = .settled batch true → state.drain = .settled batch true := by
  unfold startDrain
  split
  · obtain ⟨drain, shape, head, running⟩ := drain_loop_shape state
    exact ⟨drain, shape, fun batch held => Or.inr (head batch held),
      fun batch settled => absurd settled (running batch)⟩
  · exact ⟨state.drain, rfl, fun _ held => Or.inl held, fun _ settled => settled⟩

/-- Flushing a buffer that is not empty appends its batch. -/
theorem flush_shape (options : Options Envelope Nonce) (minted : Minted Nonce)
    (state : State Envelope) (full : state.buf.isEmpty = false) :
    let queue := appendWithCap state.queue (sealBuffer options state.buf minted)
      options.maxQueueBytes
    ∃ drain, flush options minted state =
        { state with
          buf := [], timer := false, queue, disk := persistQueue queue, drain,
          minted := state.minted ++ [minted.localId] } ∧
      (∀ batch, drain.held = some batch →
        state.drain.held = some batch ∨ queue.head? = some batch) ∧
      ∀ batch, drain = .settled batch true → state.drain = .settled batch true := by
  intro queue
  obtain ⟨drain, shape, held, settled⟩ := start_drain_shape
    { state with
      buf := [], timer := false, queue, disk := persistQueue queue,
      minted := state.minted ++ [minted.localId] }
  refine ⟨drain, ?_, held, settled⟩
  rw [flush, if_neg (by simp [full])]
  exact shape

/-- Flushing an empty buffer clears the timer. -/
theorem flush_empty (options : Options Envelope Nonce) (minted : Minted Nonce)
    (state : State Envelope) (empty : state.buf.isEmpty = true) :
    flush options minted state = { state with timer := false } :=
  if_pos empty

/-- A drain that continues after an ack was answered 2xx. -/
def Receipts (state : State Envelope) : Prop :=
  ∀ batch, state.drain = .settled batch true → batch.localId ∈ state.answered

/-- What a step does to the queue, to its file and to the minted identifiers. -/
inductive Effect (options : Options Envelope Nonce) (state : State Envelope)
    (event : Event Envelope Nonce) (next : State Envelope) : Prop where
  | kept (queue : next.queue = state.queue) (disk : next.disk = state.disk)
      (minted : next.minted = state.minted)
      (held : ∀ batch, next.drain.held = some batch → state.drain.held = some batch)
  | appended (batch : QueuedBatch) (sealed : sealed? options state event = some batch)
      (new : batch.localId ∉ state.minted)
      (queue : next.queue = appendWithCap state.queue batch options.maxQueueBytes)
      (disk : next.disk = persistQueue next.queue)
      (minted : next.minted = state.minted ++ [batch.localId])
      (held : ∀ batch, next.drain.held = some batch →
        state.drain.held = some batch ∨ next.queue.head? = some batch)
  | dequeued (batch : QueuedBatch) (continued : event = .resume)
      (settled : state.drain = .settled batch true)
      (queue : next.queue = state.queue.drop 1) (disk : next.disk = persistQueue next.queue)
      (minted : next.minted = state.minted)
      (held : ∀ batch, next.drain.held = some batch → next.queue.head? = some batch)
  | restarted (queue : next.queue = loadQueue state.disk) (disk : next.disk = state.disk)
      (minted : next.minted = state.minted)
      (held : ∀ batch, next.drain.held = some batch → next.queue.head? = some batch)

/-- Every step has one of the effects and keeps the receipts. -/
theorem step_effect (options : Options Envelope Nonce) (state : State Envelope)
    (event : Event Envelope Nonce) (next : State Envelope) (receipts : Receipts state)
    (taken : step options state event = some next) :
    Effect options state event next ∧ Receipts next := by
  unfold step at taken
  split at taken
  · contradiction
  rename_i usable
  have flushed (minted : Minted Nonce) (draws : event.minted? = some minted)
      (seals : sealed? options state event =
        if state.buf.isEmpty then none else some (sealBuffer options state.buf minted)) :
      Effect options state event (flush options minted state) ∧
        Receipts (flush options minted state) := by
    cases empty : state.buf.isEmpty with
    | true =>
      rw [flush_empty options minted state empty]
      exact ⟨.kept rfl rfl rfl (fun _ held => held), receipts⟩
    | false =>
      obtain ⟨drain, shape, held, settled⟩ := flush_shape options minted state empty
      rw [shape]
      exact ⟨.appended _ (by simp [seals, empty]) (by simpa [draws] using usable) rfl rfl rfl held,
        fun batch now => receipts batch (settled batch now)⟩
  cases event with
  | enqueue events minted =>
    cases taken
    unfold enqueue
    split
    · exact ⟨.kept rfl rfl rfl (fun _ held => held), receipts⟩
    · rename_i accepted
      dsimp only
      split
      · rename_i reached
        have full : (state.buf ++ events).isEmpty = false := by
          simp_all
        obtain ⟨drain, shape, held, settled⟩ :=
          flush_shape options minted { state with buf := state.buf ++ events } full
        rw [shape]
        exact ⟨.appended (sealBuffer options (state.buf ++ events) minted)
          (by simp only [sealed?, accepted, reached]; rfl)
          (by simpa [Event.minted?] using usable) rfl rfl rfl held,
          fun batch now => receipts batch (settled batch now)⟩
      · exact ⟨.kept rfl rfl rfl (fun _ held => held), receipts⟩
  | flush minted =>
    cases taken
    exact flushed minted rfl rfl
  | timer minted =>
    dsimp only at taken
    split at taken
    · cases taken
      exact flushed minted rfl rfl
    · contradiction
  | dispose minted =>
    cases taken
    unfold dispose
    cases empty : state.buf.isEmpty with
    | true => exact ⟨.kept rfl rfl rfl (fun _ held => held), receipts⟩
    | false =>
      obtain ⟨drain, shape, held, settled⟩ := flush_shape options minted state empty
      simp only [shape]
      exact ⟨.appended (sealBuffer options state.buf minted) (by simp [sealed?, empty])
        (by simpa [Event.minted?] using usable) rfl rfl rfl held,
        fun batch now => receipts batch (settled batch now)⟩
  | answer ok =>
    simp only [answer] at taken
    split at taken
    · rename_i sent posting
      cases ok with
      | true =>
        cases taken
        refine ⟨.kept rfl rfl rfl (fun _ held => by simpa [posting, Drain.held] using held), ?_⟩
        intro batch settled
        obtain ⟨rfl, _⟩ := Drain.settled.inj settled
        simp
      | false =>
        cases taken
        exact ⟨.kept rfl rfl rfl (fun _ held => by simpa [posting, Drain.held] using held),
          by simp [Receipts]⟩
    · contradiction
  | wake =>
    simp only [wake] at taken
    split at taken
    · rename_i batch asleep
      cases taken
      refine ⟨.kept rfl rfl rfl (fun other held => ?_), ?_⟩
      · cases stopped : state.disposed <;> simpa [asleep, stopped, Drain.held] using held
      · cases stopped : state.disposed <;> simp [Receipts]
    · contradiction
  | resume =>
    simp only [resume] at taken
    split at taken
    · rename_i batch settled
      obtain ⟨drain, shape, head, running⟩ := drain_loop_shape
        { state with queue := state.queue.drop 1, disk := persistQueue (state.queue.drop 1) }
      rw [shape] at taken
      cases taken
      exact ⟨.dequeued batch rfl settled rfl rfl rfl head,
        fun other now => absurd now (running other)⟩
    · cases taken
      exact ⟨.kept rfl rfl rfl (by simp [Drain.held]), by simp [Receipts]⟩
    · contradiction
  | restart =>
    obtain ⟨drain, shape, head, running⟩ := drain_loop_shape
      { buf := ([] : List Envelope), timer := false, queue := loadQueue state.disk,
        drain := .idle, disposed := false, disk := state.disk, minted := state.minted,
        answered := state.answered }
    simp only [construct, shape] at taken
    cases taken
    exact ⟨.restarted rfl rfl rfl head, fun other now => absurd now (running other)⟩

/-- The invariant of every run. The held batch can only be queued at the head. -/
structure Sound (state : State Envelope) : Prop where
  mirrored : loadQueue state.disk = state.queue
  ordered : (state.queue.map QueuedBatch.localId).Sublist state.minted
  fresh : state.minted.Nodup
  receipts : Receipts state
  heldMinted : ∀ batch, state.drain.held = some batch → batch.localId ∈ state.minted
  heldHead : ∀ batch, state.drain.held = some batch → batch ∈ state.queue →
    state.queue.head? = some batch

/-- A queued batch is queued once. -/
theorem Sound.queue_distinct {state : State Envelope} (sound : Sound state) :
    state.queue.Nodup :=
  (sound.ordered.nodup sound.fresh).of_map

/-- The held batch is minted when it comes from a queue of minted batches. -/
theorem Sound.head_minted {state : State Envelope} {queue : List QueuedBatch}
    (ordered : (queue.map QueuedBatch.localId).Sublist state.minted) {batch : QueuedBatch}
    (head : queue.head? = some batch) : batch.localId ∈ state.minted :=
  ordered.subset (List.mem_map.mpr ⟨batch, List.mem_of_head? head, rfl⟩)

/-- A first outbox has nothing queued. -/
theorem fresh_sound : Sound (fresh : State Envelope) where
  mirrored := rfl
  ordered := List.Sublist.refl []
  fresh := List.nodup_nil
  receipts := by simp [Receipts, fresh, construct, drainLoop, loadQueue]
  heldMinted := by simp [fresh, construct, drainLoop, loadQueue, Drain.held]
  heldHead := by simp [fresh, construct, drainLoop, loadQueue, Drain.held]

/-- A held batch that survives an append stays at the head. -/
theorem Sound.append_head {state : State Envelope} (sound : Sound state) {batch new : QueuedBatch}
    (maxBytes : ℚ) (held : state.drain.held = some batch) (fresh : new.localId ∉ state.minted)
    (member : batch ∈ appendWithCap state.queue new maxBytes) :
    (appendWithCap state.queue new maxBytes).head? = some batch := by
  obtain ⟨dropped, kept, split, result⟩ := append_with_cap_keeps state.queue new maxBytes
  have known := sound.heldMinted batch held
  have inKept : batch ∈ kept := by
    rcases List.mem_append.mp (result ▸ member) with inKept | isNew
    · exact inKept
    · exact absurd (List.mem_singleton.mp isNew ▸ known) fresh
  have head := sound.heldHead batch held (split ▸ List.mem_append_right dropped inKept)
  have none : dropped = [] := by
    cases dropped with
    | nil => rfl
    | cons first rest =>
      have distinct := sound.queue_distinct
      rw [split] at head distinct
      obtain rfl : first = batch := by simpa using head
      exact absurd (List.mem_append_right rest inKept) (List.nodup_cons.mp distinct).1
  rw [result, List.head?_append, ← List.nil_append kept, ← none, ← split, head]
  rfl

/-- Every step keeps the invariant. -/
theorem step_sound (options : Options Envelope Nonce) (state : State Envelope)
    (event : Event Envelope Nonce) (next : State Envelope) (sound : Sound state)
    (taken : step options state event = some next) : Sound next := by
  obtain ⟨effect, receipts⟩ := step_effect options state event next sound.receipts taken
  cases effect with
  | kept queue disk minted held =>
    exact ⟨by rw [queue, disk, sound.mirrored], by rw [queue, minted]; exact sound.ordered,
      minted ▸ sound.fresh, receipts,
      fun batch holds => minted ▸ sound.heldMinted batch (held batch holds),
      fun batch holds member => queue ▸ sound.heldHead batch (held batch holds) (queue ▸ member)⟩
  | appended new seals fresh queue disk minted held =>
    have ordered : (next.queue.map QueuedBatch.localId).Sublist next.minted := by
      obtain ⟨dropped, kept, split, result⟩ :=
        append_with_cap_keeps state.queue new options.maxQueueBytes
      rw [queue, minted, result, List.map_append]
      refine List.Sublist.append ?_ (List.Sublist.refl _)
      exact ((split ▸ List.sublist_append_right dropped kept).map _).trans sound.ordered
    refine ⟨by rw [disk, load_persist], ordered, ?_, receipts, ?_, ?_⟩
    · rw [minted]
      exact List.nodup_append.mpr ⟨sound.fresh, by simp, by
        intro first member second isNew same
        exact fresh (List.mem_singleton.mp isNew ▸ same ▸ member)⟩
    · intro batch holds
      rcases held batch holds with before | head
      · rw [minted]
        exact List.mem_append_left _ (sound.heldMinted batch before)
      · exact Sound.head_minted ordered head
    · intro batch holds member
      rcases held batch holds with before | head
      · rw [queue] at member ⊢
        exact sound.append_head options.maxQueueBytes before fresh member
      · exact head
  | dequeued batch continued settled queue disk minted held =>
    have ordered : (next.queue.map QueuedBatch.localId).Sublist next.minted := by
      rw [queue, minted]
      exact ((List.drop_sublist 1 state.queue).map _).trans sound.ordered
    exact ⟨by rw [disk, load_persist], ordered, minted ▸ sound.fresh, receipts,
      fun other holds => Sound.head_minted ordered (held other holds),
      fun other holds _ => held other holds⟩
  | restarted queue disk minted held =>
    have ordered : (next.queue.map QueuedBatch.localId).Sublist next.minted := by
      rw [queue, minted, sound.mirrored]
      exact sound.ordered
    exact ⟨by rw [queue, disk], ordered, minted ▸ sound.fresh, receipts,
      fun other holds => Sound.head_minted ordered (held other holds),
      fun other holds _ => held other holds⟩

/-- What every step owes the queued batches: a batch leaves only when its own post was
answered 2xx or when the cap evicts it, an ack takes exactly its batch from the head,
the file holds the queue, and the queue is in minting order. -/
structure Faithful (options : Options Envelope Nonce) (state : State Envelope)
    (event : Event Envelope Nonce) (next : State Envelope) : Prop where
  removed : ∀ batch ∈ state.queue, batch ∉ next.queue →
    (event = .resume ∧ state.drain = .settled batch true ∧ batch.localId ∈ state.answered) ∨
      ∃ new, sealed? options state event = some new ∧
        options.maxQueueBytes < (state.queue.map QueuedBatch.bytes).sum + new.bytes ∧
        next.queue = appendWithCap state.queue new options.maxQueueBytes
  exact : ∀ batch, event = .resume → state.drain = .settled batch true →
    state.queue = batch :: next.queue
  mirrored : loadQueue next.disk = next.queue
  ordered : (next.queue.map QueuedBatch.localId).Sublist next.minted

/-- The batch whose post was answered 2xx is still queued when its drain continues. -/
def StillQueued (state : State Envelope) (event : Event Envelope Nonce) : Prop :=
  ∀ batch, event = .resume → state.drain = .settled batch true → batch ∈ state.queue

/-- A batch sealed while another one is held fits the cap together with the queue. -/
def FitsInFlight (options : Options Envelope Nonce) (state : State Envelope)
    (event : Event Envelope Nonce) : Prop :=
  ∀ batch new, state.drain.held = some batch → sealed? options state event = some new →
    (state.queue.map QueuedBatch.bytes).sum + new.bytes ≤ options.maxQueueBytes

/-- After an ack the drain drops the head, whatever it is. -/
theorem resume_acked (options : Options Envelope Nonce) (state next : State Envelope)
    (batch : QueuedBatch) (settled : state.drain = .settled batch true)
    (taken : step options state .resume = some next) : next.queue = state.queue.drop 1 := by
  simp only [step, Event.minted?, Option.any_none, Bool.false_eq_true, ↓reduceIte, resume,
    settled] at taken
  rw [← Option.some.inj taken, drain_loop_queue]

/-- On a sound state, a step is faithful exactly when the acked batch is still queued. -/
theorem faithful_iff (options : Options Envelope Nonce) (state : State Envelope)
    (event : Event Envelope Nonce) (next : State Envelope) (sound : Sound state)
    (taken : step options state event = some next) :
    Faithful options state event next ↔ StillQueued state event := by
  constructor
  · intro faithful batch continued settled
    rw [faithful.exact batch continued settled]
    exact List.mem_cons_self
  · intro still
    have after := step_sound options state event next sound taken
    have exact (batch : QueuedBatch) (continued : event = .resume)
        (settled : state.drain = .settled batch true) : state.queue = batch :: next.queue := by
      subst continued
      have head := sound.heldHead batch (by rw [settled]; rfl) (still batch rfl settled)
      rw [resume_acked options state next batch settled taken]
      cases queue : state.queue with
      | nil => simp [queue] at head
      | cons first rest =>
        obtain rfl : first = batch := by simpa [queue] using head
        rfl
    refine ⟨?_, exact, after.mirrored, after.ordered⟩
    intro batch member absent
    obtain ⟨effect, _⟩ := step_effect options state event next sound.receipts taken
    cases effect with
    | kept queue _ _ _ => exact absurd (queue ▸ member) absent
    | appended new seals _ queue _ _ _ =>
      refine Or.inr ⟨new, seals, ?_, queue⟩
      by_contra within
      rw [queue, append_with_cap_fits (Rat.not_lt.mp within)] at absent
      exact absent (List.mem_append_left _ member)
    | dequeued acked continued settled _ _ _ _ =>
      rw [exact acked continued settled] at member
      obtain rfl | behind := List.mem_cons.mp member
      · exact Or.inl ⟨continued, settled, sound.receipts batch settled⟩
      · exact absurd behind absent
    | restarted queue _ _ _ =>
      rw [queue, sound.mirrored] at absent
      exact absurd member absent

/-- While batches sealed in flight fit the cap, the held batch stays queued. -/
theorem held_queued_step (options : Options Envelope Nonce) (state : State Envelope)
    (event : Event Envelope Nonce) (next : State Envelope) (sound : Sound state)
    (queued : ∀ batch, state.drain.held = some batch → state.queue.head? = some batch)
    (fits : FitsInFlight options state event) (taken : step options state event = some next)
    (batch : QueuedBatch) (held : next.drain.held = some batch) :
    next.queue.head? = some batch := by
  obtain ⟨effect, _⟩ := step_effect options state event next sound.receipts taken
  cases effect with
  | kept queue _ _ holds => rw [queue]; exact queued batch (holds batch held)
  | appended new seals _ queue _ _ holds =>
    rcases holds batch held with before | head
    · rw [queue, append_with_cap_fits (fits batch new before seals), List.head?_append,
        queued batch before]
      rfl
    · exact head
  | dequeued _ _ _ _ _ _ holds => exact holds batch held
  | restarted _ _ _ holds => exact holds batch held

/-- A run loses no batch exactly when no acked batch was evicted while it was in flight,
and so in every run that seals nothing over the cap while a batch is in flight. -/
theorem outbox_loses_nothing (options : Options Envelope Nonce)
    (events : List (Event Envelope Nonce)) :
    (Runs.Always (step options) (Faithful options) fresh events ↔
      Runs.Always (step options) (fun state event _ => StillQueued state event) fresh events) ∧
    (Runs.Always (step options) (fun state event _ => FitsInFlight options state event)
        fresh events →
      Runs.Always (step options) (Faithful options) fresh events) := by
  constructor
  · exact Runs.always_congr Sound _ _ (step_sound options) (faithful_iff options) events fresh_sound
  · refine Runs.always_under
      (fun state => Sound state ∧
        ∀ batch, state.drain.held = some batch → state.queue.head? = some batch)
      (FitsInFlight options) (Faithful options) ?_ ⟨fresh_sound, ?_⟩
    · intro state event next ⟨sound, queued⟩ fits taken
      refine ⟨⟨step_sound options state event next sound taken,
        held_queued_step options state event next sound queued fits taken⟩, ?_⟩
      refine (faithful_iff options state event next sound taken).mpr ?_
      intro batch _ settled
      exact List.mem_of_head? (queued batch (by rw [settled]; rfl))
    · simp [fresh, construct, drainLoop, loadQueue, Drain.held]

/-- An outbox whose cap no batch fits. -/
def tight : Options Unit Unit where
  sealBatch := fun _ _ => ⟨"c"⟩
  maxBatchSize := 1
  maxQueueBytes := 0

/-- One batch is posted, retried and acked, and the process restarts. -/
theorem retried_post_loses_nothing :
    Runs.Always (step tight) (Faithful tight) fresh
      [.enqueue [()] ⟨"only", ()⟩, .answer false, .wake, .answer true, .resume, .restart] := by
  have quiet (state : State Unit) (event : Event Unit Unit) (none : sealed? tight state event = none) :
      FitsInFlight tight state event := by
    intro batch new _ seals
    rw [none] at seals
    contradiction
  refine (outbox_loses_nothing tight _).2 fun _ _ => ⟨?_, fun _ _ => ⟨quiet _ _ rfl, fun _ _ =>
    ⟨quiet _ _ rfl, fun _ _ => ⟨quiet _ _ rfl, fun _ _ => ⟨quiet _ _ rfl, fun _ _ =>
      ⟨quiet _ _ rfl, trivial⟩⟩⟩⟩⟩⟩
  intro batch new held
  simp [fresh, construct, drainLoop, loadQueue, Drain.held] at held

/-- The local id of a batch whose post was acked, until the drain takes it from the queue. -/
def Drain.acked? : Drain → Option String
  | .settled batch true => some batch.localId
  | _ => none

/-- The second batch evicts the first while its post is in flight. -/
def overflow : List (Event Unit Unit) :=
  [.enqueue [()] ⟨"first", ()⟩, .enqueue [()] ⟨"second", ()⟩, .answer true]

/-- After the ack of the evicted batch, the drain drops the batch behind it unsent. -/
theorem overflow_loses_unsent :
    ¬ Runs.Always (step tight) (Faithful tight) fresh (overflow ++ [.resume]) := by
  intro always
  have trace : (Runs.run (step tight) fresh overflow).map (fun state =>
      (state.queue.map QueuedBatch.localId, state.drain.acked?)) = some (["second"], some "first") := by
    decide +kernel
  obtain ⟨state, ran, shape⟩ := Option.map_eq_some_iff.mp trace
  obtain ⟨queued, sent⟩ := Prod.mk.inj shape
  unfold Drain.acked? at sent
  split at sent
  · rename_i batch settled
    obtain ⟨next, taken⟩ : ∃ next, step tight state .resume = some next := by
      simp [step, Event.minted?, resume, settled]
    have dequeue := (Runs.always_step always ran taken).exact batch rfl settled
    rw [dequeue] at queued
    have same : batch.localId = "second" := (List.cons.inj queued).1
    rw [same] at sent
    exact absurd (Option.some.inj sent) (by decide)
  · contradiction

end Kvy.Cli.Outbox
