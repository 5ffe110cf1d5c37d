import Kvy.General.Runs
import Kvy.Web.Sync.HeaderFold
import Kvy.Web.Sync.Pages

/-!
# Deliveries, fetches and the cache

The server commits structural writes and stores messages; the socket delivers any of
them, any number of times and in any order; fetches of both kinds start, read the
server and land at any time. The engine may forget an update that it was told about:
a landing fetch that read the server earlier rolls the cache back, and a write on the
fast path clears the mark that an earlier gap left on a query nobody refetches.

Under exactly these two exceptions every delivered update is in the cache or still due.
-/

namespace Kvy.Web.Sync

open General Wire Server.App

/-- What the server will have committed and stored, whatever the moment. -/
structure World where
  history : History
  keyEpoch : Nat
  log : String → List MessageItem
  numbered : ∀ sessionId, Numbered (log sessionId)
  limit : Nat
  positive : 0 < limit

/-- How far the server is, the client, and what the socket has delivered. -/
structure State where
  committed : Nat
  stored : String → Nat
  engine : Engine
  delivered : List Nat
  deliveredMessages : String → List Nat

/-- One step of the server, of the socket or of a fetch. A message fetch may be for one
page more, and a refetch asks for `more` pages after the first. -/
inductive Event where
  | commit
  | store (sessionId : String)
  | deliver (seq : Nat) (ts : Int)
  | deliverMessage (sessionId : String) (seq : Nat) (ts : Int)
  | reconnect
  | useSync (active : Bool)
  | startSync
  | readSync
  | landSync
  | useMessages (sessionId : String) (active : Bool)
  | startMessages (sessionId : String) (nextPage : Bool)
  | readMessages (sessionId : String) (more : Nat)
  | landMessages (sessionId : String)

/-- The answer of `GET /v1/sync` after a number of structural writes. -/
def World.snapshot (world : World) (seq : Nat) : SyncSnapshot where
  headerSeq := seq
  accountKeyEpoch := world.keyEpoch
  sessions := (world.history.tables seq).sessions.map toSessionRow
  machines := (world.history.tables seq).machines.map
    (fun row => toMachineRow row (world.history.reauth seq row.id))
  unmanagedSessions := (world.history.tables seq).unmanagedSessions.map toUnmanagedSessionRow
  workspaces := (world.history.tables seq).workspaces.map toWorkspaceRow

/-- An empty server, and a client that has just mounted the snapshot query. -/
def start : State where
  committed := 0
  stored := fun _ => 0
  engine := .create { Query.unused with active := true, fetch := .requested none } (fun _ => .unused)
  delivered := []
  deliveredMessages := fun _ => []

/-- The client changes its `['sync']` query. -/
def State.setSync (state : State) (query : Query SyncSnapshot) : State :=
  { state with engine := state.engine.setSync query }

/-- The client changes a message query. -/
def State.setMessages (state : State) (sessionId : String) (query : Query MessagesQueryData) : State :=
  { state with engine := state.engine.setMessages sessionId query }

/-- The update that a structural write emits. -/
def World.update (world : World) (seq : Nat) (ts : Int) : Update :=
  ⟨some seq, ts, world.history.body seq⟩

/-- The update that a stored message emits. -/
def messageUpdate (sessionId : String) (item : MessageItem) (ts : Int) : Update :=
  ⟨none, ts, .messageNew sessionId item.seq item.localId item.content⟩

/-- One step. -/
def step (world : World) (state : State) : Event → Option State
  | .commit =>
    if state.committed < world.history.last then
      some { state with committed := state.committed + 1 }
    else none
  | .store sessionId =>
    if state.stored sessionId < (world.log sessionId).length then
      some { state with
        stored := Function.update state.stored sessionId (state.stored sessionId + 1) }
    else none
  | .deliver seq ts =>
    if 0 < seq ∧ seq ≤ state.committed then
      some { state with
        engine := state.engine.handleUpdate (world.update seq ts)
        delivered := seq :: state.delivered }
    else none
  | .deliverMessage sessionId seq ts =>
    match ((world.log sessionId).take (state.stored sessionId))[seq - 1]? with
    | some item =>
      if 0 < seq then
        some { state with
          engine := state.engine.handleUpdate (messageUpdate sessionId item ts)
          deliveredMessages := Function.update state.deliveredMessages sessionId
            (seq :: state.deliveredMessages sessionId) }
      else none
    | none => none
  | .reconnect => some { state with engine := state.engine.handleReconnect }
  | .useSync active => some (state.setSync { state.engine.sync with active })
  | .startSync => some (state.setSync (state.engine.sync.start none))
  | .readSync =>
    (state.engine.sync.receive (fun _ => world.snapshot state.committed)).map state.setSync
  | .landSync => state.engine.sync.land.map state.setSync
  | .useMessages sessionId active =>
    some (state.setMessages sessionId { state.engine.messages sessionId with active })
  | .startMessages sessionId nextPage =>
    let query := state.engine.messages sessionId
    some (state.setMessages sessionId (query.start (if nextPage then query.data else none)))
  | .readMessages sessionId more =>
    ((state.engine.messages sessionId).receive
      (readPages ((world.log sessionId).take (state.stored sessionId)) world.limit more)).map
        (state.setMessages sessionId)
  | .landMessages sessionId =>
    (state.engine.messages sessionId).land.map (state.setMessages sessionId)

/-- Every delivered structural update is covered by the cached snapshot or still due, and
every delivered message of an open session is on its cached pages, on a page older than
those, or still due. -/
structure Accounted (world : World) (state : State) : Prop where
  structural : ∀ seq ∈ state.delivered,
    (∃ snapshot, state.engine.sync.data = some snapshot ∧ seq ≤ snapshot.headerSeq) ∨
      state.engine.sync.outstanding = true
  messages : ∀ sessionId data, (state.engine.messages sessionId).data = some data →
    ∀ seq ∈ state.deliveredMessages sessionId, ∀ item,
      (world.log sessionId)[seq - 1]? = some item →
      Shown data item ∨ Older data seq ∨ (state.engine.messages sessionId).outstanding = true

/-- No landing fetch has read an older state than a delivered update, and an update takes
the fast path on a query without a fetch only if no newer one was delivered before. -/
def UpToDate (state : State) : Event → Prop
  | .landSync => ∀ snapshot, state.engine.sync.fetch = .received snapshot →
      ∀ seq ∈ state.delivered, seq ≤ snapshot.headerSeq
  | .deliver seq _ => state.engine.lastHeaderSeq = some (seq - 1) →
      state.engine.sync.isFetching = false → ∀ other ∈ state.delivered, other ≤ seq
  | .landMessages sessionId => ∀ data,
      (state.engine.messages sessionId).fetch = .received data →
      ∀ seq ∈ state.deliveredMessages sessionId, seq ≤ msgSeqBaseline data
  | .deliverMessage sessionId seq _ => state.engine.lastMsgSeq sessionId = some (seq - 1) →
      (state.engine.messages sessionId).isFetching = false →
      ∀ other ∈ state.deliveredMessages sessionId, other ≤ seq
  | _ => True

/-- The data that a query shows, extends or is about to show. -/
def Held (query : Query MessagesQueryData) (data : MessagesQueryData) : Prop :=
  query.data = some data ∨ query.fetch = .requested (some data) ∨ query.fetch = .received data

/-- The trackers stand at the cached data, nothing was delivered before it existed, and
all message pages are segments of the stored log. -/
structure Sound (world : World) (state : State) : Prop where
  committed : state.committed ≤ world.history.last
  stored : ∀ sessionId, state.stored sessionId ≤ (world.log sessionId).length
  tracker : state.engine.lastHeaderSeq = state.engine.sync.data.map SyncSnapshot.headerSeq
  trackers : ∀ sessionId, state.engine.lastMsgSeq sessionId =
    (state.engine.messages sessionId).data.map msgSeqBaseline
  announced : ∀ sessionId, ∀ seq ∈ state.deliveredMessages sessionId,
    0 < seq ∧ seq ≤ state.stored sessionId
  windows : ∀ sessionId data, Held (state.engine.messages sessionId) data →
    ∃ low high, high ≤ state.stored sessionId ∧ Window (world.log sessionId) data low high

/-- The property of a state in terms of what the queries remember. -/
structure Remembered (state : State) : Prop where
  structural : state.engine.sync.Remembers SyncSnapshot.headerSeq state.delivered
  messages : ∀ sessionId, (state.engine.messages sessionId).data.isSome = true →
    (state.engine.messages sessionId).Remembers msgSeqBaseline (state.deliveredMessages sessionId)

variable {world : World} {state next : State}

/-- On a sound state, a message is shown or older exactly if its page has reached it. -/
theorem accounted_iff (sound : Sound world state) : Accounted world state ↔ Remembered state := by
  have reached (sessionId : String) (data : MessagesQueryData) (seq : Nat) (item : MessageItem)
      (cached : (state.engine.messages sessionId).data = some data)
      (member : seq ∈ state.deliveredMessages sessionId)
      (row : (world.log sessionId)[seq - 1]? = some item) :
      Shown data item ∨ Older data seq ↔ seq ≤ msgSeqBaseline data := by
    obtain ⟨low, high, _, window⟩ := sound.windows sessionId data (Or.inl cached)
    exact window.reached_iff (world.numbered sessionId) (sound.announced sessionId seq member).1 row
  constructor
  · intro accounted
    refine ⟨accounted.structural, fun sessionId open_ seq member => ?_⟩
    obtain ⟨data, cached⟩ := Option.isSome_iff_exists.mp open_
    have bound := (sound.announced sessionId seq member)
    have known : seq - 1 < (world.log sessionId).length := by
      have stored := sound.stored sessionId
      omega
    have row := List.getElem?_eq_getElem known
    rcases accounted.messages sessionId data cached seq member _ row with shown | older | due
    · exact Or.inl ⟨data, cached, (reached sessionId data seq _ cached member row).mp (Or.inl shown)⟩
    · exact Or.inl ⟨data, cached, (reached sessionId data seq _ cached member row).mp (Or.inr older)⟩
    · exact Or.inr due
  · intro remembered
    refine ⟨remembered.structural, fun sessionId data cached seq member item row => ?_⟩
    have isOpen : (state.engine.messages sessionId).data.isSome = true := by simp [cached]
    rcases remembered.messages sessionId isOpen seq member with ⟨held, same, bound⟩ | due
    · obtain rfl := Option.some.inj (cached.symm.trans same)
      rcases (reached sessionId data seq item cached member row).mpr bound with shown | older
      · exact Or.inl shown
      · exact Or.inr (Or.inl older)
    · exact Or.inr (Or.inr due)

/-- Changing the snapshot query keeps the state sound if its data is not dropped. -/
theorem set_sync_sound (sound : Sound world state) (query : Query SyncSnapshot)
    (kept : query.data = none → state.engine.sync.data = none) :
    Sound world (state.setSync query) := by
  refine { sound with tracker := ?_ }
  have tracker := sound.tracker
  cases data : query.data with
  | none => simp [State.setSync, Engine.setSync, data, tracker, kept data]
  | some snapshot => simp [State.setSync, Engine.setSync, data]

/-- Changing a message query keeps the state sound if its data is not dropped and what
it holds are pages of the stored log. -/
theorem set_messages_sound (sound : Sound world state) (sessionId : String)
    (query : Query MessagesQueryData)
    (kept : query.data = none → (state.engine.messages sessionId).data = none)
    (windows : ∀ data, Held query data →
      ∃ low high, high ≤ state.stored sessionId ∧ Window (world.log sessionId) data low high) :
    Sound world (state.setMessages sessionId query) := by
  refine { sound with trackers := ?_, windows := ?_ }
  · intro other
    by_cases same : other = sessionId
    · subst same
      have tracker := sound.trackers other
      cases data : query.data with
      | none => simp [State.setMessages, Engine.setMessages, data, tracker, kept data]
      | some pages => simp [State.setMessages, Engine.setMessages, data]
    · have tracker := sound.trackers other
      simp [State.setMessages, Engine.setMessages, Function.update_of_ne same, tracker]
  · intro other data held
    by_cases same : other = sessionId
    · subst same
      simp only [State.setMessages, Engine.setMessages, Function.update_self] at held
      exact windows data held
    · simp only [State.setMessages, Engine.setMessages, Function.update_of_ne same] at held
      exact sound.windows other data held

/-- Changing the snapshot query concerns the structural updates alone. -/
theorem set_sync_remembered (remembered : Remembered state) (query : Query SyncSnapshot) :
    Remembered (state.setSync query) ↔ query.Remembers SyncSnapshot.headerSeq state.delivered :=
  ⟨fun after => after.structural, fun structural => ⟨structural, remembered.messages⟩⟩

/-- Changing a message query concerns the messages of its session alone. -/
theorem set_messages_remembered (remembered : Remembered state) (sessionId : String)
    (query : Query MessagesQueryData) :
    Remembered (state.setMessages sessionId query) ↔
      (query.data.isSome = true →
        query.Remembers msgSeqBaseline (state.deliveredMessages sessionId)) := by
  constructor
  · intro after
    have here := after.messages sessionId
    simpa [State.setMessages, Engine.setMessages] using here
  · intro messages
    refine ⟨remembered.structural, fun other isOpen => ?_⟩
    by_cases same : other = sessionId
    · subst same
      simp only [State.setMessages, Engine.setMessages, Function.update_self] at isOpen ⊢
      exact messages isOpen
    · simp only [State.setMessages, Engine.setMessages, Function.update_of_ne same] at isOpen ⊢
      exact remembered.messages other isOpen

/-- An empty server has delivered nothing. -/
theorem start_sound (world : World) : Sound world start where
  committed := Nat.zero_le _
  stored := fun _ => Nat.zero_le _
  tracker := rfl
  trackers := fun _ => rfl
  announced := by simp [start]
  windows := by simp [start, Engine.create, Held, Query.unused]

theorem start_accounted (world : World) : Accounted world start where
  structural := by simp [start]
  messages := by simp [start]

variable {query : Query MessagesQueryData}

/-- A started fetch holds what it was started from. -/
theorem held_start {base : Option MessagesQueryData}
    {data : MessagesQueryData} (held : Held (query.start base) data) :
    Held query data ∨ base = some data := by
  unfold Query.start at held
  split at held
  · rcases held with cached | requested | received
    · exact Or.inl (Or.inl cached)
    · exact Or.inr (Fetch.requested.inj requested)
    · contradiction
  · rcases held with cached | requested | received
    · exact Or.inl (Or.inl cached)
    · exact Or.inr (Fetch.requested.inj requested)
    · contradiction
  · exact Or.inl held

/-- An invalidated query holds nothing new. -/
theorem held_invalidate {data : MessagesQueryData}
    (held : Held query.invalidate data) : Held query data := by
  unfold Query.invalidate at held
  dsimp only at held
  split at held
  · rcases held_start held with before | none
    · exact before
    · contradiction
  · exact held

/-- A started fetch is due. -/
theorem start_outstanding {α : Type} (query : Query α) (base : Option α) :
    (query.start base).outstanding = true := by
  rw [Query.outstanding, Query.start_fetching, Bool.or_true]

/-- What a step owes: the next state is sound, and remembers exactly under the condition. -/
def Owes (world : World) (state : State) (event : Event) (next : State) : Prop :=
  Sound world next ∧ (Remembered state → (Remembered next ↔ UpToDate state event))

/-- Starting the snapshot fetch makes everything due. -/
theorem start_sync_agrees (sound : Sound world state) :
    Owes world state .startSync (state.setSync (state.engine.sync.start none)) := by
  refine ⟨set_sync_sound sound _ (by simp), fun remembered => ?_⟩
  rw [set_sync_remembered remembered]
  exact iff_of_true (Query.remembers_outstanding (start_outstanding _ _)) trivial

/-- A message fetch that starts makes everything due. -/
theorem start_messages_agrees (sound : Sound world state) (sessionId : String) (nextPage : Bool) :
    Owes world state (.startMessages sessionId nextPage)
      (state.setMessages sessionId ((state.engine.messages sessionId).start
        (if nextPage then (state.engine.messages sessionId).data else none))) := by
  refine ⟨set_messages_sound sound sessionId _ (by simp) ?_, fun remembered => ?_⟩
  · intro data held
    rcases held_start held with before | base
    · exact sound.windows sessionId data before
    · cases nextPage with
      | true => exact sound.windows sessionId data (Or.inl base)
      | false => contradiction
  · rw [set_messages_remembered remembered]
    exact iff_of_true (fun _ => Query.remembers_outstanding (start_outstanding _ _)) trivial

/-- Reading the server shows nothing yet. -/
theorem read_sync_agrees (sound : Sound world state) {query : Query SyncSnapshot}
    (received : state.engine.sync.receive (fun _ => world.snapshot state.committed) = some query) :
    Owes world state .readSync (state.setSync query) := by
  unfold Query.receive at received
  split at received
  · rename_i base requested
    cases received
    refine ⟨set_sync_sound sound _ id, fun remembered => ?_⟩
    rw [set_sync_remembered remembered]
    refine iff_of_true (Query.remembers_same state.engine.sync rfl ?_ remembered.structural) trivial
    intro _
    simp [Query.outstanding, Query.isFetching]
  · contradiction

/-- The pages that a fetch reads are a segment of the stored log. -/
theorem read_messages_agrees (sound : Sound world state) (sessionId : String) (more : Nat)
    (received : (state.engine.messages sessionId).receive
      (readPages ((world.log sessionId).take (state.stored sessionId)) world.limit more) =
        some query) :
    Owes world state (.readMessages sessionId more) (state.setMessages sessionId query) := by
  unfold Query.receive at received
  split at received
  · rename_i base requested
    cases received
    refine ⟨set_messages_sound sound sessionId _ id ?_, fun remembered => ?_⟩
    · rintro data (cached | pending | read)
      · exact sound.windows sessionId data (Or.inl cached)
      · contradiction
      · obtain rfl := Fetch.received.inj read
        cases base with
        | none =>
          obtain ⟨low, window⟩ := refetch_window (world.numbered sessionId) world.positive
            (sound.stored sessionId) more
          exact ⟨low, state.stored sessionId, Nat.le_refl _, window⟩
        | some base =>
          obtain ⟨low, high, stored, window⟩ :=
            sound.windows sessionId base (Or.inr (Or.inl requested))
          have next : ∃ lower, Window (world.log sessionId)
              (readPages ((world.log sessionId).take (state.stored sessionId)) world.limit more
                (some base)) lower high :=
            next_page_window (world.numbered sessionId) world.positive (sound.stored sessionId)
              window stored
          obtain ⟨lower, extended⟩ := next
          exact ⟨lower, high, stored, extended⟩
    · rw [set_messages_remembered remembered]
      refine iff_of_true (fun isOpen => ?_) trivial
      refine Query.remembers_same (state.engine.messages sessionId) rfl ?_
        (remembered.messages sessionId isOpen)
      intro _
      simp [Query.outstanding, Query.isFetching]
  · contradiction

/-- A landing snapshot remembers what it has reached. -/
theorem land_sync_agrees (sound : Sound world state) {query : Query SyncSnapshot}
    (landed : state.engine.sync.land = some query) :
    Owes world state .landSync (state.setSync query) := by
  cases fetch : state.engine.sync.fetch with
  | received snapshot =>
    refine ⟨set_sync_sound sound _ ?_, fun remembered => ?_⟩
    · intro none
      simp only [Query.land, fetch] at landed
      cases landed
      contradiction
    · rw [set_sync_remembered remembered, Query.remembers_land fetch landed]
      simp [UpToDate, fetch]
  | idle => simp [Query.land, fetch] at landed
  | requested base => simp [Query.land, fetch] at landed

/-- Landing pages remember what they have reached. -/
theorem land_messages_agrees (sound : Sound world state) (sessionId : String)
    (landed : (state.engine.messages sessionId).land = some query) :
    Owes world state (.landMessages sessionId) (state.setMessages sessionId query) := by
  cases fetch : (state.engine.messages sessionId).fetch with
  | received data =>
    have shape := landed
    simp only [Query.land, fetch] at shape
    cases shape
    refine ⟨set_messages_sound sound sessionId _ (by simp) ?_, fun remembered => ?_⟩
    · rintro pages (cached | pending | read)
      · cases cached
        exact sound.windows sessionId data (Or.inr (Or.inr fetch))
      · contradiction
      · contradiction
    · rw [set_messages_remembered remembered, Query.remembers_land fetch landed]
      simp [UpToDate, fetch]
  | idle => simp [Query.land, fetch] at landed
  | requested base => simp [Query.land, fetch] at landed

variable {seq : Nat}

/-- A delivered structural update is remembered unless it is written over a mark. -/
theorem deliver_agrees (sound : Sound world state) (ts : Int) (positive : 0 < seq)
    (committed : seq ≤ state.committed) :
    Owes world state (.deliver seq ts)
      { state with
        engine := state.engine.handleUpdate (world.update seq ts)
        delivered := seq :: state.delivered } := by
  have structural : (world.update seq ts).body.isMessage = false := by
    have known := Nat.le_trans committed sound.committed
    obtain ⟨write, commits, _⟩ := world.history.commits (seq - 1) (by omega)
    have emitted := Write.commit_structural commits
    rwa [Nat.sub_add_cancel positive] at emitted
  have successor : state.engine.continues (world.update seq ts) = true ↔
      state.engine.lastHeaderSeq = some (seq - 1) := by
    unfold Engine.continues World.update
    cases state.engine.lastHeaderSeq with
    | none => simp
    | some last =>
      simp only [decide_eq_true_eq, Option.some.injEq]
      omega
  cases next : state.engine.continues (world.update seq ts) with
  | false =>
    have gap : state.engine.lastHeaderSeq ≠ some (seq - 1) := fun same => by
      rw [successor.mpr same] at next
      contradiction
    rw [handle_gap state.engine _ structural next]
    refine ⟨{ set_sync_sound sound state.engine.sync.invalidate (by simp) with }, ?_⟩
    intro remembered
    refine iff_of_true ⟨?_, remembered.messages⟩ (fun same => absurd same gap)
    exact Query.remembers_outstanding (Query.invalidate_outstanding _)
  | true =>
    have tracker := sound.tracker
    rw [successor.mp next] at tracker
    obtain ⟨old, cached, _⟩ := Option.map_eq_some_iff.mp tracker.symm
    have applied : state.engine.handleUpdate (world.update seq ts) =
        state.engine.setSync (state.engine.sync.write
          (patchSnapshot (world.history.body seq) seq old)) := by
      rw [handle_next state.engine _ structural rfl next]
      simp [Engine.applyStructural, cached, Engine.setSync, Query.write, patch_header_seq,
        World.update]
    rw [applied]
    refine ⟨{ set_sync_sound sound _ (by simp [Query.write]) with }, fun remembered => ?_⟩
    have written : (Query.write state.engine.sync
        (patchSnapshot (world.history.body seq) seq old)).Remembers SyncSnapshot.headerSeq
          (seq :: state.delivered) ↔
        (state.engine.sync.isFetching = true ∨ ∀ other ∈ state.delivered, other ≤ seq) := by
      rw [Query.remembers_write, patch_header_seq]
      simp
    constructor
    · intro after _ idle
      rcases written.mp after.structural with fetching | bound
      · rw [idle] at fetching
        contradiction
      · exact bound
    · intro upToDate
      refine ⟨written.mpr ?_, remembered.messages⟩
      cases idle : state.engine.sync.isFetching with
      | true => exact Or.inl rfl
      | false => exact Or.inr (upToDate (successor.mp next) idle)

/-- Changing one session's query and its deliveries concerns that session alone. -/
theorem replace_remembered (remembered : Remembered state) (sessionId : String) (engine : Engine)
    (seqs : List Nat) (sync : engine.sync = state.engine.sync)
    (others : ∀ other, other ≠ sessionId →
      engine.messages other = state.engine.messages other) :
    Remembered { state with
        engine, deliveredMessages := Function.update state.deliveredMessages sessionId seqs } ↔
      ((engine.messages sessionId).data.isSome = true →
        (engine.messages sessionId).Remembers msgSeqBaseline seqs) := by
  constructor
  · intro after isOpen
    simpa using after.messages sessionId isOpen
  · intro messages
    refine ⟨sync ▸ remembered.structural, fun other isOpen => ?_⟩
    by_cases same : other = sessionId
    · subst same
      simpa using messages isOpen
    · simp only [others other same, Function.update_of_ne same] at isOpen ⊢
      exact remembered.messages other isOpen

/-- Recording a delivery of a stored message keeps the state sound. -/
theorem record_sound (sound : Sound world state) (sessionId : String)
    (positive : 0 < seq) (stored : seq ≤ state.stored sessionId) :
    Sound world { state with
      deliveredMessages := Function.update state.deliveredMessages sessionId
        (seq :: state.deliveredMessages sessionId) } := by
  refine { sound with announced := ?_ }
  intro other number member
  by_cases same : other = sessionId
  · subst same
    simp only [Function.update_self, List.mem_cons] at member
    rcases member with rfl | before
    · exact ⟨positive, stored⟩
    · exact sound.announced other number before
  · simp only [Function.update_of_ne same] at member
    exact sound.announced other number member

/-- What a replaced query of a session leaves of the others, and what it is. -/
theorem set_messages_apart
    (engine : Engine) (sessionId : String) (query : Query MessagesQueryData) :
    (∀ other, other ≠ sessionId →
        (engine.setMessages sessionId query).messages other = engine.messages other) ∧
      (engine.setMessages sessionId query).messages sessionId = query := by
  constructor
  · intro other different
    simp [Engine.setMessages, Function.update_of_ne different]
  · simp [Engine.setMessages]

/-- The state after a message is delivered. -/
def delivered (state : State) (sessionId : String) (seq : Nat) (item : MessageItem) (ts : Int) : State :=
  { state with
    engine := state.engine.handleUpdate (messageUpdate sessionId item ts)
    deliveredMessages := Function.update state.deliveredMessages sessionId
      (seq :: state.deliveredMessages sessionId) }

variable {item : MessageItem}

/-- A message that changes nothing is one that the session has reached already. -/
theorem deliver_known_agrees (sound : Sound world state) (sessionId : String) (ts : Int)
    (positive : 0 < seq) (stored : seq ≤ state.stored sessionId)
    (same : state.engine.handleUpdate (messageUpdate sessionId item ts) = state.engine)
    (reached : (state.engine.messages sessionId).data.isSome = true →
      (state.engine.messages sessionId).Reached msgSeqBaseline seq)
    (stale : state.engine.lastMsgSeq sessionId ≠ some (seq - 1)) :
    Owes world state (.deliverMessage sessionId seq ts) (delivered state sessionId seq item ts) := by
  rw [delivered, same]
  refine ⟨record_sound sound sessionId positive stored,
    fun remembered => iff_of_true ?_ (fun next => absurd next stale)⟩
  refine (replace_remembered remembered sessionId state.engine _ rfl (fun _ _ => rfl)).mpr ?_
  intro isOpen
  exact (Query.remembers_announce (reached isOpen)).mpr (remembered.messages sessionId isOpen)

/-- The message after the last one is put in front of the pages. -/
theorem deliver_next_agrees (sound : Sound world state) (sessionId : String) {last : Nat} (ts : Int)
    (positive : 0 < seq) (stored : seq ≤ state.stored sessionId)
    (logged : (world.log sessionId)[seq - 1]? = some item) (numbered : item.seq = seq)
    (known : state.engine.lastMsgSeq sessionId = some last) {data : MessagesQueryData}
    (cached : (state.engine.messages sessionId).data = some data)
    (baseline : msgSeqBaseline data = last) (follows : seq = last + 1) :
    Owes world state (.deliverMessage sessionId seq ts) (delivered state sessionId seq item ts) := by
  have recorded := record_sound sound sessionId positive stored
  obtain ⟨low, high, bound, window⟩ := sound.windows sessionId data (Or.inl cached)
  obtain rfl : high = last := window.newest.symm.trans baseline
  have inside : high < (world.log sessionId).length :=
    Nat.lt_of_lt_of_le (by omega) (sound.stored sessionId)
  have shown : (world.log sessionId)[high] = item := by
    have index : seq - 1 = high := by omega
    rw [index, List.getElem?_eq_getElem inside] at logged
    exact Option.some.inj logged
  let arrived : MessageItem := ⟨seq, item.localId, item.content, ts⟩
  have prepended := prepend_window window inside arrived follows
    (by simp [itemKey, arrived, shown, numbered])
  have newest : msgSeqBaseline (prependMessage arrived data) = seq :=
    prepended.newest.trans follows.symm
  have handled : state.engine.handleUpdate (messageUpdate sessionId item ts) =
      state.engine.setMessages sessionId
        ((state.engine.messages sessionId).write (prependMessage arrived data)) := by
    simp only [Engine.handleUpdate, messageUpdate, Engine.applyMessageFastPath, known, numbered]
    rw [if_neg (by omega), if_neg (not_not.mpr follows)]
    simp only [cached, Engine.setMessages, Query.write, Option.map_some, Option.some_or, arrived,
      Function.update_idem, newest]
  obtain ⟨others, here⟩ := set_messages_apart state.engine sessionId
    ((state.engine.messages sessionId).write (prependMessage arrived data))
  rw [delivered, handled]
  refine ⟨set_messages_sound recorded sessionId _ (by simp [Query.write]) ?_, ?_⟩
  · rintro pages (now | pending | read)
    · cases now
      exact ⟨low, high + 1, by simpa using (by omega : high + 1 ≤ state.stored sessionId),
        prepended⟩
    · exact sound.windows sessionId pages (Or.inr (Or.inl pending))
    · exact sound.windows sessionId pages (Or.inr (Or.inr read))
  · intro remembered
    rw [replace_remembered remembered sessionId (state.engine.setMessages sessionId
      ((state.engine.messages sessionId).write (prependMessage arrived data))) _ rfl others,
      here, Query.remembers_write, newest]
    have successor : state.engine.lastMsgSeq sessionId = some (seq - 1) := by
      rw [known]
      congr 1
      omega
    constructor
    · intro after _ idle
      rcases after rfl with fetching | reached
      · rw [idle] at fetching
        contradiction
      · exact fun other member => reached other (List.mem_cons_of_mem seq member)
    · intro upToDate _
      cases idle : (state.engine.messages sessionId).isFetching with
      | true => exact Or.inl rfl
      | false =>
        refine Or.inr fun other member => ?_
        rcases List.mem_cons.mp member with rfl | before
        · exact Nat.le_refl _
        · exact upToDate successor idle other before

/-- A message after a gap makes the session fetch again. -/
theorem deliver_gap_agrees (sound : Sound world state) (sessionId : String) {last : Nat} (ts : Int)
    (positive : 0 < seq) (stored : seq ≤ state.stored sessionId)
    (numbered : item.seq = seq) (known : state.engine.lastMsgSeq sessionId = some last)
    (stale : ¬ seq ≤ last) (gap : seq ≠ last + 1) :
    Owes world state (.deliverMessage sessionId seq ts) (delivered state sessionId seq item ts) := by
  have recorded := record_sound sound sessionId positive stored
  have handled : state.engine.handleUpdate (messageUpdate sessionId item ts) =
      state.engine.setMessages sessionId (state.engine.messages sessionId).invalidate := by
    simp only [Engine.handleUpdate, messageUpdate, Engine.applyMessageFastPath, known,
      numbered, stale, gap, ne_eq, not_false_eq_true, ↓reduceIte]
  obtain ⟨others, here⟩ := set_messages_apart state.engine sessionId
    (state.engine.messages sessionId).invalidate
  rw [delivered, handled]
  refine ⟨set_messages_sound recorded sessionId _ (by simp)
    (fun pages held => sound.windows sessionId pages (held_invalidate held)), ?_⟩
  intro remembered
  refine iff_of_true ?_ ?_
  · rw [replace_remembered remembered sessionId (state.engine.setMessages sessionId
      (state.engine.messages sessionId).invalidate) _ rfl others, here]
    exact fun _ => Query.remembers_outstanding (Query.invalidate_outstanding _)
  · intro same
    have equal := Option.some.inj (known.symm.trans same)
    omega

/-- A delivered message is remembered unless it is written over a mark. -/
theorem deliver_message_agrees (sound : Sound world state) (sessionId : String)
    (ts : Int) (positive : 0 < seq)
    (row : ((world.log sessionId).take (state.stored sessionId))[seq - 1]? = some item) :
    Owes world state (.deliverMessage sessionId seq ts) (delivered state sessionId seq item ts) := by
  have place : seq - 1 < state.stored sessionId ∧
      (world.log sessionId)[seq - 1]? = some item := by
    rw [List.getElem?_take] at row
    split at row
    · exact ⟨‹_›, row⟩
    · contradiction
  obtain ⟨inStore, logged⟩ := place
  have stored : seq ≤ state.stored sessionId := by omega
  have numbered : item.seq = seq := by
    rw [world.numbered sessionId _ item logged]
    omega
  have tracker := sound.trackers sessionId
  cases known : state.engine.lastMsgSeq sessionId with
  | none =>
    apply deliver_known_agrees sound sessionId ts positive stored
    · simp only [Engine.handleUpdate, messageUpdate, Engine.applyMessageFastPath, known]
    · intro isOpen
      rw [known] at tracker
      rw [Option.map_eq_none_iff.mp tracker.symm] at isOpen
      contradiction
    · simp [known]
  | some last =>
    rw [known] at tracker
    obtain ⟨data, cached, baseline⟩ := Option.map_eq_some_iff.mp tracker.symm
    by_cases stale : seq ≤ last
    · apply deliver_known_agrees sound sessionId ts positive stored
      · simp only [Engine.handleUpdate, messageUpdate, Engine.applyMessageFastPath, known, numbered,
          stale, ↓reduceIte]
      · exact fun _ => ⟨data, cached, by omega⟩
      · intro same
        have equal := Option.some.inj (known.symm.trans same)
        omega
    · by_cases follows : seq = last + 1
      · exact deliver_next_agrees sound sessionId ts positive stored logged numbered known cached
          baseline follows
      · exact deliver_gap_agrees sound sessionId ts positive stored numbered known stale follows

/-- After a reconnect everything is due. -/
theorem reconnect_agrees (sound : Sound world state) :
    Owes world state .reconnect { state with engine := state.engine.handleReconnect } := by
  have tracker := sound.tracker
  refine ⟨{ sound with tracker := ?_, trackers := ?_, windows := ?_ }, fun _ => ?_⟩
  · simp only [Engine.handleReconnect, Engine.setSync, Query.invalidate_data, tracker, Option.or_self]
  · intro sessionId
    simp only [Engine.handleReconnect, Query.invalidate_data, sound.trackers sessionId,
      Option.or_self]
  · exact fun sessionId data held => sound.windows sessionId data (held_invalidate held)
  · refine iff_of_true ⟨?_, fun sessionId _ => ?_⟩ trivial
    · exact Query.remembers_outstanding (Query.invalidate_outstanding _)
    · exact Query.remembers_outstanding (Query.invalidate_outstanding _)

/-- Every step keeps the state sound, and remembered exactly under the condition. -/
theorem step_agrees (world : World) (state : State) (event : Event) (next : State)
    (sound : Sound world state) (taken : step world state event = some next) :
    Owes world state event next := by
  cases event with
  | commit =>
    simp only [step] at taken
    split at taken
    · cases taken
      refine ⟨{ sound with committed := ?_ }, fun remembered => iff_of_true ?_ trivial⟩
      · assumption
      · exact ⟨remembered.structural, remembered.messages⟩
    · contradiction
  | store sessionId =>
    simp only [step] at taken
    split at taken
    · rename_i more
      cases taken
      have grows (other : String) : state.stored other ≤
          Function.update state.stored sessionId (state.stored sessionId + 1) other := by
        by_cases same : other = sessionId
        · subst same
          simp
        · simp [Function.update_of_ne same]
      refine ⟨{ sound with stored := ?_, announced := ?_, windows := ?_ },
        fun remembered => iff_of_true ?_ trivial⟩
      · intro other
        by_cases same : other = sessionId
        · subst same
          simp only [Function.update_self]
          exact more
        · simpa [Function.update_of_ne same] using sound.stored other
      · intro other seq member
        have before := sound.announced other seq member
        exact ⟨before.1, Nat.le_trans before.2 (grows other)⟩
      · intro other data held
        obtain ⟨low, high, bound, window⟩ := sound.windows other data held
        exact ⟨low, high, Nat.le_trans bound (grows other), window⟩
      · exact ⟨remembered.structural, remembered.messages⟩
    · contradiction
  | deliver seq ts =>
    simp only [step] at taken
    split at taken
    · rename_i range
      cases taken
      exact deliver_agrees sound ts range.1 range.2
    · contradiction
  | deliverMessage sessionId seq ts =>
    simp only [step] at taken
    split at taken
    · rename_i item row
      split at taken
      · rename_i positive
        cases taken
        exact deliver_message_agrees sound sessionId ts positive row
      · contradiction
    · contradiction
  | reconnect =>
    cases taken
    exact reconnect_agrees sound
  | useSync active =>
    cases taken
    refine ⟨set_sync_sound sound _ id, fun remembered => ?_⟩
    rw [set_sync_remembered remembered]
    exact iff_of_true (Query.remembers_same state.engine.sync rfl id remembered.structural) trivial
  | startSync =>
    cases taken
    exact start_sync_agrees sound
  | readSync =>
    obtain ⟨query, received, rfl⟩ := Option.map_eq_some_iff.mp taken
    exact read_sync_agrees sound received
  | landSync =>
    obtain ⟨query, landed, rfl⟩ := Option.map_eq_some_iff.mp taken
    exact land_sync_agrees sound landed
  | useMessages sessionId active =>
    cases taken
    refine ⟨set_messages_sound sound sessionId _ id (sound.windows sessionId), fun remembered => ?_⟩
    rw [set_messages_remembered remembered]
    refine iff_of_true (fun isOpen => ?_) trivial
    exact Query.remembers_same (state.engine.messages sessionId) rfl id
      (remembered.messages sessionId isOpen)
  | startMessages sessionId nextPage =>
    cases taken
    exact start_messages_agrees sound sessionId nextPage
  | readMessages sessionId more =>
    obtain ⟨query, received, rfl⟩ := Option.map_eq_some_iff.mp taken
    exact read_messages_agrees sound sessionId more received
  | landMessages sessionId =>
    obtain ⟨query, landed, rfl⟩ := Option.map_eq_some_iff.mp taken
    exact land_messages_agrees sound sessionId landed

/-- Along every run, the engine accounts for all that was delivered exactly if no fetch
lands that is older than a delivery, and no delivery is written over the mark of a newer
one. -/
theorem deliveries_accounted (world : World) (events : List Event) :
    Runs.Always (step world) (fun _ _ next => Accounted world next) start events ↔
      Runs.Always (step world) (fun state event _ => UpToDate state event) start events := by
  apply Runs.always_state_iff (Sound world) (Accounted world) UpToDate
  · exact fun state event next sound taken => (step_agrees world state event next sound taken).1
  · intro state event next sound accounted taken
    obtain ⟨after, agrees⟩ := step_agrees world state event next sound taken
    rw [accounted_iff after]
    exact agrees ((accounted_iff sound).mp accounted)
  · exact start_sound world
  · exact start_accounted world

/-- A server that creates one session, archives it, and stores no message. -/
def quietWorld : World where
  history := archivedOnce
  keyEpoch := 1
  log := fun _ => []
  numbered := by simp [Numbered]
  limit := 50
  positive := by decide

/-- The first snapshot lands; a second fetch reads the server before the next write. -/
def slowFetch : List Event :=
  [.readSync, .landSync, .startSync, .readSync, .commit, .deliver 1 0]

/-- The slow fetch rolls the cache back to before a delivered update. -/
theorem slow_fetch_forgets :
    ¬ Runs.Always (step quietWorld) (fun _ _ next => Accounted quietWorld next) start
      (slowFetch ++ [.landSync]) := by
  intro always
  have trace : ((Runs.run (step quietWorld) start slowFetch).bind (fun state =>
      (step quietWorld state .landSync).map (fun next =>
        (next.delivered, next.engine.sync.data.map SyncSnapshot.headerSeq,
          next.engine.sync.outstanding)))) = some ([1], some 0, false) := by
    decide +kernel
  obtain ⟨state, ran, landed⟩ := Option.bind_eq_some_iff.mp trace
  obtain ⟨next, taken, shape⟩ := Option.map_eq_some_iff.mp landed
  obtain ⟨delivered, rest⟩ := Prod.mk.inj shape
  obtain ⟨cached, settled⟩ := Prod.mk.inj rest
  have accounted : Accounted quietWorld next := Runs.always_step always ran taken
  rcases accounted.structural 1 (by simp [delivered]) with ⟨snapshot, data, covered⟩ | due
  · rw [data] at cached
    have zero : snapshot.headerSeq = 0 := Option.some.inj cached
    omega
  · rw [settled] at due
    contradiction

end Kvy.Web.Sync
