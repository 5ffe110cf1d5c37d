import Kvy.General.Runs
import Kvy.Server.App.Routes.MessageList
import Kvy.Wire.Updates

/-!
# Message ingestion

`POST /v1/sessions/:id/messages` on one session, any number of requests at a time. Each
runs its statements one by one under `READ COMMITTED`: a read sees what is committed, the
update of the session's counter takes the lock of its row until the transaction ends, and
an insert that meets a committed row under a unique index fails, while one that meets an
uncommitted row waits. A transaction may fail between any two statements, and a commit may
take effect without its answer; a reply may be lost with its connection.
-/

namespace Kvy.Server.App.Messages

open General Wire

/-- A request's account, and its body `PostMessageBodySchema`. -/
structure PostMessage where
  accountId : String
  localId : String
  content : EncryptedBox
deriving DecidableEq

/-- `InsertOutcome` of a session that is found. -/
structure InsertOutcome where
  seq : Nat
  fanOut : Bool
deriving DecidableEq

/-- Where a request is in `insertMessage` and its handler. -/
inductive Phase where
  | idle
  | received (post : PostMessage)
  | selected (post : PostMessage)
  | missed (post : PostMessage)
  | allocated (post : PostMessage) (seq : Nat)
  | inserted (post : PostMessage) (row : MessageItem)
  | rejected (post : PostMessage)
  | answering (post : PostMessage) (outcome : Option InsertOutcome)
  | finished
deriving DecidableEq

/-- The session's rows, the uncommitted ones, the requests, and what clients have seen. -/
structure State where
  sessionId : String
  accountId : String
  msgSeq : Nat
  rows : List MessageItem
  lock : Option Nat
  pending : List (Nat × MessageItem)
  requests : Nat → Phase
  replies : List (String × Nat)
  updates : List UpdateBody

/-- A session before its first message. -/
def start (sessionId accountId : String) : State :=
  ⟨sessionId, accountId, 0, [], none, [], fun _ => .idle, [], []⟩

/-- The next thing that happens to a request. -/
inductive Event where
  | post (request : Nat) (post : PostMessage)
  | selectSession (request : Nat)
  | selectExisting (request : Nat)
  | allocMsgSeq (request : Nat)
  | insert (request : Nat) (createdAt : Int)
  | commit (request : Nat)
  | commitUnseen (request : Nat)
  | abort (request : Nat)
  | selectAfterViolation (request : Nat)
  | finish (request : Nat)
  | hangUp (request : Nat)

namespace State

/-- A request moves on. -/
def move (state : State) (request : Nat) (phase : Phase) : State :=
  { state with requests := Function.update state.requests request phase }

/-- The committed row of a `localId`. -/
def find (state : State) (localId : String) : Option MessageItem :=
  state.rows.find? (fun row => row.localId = some localId)

/-- Two rows share a key of a unique index. -/
def clash (first second : MessageItem) : Bool :=
  first.seq = second.seq || first.localId = second.localId

/-- The transaction's row and counter are committed, and its lock is released. -/
def commitRow (state : State) (request : Nat) (row : MessageItem) : State :=
  { state with
    msgSeq := row.seq
    rows := state.rows ++ [row]
    lock := none
    pending := state.pending.filter (fun entry => entry.1 ≠ request) }

/-- The transaction's writes are undone, and its lock is released. -/
def rollBack (state : State) (request : Nat) : State :=
  { state with
    lock := if state.lock = some request then none else state.lock
    pending := state.pending.filter (fun entry => entry.1 ≠ request) }

/-- The answer found for a `localId` that is stored already. -/
def replay (state : State) (post : PostMessage) (row : MessageItem) (request : Nat) : State :=
  state.move request (.answering post (some ⟨row.seq, false⟩))

/-- The reply is sent; the request that inserted the row emits its update. -/
def answer (state : State) (post : PostMessage) : Option InsertOutcome → State
  | none => state
  | some outcome =>
    { state with
      replies := state.replies ++ [(post.localId, outcome.seq)]
      updates := if outcome.fanOut then
        state.updates ++ [.messageNew state.sessionId outcome.seq (some post.localId) post.content]
      else state.updates }

end State

/-- One statement of one request, if it can run now. -/
def step (state : State) : Event → Option State
  | .post request post =>
    match state.requests request with
    | .idle => some (state.move request (.received post))
    | _ => none
  | .selectSession request =>
    match state.requests request with
    | .received post =>
      some (state.move request
        (if post.accountId = state.accountId then .selected post else .answering post none))
    | _ => none
  | .selectExisting request =>
    match state.requests request with
    | .selected post =>
      match state.find post.localId with
      | some row => some (state.replay post row request)
      | none => some (state.move request (.missed post))
    | _ => none
  | .allocMsgSeq request =>
    match state.requests request, state.lock with
    | .missed post, none =>
      some { state.move request (.allocated post (state.msgSeq + 1)) with lock := some request }
    | _, _ => none
  | .insert request createdAt =>
    match state.requests request with
    | .allocated post seq =>
      let row : MessageItem := ⟨seq, some post.localId, post.content, createdAt⟩
      if state.rows.any (State.clash row) then
        some ((state.rollBack request).move request (.rejected post))
      else if state.pending.any (fun entry => State.clash row entry.2) then none
      else some { state.move request (.inserted post row) with
        pending := state.pending ++ [(request, row)] }
    | _ => none
  | .commit request =>
    match state.requests request with
    | .inserted post row =>
      some ((state.commitRow request row).move request (.answering post (some ⟨row.seq, true⟩)))
    | _ => none
  | .commitUnseen request =>
    match state.requests request with
    | .inserted _ row => some ((state.commitRow request row).move request .finished)
    | _ => none
  | .abort request =>
    match state.requests request with
    | .idle | .finished | .answering _ _ => none
    | _ => some ((state.rollBack request).move request .finished)
  | .selectAfterViolation request =>
    match state.requests request with
    | .rejected post =>
      match state.find post.localId with
      | some row => some (state.replay post row request)
      | none => some (state.move request .finished)
    | _ => none
  | .finish request =>
    match state.requests request with
    | .answering post outcome => some ((state.answer post outcome).move request .finished)
    | _ => none
  | .hangUp request =>
    match state.requests request with
    | .answering _ _ => some (state.move request .finished)
    | _ => none

/-! ## What is kept -/

/-- A row is stored under the `localId` and the number. -/
def Stored (rows : List MessageItem) (localId : String) (seq : Nat) : Prop :=
  ∃ row ∈ rows, row.localId = some localId ∧ row.seq = seq

/-- An update has been emitted for the `localId`. -/
def Announced (updates : List UpdateBody) (localId : String) : Prop :=
  ∃ sessionId msgSeq content, UpdateBody.messageNew sessionId msgSeq (some localId) content ∈ updates

/-- What a request relies on in each of its phases. -/
def PhaseSound (state : State) (request : Nat) : Phase → Prop
  | .allocated _ seq => state.lock = some request ∧ seq = state.msgSeq + 1
  | .inserted post row => state.lock = some request ∧ row.seq = state.msgSeq + 1 ∧
      row.localId = some post.localId ∧ ∀ stored ∈ state.rows, stored.localId ≠ some post.localId
  | .answering post (some outcome) => Stored state.rows post.localId outcome.seq ∧
      (outcome.fanOut = true → ¬ Announced state.updates post.localId)
  | _ => True

/-- The `localId` of a message update. -/
def localIdOf : UpdateBody → Option String
  | .messageNew _ _ localId _ => localId
  | _ => none

/-- The guarantees of ingestion, with what they rest on. -/
structure Sound (state : State) : Prop where
  numbered : state.rows.map MessageItem.seq = List.range' 1 state.msgSeq
  distinct : (state.rows.map MessageItem.localId).Nodup
  phases : ∀ request, PhaseSound state request (state.requests request)
  one_fan_out : ∀ first second post other seq next,
    state.requests first = .answering post (some ⟨seq, true⟩) →
    state.requests second = .answering other (some ⟨next, true⟩) →
    post.localId = other.localId → first = second
  replied : ∀ localId seq, (localId, seq) ∈ state.replies → Stored state.rows localId seq
  announced : ∀ body ∈ state.updates, ∃ sessionId msgSeq localId content,
    body = .messageNew sessionId msgSeq (some localId) content ∧ Stored state.rows localId msgSeq
  once : (state.updates.map localIdOf).Nodup

theorem start_sound (sessionId accountId : String) : Sound (start sessionId accountId) where
  numbered := rfl
  distinct := List.nodup_nil
  phases := fun _ => trivial
  one_fan_out := by
    intro first second post other seq next answering
    contradiction
  replied := by simp [start]
  announced := by simp [start]
  once := List.nodup_nil

variable {localId : String}

theorem Stored.mono {rows more : List MessageItem} {seq : Nat}
    (stored : Stored rows localId seq) : Stored (rows ++ more) localId seq := by
  obtain ⟨row, member, keys⟩ := stored
  exact ⟨row, List.mem_append_left more member, keys⟩

variable {state : State}

/-- A row found under a `localId` is stored. -/
theorem find_stored {row : MessageItem}
    (found : state.find localId = some row) : Stored state.rows localId row.seq := by
  have named := List.find?_some found
  exact ⟨row, List.mem_of_find?_eq_some found, by simpa using named, rfl⟩

variable {next : State}

/-- What a request relies on stays where its lock does, what is stored does, and nothing is announced
for it. -/
theorem PhaseSound.kept {other : Nat} {phase : Phase} (sound : PhaseSound state other phase)
    (lock : state.lock = some other →
      next.lock = some other ∧ next.msgSeq = state.msgSeq ∧ next.rows = state.rows)
    (rows : ∀ localId seq, Stored state.rows localId seq → Stored next.rows localId seq)
    (unannounced : ∀ post seq, phase = .answering post (some ⟨seq, true⟩) →
      ¬ Announced state.updates post.localId → ¬ Announced next.updates post.localId) :
    PhaseSound next other phase := by
  cases phase with
  | allocated post seq =>
    obtain ⟨lockKept, sameSeq, _⟩ := lock sound.1
    exact ⟨lockKept, sameSeq ▸ sound.2⟩
  | inserted post row =>
    obtain ⟨lockKept, sameSeq, sameRows⟩ := lock sound.1
    exact ⟨lockKept, sameSeq ▸ sound.2.1, sound.2.2.1, sameRows ▸ sound.2.2.2⟩
  | answering post outcome =>
    cases outcome with
    | none => trivial
    | some outcome =>
      obtain ⟨seq, fanOut⟩ := outcome
      refine ⟨rows _ _ sound.1, ?_⟩
      rintro rfl
      exact unannounced post seq rfl (sound.2 rfl)
  | idle | received | selected | missed | rejected | finished => trivial

variable {request : Nat}

/-- A step of a request that fans nothing out leaves the others with one fan-out for a `localId`. -/
theorem Sound.others_fan_out (sound : Sound state)
    (others : ∀ other, other ≠ request → next.requests other = state.requests other)
    (quiet : ∀ post seq, next.requests request ≠ .answering post (some ⟨seq, true⟩)) :
    ∀ first second post other seq later,
      next.requests first = .answering post (some ⟨seq, true⟩) →
      next.requests second = .answering other (some ⟨later, true⟩) →
      post.localId = other.localId → first = second := by
  intro first second post other seq later firstFan secondFan same
  have notFirst : first ≠ request := by
    rintro rfl
    exact quiet _ _ firstFan
  have notSecond : second ≠ request := by
    rintro rfl
    exact quiet _ _ secondFan
  rw [others first notFirst] at firstFan
  rw [others second notSecond] at secondFan
  exact sound.one_fan_out first second post other seq later firstFan secondFan same

/-- A step that changes neither what is committed nor what clients have seen. -/
theorem Sound.change (sound : Sound state) (request : Nat)
    (rows : next.rows = state.rows) (msgSeq : next.msgSeq = state.msgSeq)
    (replies : next.replies = state.replies) (updates : next.updates = state.updates)
    (others : ∀ other, other ≠ request → next.requests other = state.requests other)
    (lock : ∀ other, other ≠ request → state.lock = some other → next.lock = some other)
    (now : PhaseSound next request (next.requests request))
    (quiet : ∀ post seq, next.requests request ≠ .answering post (some ⟨seq, true⟩)) :
    Sound next where
  numbered := by rw [rows, msgSeq, sound.numbered]
  distinct := by rw [rows]; exact sound.distinct
  phases := by
    intro other
    by_cases same : other = request
    · exact same ▸ now
    · rw [others other same]
      refine (sound.phases other).kept ?_ ?_ ?_
      · exact fun held => ⟨lock other same held, msgSeq, rows⟩
      · exact fun _ _ stored => rows ▸ stored
      · exact fun _ _ _ unannounced => updates ▸ unannounced
  one_fan_out := sound.others_fan_out others quiet
  replied := by rw [replies, rows]; exact sound.replied
  announced := by rw [updates, rows]; exact sound.announced
  once := by rw [updates]; exact sound.once

/-- A request moves on without writing. -/
theorem Sound.move (sound : Sound state) (request : Nat) {phase : Phase}
    (now : PhaseSound state request phase)
    (quiet : ∀ post seq, phase ≠ .answering post (some ⟨seq, true⟩)) :
    Sound (state.move request phase) := by
  refine sound.change request ?_ ?_ ?_ ?_ ?_ ?_ ?_ ?_
  · rfl
  · rfl
  · rfl
  · rfl
  · exact fun other differs => Function.update_of_ne differs _ _
  · exact fun other _ held => held
  · simp only [State.move, Function.update_self]
    exact now
  · simpa only [State.move, Function.update_self] using quiet

/-- A request whose transaction is undone moves on. -/
theorem Sound.roll_back (sound : Sound state) (request : Nat) {phase : Phase}
    (now : PhaseSound (state.rollBack request) request phase)
    (quiet : ∀ post seq, phase ≠ .answering post (some ⟨seq, true⟩)) :
    Sound ((state.rollBack request).move request phase) := by
  refine sound.change request ?_ ?_ ?_ ?_ ?_ ?_ ?_ ?_
  · rfl
  · rfl
  · rfl
  · rfl
  · exact fun other differs => Function.update_of_ne differs _ _
  · intro other differs held
    have released : state.lock ≠ some request := by
      rw [held]
      exact fun same => differs (Option.some.inj same)
    simp only [State.move, State.rollBack]
    rw [if_neg released, held]
  · simp only [State.move, Function.update_self]
    exact now
  · simpa only [State.move, Function.update_self] using quiet

/-- Nothing is announced or fanned out for a `localId` that is not stored. -/
theorem Sound.unannounced (sound : Sound state)
    (absent : ∀ row ∈ state.rows, row.localId ≠ some localId) : ¬ Announced state.updates localId := by
  rintro ⟨sessionId, msgSeq, content, member⟩
  obtain ⟨_, _, stored, _, body, row, rowMember, named, _⟩ := sound.announced _ member
  obtain ⟨_, _, same, _⟩ := UpdateBody.messageNew.inj body
  exact absent row rowMember (named.trans same.symm)

variable {post : PostMessage}

/-- The lock's holder commits its row under the next number. -/
theorem Sound.commit
    (sound : Sound state)     {row : MessageItem} (held : state.requests request = .inserted post row) (answers : Bool) :
    Sound ((state.commitRow request row).move request
      (if answers then .answering post (some ⟨row.seq, true⟩) else .finished)) := by
  obtain ⟨locked, next, named, absent⟩ : PhaseSound state request (.inserted post row) :=
    held ▸ sound.phases request
  have unannounced := sound.unannounced absent
  have alone (other : Nat) (differs : other ≠ request) (theirs : state.lock = some other) : False :=
    differs (Option.some.inj (theirs.symm.trans locked))
  have unanswered (other : Nat) (second : PostMessage) (seq : Nat)
      (fan : state.requests other = .answering second (some ⟨seq, true⟩)) :
      second.localId ≠ post.localId := by
    have sure : PhaseSound state other (.answering second (some ⟨seq, true⟩)) := fan ▸ sound.phases other
    obtain ⟨stored, member, key, _⟩ := sure.1
    intro same
    exact absent stored member (key.trans (congrArg some same))
  have moved (other : Nat) (differs : other ≠ request) :
      ((state.commitRow request row).move request
        (if answers then .answering post (some ⟨row.seq, true⟩) else .finished)).requests other =
        state.requests other := Function.update_of_ne differs _ _
  have mine : ((state.commitRow request row).move request
      (if answers then .answering post (some ⟨row.seq, true⟩) else .finished)).requests request =
      if answers then .answering post (some ⟨row.seq, true⟩) else .finished :=
    Function.update_self _ _ _
  constructor
  · simp only [State.move, State.commitRow, List.map_append, List.map_cons, List.map_nil,
      sound.numbered, next]
    rw [List.range'_concat]
    simp [Nat.add_comm]
  · simp only [State.move, State.commitRow, List.map_append, List.map_cons, List.map_nil, named]
    apply List.nodup_append.mpr
    refine ⟨sound.distinct, by simp, ?_⟩
    intro key member last isLast
    obtain rfl := List.mem_singleton.mp isLast
    obtain ⟨stored, storedMember, rfl⟩ := List.mem_map.mp member
    exact absent stored storedMember
  · intro other
    by_cases same : other = request
    · subst same
      rw [mine]
      cases answers with
      | false => trivial
      | true => exact ⟨⟨row, by simp [State.move, State.commitRow], named, rfl⟩, fun _ => unannounced⟩
    · rw [moved other same]
      refine (sound.phases other).kept ?_ ?_ ?_
      · exact fun theirs => (alone other same theirs).elim
      · exact fun _ _ stored => stored.mono
      · exact fun _ _ _ unannounced => unannounced
  · intro first second one two seq later firstFan secondFan same
    by_cases isFirst : first = request
    · by_cases isSecond : second = request
      · rw [isFirst, isSecond]
      · rw [moved second isSecond] at secondFan
        rw [isFirst, mine] at firstFan
        cases answers with
        | false => contradiction
        | true =>
          obtain ⟨rfl, _⟩ := Phase.answering.inj firstFan
          exact absurd same.symm (unanswered second two later secondFan)
    · rw [moved first isFirst] at firstFan
      by_cases isSecond : second = request
      · rw [isSecond, mine] at secondFan
        cases answers with
        | false => contradiction
        | true =>
          obtain ⟨rfl, _⟩ := Phase.answering.inj secondFan
          exact absurd same (unanswered first one seq firstFan)
      · rw [moved second isSecond] at secondFan
        exact sound.one_fan_out first second one two seq later firstFan secondFan same
  · intro localId seq member
    exact (sound.replied localId seq member).mono
  · intro body member
    obtain ⟨sessionId, msgSeq, localId, content, shape, stored⟩ := sound.announced body member
    exact ⟨sessionId, msgSeq, localId, content, shape, stored.mono⟩
  · exact sound.once

/-- A reply names the stored row, and its update is the first for its `localId`. -/
theorem Sound.finish
    (sound : Sound state)     {outcome : Option InsertOutcome} (held : state.requests request = .answering post outcome) :
    Sound ((state.answer post outcome).move request .finished) := by
  cases outcome with
  | none => exact sound.move request trivial (by simp)
  | some outcome =>
    obtain ⟨stored, first⟩ : PhaseSound state request (.answering post (some outcome)) :=
      held ▸ sound.phases request
    have replied : ∀ localId seq, (localId, seq) ∈ state.replies ++ [(post.localId, outcome.seq)] →
        Stored state.rows localId seq := by
      intro localId seq member
      obtain before | isLast := List.mem_append.mp member
      · exact sound.replied localId seq before
      · obtain ⟨rfl, rfl⟩ := Prod.mk.inj (List.mem_singleton.mp isLast)
        exact stored
    have others (other : Nat) (differs : other ≠ request) :
        ((state.answer post (some outcome)).move request .finished).requests other =
          state.requests other := Function.update_of_ne differs _ _
    have mine : ((state.answer post (some outcome)).move request .finished).requests request =
        .finished := Function.update_self _ _ _
    have fans := sound.others_fan_out others (by simp [mine])
    obtain ⟨seq, fanOut⟩ := outcome
    refine ⟨sound.numbered, sound.distinct, ?_, fans, replied, ?_, ?_⟩
    · intro other
      by_cases same : other = request
      · rw [same, mine]
        trivial
      · rw [others other same]
        refine (sound.phases other).kept (fun locked => ⟨locked, rfl, rfl⟩) (fun _ _ stored => stored) ?_
        intro theirs theirSeq answering unannounced
        cases fanOut with
        | false => exact unannounced
        | true =>
          rintro ⟨sessionId, msgSeq, content, member⟩
          obtain earlier | isLast := List.mem_append.mp member
          · exact unannounced ⟨sessionId, msgSeq, content, earlier⟩
          · obtain ⟨_, _, named, _⟩ := UpdateBody.messageNew.inj (List.mem_singleton.mp isLast)
            exact same (sound.one_fan_out other request theirs post theirSeq seq answering held
              (Option.some.inj named))
    · intro body member
      cases fanOut with
      | false => exact sound.announced body member
      | true =>
        obtain earlier | isLast := List.mem_append.mp member
        · exact sound.announced body earlier
        · exact ⟨_, _, _, _, List.mem_singleton.mp isLast, stored⟩
    · cases fanOut with
      | false => exact sound.once
      | true =>
        have unannounced := first rfl
        simp only [State.move, State.answer, ↓reduceIte, List.map_append, List.map_cons, List.map_nil]
        apply List.nodup_append.mpr
        refine ⟨sound.once, by simp, ?_⟩
        intro key member last isLast same
        obtain rfl := List.mem_singleton.mp isLast
        obtain ⟨body, bodyMember, named⟩ := List.mem_map.mp member
        obtain ⟨sessionId, msgSeq, localId, content, rfl, _⟩ := sound.announced body bodyMember
        obtain rfl : localId = post.localId := Option.some.inj (named.trans same)
        exact unannounced ⟨sessionId, msgSeq, content, bodyMember⟩

/-- The request that allocates a number takes the lock. -/
theorem Sound.allocate (sound : Sound state)     (free : state.lock = none) :
    Sound { state.move request (.allocated post (state.msgSeq + 1)) with lock := some request } := by
  refine sound.change request rfl rfl rfl rfl ?_ ?_ ?_ ?_
  · exact fun other differs => Function.update_of_ne differs _ _
  · intro other _ held
    rw [free] at held
    contradiction
  · simp only [State.move, Function.update_self]
    exact ⟨rfl, rfl⟩
  · simp [State.move]

/-- A row that clashes with none may be inserted under the lock. -/
theorem Sound.insert
    (sound : Sound state)     {seq : Nat} {createdAt : Int} (held : state.requests request = .allocated post seq)
    (fits : ¬ state.rows.any (State.clash ⟨seq, some post.localId, post.content, createdAt⟩)) :
    Sound { state.move request
        (.inserted post ⟨seq, some post.localId, post.content, createdAt⟩) with
      pending := state.pending ++
        [(request, ⟨seq, some post.localId, post.content, createdAt⟩)] } := by
  obtain ⟨locked, next⟩ : PhaseSound state request (.allocated post seq) :=
    held ▸ sound.phases request
  refine sound.change request rfl rfl rfl rfl ?_ ?_ ?_ ?_
  · exact fun other differs => Function.update_of_ne differs _ _
  · exact fun other _ theirs => theirs
  · simp only [State.move, Function.update_self]
    refine ⟨locked, next, rfl, ?_⟩
    intro stored member same
    apply fits
    exact List.any_eq_true.mpr ⟨stored, member, by simp [State.clash, same]⟩
  · simp [State.move]

/-- Every statement of every request keeps the guarantees. -/
theorem step_sound {event : Event} (sound : Sound state)
    (taken : step state event = some next) : Sound next := by
  cases event with
  | post request post =>
    simp only [step] at taken
    split at taken
    · cases taken
      exact sound.move request trivial (by simp)
    · contradiction
  | selectSession request =>
    simp only [step] at taken
    split at taken
    · cases taken
      split
      · exact sound.move request trivial (by simp)
      · exact sound.move request trivial (by simp)
    · contradiction
  | selectExisting request =>
    simp only [step] at taken
    split at taken
    · split at taken
      · rename_i found
        cases taken
        exact sound.move request ⟨find_stored found, by simp⟩ (by simp)
      · cases taken
        exact sound.move request trivial (by simp)
    · contradiction
  | allocMsgSeq request =>
    simp only [step] at taken
    split at taken
    · rename_i free
      cases taken
      exact sound.allocate free
    · contradiction
  | insert request createdAt =>
    simp only [step] at taken
    split at taken
    · rename_i post seq held
      split at taken
      · cases taken
        exact sound.roll_back request trivial (by simp)
      · rename_i fits
        split at taken
        · contradiction
        · cases taken
          exact sound.insert held fits
    · contradiction
  | commit request =>
    simp only [step] at taken
    split at taken
    · rename_i held
      cases taken
      exact sound.commit held true
    · contradiction
  | commitUnseen request =>
    simp only [step] at taken
    split at taken
    · rename_i held
      cases taken
      exact sound.commit held false
    · contradiction
  | abort request =>
    simp only [step] at taken
    split at taken
    · contradiction
    · contradiction
    · contradiction
    · cases taken
      exact sound.roll_back request trivial (by simp)
  | selectAfterViolation request =>
    simp only [step] at taken
    split at taken
    · split at taken
      · rename_i found
        cases taken
        exact sound.move request ⟨find_stored found, by simp⟩ (by simp)
      · cases taken
        exact sound.move request trivial (by simp)
    · contradiction
  | finish request =>
    simp only [step] at taken
    split at taken
    · rename_i held
      cases taken
      exact sound.finish held
    · contradiction
  | hangUp request =>
    simp only [step] at taken
    split at taken
    · cases taken
      exact sound.move request trivial (by simp)
    · contradiction

/-- One `localId` is stored under one number. -/
theorem Sound.one_number (sound : Sound state) {first second : Nat}
    (one : Stored state.rows localId first) (two : Stored state.rows localId second) :
    first = second := by
  obtain ⟨firstRow, firstMember, firstNamed, rfl⟩ := one
  obtain ⟨secondRow, secondMember, secondNamed, rfl⟩ := two
  rw [List.inj_on_of_nodup_map sound.distinct firstMember secondMember
    (firstNamed.trans secondNamed.symm)]

/-- The state's rows, replies and updates are those of an idempotent, gapless log. -/
structure Ingested (state : State) : Prop where
  gapless : ∀ seq, (state.rows.map MessageItem.seq).count seq =
    if 1 ≤ seq ∧ seq ≤ state.msgSeq then 1 else 0
  one_row : ∀ localId, (state.rows.filter (fun row => row.localId = some localId)).length ≤ 1
  one_reply : ∀ localId first second, (localId, first) ∈ state.replies →
    (localId, second) ∈ state.replies → first = second
  one_update : ∀ localId,
    (state.updates.filter (fun body => localIdOf body = some localId)).length ≤ 1

/-- A key that occurs once selects at most one item. -/
theorem filter_key_length {α κ : Type} [DecidableEq κ] (key : α → κ) {items : List α}
    (distinct : (items.map key).Nodup) (value : κ) :
    (items.filter (fun item => key item = value)).length ≤ 1 := by
  have counted := List.nodup_iff_count_le_one.mp distinct value
  rw [List.count_eq_countP, List.countP_map, List.countP_eq_length_filter] at counted
  simpa [Function.comp_def, beq_eq_decide] using counted

theorem Sound.ingested (sound : Sound state) : Ingested state where
  gapless := by
    intro seq
    rw [sound.numbered]
    split
    · apply List.count_eq_one_of_mem List.nodup_range'
      rw [List.mem_range'_1]
      omega
    · apply List.count_eq_zero.mpr
      rw [List.mem_range'_1]
      omega
  one_row := fun localId => filter_key_length MessageItem.localId sound.distinct (some localId)
  one_reply := fun localId first second one two =>
    sound.one_number (sound.replied localId first one) (sound.replied localId second two)
  one_update := fun localId => filter_key_length localIdOf sound.once (some localId)

/-- In every state that any interleaving of requests reaches, the log is gapless and every
`localId` has one row, one number and one update. -/
theorem ingestion_idempotent (sessionId accountId : String) (events : List Event) {state : State}
    (ran : Runs.run step (start sessionId accountId) events = some state) : Ingested state :=
  (Runs.run_invariant Sound (fun _ _ _ sound taken => step_sound sound taken)
    (start_sound sessionId accountId) ran).ingested

/-- Two posts of one message race past the first lookup; the second insert is rejected. -/
def race : List Event :=
  [.post 0 ⟨"a", "m", ⟨"box"⟩⟩, .post 1 ⟨"a", "m", ⟨"box"⟩⟩, .selectSession 0, .selectSession 1,
    .selectExisting 0, .selectExisting 1, .allocMsgSeq 0, .insert 0 5, .commit 0, .allocMsgSeq 1,
    .insert 1 6, .selectAfterViolation 1, .finish 1, .finish 0]

theorem race_idempotent : ∃ state, Runs.run step (start "s" "a") race = some state ∧
    state.replies = [("m", 1), ("m", 1)] ∧ Ingested state := by
  have trace : (Runs.run step (start "s" "a") race).map State.replies =
      some [("m", 1), ("m", 1)] := by
    decide +kernel
  obtain ⟨state, ran, replies⟩ := Option.map_eq_some_iff.mp trace
  exact ⟨state, ran, replies, ingestion_idempotent "s" "a" race ran⟩

end Kvy.Server.App.Messages
