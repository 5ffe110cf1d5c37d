import Kvy.Cli.Api.Outbox
import Kvy.Server.App.Routes.Messages

/-!
# From an outbox into the log of its session

An outbox and the route that stores its batches, together. A post may be lost, may be tried again
while an earlier one is still at work on the server, and may be answered without the answer being
heard; the process may start anew on its queue file, and other clients post to the same session.

A batch is known to both by its identifier. The outbox drops the head of its queue once a post of it
was answered, and the route stores an identifier at most once, so what is stored and what is still
queued are the two parts of what was sealed.
-/

namespace Kvy.Cli.Outbox

open General Wire Queue Server.App

universe u v

/-! ## What is posted -/

/-- The container of a batch, if `EncryptedBoxSchema` accepts it. -/
def box? (batch : QueuedBatch) : Option EncryptedBox := do
  let content ← batch.json.field? "content"
  match content.field? "t", content.field? "v", content.field? "c" with
  | some (.str "enc"), some (.num version), some (.str c) =>
    if version = Decimal.ofInt 1 then some ⟨c⟩ else none
  | _, _, _ => none

/-- The request for a batch, if `PostMessageBodySchema` accepts it. -/
def body? (accountId : String) (batch : QueuedBatch) : Option Messages.PostMessage :=
  if batch.localId = "" then none
  else (box? batch).map (fun content => ⟨accountId, batch.localId, content⟩)

/-- What a request posts, while it is at work. -/
def post? : Messages.Phase → Option Messages.PostMessage
  | .received post | .selected post | .missed post | .allocated post _ | .inserted post _
  | .rejected post | .answering post _ => some post
  | .idle | .finished => none

/-- Where the awaited post of `sendUntil2xx` stands. -/
inductive Call where
  | quiet
  | sent (request : Nat)
  | answered (ok : Bool)

/-- An outbox and the session that it posts to. `sealed` records the batches in the order they were
sealed. -/
structure Uplink (Envelope : Type u) where
  outbox : State Envelope
  server : Messages.State
  call : Call
  sealed : List QueuedBatch

namespace Uplink

/-- What can happen: an event of the outbox other than an answer from the route, the start of a
post, a post of another client, a statement of the route, or an answer of the route that is heard. -/
inductive Event (Envelope : Type u) (Nonce : Type v) where
  | client (event : Outbox.Event Envelope Nonce)
  | send (request : Nat)
  | foreign (request : Nat) (post : Messages.PostMessage)
  | server (event : Messages.Event)
  | hear

variable {Envelope : Type u} {Nonce : Type v}

/-- The outbox gives up the post that it awaits. -/
def forgets : Outbox.Event Envelope Nonce → Bool
  | .answer _ | .restart => true
  | _ => false

/-- The outbox takes a post as answered. -/
def acks : Outbox.Event Envelope Nonce → Bool
  | .answer ok => ok
  | _ => false

/-- An answer of the route is on its way to the outbox if it awaits that request. -/
def replied (link : Uplink Envelope) : Messages.Event → Call
  | .finish request =>
    match link.call, link.server.requests request with
    | .sent awaited, .answering _ outcome =>
      if awaited = request then .answered outcome.isSome else link.call
    | _, _ => link.call
  | _ => link.call

/-- A post of the outbox or of another client. -/
def isPost : Messages.Event → Bool
  | .post _ _ => true
  | _ => false

/-- One step. The identifiers that the outbox draws are its own: no other client posts under one. -/
def step (options : Options Envelope Nonce) (accountId : String) (own : String → Bool)
    (link : Uplink Envelope) : Event Envelope Nonce → Option (Uplink Envelope)
  | .client event =>
    if acks event || event.minted?.any (fun minted => !own minted.localId) then none
    else (Outbox.step options link.outbox event).map (fun outbox =>
      { link with
        outbox
        call := if forgets event then .quiet else link.call
        sealed := link.sealed ++ (sealed? options link.outbox event).toList })
  | .send request =>
    match link.outbox.drain, link.call with
    | .posting batch, .quiet =>
      match body? accountId batch with
      | some post => (Messages.step link.server (.post request post)).map (fun server =>
        { link with server, call := .sent request })
      | none => none
    | _, _ => none
  | .foreign request post =>
    if own post.localId then none
    else (Messages.step link.server (.post request post)).map (fun server => { link with server })
  | .server event =>
    if isPost event then none
    else (Messages.step link.server event).map (fun server =>
      { link with server, call := link.replied event })
  | .hear =>
    match link.call with
    | .answered ok => (answer ok link.outbox).map (fun outbox =>
      { link with outbox, call := .quiet })
    | _ => none

/-- A first outbox, and a session without messages. -/
def start (sessionId accountId : String) : Uplink Envelope where
  outbox := fresh
  server := Messages.start sessionId accountId
  call := .quiet
  sealed := []

section Inversion
variable (options : Options Envelope Nonce) (accountId : String) (own : String → Bool)
  (link : Uplink Envelope)

/-- What a step does, and what allows it. -/
inductive Does : Event Envelope Nonce → Uplink Envelope → Prop where
  | client {event : Outbox.Event Envelope Nonce} {outbox : State Envelope}
      (acked : acks event = false)
      (drawn : ∀ minted, event.minted? = some minted → own minted.localId = true)
      (stepped : Outbox.step options link.outbox event = some outbox) :
      Does (.client event) { link with
        outbox
        call := if forgets event then .quiet else link.call
        sealed := link.sealed ++ (sealed? options link.outbox event).toList }
  | send {request : Nat} {batch : QueuedBatch} {content : EncryptedBox} {server : Messages.State}
      (posting : link.outbox.drain = .posting batch) (boxed : box? batch = some content)
      (stepped : Messages.step link.server (.post request ⟨accountId, batch.localId, content⟩) =
        some server) : Does (.send request) { link with server, call := .sent request }
  | foreign {request : Nat} {post : Messages.PostMessage} {server : Messages.State}
      (foreign : own post.localId ≠ true)
      (stepped : Messages.step link.server (.post request post) = some server) :
      Does (.foreign request post) { link with server }
  | server {event : Messages.Event} {server : Messages.State} (apart : isPost event = false)
      (stepped : Messages.step link.server event = some server) :
      Does (.server event) { link with server, call := link.replied event }
  | hear {ok : Bool} {outbox : State Envelope} (call : link.call = .answered ok)
      (stepped : answer ok link.outbox = some outbox) :
      Does .hear { link with outbox, call := .quiet }

variable {options accountId own link} {next : Uplink Envelope}

theorem step_does {event : Event Envelope Nonce}
    (taken : step options accountId own link event = some next) :
    Does options accountId own link event next := by
  cases event with
  | client event =>
    obtain ⟨allowed, taken⟩ := Option.ite_none_left_eq_some.mp taken
    obtain ⟨outbox, stepped, rfl⟩ := Option.map_eq_some_iff.mp taken
    simp only [Bool.or_eq_true, not_or, Bool.not_eq_true] at allowed
    exact .client allowed.1 (fun minted draws => by simpa [draws] using allowed.2) stepped
  | send request =>
    simp only [step] at taken
    split at taken
    · rename_i batch posting quiet
      split at taken
      · rename_i post body
        obtain ⟨server, stepped, rfl⟩ := Option.map_eq_some_iff.mp taken
        obtain ⟨_, built⟩ := Option.ite_none_left_eq_some.mp body
        obtain ⟨content, boxed, rfl⟩ := Option.map_eq_some_iff.mp built
        exact .send posting boxed stepped
      · contradiction
    · contradiction
  | foreign request post =>
    obtain ⟨foreign, taken⟩ := Option.ite_none_left_eq_some.mp taken
    obtain ⟨server, stepped, rfl⟩ := Option.map_eq_some_iff.mp taken
    exact .foreign foreign stepped
  | server event =>
    obtain ⟨apart, taken⟩ := Option.ite_none_left_eq_some.mp taken
    obtain ⟨server, stepped, rfl⟩ := Option.map_eq_some_iff.mp taken
    exact .server (Bool.eq_false_iff.mpr apart) stepped
  | hear =>
    simp only [step] at taken
    split at taken
    · obtain ⟨outbox, stepped, rfl⟩ := Option.map_eq_some_iff.mp taken
      exact .hear ‹_› stepped
    · contradiction

end Inversion

end Uplink

/-! ## What a step of the outbox does -/

section Client
variable {Envelope : Type u} {Nonce : Type v} {options : Options Envelope Nonce}
  {state next : State Envelope} {event : Event Envelope Nonce}

/-- What an event hands to the outbox. -/
def handed : Event Envelope Nonce → List Envelope
  | .enqueue events _ => events
  | _ => []

/-- A new process starts without the buffer of the last one, and a disposed outbox takes nothing. -/
def keeps (state : State Envelope) : Event Envelope Nonce → Bool
  | .enqueue _ _ => !state.disposed
  | .restart => state.buf.isEmpty
  | _ => true

/-- A batch is a sealed buffer. -/
def Seals (options : Options Envelope Nonce) (buf : List Envelope) (batch : QueuedBatch) : Prop :=
  ∃ minted, batch = sealBuffer options buf minted

/-- What a step of the outbox does to its identifiers, its receipts, a post it awaits and what it
keeps of its buffer, when it seals this or nothing. -/
structure Frame (options : Options Envelope Nonce) (state next : State Envelope)
    (event : Event Envelope Nonce) (kept : List Envelope) (seals : Option QueuedBatch) : Prop where
  minted : next.minted = state.minted ++ seals.toList.map QueuedBatch.localId
  answered : Uplink.acks event = false → next.answered = state.answered
  posting : ∀ batch, state.drain = .posting batch → Uplink.forgets event = false →
    next.drain = .posting batch
  carried : seals = none ∧ next.buf = kept ∨
    ∃ batch, seals = some batch ∧ Seals options kept batch ∧ next.buf = []

/-- A step that leaves all of it alone. -/
theorem Frame.same (minted : next.minted = state.minted) (answered : next.answered = state.answered)
    (drain : next.drain = state.drain) : Frame options state next event next.buf none where
  minted := by simp [minted]
  answered := fun _ => answered
  posting := fun _ posting _ => drain.trans posting
  carried := .inl ⟨rfl, rfl⟩

/-- A flush seals what is buffered. -/
theorem flush_frame (options : Options Envelope Nonce) (minted : Minted Nonce)
    (state : State Envelope) :
    Frame options state (flush options minted state) event state.buf
      (if state.buf.isEmpty then none else some (sealBuffer options state.buf minted)) := by
  cases empty : state.buf.isEmpty with
  | true =>
    rw [flush_empty options minted state empty]
    exact .same rfl rfl rfl
  | false =>
    obtain ⟨drain, shape, _⟩ := flush_shape options minted state empty
    refine ⟨by simp [shape], fun _ => by simp [shape], fun batch posting _ => ?_,
      .inr ⟨_, rfl, ⟨minted, rfl⟩, by rw [shape]⟩⟩
    rw [flush, if_neg (by simp [empty])]
    simp only [startDrain, posting]

/-- A step seals what `sealed?` says, and keeps its buffer with what it is handed, or less. -/
def Framed (options : Options Envelope Nonce) (state next : State Envelope)
    (event : Event Envelope Nonce) : Prop :=
  ∃ kept, Frame options state next event kept (sealed? options state event) ∧
    kept.Sublist (state.buf ++ handed event) ∧
    (keeps state event = true → kept = state.buf ++ handed event)

theorem step_frame (taken : step options state event = some next) :
    Framed options state next event := by
  obtain ⟨_, taken⟩ := Option.ite_none_left_eq_some.mp taken
  have alone (nothing : handed event = [])
      (frame : Frame options state next event state.buf (sealed? options state event)) :
      Framed options state next event :=
    ⟨state.buf, frame, by simp [nothing], fun _ => by simp [nothing]⟩
  cases event with
  | enqueue events minted =>
    cases taken
    by_cases idle : (state.disposed || events.isEmpty) = true
    · refine ⟨state.buf, ?_, List.sublist_append_left .., fun takes => ?_⟩
      · simp only [enqueue, sealed?, idle, ↓reduceIte]
        exact .same rfl rfl rfl
      · have nothing : events = [] := by simp_all [keeps]
        simp [handed, nothing]
    · refine ⟨state.buf ++ events, ?_, .refl _, fun _ => rfl⟩
      simp only [enqueue, sealed?, idle]
      by_cases reached : options.maxBatchSize ≤ (state.buf ++ events).length
      · have full : (state.buf ++ events).isEmpty = false := by simp_all
        have flushed : Frame options _ _ (.enqueue events minted) _ _ :=
          flush_frame options minted { state with buf := state.buf ++ events }
        rw [if_neg (by simp [full])] at flushed
        simp only [reached, ↓reduceIte]
        exact ⟨flushed.minted, flushed.answered, flushed.posting, flushed.carried⟩
      · simp only [reached, ↓reduceIte]
        exact ⟨by simp, fun _ => rfl, fun _ posting _ => posting, .inl ⟨rfl, rfl⟩⟩
  | flush minted =>
    cases taken
    exact alone rfl (flush_frame options minted state)
  | timer minted =>
    dsimp only at taken
    split at taken
    · cases taken
      exact alone rfl (flush_frame options minted state)
    · contradiction
  | dispose minted =>
    cases taken
    refine alone rfl ?_
    have flushed : Frame options _ _ (.dispose minted) _ _ := flush_frame options minted state
    unfold dispose sealed?
    cases empty : state.buf.isEmpty with
    | true => exact .same rfl rfl rfl
    | false =>
      rw [empty] at flushed
      exact ⟨flushed.minted, flushed.answered, flushed.posting, flushed.carried⟩
  | answer ok =>
    simp only [answer] at taken
    split at taken
    · refine alone rfl ?_
      cases ok with
      | true =>
        cases taken
        exact ⟨by simp [sealed?], fun acks => by contradiction, fun _ _ forgets =>
          by contradiction, .inl ⟨rfl, rfl⟩⟩
      | false =>
        cases taken
        exact ⟨by simp [sealed?], fun _ => rfl, fun _ _ forgets => by contradiction,
          .inl ⟨rfl, rfl⟩⟩
    · contradiction
  | wake =>
    simp only [wake] at taken
    split at taken
    · rename_i asleep
      cases taken
      refine alone rfl ⟨by simp [sealed?], fun _ => rfl, fun batch posting => ?_, .inl ⟨rfl, rfl⟩⟩
      rw [asleep] at posting
      contradiction
    · contradiction
  | resume =>
    simp only [resume] at taken
    split at taken
    · rename_i settled
      obtain ⟨drain, shape, _⟩ := drain_loop_shape
        { state with queue := state.queue.drop 1, disk := persistQueue (state.queue.drop 1) }
      rw [shape] at taken
      cases taken
      refine alone rfl ⟨by simp [sealed?], fun _ => rfl, fun batch posting => ?_, .inl ⟨rfl, rfl⟩⟩
      rw [settled] at posting
      contradiction
    · rename_i settled
      cases taken
      refine alone rfl ⟨by simp [sealed?], fun _ => rfl, fun batch posting => ?_, .inl ⟨rfl, rfl⟩⟩
      rw [settled] at posting
      contradiction
    · contradiction
  | restart =>
    cases taken
    obtain ⟨drain, shape, _⟩ := drain_loop_shape
      { buf := ([] : List Envelope), timer := false, queue := loadQueue state.disk,
        drain := .idle, disposed := false, disk := state.disk, minted := state.minted,
        answered := state.answered }
    refine ⟨[], ⟨by simp [construct, shape, sealed?], fun _ => by simp [construct, shape],
      fun _ _ forgets => by contradiction, .inl ⟨rfl, by simp [construct, shape]⟩⟩,
      List.nil_sublist _, fun empty => ?_⟩
    simp [handed, List.isEmpty_iff.mp (show state.buf.isEmpty = true from empty)]

end Client

/-! ## What a statement of the route does -/

section Route
variable {server next : Messages.State} {event : Messages.Event}

/-- A statement of the route leaves each request with its post, inserts a row for a post, and
commits an inserted row or none. -/
structure Route (server next : Messages.State) : Prop where
  begun : ∀ request, server.requests request ≠ .idle → next.requests request ≠ .idle
  posts : ∀ request post, post? (next.requests request) = some post →
    post? (server.requests request) = some post
  inserted : ∀ request post row, next.requests request = .inserted post row →
    server.requests request = .inserted post row ∨
      row.localId = some post.localId ∧ row.content = post.content
  rows : next.rows = server.rows ∨ ∃ request post row,
    server.requests request = .inserted post row ∧ next.rows = server.rows ++ [row]

/-- One request moves on with its post, and no row is inserted or committed. -/
theorem Route.move {request : Nat} {phase : Messages.Phase}
    (requests : next.requests = Function.update server.requests request phase)
    (rows : next.rows = server.rows) (busy : phase ≠ .idle)
    (same : ∀ post, post? phase = some post → post? (server.requests request) = some post)
    (inserts : ∀ post row, phase = .inserted post row →
      row.localId = some post.localId ∧ row.content = post.content) : Route server next where
  begun other before := by
    rw [requests]
    by_cases here : other = request
    · rwa [here, Function.update_self]
    · rwa [Function.update_of_ne here]
  posts other post held := by
    rw [requests] at held
    by_cases here : other = request
    · subst here
      rw [Function.update_self] at held
      exact same post held
    · rwa [Function.update_of_ne here] at held
  inserted other post row held := by
    rw [requests] at held
    by_cases here : other = request
    · subst here
      rw [Function.update_self] at held
      exact .inr (inserts post row held)
    · rw [Function.update_of_ne here] at held
      exact .inl held
  rows := .inl rows

/-- One request commits the row that it inserted. -/
theorem Route.commit {request : Nat} {phase : Messages.Phase} {post : Messages.PostMessage}
    {row : MessageItem} (held : server.requests request = .inserted post row)
    (requests : next.requests = Function.update server.requests request phase)
    (rows : next.rows = server.rows ++ [row]) (busy : phase ≠ .idle)
    (same : ∀ other, post? phase = some other → other = post)
    (settled : ∀ post row, phase ≠ .inserted post row) : Route server next := by
  have moved : Route server { next with rows := server.rows } :=
    .move requests rfl busy (fun other posts => by rw [held, same other posts]; rfl)
      (fun other inserted isInserted => absurd isInserted (settled other inserted))
  exact ⟨moved.begun, moved.posts, moved.inserted, .inr ⟨request, post, row, held, rows⟩⟩

/-- Every statement does one of these. -/
theorem route_step (apart : Uplink.isPost event = false)
    (taken : Messages.step server event = some next) : Route server next := by
  cases event <;> simp only [Messages.step] at taken
  case post request post => contradiction
  case selectSession request =>
    split at taken
    · rename_i post held
      cases taken
      refine .move rfl rfl (by split <;> simp) (fun other posts => ?_) (fun other row isInserted => ?_)
      · split at posts <;> exact held ▸ posts
      · split at isInserted <;> contradiction
    · contradiction
  case selectExisting request =>
    split at taken
    · rename_i post held
      split at taken <;> cases taken <;>
        exact .move rfl rfl (by simp) (fun _ posts => held ▸ posts) (fun _ _ isInserted => by contradiction)
    · contradiction
  case allocMsgSeq request =>
    split at taken
    · rename_i post held _
      cases taken
      exact .move rfl rfl (by simp) (fun _ posts => held ▸ posts) (fun _ _ isInserted => by contradiction)
    · contradiction
  case insert request createdAt =>
    split at taken
    · rename_i post seq held
      split at taken
      · cases taken
        exact .move rfl rfl (by simp) (fun _ posts => held ▸ posts) (fun _ _ isInserted => by contradiction)
      · split at taken
        · contradiction
        · cases taken
          refine .move rfl rfl (by simp) (fun _ posts => held ▸ posts) (fun other row isInserted => ?_)
          obtain ⟨rfl, rfl⟩ := Messages.Phase.inserted.inj isInserted
          exact ⟨rfl, rfl⟩
    · contradiction
  case commit request =>
    split at taken
    · rename_i post row held
      cases taken
      exact .commit held rfl rfl (by simp) (fun other posts => (Option.some.inj posts).symm)
        (fun _ _ isInserted => by contradiction)
    · contradiction
  case commitUnseen request =>
    split at taken
    · rename_i post row held
      cases taken
      exact .commit held rfl rfl (by simp) (fun other posts => by contradiction)
        (fun _ _ isInserted => by contradiction)
    · contradiction
  case abort request =>
    split at taken
    · contradiction
    · contradiction
    · contradiction
    · cases taken
      exact .move rfl rfl (by simp) (fun _ posts => by contradiction) (fun _ _ isInserted => by contradiction)
  case selectAfterViolation request =>
    split at taken
    · rename_i post held
      split at taken <;> cases taken
      · exact .move rfl rfl (by simp) (fun _ posts => held ▸ posts) (fun _ _ isInserted => by contradiction)
      · exact .move rfl rfl (by simp) (fun _ posts => by contradiction)
          (fun _ _ isInserted => by contradiction)
    · contradiction
  case finish request =>
    split at taken
    · rename_i post outcome held
      cases taken
      have rows : ((server.answer post outcome).move request .finished).rows = server.rows := by
        cases outcome <;> rfl
      have requests : ((server.answer post outcome).move request .finished).requests =
          Function.update server.requests request .finished := by
        cases outcome <;> rfl
      exact .move requests rows (by simp) (fun _ posts => by contradiction)
        (fun _ _ isInserted => by contradiction)
    · contradiction
  case hangUp request =>
    split at taken
    · cases taken
      exact .move rfl rfl (by simp) (fun _ posts => by contradiction) (fun _ _ isInserted => by contradiction)
    · contradiction

end Route

/-! ## What is kept -/

namespace Uplink

/-- A sealed batch has the identifier and the content. -/
def Carries (sealed : List QueuedBatch) (localId : String) (content : EncryptedBox) : Prop :=
  ∃ batch ∈ sealed, batch.localId = localId ∧ box? batch = some content

/-- The log has a row with the identifier. -/
def Kept (rows : List MessageItem) (localId : String) : Prop :=
  ∃ seq, Messages.Stored rows localId seq

/-- The rows of the log that are the outbox's own. -/
def ownRows {Envelope : Type u} (own : String → Bool) (link : Uplink Envelope) : List MessageItem :=
  link.server.rows.filter (fun row => row.localId.any own)

/-- What holds in every run. What is at work on the server, and what it has stored, under an own
identifier is a sealed batch; an awaited post is one of the batch that the drain holds. -/
structure Sound {Envelope : Type u} (own : String → Bool) (link : Uplink Envelope) : Prop where
  outbox : Outbox.Sound link.outbox
  server : Messages.Sound link.server
  minted : link.sealed.map QueuedBatch.localId = link.outbox.minted
  owned : ∀ batch ∈ link.sealed, own batch.localId = true
  queued : ∀ batch ∈ link.outbox.queue, batch ∈ link.sealed
  held : ∀ batch, link.outbox.drain.held = some batch → batch ∈ link.sealed
  posts : ∀ request post, post? (link.server.requests request) = some post →
    own post.localId = true → Carries link.sealed post.localId post.content
  inserted : ∀ request post row, link.server.requests request = .inserted post row →
    row.localId = some post.localId ∧ row.content = post.content
  rows : ∀ row ∈ link.server.rows, ∀ localId, row.localId = some localId → own localId = true →
    Carries link.sealed localId row.content
  answered : ∀ localId ∈ link.outbox.answered,
    own localId = true ∧ Kept link.server.rows localId
  sent : ∀ request, link.call = .sent request → link.server.requests request ≠ .idle ∧
    ∃ batch, link.outbox.drain = .posting batch ∧
      ∀ post, post? (link.server.requests request) = some post → post.localId = batch.localId
  heard : link.call = .answered true → ∃ batch, link.outbox.drain = .posting batch ∧
    Kept link.server.rows batch.localId

section Steps
variable {Envelope : Type u} {Nonce : Type v} {options : Options Envelope Nonce}
  {own : String → Bool} {link : Uplink Envelope} {event : Outbox.Event Envelope Nonce}
  {outbox : State Envelope} {server : Messages.State}

theorem Carries.append {sealed : List QueuedBatch} {localId : String} {content : EncryptedBox}
    (carries : Carries sealed localId content) (more : List QueuedBatch) :
    Carries (sealed ++ more) localId content := by
  obtain ⟨batch, member, same⟩ := carries
  exact ⟨batch, List.mem_append_left more member, same⟩

/-- What is kept stays kept. -/
theorem Kept.route {localId : String} (kept : Kept link.server.rows localId)
    (route : Route link.server server) : Kept server.rows localId := by
  obtain ⟨seq, stored⟩ := kept
  rcases route.rows with rows | ⟨_, _, row, _, rows⟩
  · exact ⟨seq, rows ▸ stored⟩
  · exact ⟨seq, rows ▸ stored.mono⟩

/-- What a step of the outbox seals has an identifier that it draws. -/
theorem sealed_drawn {state : State Envelope} {batch : QueuedBatch}
    (seals : sealed? options state event = some batch) :
    ∃ minted, event.minted? = some minted ∧ minted.localId = batch.localId := by
  have drawn (buf : List Envelope) (minted : Minted Nonce)
      (seals : (if buf.isEmpty then none else some (sealBuffer options buf minted)) = some batch) :
      minted.localId = batch.localId := by
    split at seals
    · contradiction
    · cases seals
      rfl
  cases event with
  | enqueue events minted =>
    refine ⟨minted, rfl, ?_⟩
    simp only [sealed?] at seals
    split at seals
    · contradiction
    · split at seals
      · cases seals
        rfl
      · contradiction
  | flush minted => exact ⟨minted, rfl, drawn state.buf minted seals⟩
  | timer minted => exact ⟨minted, rfl, drawn state.buf minted seals⟩
  | dispose minted => exact ⟨minted, rfl, drawn state.buf minted seals⟩
  | _ => contradiction

/-- A step of the outbox queues only what was queued or what it seals, and holds only what it held
or has queued. -/
theorem client_queue (sound : Outbox.Sound link.outbox)
    (taken : Outbox.step options link.outbox event = some outbox) :
    (∀ batch ∈ outbox.queue, batch ∈ link.outbox.queue ∨
      sealed? options link.outbox event = some batch) ∧
      ∀ batch, outbox.drain.held = some batch →
        link.outbox.drain.held = some batch ∨ batch ∈ outbox.queue := by
  obtain ⟨effect, _⟩ := step_effect options link.outbox event outbox sound.receipts taken
  cases effect with
  | kept queue _ _ held =>
    exact ⟨fun batch member => .inl (queue ▸ member), fun batch holds => .inl (held batch holds)⟩
  | appended new seals _ queue _ _ held =>
    refine ⟨fun batch member => ?_, fun batch holds =>
      (held batch holds).imp_right (fun head => List.mem_of_head? head)⟩
    obtain ⟨dropped, kept, split, result⟩ :=
      append_with_cap_keeps link.outbox.queue new options.maxQueueBytes
    rw [queue, result] at member
    rcases List.mem_append.mp member with before | now
    · exact .inl (split ▸ List.mem_append_right dropped before)
    · exact .inr (List.mem_singleton.mp now ▸ seals)
  | dequeued _ _ _ queue _ _ held =>
    exact ⟨fun batch member => .inl (List.mem_of_mem_drop (queue ▸ member)),
      fun batch holds => .inr (List.mem_of_head? (held batch holds))⟩
  | restarted queue _ _ held =>
    exact ⟨fun batch member => .inl (sound.mirrored ▸ queue ▸ member),
      fun batch holds => .inr (List.mem_of_head? (held batch holds))⟩

/-- A step of the outbox, with an awaited post that stays awaited or is given up. -/
theorem Sound.client (sound : Sound own link)
    (drawn : ∀ minted, event.minted? = some minted → own minted.localId = true)
    (taken : Outbox.step options link.outbox event = some outbox)
    (answered : ∀ localId ∈ outbox.answered, own localId = true ∧ Kept link.server.rows localId)
    {call : Call} (waits : call = .quiet ∨ call = link.call ∧ ∀ batch,
      link.outbox.drain = .posting batch → outbox.drain = .posting batch) :
    Sound own { link with
      outbox, call, sealed := link.sealed ++ (sealed? options link.outbox event).toList } := by
  obtain ⟨queued, held⟩ := client_queue sound.outbox taken
  have whole : ∀ batch ∈ outbox.queue,
      batch ∈ link.sealed ++ (sealed? options link.outbox event).toList := by
    intro batch member
    rcases queued batch member with before | now
    · exact List.mem_append_left _ (sound.queued batch before)
    · exact List.mem_append_right _ (Option.mem_toList.mpr now)
  refine ⟨step_sound options link.outbox event outbox sound.outbox taken, sound.server, ?_, ?_,
    whole, ?_, ?_, sound.inserted, ?_, answered, ?_, ?_⟩
  · obtain ⟨_, frame, _⟩ := step_frame taken
    rw [List.map_append, sound.minted, frame.minted]
  · intro batch member
    rcases List.mem_append.mp member with before | now
    · exact sound.owned batch before
    · obtain ⟨minted, draws, same⟩ := sealed_drawn (Option.mem_toList.mp now)
      exact same ▸ drawn minted draws
  · intro batch holds
    rcases held batch holds with before | now
    · exact List.mem_append_left _ (sound.held batch before)
    · exact whole batch now
  · exact fun request post posted isOwn => (sound.posts request post posted isOwn).append _
  · exact fun row member localId named isOwn => (sound.rows row member localId named isOwn).append _
  · intro request isSent
    rcases waits with quiet | ⟨same, posting⟩
    · exact absurd (quiet.symm.trans isSent) (by simp)
    · obtain ⟨begun, batch, posts, named⟩ := sound.sent request (same.symm.trans isSent)
      exact ⟨begun, batch, posting batch posts, named⟩
  · intro isHeard
    rcases waits with quiet | ⟨same, posting⟩
    · exact absurd (quiet.symm.trans isHeard) (by simp)
    · obtain ⟨batch, posts, kept⟩ := sound.heard (same.symm.trans isHeard)
      exact ⟨batch, posting batch posts, kept⟩

/-- A post arrives at the route, of a sealed batch or under an identifier that is not its own. -/
theorem Sound.arrive (sound : Sound own link) {request : Nat} {post : Messages.PostMessage}
    (carried : own post.localId = true → Carries link.sealed post.localId post.content)
    (taken : Messages.step link.server (.post request post) = some server)
    {call : Call} (waits : call = link.call ∨ call = .sent request ∧ ∃ batch,
      link.outbox.drain = .posting batch ∧ post.localId = batch.localId) :
    Sound own { link with server, call } := by
  have after := Messages.step_sound sound.server taken
  simp only [Messages.step] at taken
  split at taken
  · rename_i idle
    cases taken
    have posts : ∀ other found,
        post? ((link.server.move request (.received post)).requests other) = some found →
          found = post ∨ post? (link.server.requests other) = some found := by
      intro other found held
      by_cases here : other = request
      · subst here
        simp only [Messages.State.move, Function.update_self, post?, Option.some.injEq] at held
        exact .inl held.symm
      · simp only [Messages.State.move, Function.update_of_ne here] at held
        exact .inr held
    refine ⟨sound.outbox, after, sound.minted, sound.owned, sound.queued, sound.held, ?_, ?_,
      sound.rows, sound.answered, ?_, ?_⟩
    · intro other found held isOwn
      rcases posts other found held with rfl | before
      · exact carried isOwn
      · exact sound.posts other found before isOwn
    · intro other found row held
      by_cases here : other = request
      · subst here
        simp [Messages.State.move] at held
      · simp only [Messages.State.move, Function.update_of_ne here] at held
        exact sound.inserted other found row held
    · intro other isSent
      rcases waits with same | ⟨rfl, batch, posting, named⟩
      · obtain ⟨begun, batch, posting, named⟩ := sound.sent other (same.symm.trans isSent)
        have apart : other ≠ request := fun here => begun (here ▸ idle)
        simp only [Messages.State.move, Function.update_of_ne apart]
        exact ⟨begun, batch, posting, named⟩
      · cases isSent
        refine ⟨by simp [Messages.State.move], batch, posting, fun found held => ?_⟩
        simp only [Messages.State.move, Function.update_self, post?, Option.some.injEq] at held
        exact held ▸ named
    · intro isHeard
      rcases waits with same | ⟨rfl, _⟩
      · exact sound.heard (same.symm.trans isHeard)
      · contradiction
  · contradiction

/-- A statement of the route. An answer that it sends off is one of a post that it has kept. -/
theorem Sound.route (sound : Sound own link) {statement : Messages.Event}
    (apart : isPost statement = false)
    (taken : Messages.step link.server statement = some server) :
    Sound own { link with server, call := link.replied statement } := by
  have route := route_step apart taken
  have keeps (localId : String) (kept : Kept link.server.rows localId) : Kept server.rows localId :=
    kept.route route
  have call : link.replied statement = link.call ∨ ∃ request post outcome,
      link.call = .sent request ∧ link.server.requests request = .answering post outcome ∧
        link.replied statement = .answered outcome.isSome := by
    unfold replied
    split
    · split
      · rename_i request _ _ awaited post outcome sent held
        split
        · rename_i same
          exact .inr ⟨request, post, outcome, same ▸ sent, held, rfl⟩
        · exact .inl rfl
      · exact .inl rfl
    · exact .inl rfl
  refine ⟨sound.outbox, Messages.step_sound sound.server taken, sound.minted, sound.owned,
    sound.queued, sound.held, ?_, ?_, ?_, ?_, ?_, ?_⟩
  · exact fun request post held => sound.posts request post (route.posts request post held)
  · intro request post row held
    rcases route.inserted request post row held with before | same
    · exact sound.inserted request post row before
    · exact same
  · intro row member localId named isOwn
    rcases route.rows with rows | ⟨request, post, new, held, rows⟩
    · exact sound.rows row (rows ▸ member) localId named isOwn
    · rcases List.mem_append.mp (rows ▸ member) with before | now
      · exact sound.rows row before localId named isOwn
      · obtain rfl := List.mem_singleton.mp now
        obtain ⟨same, content⟩ := sound.inserted request post row held
        obtain rfl : post.localId = localId := Option.some.inj (same.symm.trans named)
        exact content ▸ sound.posts request post (by rw [held]; rfl) isOwn
  · exact fun localId member => (sound.answered localId member).imp_right (keeps localId)
  · intro request isSent
    rcases call with same | ⟨_, _, _, _, _, isAnswered⟩
    · obtain ⟨begun, batch, posting, named⟩ := sound.sent request (same.symm.trans isSent)
      exact ⟨route.begun request begun, batch, posting,
        fun post held => named post (route.posts request post held)⟩
    · exact absurd (isAnswered.symm.trans isSent) (by simp)
  · intro isHeard
    rcases call with same | ⟨request, post, outcome, isSent, answering, isAnswered⟩
    · obtain ⟨batch, posting, kept⟩ := sound.heard (same.symm.trans isHeard)
      exact ⟨batch, posting, keeps _ kept⟩
    · obtain ⟨_, batch, posting, named⟩ := sound.sent request isSent
      have found : outcome.isSome = true := Call.answered.inj (isAnswered.symm.trans isHeard)
      obtain ⟨result, rfl⟩ := Option.isSome_iff_exists.mp found
      have phase := sound.server.phases request
      rw [answering] at phase
      refine ⟨batch, posting, keeps _ ⟨result.seq, ?_⟩⟩
      exact named post (by rw [answering]; rfl) ▸ phase.1

/-- What an answer that is heard does is a step of the outbox. -/
theorem answer_step (options : Options Envelope Nonce) {ok : Bool}
    (taken : answer ok link.outbox = some outbox) :
    Outbox.step options link.outbox (.answer ok) = some outbox := taken

/-- An answer is heard. -/
theorem Sound.hear (sound : Sound own link) (options : Options Envelope Nonce) {ok : Bool}
    (call : link.call = .answered ok) (taken : answer ok link.outbox = some outbox) :
    Sound own { link with outbox, call := .quiet } := by
  have answered : ∀ localId ∈ outbox.answered,
      own localId = true ∧ Kept link.server.rows localId := by
    cases ok with
    | false =>
      obtain ⟨_, frame, _⟩ := step_frame (answer_step options taken)
      exact frame.answered rfl ▸ sound.answered
    | true =>
      obtain ⟨batch, posting, kept⟩ := sound.heard call
      simp only [answer, posting, ↓reduceIte, Option.some.injEq] at taken
      subst taken
      intro localId member
      rcases List.mem_append.mp member with before | now
      · exact sound.answered localId before
      · obtain rfl := List.mem_singleton.mp now
        exact ⟨sound.owned batch (sound.held batch (by rw [posting]; rfl)), kept⟩
  simpa [sealed?] using sound.client (fun _ draws => by contradiction) (answer_step options taken)
    answered (.inl rfl)

end Steps

/-- Every step keeps it. -/
theorem step_sound {Envelope : Type u} {Nonce : Type v} {options : Options Envelope Nonce}
    {accountId : String} {own : String → Bool} {link next : Uplink Envelope}
    {event : Event Envelope Nonce} (sound : Sound own link)
    (taken : step options accountId own link event = some next) : Sound own next := by
  cases step_does taken with
  | @client event _ acked drawn stepped =>
    obtain ⟨_, frame, _⟩ := step_frame stepped
    refine sound.client drawn stepped (frame.answered acked ▸ sound.answered) ?_
    cases gives : forgets event with
    | true => exact .inl rfl
    | false => exact .inr ⟨rfl, fun batch posting => frame.posting batch posting gives⟩
  | @send _ batch _ _ posting boxed stepped =>
    have member := sound.held batch (by rw [posting]; rfl)
    exact sound.arrive (fun _ => ⟨batch, member, rfl, boxed⟩) stepped
      (.inr ⟨rfl, batch, posting, rfl⟩)
  | foreign foreign stepped =>
    exact sound.arrive (fun isOwn => absurd isOwn foreign) stepped (.inl rfl)
  | server apart stepped => exact sound.route apart stepped
  | hear call stepped => exact sound.hear options call stepped

/-- It holds before the first batch. -/
theorem start_sound {Envelope : Type u} (own : String → Bool) (sessionId accountId : String) :
    Sound own (start sessionId accountId : Uplink Envelope) where
  outbox := fresh_sound
  server := Messages.start_sound sessionId accountId
  minted := rfl
  owned := by simp [start]
  queued := by simp [start, fresh, construct, drainLoop, loadQueue]
  held := by simp [start, fresh, construct, drainLoop, loadQueue, Drain.held]
  posts := by simp [start, Messages.start, post?]
  inserted := by simp [start, Messages.start]
  rows := by simp [start, Messages.start]
  answered := by simp [start, fresh, construct, drainLoop, loadQueue]
  sent := by simp [start]
  heard := by simp [start]

/-! ## Without an overflow -/

/-- What a step seals fits the cap together with the queue. -/
def Fits {Envelope : Type u} {Nonce : Type v} (options : Options Envelope Nonce)
    (link : Uplink Envelope) : Event Envelope Nonce → Prop
  | .client event => ∀ new, sealed? options link.outbox event = some new →
    (link.outbox.queue.map QueuedBatch.bytes).sum + new.bytes ≤ options.maxQueueBytes
  | _ => True

/-- The own rows of the log, followed by the rest of the queue, are what was sealed, in order. The
last batch that is stored may still be queued until its answer is heard. -/
def InOrder {Envelope : Type u} (own : String → Bool) (link : Uplink Envelope) : Prop :=
  ∃ stored unsent, link.sealed = stored ++ unsent ∧
    (ownRows own link).map (fun row => (row.localId, some row.content)) =
      stored.map (fun batch => (some batch.localId, box? batch)) ∧
    (link.outbox.queue = unsent ∨
      ∃ last, stored.getLast? = some last ∧ link.outbox.queue = last :: unsent)

/-- What holds without an overflow: whatever is at work on the server is stored or is the head of
the queue, and so is what the drain holds. -/
structure Exact {Envelope : Type u} (own : String → Bool) (link : Uplink Envelope) : Prop where
  parts : InOrder own link
  head : ∀ batch, link.outbox.drain.held = some batch → link.outbox.queue.head? = some batch
  flying : ∀ request post, post? (link.server.requests request) = some post →
    own post.localId = true → Kept link.server.rows post.localId ∨
      ∃ batch, link.outbox.queue.head? = some batch ∧ batch.localId = post.localId

section Exactness
variable {Envelope : Type u} {Nonce : Type v} {options : Options Envelope Nonce}
  {own : String → Bool} {link : Uplink Envelope} {event : Outbox.Event Envelope Nonce}
  {outbox : State Envelope} {server : Messages.State}

/-- What is kept under an own identifier is one of the stored batches. -/
theorem stored_of_kept {stored : List QueuedBatch}
    (rows : (ownRows own link).map (fun row => (row.localId, some row.content)) =
      stored.map (fun batch => (some batch.localId, box? batch)))
    {localId : String} (isOwn : own localId = true) (kept : Kept link.server.rows localId) :
    localId ∈ stored.map QueuedBatch.localId := by
  obtain ⟨seq, row, member, named, _⟩ := kept
  have listed : row ∈ ownRows own link :=
    List.mem_filter.mpr ⟨member, by simpa [named] using isOwn⟩
  have paired := List.mem_map_of_mem (f := fun row : MessageItem => (row.localId, some row.content))
    listed
  rw [rows] at paired
  obtain ⟨batch, stands, same⟩ := List.mem_map.mp paired
  obtain ⟨ids, _⟩ := Prod.mk.inj same
  exact List.mem_map.mpr ⟨batch, stands, Option.some.inj (ids.trans named)⟩

/-- The head of the queue is the last stored batch if it is kept, and the first unsent one if not. -/
theorem queue_head (sound : Sound own link) {batch : QueuedBatch} {rest : List QueuedBatch}
    (queue : link.outbox.queue = batch :: rest) (parts : InOrder own link) :
    ∃ stored unsent, link.sealed = stored ++ unsent ∧
      (ownRows own link).map (fun row => (row.localId, some row.content)) =
        stored.map (fun batch => (some batch.localId, box? batch)) ∧
      (Kept link.server.rows batch.localId → rest = unsent) ∧
      (¬ Kept link.server.rows batch.localId → batch :: rest = unsent) := by
  obtain ⟨stored, unsent, sealed, rows, queued⟩ := parts
  have isOwn : own batch.localId = true :=
    sound.owned batch (sound.queued batch (by simp [queue]))
  refine ⟨stored, unsent, sealed, rows, fun kept => ?_, fun lost => ?_⟩
  · rcases queued with same | ⟨last, _, same⟩
    · have distinct : ((stored ++ unsent).map QueuedBatch.localId).Nodup :=
        sealed ▸ sound.minted ▸ sound.outbox.fresh
      rw [List.map_append] at distinct
      have listed := stored_of_kept rows isOwn kept
      have waits : batch.localId ∈ unsent.map QueuedBatch.localId :=
        List.mem_map_of_mem (by simp [← same, queue])
      exact absurd rfl ((List.nodup_append.mp distinct).2.2 _ listed _ waits)
    · exact (List.cons.inj (queue.symm.trans same)).2
  · rcases queued with same | ⟨last, ends, same⟩
    · exact queue.symm.trans same
    · obtain ⟨rfl, _⟩ := List.cons.inj (queue.symm.trans same)
      have paired : (some batch.localId, box? batch) ∈
          (ownRows own link).map (fun row => (row.localId, some row.content)) := by
        rw [rows]
        exact List.mem_map_of_mem (List.mem_of_getLast? ends)
      obtain ⟨row, member, same⟩ := List.mem_map.mp paired
      exact absurd ⟨row.seq, row, (List.mem_filter.mp member).1, (Prod.mk.inj same).1, rfl⟩ lost

/-- A step of the outbox whose batch fits keeps the order. -/
theorem Exact.client (exact : Exact own link) (sound : Sound own link)
    (fits : ∀ new, sealed? options link.outbox event = some new →
      (link.outbox.queue.map QueuedBatch.bytes).sum + new.bytes ≤ options.maxQueueBytes)
    (taken : Outbox.step options link.outbox event = some outbox) (call : Call) :
    Exact own { link with
      outbox, call, sealed := link.sealed ++ (sealed? options link.outbox event).toList } := by
  obtain ⟨effect, _⟩ := step_effect options link.outbox event outbox sound.outbox.receipts taken
  have unsealed (minted : outbox.minted = link.outbox.minted) :
      link.sealed ++ (sealed? options link.outbox event).toList = link.sealed := by
    obtain ⟨_, frame, _⟩ := step_frame taken
    have same := minted.symm.trans frame.minted
    rw [List.self_eq_append_right, List.map_eq_nil_iff] at same
    rw [same, List.append_nil]
  cases effect with
  | kept queue _ minted held =>
    rw [unsealed minted]
    refine ⟨?_, fun batch holds => queue ▸ exact.head batch (held batch holds), ?_⟩
    · simpa only [InOrder, ownRows, queue] using exact.parts
    · simpa only [queue] using exact.flying
  | appended new seals _ queue _ _ held =>
    rw [append_with_cap_fits (fits new seals)] at queue
    rw [seals]
    refine ⟨?_, fun batch holds => ?_, fun request post posted isOwn => ?_⟩
    · obtain ⟨stored, unsent, sealed, rows, queued⟩ := exact.parts
      refine ⟨stored, unsent ++ [new], by simp [sealed], rows, ?_⟩
      rcases queued with same | ⟨last, ends, same⟩
      · exact .inl (by rw [queue, same])
      · exact .inr ⟨last, ends, by rw [queue, same]; rfl⟩
    · rcases held batch holds with before | now
      · simp [queue, exact.head batch before]
      · exact now
    · refine (exact.flying request post posted isOwn).imp_right fun ⟨batch, first, named⟩ => ?_
      exact ⟨batch, by simp [queue, first], named⟩
  | dequeued batch _ settled queue _ minted held =>
    rw [unsealed minted]
    have first := exact.head batch (by rw [settled]; rfl)
    obtain ⟨rest, before⟩ : ∃ rest, link.outbox.queue = batch :: rest := List.head?_eq_some_iff.mp first
    have kept := (sound.answered _ (sound.outbox.receipts batch settled)).2
    rw [before, List.drop_one, List.tail_cons] at queue
    refine ⟨?_, held, fun request post posted isOwn => .inl ?_⟩
    · obtain ⟨stored, unsent, sealed, rows, tail, _⟩ := queue_head sound before exact.parts
      exact ⟨stored, unsent, sealed, rows, .inl (queue.trans (tail kept))⟩
    · rcases exact.flying request post posted isOwn with stored | ⟨other, same, named⟩
      · exact stored
      · obtain rfl : batch = other := Option.some.inj (first.symm.trans same)
        exact named ▸ kept
  | restarted queue _ minted held =>
    rw [unsealed minted]
    have same : outbox.queue = link.outbox.queue := queue.trans sound.outbox.mirrored
    refine ⟨?_, held, ?_⟩
    · simpa only [InOrder, ownRows, same] using exact.parts
    · simpa only [same] using exact.flying

/-- So does a post that arrives for the held batch or under an identifier that is not its own. -/
theorem Exact.arrive (exact : Exact own link) {request : Nat} {post : Messages.PostMessage}
    (carried : own post.localId = true →
      ∃ batch, link.outbox.queue.head? = some batch ∧ batch.localId = post.localId)
    (taken : Messages.step link.server (.post request post) = some server) (call : Call) :
    Exact own { link with server, call } := by
  simp only [Messages.step] at taken
  split at taken
  · cases taken
    refine ⟨exact.parts, exact.head, fun other found held isOwn => ?_⟩
    by_cases here : other = request
    · subst here
      simp only [Messages.State.move, Function.update_self, post?, Option.some.injEq] at held
      subst held
      exact .inr (carried isOwn)
    · simp only [Messages.State.move, Function.update_of_ne here] at held
      exact exact.flying other found held isOwn
  · contradiction

/-- So does a statement of the route: a commit stores the first unsent batch. -/
theorem Exact.route (exact : Exact own link) (sound : Sound own link) {statement : Messages.Event}
    (apart : isPost statement = false)
    (taken : Messages.step link.server statement = some server) (call : Call) :
    Exact own { link with server, call } := by
  have route := route_step apart taken
  refine ⟨?_, exact.head, fun request post held isOwn => ?_⟩
  · rcases route.rows with rows | ⟨request, post, row, held, rows⟩
    · simpa only [InOrder, ownRows, rows] using exact.parts
    · obtain ⟨named, content⟩ := sound.inserted request post row held
      have posted : post? (link.server.requests request) = some post := by rw [held]; rfl
      have new : ¬ Kept link.server.rows post.localId := by
        rintro ⟨seq, stored, member, same, _⟩
        have phase := sound.server.phases request
        rw [held] at phase
        exact phase.2.2.2 stored member same
      cases isOwn : own post.localId with
      | false =>
        have same : ownRows own { link with server, call } = ownRows own link := by
          simp [ownRows, rows, named, isOwn]
        obtain ⟨stored, unsent, parts⟩ := exact.parts
        exact ⟨stored, unsent, parts.1, by rw [same]; exact parts.2.1, parts.2.2⟩
      | true =>
        obtain ⟨batch, first, same⟩ := (exact.flying request post posted isOwn).resolve_left new
        obtain ⟨rest, queue⟩ := List.head?_eq_some_iff.mp first
        obtain ⟨stored, unsent, sealed, before, _, waits⟩ := queue_head sound queue exact.parts
        have ahead := waits (same ▸ new)
        obtain ⟨other, member, otherNamed, boxed⟩ := sound.posts request post posted isOwn
        have one : other = batch := by
          refine List.inj_on_of_nodup_map (sound.minted ▸ sound.outbox.fresh) member ?_
            (otherNamed.trans same.symm)
          exact sound.queued batch (by simp [queue])
        subst one
        refine ⟨stored ++ [other], rest, by simp [sealed, ← ahead], ?_,
          .inr ⟨other, by simp, queue⟩⟩
        rw [ownRows, rows, List.filter_append, List.map_append, List.map_append]
        refine congrArg₂ (· ++ ·) before ?_
        simp [named, isOwn, content, otherNamed, boxed]
  · refine (exact.flying request post (route.posts request post held) isOwn).imp_left ?_
    exact fun kept => kept.route route

end Exactness

/-- Every step that overflows nothing keeps both. -/
theorem step_exact {Envelope : Type u} {Nonce : Type v} {options : Options Envelope Nonce}
    {accountId : String} {own : String → Bool} {link next : Uplink Envelope}
    {event : Event Envelope Nonce} (sound : Sound own link) (exact : Exact own link)
    (fits : Fits options link event) (taken : step options accountId own link event = some next) :
    Exact own next := by
  cases step_does taken with
  | client _ _ stepped => exact exact.client sound fits stepped _
  | @send _ batch _ _ posting _ stepped =>
    have first := exact.head batch (by rw [posting]; rfl)
    exact exact.arrive (fun _ => ⟨batch, first, rfl⟩) stepped _
  | foreign foreign stepped => exact exact.arrive (fun isOwn => absurd isOwn foreign) stepped _
  | server apart stepped => exact exact.route sound apart stepped _
  | hear _ stepped =>
    simpa [sealed?] using exact.client sound (fun new seals => by contradiction)
      (answer_step options stepped) .quiet

theorem start_exact {Envelope : Type u} (own : String → Bool) (sessionId accountId : String) :
    Exact own (start sessionId accountId : Uplink Envelope) where
  parts := ⟨[], [], rfl, rfl, .inl rfl⟩
  head := by simp [start, fresh, construct, drainLoop, loadQueue, Drain.held]
  flying := by simp [start, Messages.start, post?]

section Runs
variable {Envelope : Type u} {Nonce : Type v} {options : Options Envelope Nonce}
  {sessionId owner accountId : String} {own : String → Bool} {events : List (Event Envelope Nonce)}
  {link : Uplink Envelope}

theorem run_sound
    (ran : Runs.run (step options accountId own) (start sessionId owner) events = some link) :
    Sound own link :=
  Runs.run_invariant (Sound own) (fun _ _ _ sound taken => step_sound sound taken)
    (start_sound own sessionId owner) ran

/-- A run that overflows nothing ends in order. -/
theorem run_in_order
    (fits : Runs.Always (step options accountId own) (fun link event _ => Fits options link event)
      (start sessionId owner) events)
    (ran : Runs.run (step options accountId own) (start sessionId owner) events = some link) :
    InOrder own link := by
  have always := Runs.always_along (fun link => Sound own link ∧ Exact own link)
    (fun link event _ => Fits options link event) (fun _ _ next => InOrder own next)
    (fun link event next ⟨sound, exact⟩ fits taken =>
      have after := step_exact sound exact fits taken
      ⟨⟨step_sound sound taken, after⟩, after.parts⟩)
    ⟨start_sound own sessionId owner, start_exact own sessionId owner⟩ fits
  exact Runs.always_run always (start_exact own sessionId owner).parts ran

end Runs

/-- A post whose answer is lost is tried again while it is still at work; its process starts anew. -/
def racingPosts : List (Event Unit Unit) :=
  [.client (.enqueue [()] ⟨"first", ()⟩), .send 0, .server (.selectSession 0),
    .server (.selectExisting 0), .client (.answer false), .client .restart, .send 1,
    .server (.selectSession 1), .server (.selectExisting 1), .server (.allocMsgSeq 1),
    .server (.insert 1 5), .server (.commit 1), .server (.allocMsgSeq 0), .server (.insert 0 6),
    .server (.selectAfterViolation 0), .server (.finish 1), .hear, .client .resume]

section Handed
variable {Envelope : Type u} {Nonce : Type v} {options : Options Envelope Nonce}

/-- What an event hands to the outbox. -/
def handed : Event Envelope Nonce → List Envelope
  | .client event => Outbox.handed event
  | _ => []

/-- A step that loses nothing of what it is handed and of what is buffered. -/
def lossless (link : Uplink Envelope) : Event Envelope Nonce → Bool
  | .client event => keeps link.outbox event
  | _ => true

/-- What was sealed and what is buffered come from what was given, in order. -/
def Accounts (options : Options Envelope Nonce) (link : Uplink Envelope) (given : List Envelope)
    (whole : Prop) : Prop :=
  ∃ said, List.Forall₂ (Seals options) said link.sealed ∧
    (said.flatten ++ link.outbox.buf).Sublist given ∧
      (whole → said.flatten ++ link.outbox.buf = given)

variable {accountId : String} {own : String → Bool} {link next : Uplink Envelope}
  {given : List Envelope} {whole : Prop}

/-- A step accounts for what it is handed as well. -/
theorem accounts_step {event : Event Envelope Nonce}
    (accounts : Accounts options link given whole)
    (taken : step options accountId own link event = some next) :
    Accounts options next (given ++ handed event) (whole ∧ lossless link event = true) := by
  have weaken (batches : next.sealed = link.sealed) (buf : next.outbox.buf = link.outbox.buf) :
      Accounts options next (given ++ []) (whole ∧ true = true) := by
    simpa [Accounts, batches, buf] using accounts
  cases step_does taken with
  | @client event _ _ _ stepped =>
    obtain ⟨said, seals, part, all⟩ := accounts
    obtain ⟨kept, frame, less, whole'⟩ := step_frame stepped
    have moved : (said.flatten ++ kept).Sublist (given ++ Outbox.handed event) :=
      ((List.Sublist.refl said.flatten).append less).trans
        (by simpa using part.append (.refl (Outbox.handed event)))
    have both (met : whole ∧ keeps link.outbox event = true) :
        said.flatten ++ kept = given ++ Outbox.handed event := by
      rw [whole' met.2, ← all met.1, List.append_assoc]
    rcases frame.carried with ⟨unsealed, buf⟩ | ⟨batch, isSealed, sealing, buf⟩
    · exact ⟨said, by simpa [unsealed] using seals, by simpa [handed, buf] using moved,
        fun met => by simpa [handed, buf] using both met⟩
    · refine ⟨said ++ [kept], ?_, by simpa [handed, buf] using moved,
        fun met => by simpa [handed, buf] using both met⟩
      simpa [isSealed] using List.rel_append seals (.cons sealing .nil)
  | send _ _ _ | foreign _ _ | server _ _ => exact weaken rfl rfl
  | hear _ stepped =>
    refine weaken rfl ?_
    simp only [answer] at stepped
    split at stepped
    · split at stepped <;> cases stepped <;> rfl
    · contradiction

/-- So does a run. -/
theorem accounts_run {events : List (Event Envelope Nonce)}
    (accounts : Accounts options link given whole)
    (ran : Runs.run (step options accountId own) link events = some next) :
    Accounts options next (given ++ events.flatMap handed)
      (whole ∧ Runs.Always (step options accountId own)
        (fun link event _ => lossless link event = true) link events) := by
  induction events generalizing link given whole with
  | nil =>
    obtain rfl := Option.some.inj ran
    simpa [Runs.Always] using accounts
  | cons event events inductionHypothesis =>
    obtain ⟨middle, taken, rest⟩ := Option.bind_eq_some_iff.mp ran
    obtain ⟨said, seals, part, all⟩ := inductionHypothesis (accounts_step accounts taken) rest
    rw [List.append_assoc, ← List.flatMap_cons] at part all
    exact ⟨said, seals, part, fun ⟨before, always⟩ =>
      have ⟨now, later⟩ := always middle taken
      all ⟨⟨before, now⟩, later⟩⟩

end Handed

end Uplink

end Kvy.Cli.Outbox
