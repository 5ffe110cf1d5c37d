import Kvy.General.Json
import Kvy.General.Runs
import Kvy.Server.App.Socket.RpcRateLimiter

/-!
# Calls through the RPC socket

A socket registers targets, and a call goes to a socket in the room of its target. The room is named
by the account of the caller, which its verified token fixes, and the target; the sockets of one
account never end up in a room of another one as long as accounts are named without a colon, as
`createId` names them.

A call looks for its target, waits for it for a while, is passed on to one socket, and is answered by
the acknowledgement of that socket, by the failure of it, or once the socket was missing from the
room twice in a row, whichever comes first.
-/

namespace Kvy.Server.App.Socket

open General General.Runs

/-! ## Rooms -/

/-- `rpcRoom`. -/
def rpcRoom (accountId target : String) : String := "rpc:" ++ accountId ++ ":" ++ target

/-- A name without a colon ends at the first one. -/
theorem colon_cut {first second : List Char} (plain : ':' ∉ first) (plainToo : ':' ∉ second)
    {rest other : List Char} (same : first ++ ':' :: rest = second ++ ':' :: other) :
    first = second ∧ rest = other := by
  have parts := congrArg (List.splitOn ':') same
  rw [List.splitOn_append_cons_self_of_not_mem plain,
    List.splitOn_append_cons_self_of_not_mem plainToo] at parts
  obtain rfl := (List.cons.inj parts).1
  exact ⟨rfl, (List.cons.inj (List.append_cancel_left same)).2⟩

/-- The rooms of accounts named without a colon are apart. -/
theorem room_inj {accountId other target sought : String} (plain : ':' ∉ accountId.toList)
    (plainToo : ':' ∉ other.toList) (same : rpcRoom accountId target = rpcRoom other sought) :
    accountId = other ∧ target = sought := by
  have spelled := congrArg String.toList same
  simp only [rpcRoom, String.toList_append, List.append_assoc, List.append_cancel_left_eq] at spelled
  obtain ⟨accounts, targets⟩ := colon_cut plain plainToo spelled
  exact ⟨String.toList_inj.mp accounts, String.toList_inj.mp targets⟩

/-! ## Calls -/

/-- A call with its parameters checked; `accountId` is that of its socket. -/
structure RpcCall where
  socket : Nat
  accountId : String
  target : String
  method : String
  params : Option Json

/-- What the callback of a call is given. -/
inductive RpcResponse where
  | ok (result : Json)
  | error (message : String)

/-- Where a call stands. `misses` are the presence polls in a row that missed the socket. -/
inductive CallPhase where
  | idle
  | looking (call : RpcCall)
  | waiting (call : RpcCall) (deadline : Int)
  | forwarded (call : RpcCall) (socket : Nat) (misses : Nat)
  | finished

/-- An `rpc-request` that was passed on to a socket. -/
structure RpcRequest where
  id : Nat
  call : RpcCall
  socket : Nat

/-- The sockets, their rooms in the order of joining, and the calls. The last three fields are the
history: what was registered, passed on and answered. -/
structure Hub where
  accounts : Nat → Option String
  online : List Nat
  members : List (String × Nat)
  limiter : RpcRateLimiter
  calls : Nat → CallPhase
  registered : List (Nat × String)
  requests : List RpcRequest
  callbacks : List (Nat × RpcResponse)

/-- What can happen at the socket. A lookup or a poll may fail, and brings the time when it ends. -/
inductive HubEvent where
  | connect (socket : Nat) (accountId : String)
  | disconnect (socket : Nat)
  | rpcRegister (socket : Nat) (target : Option Json)
  | rpcUnregister (socket : Nat) (target : Option Json)
  | rpcCall (id socket : Nat) (target method params : Option Json) (now : Int)
  | fetched (id : Nat) (ok : Bool) (now : Int)
  | acknowledged (id : Nat) (response : Json)
  | failed (id : Nat) (message : String)
  | polled (id : Nat) (ok : Bool)

/-- A field that is a text and not empty. -/
def textOf : Option Json → Option String
  | some (.str text) => if text = "" then none else some text
  | _ => none

namespace Hub

/-- The server as it starts. -/
def start (opts : RpcRateLimiterOptions) : Hub where
  accounts := fun _ => none
  online := []
  members := []
  limiter := .new opts
  calls := fun _ => .idle
  registered := []
  requests := []
  callbacks := []

variable (hub : Hub)

/-- `fetchRoomSockets`: nothing if it fails. -/
def fetchRoomSockets (room : String) (ok : Bool) : List Nat :=
  if ok then (hub.members.filter (fun member => member.1 = room)).map Prod.snd else []

/-- A call is at this place now. -/
def at' (id : Nat) (phase : CallPhase) : Hub :=
  { hub with calls := Function.update hub.calls id phase }

/-- The callback of a call is invoked. -/
def finish (id : Nat) (response : RpcResponse) : Hub :=
  { hub.at' id .finished with callbacks := hub.callbacks ++ [(id, response)] }

/-- The first of the sockets gets the call, unless it is the caller itself. -/
def forward (id : Nat) (call : RpcCall) (socket : Nat) : Hub :=
  if socket = call.socket then hub.finish id (.error "Cannot call RPC on the same socket")
  else { hub.at' id (.forwarded call socket 0) with
    requests := hub.requests ++ [⟨id, call, socket⟩] }

/-- The handler of `rpc-call`, up to its first lookup. -/
def rpcCall (id socket : Nat) (accountId : String) (target method params : Option Json)
    (now : Int) : Hub :=
  match textOf target, textOf method with
  | some target, some method =>
    let consumed := hub.limiter.tryConsume now accountId
    let counted := { hub with limiter := consumed.2 }
    if consumed.1 then counted.at' id (.looking ⟨socket, accountId, target, method, params⟩)
    else counted.finish id (.error "Rate limit exceeded")
  | _, _ => hub.finish id (.error "Invalid parameters: target and method are required")

/-- `RPC_RECONNECT_GRACE_MS`. -/
def reconnectGraceMs : Int := 15000

/-- One step. A socket has a new identifier for every connection. -/
def step : HubEvent → Option Hub
  | .connect socket accountId =>
    if (hub.accounts socket).isSome then none
    else some { hub with
      accounts := Function.update hub.accounts socket (some accountId)
      online := hub.online ++ [socket] }
  | .disconnect socket => some { hub with
      online := hub.online.filter (· ≠ socket)
      members := hub.members.filter (fun member => member.2 ≠ socket) }
  | .rpcRegister socket target =>
    match hub.accounts socket, textOf target with
    | some accountId, some target =>
      if socket ∈ hub.online then
        let member := (rpcRoom accountId target, socket)
        some { hub with
          members := if member ∈ hub.members then hub.members else hub.members ++ [member]
          registered := hub.registered ++ [(socket, target)] }
      else none
    | _, _ => some hub
  | .rpcUnregister socket target =>
    match hub.accounts socket, textOf target with
    | some accountId, some target => some { hub with
        members := hub.members.filter (· ≠ (rpcRoom accountId target, socket)) }
    | _, _ => some hub
  | .rpcCall id socket target method params now =>
    match hub.calls id, hub.accounts socket with
    | .idle, some accountId =>
      if socket ∈ hub.online then some (hub.rpcCall id socket accountId target method params now)
      else none
    | _, _ => none
  | .fetched id ok now =>
    match hub.calls id with
    | .looking call =>
      match hub.fetchRoomSockets (rpcRoom call.accountId call.target) ok with
      | socket :: _ => some (hub.forward id call socket)
      | [] => some (hub.at' id (.waiting call (now + reconnectGraceMs)))
    | .waiting call deadline =>
      match hub.fetchRoomSockets (rpcRoom call.accountId call.target) ok with
      | socket :: _ => some (hub.forward id call socket)
      | [] =>
        if deadline ≤ now then some (hub.finish id (.error "RPC target not available"))
        else some hub
    | _ => none
  | .acknowledged id response =>
    match hub.calls id with
    | .forwarded _ _ _ => some (hub.finish id (.ok response))
    | _ => none
  | .failed id message =>
    match hub.calls id with
    | .forwarded _ _ _ => some (hub.finish id (.error message))
    | _ => none
  | .polled id ok =>
    match hub.calls id with
    | .forwarded call socket misses =>
      if socket ∈ hub.fetchRoomSockets (rpcRoom call.accountId call.target) ok then
        some (hub.at' id (.forwarded call socket 0))
      else if 2 ≤ misses + 1 then some (hub.finish id (.error "RPC target disconnected"))
      else some (hub.at' id (.forwarded call socket (misses + 1)))
    | _ => none

/-! ## What is kept -/

/-- A socket of the call's account has registered the call's target, and is not the caller. -/
def Serves (call : RpcCall) (socket : Nat) : Prop :=
  hub.accounts socket = some call.accountId ∧ (socket, call.target) ∈ hub.registered ∧
    socket ≠ call.socket

/-- What a call at this place rests on: who calls, whether it was passed on, and to whom. -/
def PhaseSound (id : Nat) : CallPhase → Prop
  | .idle => id ∉ hub.callbacks.map Prod.fst ∧ id ∉ hub.requests.map RpcRequest.id
  | .looking call | .waiting call _ => id ∉ hub.callbacks.map Prod.fst ∧
      id ∉ hub.requests.map RpcRequest.id ∧ hub.accounts call.socket = some call.accountId
  | .forwarded _ _ _ => id ∉ hub.callbacks.map Prod.fst ∧ id ∈ hub.requests.map RpcRequest.id
  | .finished => id ∈ hub.callbacks.map Prod.fst

/-- What holds in every run. -/
structure Sound : Prop where
  plain : ∀ socket accountId, hub.accounts socket = some accountId → ':' ∉ accountId.toList
  members : ∀ member ∈ hub.members, ∃ accountId target, hub.accounts member.2 = some accountId ∧
    member.1 = rpcRoom accountId target ∧ (member.2, target) ∈ hub.registered
  phases : ∀ id, hub.PhaseSound id (hub.calls id)
  served : ∀ request ∈ hub.requests,
    hub.accounts request.call.socket = some request.call.accountId ∧
      hub.Serves request.call request.socket
  passedOnce : (hub.requests.map RpcRequest.id).Nodup
  answeredOnce : (hub.callbacks.map Prod.fst).Nodup
  answers : ∀ id result, (id, RpcResponse.ok result) ∈ hub.callbacks →
    id ∈ hub.requests.map RpcRequest.id

variable {hub} {id : Nat} {call : RpcCall} {socket : Nat} {next : Hub} {event : HubEvent}

/-- A call moves to a place that is sound. -/
theorem Sound.at' (sound : hub.Sound) {phase : CallPhase} (holds : hub.PhaseSound id phase) :
    (hub.at' id phase).Sound := by
  refine { sound with phases := fun other => ?_ }
  by_cases here : other = id
  · subst here
    simp only [Hub.at', Function.update_self]
    exact holds
  · simp only [Hub.at', Function.update_of_ne here]
    exact sound.phases other

/-- A call that is not answered yet is answered; only one that was passed on is answered well. -/
theorem Sound.finish (sound : hub.Sound) {response : RpcResponse}
    (new : id ∉ hub.callbacks.map Prod.fst)
    (passed : ∀ result, response = .ok result → id ∈ hub.requests.map RpcRequest.id) :
    (hub.finish id response).Sound := by
  have answered (other : Nat) : other ∈ (hub.finish id response).callbacks.map Prod.fst ↔
      other ∈ hub.callbacks.map Prod.fst ∨ other = id := by
    simp [Hub.finish]
  refine { sound with phases := fun other => ?_, answeredOnce := ?_, answers := ?_ }
  · by_cases here : other = id
    · subst here
      simp only [Hub.finish, Hub.at', Function.update_self]
      exact (answered other).mpr (.inr rfl)
    · have before := sound.phases other
      simp only [Hub.finish, Hub.at', Function.update_of_ne here]
      cases phase : hub.calls other with
      | finished =>
        rw [phase] at before
        exact (answered other).mpr (.inl before)
      | _ =>
        rw [phase] at before
        exact ⟨fun member => ((answered other).mp member).elim before.1 here, before.2⟩
  · simp only [Hub.finish, List.map_append, List.map_cons, List.map_nil]
    exact List.nodup_append.mpr ⟨sound.answeredOnce, List.nodup_singleton id,
      fun other member last now same => new (List.mem_singleton.mp now ▸ same ▸ member)⟩
  · intro other result member
    rcases List.mem_append.mp member with before | now
    · exact sound.answers other result before
    · obtain ⟨rfl, rfl⟩ := Prod.mk.inj (List.mem_singleton.mp now)
      exact passed result rfl

/-- A socket that is found in the room of a call serves it, unless it is the caller. -/
theorem Sound.found (sound : hub.Sound) (known : hub.accounts call.socket = some call.accountId)
    {ok : Bool} (found : socket ∈ hub.fetchRoomSockets (rpcRoom call.accountId call.target) ok)
    (other : socket ≠ call.socket) : hub.Serves call socket := by
  unfold fetchRoomSockets at found
  split at found
  · obtain ⟨member, listed, rfl⟩ := List.mem_map.mp found
    obtain ⟨joined, named⟩ := List.mem_filter.mp listed
    obtain ⟨accountId, target, own, room, registered⟩ := sound.members member joined
    obtain ⟨rfl, rfl⟩ := room_inj (sound.plain _ _ own) (sound.plain _ _ known)
      (room.symm.trans (of_decide_eq_true named))
    exact ⟨own, registered, other⟩
  · contradiction

/-- A call that looks for its target is passed on to the socket that was found. -/
theorem Sound.forward (sound : hub.Sound) (new : id ∉ hub.callbacks.map Prod.fst)
    (kept : id ∉ hub.requests.map RpcRequest.id)
    (known : hub.accounts call.socket = some call.accountId) {ok : Bool} {rest : List Nat}
    (found : hub.fetchRoomSockets (rpcRoom call.accountId call.target) ok = socket :: rest) :
    (hub.forward id call socket).Sound := by
  unfold Hub.forward
  split
  · exact sound.finish new (fun _ _ => by contradiction)
  · rename_i other
    have serves := sound.found known (found ▸ List.mem_cons_self) other
    refine { sound with phases := fun another => ?_, served := ?_, passedOnce := ?_, answers := ?_ }
    · by_cases here : another = id
      · subst here
        simp only [Hub.at', Function.update_self]
        exact ⟨new, by simp⟩
      · have before := sound.phases another
        simp only [Hub.at', Function.update_of_ne here]
        have passed : another ∈ (hub.requests ++ [(⟨id, call, socket⟩ : RpcRequest)]).map
            RpcRequest.id ↔ another ∈ hub.requests.map RpcRequest.id := by
          simp [here]
        cases phase : hub.calls another <;> rw [phase] at before
        · exact ⟨before.1, fun member => before.2 (passed.mp member)⟩
        · exact ⟨before.1, fun member => before.2.1 (passed.mp member), before.2.2⟩
        · exact ⟨before.1, fun member => before.2.1 (passed.mp member), before.2.2⟩
        · exact ⟨before.1, passed.mpr before.2⟩
        · exact before
    · intro request member
      rcases List.mem_append.mp member with before | now
      · exact sound.served request before
      · obtain rfl := List.mem_singleton.mp now
        exact ⟨known, serves⟩
    · simp only [List.map_append, List.map_cons, List.map_nil]
      exact List.nodup_append.mpr ⟨sound.passedOnce, List.nodup_singleton id,
        fun another member last now same => kept (List.mem_singleton.mp now ▸ same ▸ member)⟩
    · intro another result member
      rw [List.map_append]
      exact List.mem_append_left _ (sound.answers another result member)

/-- What becomes of a hub whose sockets and rooms change and whose calls do not. -/
theorem Sound.sockets (sound : hub.Sound) (calls : next.calls = hub.calls)
    (requests : next.requests = hub.requests) (callbacks : next.callbacks = hub.callbacks)
    (accounts : ∀ socket accountId, hub.accounts socket = some accountId →
      next.accounts socket = some accountId)
    (registered : ∀ pair ∈ hub.registered, pair ∈ next.registered)
    (plain : ∀ socket accountId, next.accounts socket = some accountId → ':' ∉ accountId.toList)
    (members : ∀ member ∈ next.members, ∃ accountId target,
      next.accounts member.2 = some accountId ∧ member.1 = rpcRoom accountId target ∧
        (member.2, target) ∈ next.registered) : next.Sound := by
  refine ⟨plain, members, fun id => ?_, fun request member => ?_, requests ▸ sound.passedOnce,
    callbacks ▸ sound.answeredOnce, ?_⟩
  · have before := sound.phases id
    rw [calls]
    cases phase : hub.calls id <;> rw [phase] at before <;>
      simp only [PhaseSound, requests, callbacks] at before ⊢
    · exact before
    · exact ⟨before.1, before.2.1, accounts _ _ before.2.2⟩
    · exact ⟨before.1, before.2.1, accounts _ _ before.2.2⟩
    · exact before
    · exact before
  · obtain ⟨known, own, served, other⟩ := sound.served request (requests ▸ member)
    exact ⟨accounts _ _ known, accounts _ _ own, registered _ served, other⟩
  · rw [callbacks, requests]
    exact sound.answers

/-- Every step keeps it, while accounts are named without a colon. -/
theorem step_sound (sound : hub.Sound)
    (plain : ∀ socket accountId, event = .connect socket accountId → ':' ∉ accountId.toList)
    (taken : hub.step event = some next) : next.Sound := by
  cases event <;> simp only [step] at taken
  case connect socket accountId =>
    obtain ⟨fresh, taken⟩ := Option.ite_none_left_eq_some.mp taken
    cases taken
    have unknown : hub.accounts socket = none := by simpa using fresh
    have kept (other : Nat) (owner : String) (known : hub.accounts other = some owner) :
        Function.update hub.accounts socket (some accountId) other = some owner := by
      have apart : other ≠ socket := by
        rintro rfl
        exact absurd (unknown.symm.trans known) (by simp)
      rwa [Function.update_of_ne apart]
    refine sound.sockets rfl rfl rfl kept (fun _ member => member) ?_ ?_
    · intro other owner known
      by_cases here : other = socket
      · subst here
        simp only [Function.update_self, Option.some.injEq] at known
        exact known ▸ plain other accountId rfl
      · simp only [Function.update_of_ne here] at known
        exact sound.plain other owner known
    · intro member joined
      obtain ⟨owner, target, known, same⟩ := sound.members member joined
      exact ⟨owner, target, kept _ _ known, same⟩
  case disconnect socket =>
    cases taken
    exact sound.sockets rfl rfl rfl (fun _ _ known => known) (fun _ member => member) sound.plain
      (fun member joined => sound.members member (List.mem_filter.mp joined).1)
  case rpcRegister socket target =>
    split at taken
    · rename_i accountId target known _
      obtain ⟨_, taken⟩ := Option.ite_none_right_eq_some.mp taken
      cases taken
      refine sound.sockets rfl rfl rfl (fun _ _ known => known)
        (fun _ member => List.mem_append_left _ member) sound.plain ?_
      have old (member) (joined : member ∈ hub.members) : ∃ accountId sought,
          hub.accounts member.2 = some accountId ∧ member.1 = rpcRoom accountId sought ∧
            (member.2, sought) ∈ hub.registered ++ [(socket, target)] := by
        obtain ⟨owner, sought, own, room, listed⟩ := sound.members member joined
        exact ⟨owner, sought, own, room, List.mem_append_left _ listed⟩
      intro member joined
      dsimp only at joined
      split at joined
      · exact old member joined
      · rcases List.mem_append.mp joined with before | now
        · exact old member before
        · obtain rfl := List.mem_singleton.mp now
          exact ⟨accountId, target, known, rfl, List.mem_append_right _ (List.mem_singleton_self _)⟩
    · cases taken
      exact sound
  case rpcUnregister socket target =>
    split at taken
    · cases taken
      exact sound.sockets rfl rfl rfl (fun _ _ known => known) (fun _ member => member) sound.plain
        (fun member joined => sound.members member (List.mem_filter.mp joined).1)
    · cases taken
      exact sound
  case rpcCall id socket target method params now =>
    split at taken
    · rename_i accountId idle known
      obtain ⟨_, taken⟩ := Option.ite_none_right_eq_some.mp taken
      cases taken
      have before := sound.phases id
      rw [idle] at before
      unfold Hub.rpcCall
      split
      · have counted : Sound { hub with limiter := (hub.limiter.tryConsume now accountId).2 } :=
          { sound with }
        dsimp only
        split
        · exact counted.at' ⟨before.1, before.2, known⟩
        · exact counted.finish before.1 (fun _ _ => by contradiction)
      · exact sound.finish before.1 (fun _ _ => by contradiction)
    · contradiction
  case fetched id ok now =>
    have before := sound.phases id
    split at taken
    · rename_i call looking
      rw [looking] at before
      split at taken <;> cases taken
      · rename_i found
        exact sound.forward before.1 before.2.1 before.2.2 found
      · exact sound.at' before
    · rename_i call deadline waiting
      rw [waiting] at before
      split at taken
      · rename_i found
        cases taken
        exact sound.forward before.1 before.2.1 before.2.2 found
      · split at taken <;> cases taken
        · exact sound.finish before.1 (fun _ _ => by contradiction)
        · exact sound
    · contradiction
  case acknowledged id response =>
    have before := sound.phases id
    split at taken
    · rename_i forwarded
      cases taken
      rw [forwarded] at before
      exact sound.finish before.1 (fun _ _ => before.2)
    · contradiction
  case failed id message =>
    have before := sound.phases id
    split at taken
    · rename_i forwarded
      cases taken
      rw [forwarded] at before
      exact sound.finish before.1 (fun _ _ => by contradiction)
    · contradiction
  case polled id ok =>
    have before := sound.phases id
    split at taken
    · rename_i forwarded
      rw [forwarded] at before
      split at taken
      · cases taken
        exact sound.at' before
      · split at taken <;> cases taken
        · exact sound.finish before.1 (fun _ _ => by contradiction)
        · exact sound.at' before
    · contradiction

theorem start_sound (opts : RpcRateLimiterOptions) : (start opts).Sound where
  plain := by simp [start]
  members := by simp [start]
  phases := fun _ => ⟨List.not_mem_nil, List.not_mem_nil⟩
  served := by simp [start]
  passedOnce := List.nodup_nil
  answeredOnce := List.nodup_nil
  answers := by simp [start]

end Hub

/-- In every run, while accounts are named without a colon, each call is passed on at most once, to
another socket of its own account that has registered its target; each call is answered at most once,
exactly when it is over, and answered well only if it was passed on. -/
theorem rpc_calls_confined (opts : RpcRateLimiterOptions) (events : List HubEvent) {hub : Hub}
    (plain : ∀ socket accountId, HubEvent.connect socket accountId ∈ events →
      ':' ∉ accountId.toList)
    (ran : run Hub.step (.start opts) events = some hub) :
    ((hub.requests.map RpcRequest.id).Nodup ∧ ∀ request ∈ hub.requests,
        hub.accounts request.call.socket = some request.call.accountId ∧
          hub.Serves request.call request.socket) ∧
      (hub.callbacks.map Prod.fst).Nodup ∧
      (∀ id, id ∈ hub.callbacks.map Prod.fst ↔ hub.calls id = .finished) ∧
      ∀ id result, (id, RpcResponse.ok result) ∈ hub.callbacks →
        id ∈ hub.requests.map RpcRequest.id := by
  have sound : hub.Sound := run_invariant_under Hub.Sound
    (fun event => ∀ socket accountId, event = .connect socket accountId → ':' ∉ accountId.toList)
    (fun _ _ _ sound plain taken => Hub.step_sound sound plain taken) (Hub.start_sound opts)
    (fun _ member socket accountId same => plain socket accountId (by rwa [same] at member)) ran
  refine ⟨⟨sound.passedOnce, sound.served⟩, sound.answeredOnce, fun id => ?_, sound.answers⟩
  have phase := sound.phases id
  constructor
  · intro answered
    cases place : hub.calls id with
    | finished => rfl
    | _ =>
      rw [place] at phase
      exact absurd answered phase.1
  · intro finished
    rwa [finished] at phase

/-- A phone calls its machine, whose socket goes away and is missed twice. -/
def missedMachine : List HubEvent :=
  [.connect 0 "a", .connect 1 "a", .rpcRegister 0 (some (.str "m:spawn")),
    .rpcCall 7 1 (some (.str "m:spawn")) (some (.str "spawn")) none 0, .fetched 7 true 1,
    .disconnect 0, .polled 7 true, .polled 7 true]

theorem missed_machine_answered_once : ∃ hub,
    run Hub.step (.start oneKey) missedMachine = some hub ∧
      hub.requests.map RpcRequest.socket = [0] ∧ (hub.callbacks.map Prod.fst).Nodup := by
  have trace : (run Hub.step (.start oneKey) missedMachine).map
      (fun hub => hub.requests.map RpcRequest.socket) = some [0] := by
    decide +kernel
  obtain ⟨hub, ran, passed⟩ := Option.map_eq_some_iff.mp trace
  refine ⟨hub, ran, passed, (rpc_calls_confined oneKey missedMachine ?_ ran).2.1⟩
  intro socket accountId member
  simp only [missedMachine, List.mem_cons, HubEvent.connect.injEq, reduceCtorEq, or_false,
    List.not_mem_nil] at member
  rcases member with ⟨_, rfl⟩ | ⟨_, rfl⟩ <;> decide

end Kvy.Server.App.Socket
