import Kvy.General.Runs
import Kvy.Web.Crypto.WorkerHandler

/-!
# A logout among other requests

The worker starts a request as soon as it arrives and goes on with another one wherever a handler
waits. A logout is the last request to arrive. It wipes the key store, then the session store and
then the memory, while earlier requests are still under way.
-/

namespace Kvy.Web.Crypto

open General

/-- A request under way. -/
abbrev Underway := Slot Memory MemoryUpdate Operation Operation.Answer Response

/-- The worker with its requests, in the order in which they arrived. Once the logout has arrived,
its place is kept, and so is what it has wiped. -/
structure Pool where
  memory : Memory
  stores : Stores
  requests : List Underway
  logout : Option Nat
  keysWiped : Bool
  sessionWiped : Bool
  memoryWiped : Bool

/-- A request arrives, the logout arrives, what a request waits for takes effect, or a request goes
on. -/
inductive Move where
  | call (request : Request)
  | clear
  | perform (index : Nat) (choices : Choices)
  | resume (index : Nat)

namespace Pool

/-- A worker without requests. -/
def start (memory : Memory) (stores : Stores) : Pool :=
  ⟨memory, stores, [], none, false, false, false⟩

variable (primitives : Primitives)

/-- A request runs until it waits. -/
def starting (request : Request) (pool : Pool) : Pool :=
  let handler := handle primitives request
  let apply := MemoryUpdate.apply primitives
  { pool with
    memory := Routine.applyAll apply (handler.updates apply pool.memory) pool.memory
    requests := pool.requests ++ [Slot.of (handler.rest apply pool.memory)] }

/-- One move, if it is possible. No request arrives after the logout. -/
def step (pool : Pool) : Move → Option Pool
  | .call request => if pool.logout.isSome then none else some (pool.starting primitives request)
  | .clear =>
    if pool.logout.isSome then none
    else some { pool.starting primitives .clear with logout := some pool.requests.length }
  | .perform index choices =>
    match pool.requests[index]? with
    | some (.waiting operation next) =>
      let performed := Crypto.perform primitives choices operation pool.stores
      let wipes (wiping : Operation) : Bool :=
        pool.logout = some index && operation = wiping && performed.2.isSome
      some { pool with
        stores := performed.1
        requests := pool.requests.set index (.ready (next performed.2))
        keysWiped := pool.keysWiped || wipes .destroy
        sessionWiped := pool.sessionWiped || wipes .destroySession }
    | _ => none
  | .resume index =>
    match pool.requests[index]? with
    | some (.ready handler) =>
      let apply := MemoryUpdate.apply primitives
      let updates := handler.updates apply pool.memory
      some { pool with
        memory := Routine.applyAll apply updates pool.memory
        requests := pool.requests.set index (Slot.of (handler.rest apply pool.memory))
        memoryWiped :=
          pool.memoryWiped || (pool.logout = some index && updates.contains .resetMemory) }
    | _ => none

/-- All requests have finished, the logout among them. -/
def Over (pool : Pool) : Prop :=
  pool.logout.isSome ∧ ∀ request ∈ pool.requests, request.isFinished

end Pool

/-- A memory without keys and without a session. -/
structure Memory.Wiped (memory : Memory) : Prop where
  keyTree : memory.keyTree = none
  masterSecret : memory.masterSecret = none
  refreshToken : memory.refreshToken = none
  activeDek : memory.activeDek = none

/-- Nothing is left of an account. -/
structure Pool.Wiped (pool : Pool) : Prop where
  memory : pool.memory.Wiped
  key : pool.stores.key = none
  session : pool.stores.session = none

/-- A write that puts keys or a session into the memory. -/
def MemoryUpdate.Fills : MemoryUpdate → Prop
  | .deriveFrom _ | .refreshToken (some _) | .activeDek (some _) => True
  | _ => False

/-- What the logout waits for is not rejected, and no request brings back what the logout has
wiped: it stores no record once the key store is wiped, no session once the session store is, and
writes neither keys nor a session into a memory that is. -/
def Tidy (primitives : Primitives) (pool : Pool) : Move → Prop
  | .call _ | .clear => True
  | .perform index choices =>
    ∀ operation next, pool.requests[index]? = some (.waiting operation next) →
      (pool.logout = some index → operation.kind.any choices.rejects = false) ∧
      (pool.keysWiped → ∀ record, operation = .save record → choices.rejects .save) ∧
      (pool.sessionWiped → ∀ token, operation = .saveSession token → choices.rejects .saveSession)
  | .resume index =>
    ∀ handler, pool.requests[index]? = some (.ready handler) → pool.memoryWiped →
      ∀ update ∈ handler.updates (MemoryUpdate.apply primitives) pool.memory, ¬update.Fills

/-! ## How far the logout has come -/

/-- What is left of a logout once its first operation is answered. -/
def afterDestroy (answer : Option Unit) : Handler :=
  answer.elim thrown fun _ =>
    awaiting .destroySession fun _ => .write .resetMemory <| .done (.ok .null)

/-- What is left of a logout once its second operation is answered. -/
def afterDestroySession (answer : Option Unit) : Handler :=
  answer.elim thrown fun _ => .write .resetMemory <| .done (.ok .null)

/-- Where a logout stands whose operations are not rejected, with what it has wiped. -/
inductive Stage : Underway → Bool → Bool → Bool → Prop where
  | asked : Stage (.waiting .destroy afterDestroy) false false false
  | destroyed : Stage (.ready (afterDestroy (some ()))) true false false
  | leaving : Stage (.waiting .destroySession afterDestroySession) true false false
  | left : Stage (.ready (afterDestroySession (some ()))) true true false
  | finished (response : Response) : Stage (.finished response) true true true

/-- What the logout has wiped stays wiped. -/
structure Pool.Sound (pool : Pool) : Prop where
  keys : pool.keysWiped → pool.stores.key = none
  session : pool.sessionWiped → pool.stores.session = none
  memory : pool.memoryWiped → pool.memory.Wiped
  stage : ∀ index, pool.logout = some index → ∃ request, pool.requests[index]? = some request ∧
    Stage request pool.keysWiped pool.sessionWiped pool.memoryWiped
  earlier : pool.logout = none →
    pool.keysWiped = false ∧ pool.sessionWiped = false ∧ pool.memoryWiped = false

variable {primitives : Primitives}

/-- Where nothing is left undone, a finished logout has wiped everything. -/
theorem Pool.Sound.wiped {pool : Pool} (sound : pool.Sound) (ended : pool.Over) : pool.Wiped := by
  obtain ⟨left, finished⟩ := ended
  obtain ⟨index, arrived⟩ := Option.isSome_iff_exists.mp left
  obtain ⟨request, placed, stage⟩ := sound.stage index arrived
  have done := finished request (List.mem_of_getElem? placed)
  obtain ⟨memory, stores, requests, logout, keys, session, wiped⟩ := pool
  cases stage with
  | finished response => exact ⟨sound.memory rfl, sound.keys rfl, sound.session rfl⟩
  | asked | destroyed | leaving | left => simp [Slot.isFinished] at done

/-- An operation stores a record only if it is a save. -/
theorem perform_key {choices : Choices} {operation : Operation} {stores : Stores}
    (empty : stores.key = none)
    (held : ∀ record, operation = .save record → choices.rejects .save) :
    (perform primitives choices operation stores).1.key = none := by
  unfold perform
  split
  · exact empty
  · rename_i accepted
    cases operation <;> first | exact empty | rfl | skip
    exact (accepted (by simpa [Operation.kind] using held _ rfl)).elim

/-- An operation stores a session only if it is a save of one. -/
theorem perform_session {choices : Choices} {operation : Operation} {stores : Stores}
    (empty : stores.session = none)
    (held : ∀ token, operation = .saveSession token → choices.rejects .saveSession) :
    (perform primitives choices operation stores).1.session = none := by
  unfold perform
  split
  · exact empty
  · rename_i accepted
    cases operation <;> first | exact empty | rfl | skip
    exact (accepted (by simpa [Operation.kind] using held _ rfl)).elim

/-- A write that puts nothing into a wiped memory leaves it wiped. -/
theorem Memory.Wiped.apply {memory : Memory} (wiped : memory.Wiped) {update : MemoryUpdate}
    (empty : ¬update.Fills) : (update.apply primitives memory).Wiped := by
  cases update with
  | deriveFrom secret => exact (empty trivial).elim
  | loadedForAccount accountId => exact ⟨wiped.1, wiped.2, wiped.3, wiped.4⟩
  | refreshToken token =>
    cases token with
    | none => exact ⟨wiped.1, wiped.2, rfl, wiped.4⟩
    | some token => exact (empty trivial).elim
  | activeDek dek =>
    cases dek with
    | none => exact ⟨wiped.1, wiped.2, wiped.3, rfl⟩
    | some dek => exact (empty trivial).elim
  | addKeyRequest ephPub secretKey => exact ⟨wiped.1, wiped.2, wiped.3, wiped.4⟩
  | deleteKeyRequest ephPub => exact ⟨wiped.1, wiped.2, wiped.3, wiped.4⟩
  | resetMemory => exact ⟨rfl, rfl, rfl, rfl⟩

/-! ## One move -/

/-- A request that arrives keeps what holds: nothing has been wiped yet. -/
theorem sound_call {pool : Pool} (sound : pool.Sound) (request : Request)
    (early : pool.logout = none) : (pool.starting primitives request).Sound := by
  obtain ⟨keys, session, memory⟩ := sound.earlier early
  refine ⟨?_, ?_, ?_, ?_, sound.earlier⟩
  · simp [Pool.starting, keys]
  · simp [Pool.starting, session]
  · simp [Pool.starting, memory]
  · simp [Pool.starting, early]

/-- The logout that arrives waits for its first operation. -/
theorem sound_clear {pool : Pool} (sound : pool.Sound) (early : pool.logout = none) :
    { pool.starting primitives .clear with logout := some pool.requests.length }.Sound := by
  obtain ⟨keys, session, memory⟩ := sound.earlier early
  refine ⟨?_, ?_, ?_, ?_, fun impossible => nomatch impossible⟩
  · simp [Pool.starting, keys]
  · simp [Pool.starting, session]
  · simp [Pool.starting, memory]
  · intro index arrived
    cases arrived
    refine ⟨.waiting .destroy afterDestroy, ?_, ?_⟩
    · simp [Pool.starting]
      rfl
    · simpa [Pool.starting, keys, session, memory] using Stage.asked

/-- An operation that takes effect keeps what holds. -/
theorem sound_perform {pool next : Pool} (sound : pool.Sound) {index : Nat} {choices : Choices}
    (tidy : Tidy primitives pool (.perform index choices))
    (taken : pool.step primitives (.perform index choices) = some next) : next.Sound := by
  simp only [Pool.step] at taken
  split at taken
  · rename_i operation continued placed
    cases taken
    obtain ⟨accepted, saves, savesSession⟩ := tidy operation continued placed
    have inside : index < pool.requests.length := (List.getElem?_eq_some_iff.mp placed).1
    by_cases own : pool.logout = some index
    · obtain ⟨request, found, stage⟩ := sound.stage index own
      obtain rfl : request = .waiting operation continued := Option.some.inj (found.symm.trans placed)
      have performs := accepted own
      obtain ⟨memory, stores, requests, logout, keys, session, wiped⟩ := pool
      obtain rfl : logout = some index := own
      cases stage with
      | asked =>
        have effect : perform primitives choices .destroy stores =
            ({ stores with key := none }, some ()) := by
          simp [perform, performs]
        refine ⟨?_, ?_, ?_, ?_, fun impossible => nomatch impossible⟩
        · simp [effect]
        · simp
        · simp
        · intro place arrived
          cases arrived
          refine ⟨.ready (afterDestroy (some ())), ?_, ?_⟩
          · simp [effect, inside]
          · simpa [effect] using Stage.destroyed
      | leaving =>
        have effect : perform primitives choices .destroySession stores =
            ({ stores with session := none }, some ()) := by
          simp [perform, performs]
        refine ⟨?_, ?_, ?_, ?_, fun impossible => nomatch impossible⟩
        · simpa [effect] using sound.keys
        · simp [effect]
        · simp
        · intro place arrived
          cases arrived
          refine ⟨.ready (afterDestroySession (some ())), ?_, ?_⟩
          · simp [effect, inside]
          · simpa [effect] using Stage.left
    · have elsewhere (wiping : Operation) (answered : Bool) :
          (decide (pool.logout = some index) && decide (operation = wiping) && answered) = false := by
        simp [own]
      refine ⟨?_, ?_, sound.memory, ?_, ?_⟩
      · simp only [elsewhere, Bool.or_false]
        exact fun wiped => perform_key (sound.keys wiped) (saves wiped)
      · simp only [elsewhere, Bool.or_false]
        exact fun wiped => perform_session (sound.session wiped) (savesSession wiped)
      · intro place arrived
        obtain ⟨request, found, stage⟩ := sound.stage place arrived
        have apart : index ≠ place := by
          rintro rfl
          exact own arrived
        refine ⟨request, ?_, ?_⟩
        · simpa [List.getElem?_set, apart] using found
        · simpa only [elsewhere, Bool.or_false] using stage
      · intro early
        simpa only [elsewhere, Bool.or_false] using sound.earlier early
  · contradiction

/-- A request that goes on keeps what holds. -/
theorem sound_resume {pool next : Pool} (sound : pool.Sound) {index : Nat}
    (tidy : Tidy primitives pool (.resume index))
    (taken : pool.step primitives (.resume index) = some next) : next.Sound := by
  simp only [Pool.step] at taken
  split at taken
  · rename_i handler placed
    cases taken
    have empty := tidy handler placed
    have inside : index < pool.requests.length := (List.getElem?_eq_some_iff.mp placed).1
    by_cases own : pool.logout = some index
    · obtain ⟨request, found, stage⟩ := sound.stage index own
      obtain rfl : request = .ready handler := Option.some.inj (found.symm.trans placed)
      obtain ⟨memory, stores, requests, logout, keys, session, wiped⟩ := pool
      obtain rfl : logout = some index := own
      cases stage with
      | destroyed =>
        refine ⟨sound.keys, sound.session, ?_, ?_, fun impossible => nomatch impossible⟩
        · simp [afterDestroy, awaiting, Routine.updates]
        · intro place arrived
          cases arrived
          refine ⟨.waiting .destroySession afterDestroySession, ?_, ?_⟩
          · simp only [List.getElem?_set_self inside]
            rfl
          · simpa [afterDestroy, awaiting, Routine.updates] using Stage.leaving
      | left =>
        refine ⟨sound.keys, sound.session, ?_, ?_, fun impossible => nomatch impossible⟩
        · intro _
          exact ⟨rfl, rfl, rfl, rfl⟩
        · intro place arrived
          cases arrived
          refine ⟨.finished (.ok .null), ?_, ?_⟩
          · simp only [List.getElem?_set_self inside]
            rfl
          · simpa [afterDestroySession, Routine.updates] using Stage.finished (.ok .null)
    · have elsewhere (resets : Bool) :
          (decide (pool.logout = some index) && resets) = false := by
        simp [own]
      refine ⟨sound.keys, sound.session, ?_, ?_, ?_⟩
      · simp only [elsewhere, Bool.or_false]
        intro wiped
        exact Routine.applyAll_keeps (MemoryUpdate.apply primitives)
          (fun update member memory held => held.apply (empty wiped update member))
          (sound.memory wiped)
      · intro place arrived
        obtain ⟨request, found, stage⟩ := sound.stage place arrived
        have apart : index ≠ place := by
          rintro rfl
          exact own arrived
        refine ⟨request, ?_, ?_⟩
        · simpa [List.getElem?_set, apart] using found
        · simpa only [elsewhere, Bool.or_false] using stage
      · intro early
        simpa only [elsewhere, Bool.or_false] using sound.earlier early
  · contradiction

/-- A tidy move keeps what holds. -/
theorem sound_step {pool next : Pool} {move : Move} (sound : pool.Sound)
    (tidy : Tidy primitives pool move) (taken : pool.step primitives move = some next) :
    next.Sound := by
  cases move with
  | call request =>
    simp only [Pool.step] at taken
    split at taken
    · contradiction
    · rename_i early
      cases taken
      exact sound_call sound request (by simpa using early)
  | clear =>
    simp only [Pool.step] at taken
    split at taken
    · contradiction
    · rename_i early
      cases taken
      exact sound_clear sound (by simpa using early)
  | perform index choices => exact sound_perform sound tidy taken
  | resume index => exact sound_resume sound tidy taken

/-! ## Whole runs -/

/-- A worker without requests has wiped nothing yet. -/
theorem sound_idle (memory : Memory) (stores : Stores) : (Pool.start memory stores).Sound := by
  refine ⟨?_, ?_, ?_, ?_, fun _ => ⟨rfl, rfl, rfl⟩⟩ <;> intro impossible <;>
    simp [Pool.start] at *

/-- Where every move of a run is tidy, nothing is left of the account once all requests have
finished. -/
theorem tidy_logout_is_final (primitives : Primitives) (memory : Memory) (stores : Stores)
    (moves : List Move)
    (tidy : Runs.Always (Pool.step primitives) (fun pool move _ => Tidy primitives pool move)
      (Pool.start memory stores) moves) :
    Runs.Always (Pool.step primitives) (fun _ _ next => next.Over → next.Wiped)
      (Pool.start memory stores) moves := by
  apply Runs.always_under Pool.Sound (Tidy primitives)
    (fun _ _ next => next.Over → next.Wiped) ?_ (sound_idle memory stores) tidy
  intro pool move next sound met taken
  have kept := sound_step sound met taken
  exact ⟨kept, kept.wiped⟩

/-- The record is read for a description while the logout wipes it. -/
def describedWhileLeaving : List Move :=
  [.call (.describeStorage none), .clear, .perform 1 accepting, .perform 0 accepting, .resume 1,
    .perform 1 accepting, .resume 0, .resume 1]

/-- Such a logout is final. -/
theorem described_logout_is_final :
    Runs.Always (Pool.step transparent) (fun _ _ next => next.Over → next.Wiped)
      (Pool.start .fresh ⟨none, some "session", 0⟩) describedWhileLeaving := by
  refine tidy_logout_is_final transparent .fresh ⟨none, some "session", 0⟩ describedWhileLeaving ?_
  refine Runs.always_cons rfl trivial (Runs.always_cons rfl trivial ?_)
  refine Runs.always_cons rfl ?_ ?_
  · intro operation next placed
    cases placed
    exact ⟨fun _ => rfl, by rintro ⟨⟩, by rintro ⟨⟩⟩
  refine Runs.always_cons rfl ?_ ?_
  · intro operation next placed
    cases placed
    exact ⟨by rintro ⟨⟩, fun _ => by rintro _ ⟨⟩, by rintro ⟨⟩⟩
  refine Runs.always_cons rfl (fun _ _ impossible => nomatch impossible) ?_
  refine Runs.always_cons rfl ?_ ?_
  · intro operation next placed
    cases placed
    exact ⟨fun _ => rfl, fun _ => by rintro _ ⟨⟩, by rintro ⟨⟩⟩
  refine Runs.always_cons rfl (fun _ _ impossible => nomatch impossible) ?_
  exact Runs.always_cons rfl (fun _ _ impossible => nomatch impossible) trivial

/-- The server answers a refresh with new tokens. -/
def refreshed : Choices := { accepting with reply := ⟨200, some ("access", "rotated")⟩ }

/-- A refresh has sent its token when the logout arrives, and is answered when the logout has
finished. -/
def refreshedAfterLeaving : List Move :=
  [.call .refreshSession, .perform 0 accepting, .resume 0, .clear, .perform 1 accepting, .resume 1,
    .perform 1 accepting, .resume 1, .perform 0 refreshed, .resume 0, .perform 0 accepting, .resume 0,
    .perform 0 accepting, .resume 0]

/-- The rotated token is then in memory and in the session store. -/
theorem refresh_survives_logout :
    ¬Runs.Always (Pool.step transparent) (fun _ _ next => next.Over → next.Wiped)
      (Pool.start .fresh ⟨none, some "session", 0⟩) refreshedAfterLeaving := by
  intro always
  have final := Runs.always_run always (fun ended => nomatch ended.1) rfl
  exact nomatch (final ⟨rfl, by decide⟩).session

end Kvy.Web.Crypto
