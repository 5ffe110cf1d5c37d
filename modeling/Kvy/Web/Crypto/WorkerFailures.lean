import Kvy.General.Runs
import Kvy.Web.Crypto.WorkerHandler

/-!
# What a failed request leaves behind

A request that replaces the keys may fail at every operation that it waits for. It derives the new
keys before it stores them, and hands the session over before that. Here any of the operations that
may be rejected is rejected on its own, in the order in which the handler comes to them.
-/

namespace Kvy.Web.Crypto

open General

/-! ## A worker -/

/-- A worker and its stores. -/
structure Worker where
  memory : Memory
  stores : Stores

/-- The worker once a secret has been derived from. -/
def Worker.holding (primitives : Primitives) (secret : Bytes) (worker : Worker) : Worker :=
  { worker with memory := (MemoryUpdate.deriveFrom secret).apply primitives worker.memory }

/-- The worker with its keys tagged. -/
def Worker.tagging (accountId : Option AccountId) (worker : Worker) : Worker :=
  { worker with memory := { worker.memory with loadedForAccount := accountId } }

/-- The worker once a record has been stored. -/
def Worker.saving (record : AnyStoredKeyRecord) (worker : Worker) : Worker :=
  { worker with stores :=
      { worker.stores with key := some record, saves := worker.stores.saves + 1 } }

/-! ## Operations that are rejected one by one -/

/-- An operation is rejected if its place among those that may be rejected says so. -/
def performAt (primitives : Primitives) (choices : Choices) (rejects : Nat → Bool)
    (operation : Operation) (outside : Stores × Nat) :
    (Stores × Nat) × Option operation.Answer :=
  let performed :=
    perform primitives { choices with rejects := fun _ => false } operation outside.1
  if operation.kind.isNone then ((performed.1, outside.2), performed.2)
  else if rejects outside.2 then ((outside.1, outside.2 + 1), none)
  else ((performed.1, outside.2 + 1), performed.2)

/-- A handler runs with no other under way, past some of the operations that may be rejected. -/
def failing (primitives : Primitives) (choices : Choices) (rejects : Nat → Bool) (place : Nat)
    (handler : Handler) (worker : Worker) : Worker × Response :=
  let handled := handler.finish (MemoryUpdate.apply primitives)
    (performAt primitives choices rejects) worker.memory (worker.stores, place)
  (⟨handled.1.1, handled.1.2.1⟩, handled.2)

/-- A request is handled with no other under way. -/
def Worker.attempt (primitives : Primitives) (choices : Choices) (rejects : Nat → Bool)
    (request : Request) (worker : Worker) : Worker × Response :=
  failing primitives choices rejects 0 (Crypto.handle primitives request) worker

variable (primitives : Primitives) (choices : Choices) (rejects : Nat → Bool)

section Steps

variable (place : Nat) (worker : Worker)

@[simp] theorem failing_done (response : Response) :
    failing primitives choices rejects place (.done response) worker = (worker, response) := rfl

@[simp] theorem failing_read (next : Memory → Handler) :
    failing primitives choices rejects place (.read next) worker =
      failing primitives choices rejects place (next worker.memory) worker := rfl

@[simp] theorem failing_write (update : MemoryUpdate) (next : Handler) :
    failing primitives choices rejects place (.write update next) worker =
      failing primitives choices rejects place next
        { worker with memory := update.apply primitives worker.memory } :=
  rfl

@[simp] theorem failing_tick (next : Unit → Handler) :
    failing primitives choices rejects place (awaiting .tick next) worker =
      failing primitives choices rejects place (next ()) worker := rfl

/-- Awaiting an operation that may be rejected either ends the handler or lets it go on. -/
theorem failing_awaiting (operation : Operation) {kind : OperationKind}
    (fallible : operation.kind = some kind) {stores : Stores} {answer : operation.Answer}
    (performed : perform primitives { choices with rejects := fun _ => false } operation
      worker.stores = (stores, some answer))
    (next : operation.Answer → Handler) :
    failing primitives choices rejects place (awaiting operation next) worker =
      if rejects place then (worker, .error "rejected")
      else failing primitives choices rejects (place + 1) (next answer) { worker with stores } := by
  have known : operation.kind.isNone = false := by rw [fallible]; rfl
  by_cases rejected : rejects place = true
  · simp [failing, awaiting, Routine.finish, performAt, known, rejected, thrown]
  · simp [failing, awaiting, Routine.finish, performAt, known, rejected, performed]

@[simp] theorem failing_ready (next : Unit → Handler) :
    failing primitives choices rejects place (awaiting .ready next) worker =
      if rejects place then (worker, .error "rejected")
      else failing primitives choices rejects (place + 1) (next ()) worker :=
  failing_awaiting primitives choices rejects place worker .ready rfl rfl next

@[simp] theorem failing_createWrapKey (next : CryptoKey → Handler) :
    failing primitives choices rejects place (awaiting .createWrapKey next) worker =
      if rejects place then (worker, .error "rejected")
      else failing primitives choices rejects (place + 1) (next choices.wrapKey) worker :=
  failing_awaiting primitives choices rejects place worker .createWrapKey rfl rfl next

@[simp] theorem failing_wrapBytes (key : CryptoKey) (data : Bytes) (next : Bytes → Handler) :
    failing primitives choices rejects place (awaiting (.wrapBytes key data) next) worker =
      if rejects place then (worker, .error "rejected")
      else failing primitives choices rejects (place + 1)
        (next (primitives.wrapBytes key choices.nonce data)) worker :=
  failing_awaiting primitives choices rejects place worker (.wrapBytes key data) rfl rfl next

@[simp] theorem failing_unwrapWithPin (wrapped : Bytes) (pin : String)
    (next : Option Bytes → Handler) :
    failing primitives choices rejects place (awaiting (.unwrapWithPin wrapped pin) next) worker =
      if rejects place then (worker, .error "rejected")
      else failing primitives choices rejects (place + 1)
        (next (primitives.unwrapWithPin wrapped pin)) worker :=
  failing_awaiting primitives choices rejects place worker (.unwrapWithPin wrapped pin) rfl rfl next

@[simp] theorem failing_load (next : Option AnyStoredKeyRecord → Handler) :
    failing primitives choices rejects place (awaiting .load next) worker =
      if rejects place then (worker, .error "rejected")
      else failing primitives choices rejects (place + 1) (next worker.stores.key) worker :=
  failing_awaiting primitives choices rejects place worker .load rfl rfl next

@[simp] theorem failing_save (record : AnyStoredKeyRecord) (next : Unit → Handler) :
    failing primitives choices rejects place (awaiting (.save record) next) worker =
      if rejects place then (worker, .error "rejected")
      else failing primitives choices rejects (place + 1) (next ()) (worker.saving record) :=
  failing_awaiting primitives choices rejects place worker (.save record) rfl rfl next

@[simp] theorem failing_saveSession (refreshToken : String) (next : Unit → Handler) :
    failing primitives choices rejects place (awaiting (.saveSession refreshToken) next) worker =
      if rejects place then (worker, .error "rejected")
      else failing primitives choices rejects (place + 1) (next ())
        { worker with stores := { worker.stores with session := some refreshToken } } :=
  failing_awaiting primitives choices rejects place worker (.saveSession refreshToken) rfl rfl next

end Steps

/-! ## Storing -/

/-- Whether `persistKeyMaterial` uses the wrap key that it is given. -/
def usePrf (mode : KeyWrapMode) (wrapKey : Option CryptoKey) (credentialId : Option Bytes) : Bool :=
  mode = .prf && wrapKey.isSome && credentialId.isSome

/-- How many operations `persistKeyMaterial` waits for that may be rejected. -/
def persistLength (mode : KeyWrapMode) (wrapKey : Option CryptoKey)
    (credentialId : Option Bytes) : Nat :=
  if usePrf mode wrapKey credentialId then 2 else 3

/-- None of these operations is rejected. -/
def persists (place : Nat) (mode : KeyWrapMode) (wrapKey : Option CryptoKey)
    (credentialId : Option Bytes) : Bool :=
  (List.range (persistLength mode wrapKey credentialId)).all (fun later => !rejects (place + later))

/-- The record that `persistKeyMaterial` stores. -/
def persistedRecord (secret : Bytes) (mode : KeyWrapMode) (accountId : Option AccountId)
    (wrapKey : Option CryptoKey) (credentialId : Option Bytes) : StoredKeyRecordV2 :=
  let usePrf := usePrf mode wrapKey credentialId
  let effectiveKey := if usePrf then wrapKey.getD choices.wrapKey else choices.wrapKey
  { accountId
    mode := if usePrf then .prf else .device
    wrapped := primitives.wrapBytes effectiveKey choices.nonce secret
    identity := (primitives.deriveKeyTree secret).identity
    credentialId := if usePrf then credentialId else none
    wrapKey := if usePrf then none else some effectiveKey }

/-- A secret is wrapped under a key and stored for an account, or nothing happens. -/
theorem wrap_attempt (place : Nat) (key : CryptoKey) (secret : Bytes)
    (accountId : Option AccountId) (record : Bytes → StoredKeyRecordV2) (caller : Handler)
    (worker : Worker) :
    failing primitives choices rejects place (awaiting (.wrapBytes key secret) fun wrapped =>
        awaiting (.save (.v2 (record wrapped))) fun _ =>
          if accountId.isSome then
            .write (.loadedForAccount accountId) (awaiting .tick fun _ => caller)
          else awaiting .tick fun _ => caller) worker =
      if !rejects place && !rejects (place + 1) then
        failing primitives choices rejects (place + 2) caller
          ((worker.saving (.v2 (record (primitives.wrapBytes key choices.nonce secret)))).tagging
            (accountId.or worker.memory.loadedForAccount))
      else (worker, .error "rejected") := by
  simp only [failing_wrapBytes, failing_save]
  cases rejects place with
  | true => simp
  | false =>
    cases rejects (place + 1) with
    | true => simp
    | false => cases accountId <;> simp [Worker.saving, Worker.tagging, MemoryUpdate.apply]

/-- `persistKeyMaterial` stores its record and tags the keys, or it does nothing. -/
theorem persist_attempt (place : Nat) (secret : Bytes) (mode : KeyWrapMode)
    (accountId : Option AccountId) (wrapKey : Option CryptoKey) (credentialId : Option Bytes)
    (caller : Handler) (worker : Worker) :
    failing primitives choices rejects place (persistKeyMaterial secret
        (primitives.deriveKeyTree secret) mode accountId wrapKey credentialId caller) worker =
      if persists rejects place mode wrapKey credentialId then
        failing primitives choices rejects (place + persistLength mode wrapKey credentialId) caller
          ((worker.saving (.v2 (persistedRecord primitives choices secret mode accountId wrapKey
            credentialId))).tagging (accountId.or worker.memory.loadedForAccount))
      else (worker, .error "rejected") := by
  cases prf : usePrf mode wrapKey credentialId with
  | true =>
    obtain ⟨⟨rfl, given⟩, known⟩ : (mode = .prf ∧ wrapKey.isSome) ∧ credentialId.isSome := by
      simpa [usePrf] using prf
    obtain ⟨key, rfl⟩ := Option.isSome_iff_exists.mp given
    obtain ⟨credential, rfl⟩ := Option.isSome_iff_exists.mp known
    refine (wrap_attempt primitives choices rejects place key secret accountId
      (fun wrapped => ⟨accountId, .prf, none, some credential, wrapped,
        (primitives.deriveKeyTree secret).identity⟩) caller worker).trans ?_
    simp [persists, persistLength, persistedRecord, prf, List.range_succ]
  | false =>
    have unfolded : persistKeyMaterial secret (primitives.deriveKeyTree secret) mode accountId
        wrapKey credentialId caller =
        awaiting .createWrapKey fun key =>
          awaiting (.wrapBytes key secret) fun wrapped =>
            awaiting (.save (.v2 ⟨accountId, .device, some key, none, wrapped,
              (primitives.deriveKeyTree secret).identity⟩)) fun _ =>
              if accountId.isSome then
                .write (.loadedForAccount accountId) (awaiting .tick fun _ => caller)
              else awaiting .tick fun _ => caller := by
      cases mode <;> cases wrapKey <;> cases credentialId <;> first | rfl | simp [usePrf] at prf
    rw [unfolded, failing_createWrapKey, wrap_attempt primitives choices rejects (place + 1)
      choices.wrapKey secret accountId (fun wrapped => ⟨accountId, .device, some choices.wrapKey,
        none, wrapped, (primitives.deriveKeyTree secret).identity⟩) caller worker]
    cases rejected : rejects place with
    | true => simp [persists, persistLength, prf, List.range_succ, rejected]
    | false =>
      simp [persists, persistLength, persistedRecord, prf, List.range_succ, rejected, Nat.add_assoc]

/-! ## What is asked of a request -/

/-- A request that replaces the keys. -/
def Request.replacesKeys : Request → Bool
  | .init .. | .claimPasskey .. | .acceptKeyResponse .. | .migrateFromPin .. => true
  | _ => false

/-- A request that replaces the keys did not do so. -/
def Response.failed : Response → Bool
  | .error _ | .ok (.bool false) => true
  | .ok _ => false

/-- The keys, the session, the tag, the pending requests and both stores are as they were. -/
@[mk_iff] structure Unchanged (before after : Worker) : Prop where
  keyTree : before.memory.keyTree = after.memory.keyTree
  masterSecret : before.memory.masterSecret = after.memory.masterSecret
  refreshToken : before.memory.refreshToken = after.memory.refreshToken
  loadedForAccount : before.memory.loadedForAccount = after.memory.loadedForAccount
  pendingKeyRequests : before.memory.pendingKeyRequests = after.memory.pendingKeyRequests
  record : before.stores.key = after.stores.key
  session : before.stores.session = after.stores.session

/-- The stored record has the public keys of the keys in memory. -/
def Agrees (worker : Worker) : Prop :=
  ∃ record ∈ worker.stores.key, ∃ tree ∈ worker.memory.keyTree, identityFrom record = tree.identity

/-- A request that replaces the keys leaves all as it was if it fails, and a record of the keys if it
does not. -/
def Orderly (worker : Worker) (request : Request) (handled : Worker × Response) : Prop :=
  request.replacesKeys → if handled.2.failed then Unchanged worker handled.1 else Agrees handled.1

/-- The keys of a secret are in memory. -/
def Memory.holds (secret : Bytes) (memory : Memory) : Prop :=
  memory.keyTree = some (primitives.deriveKeyTree secret) ∧ memory.masterSecret = some secret

/-- The record that `init` stores, if it comes to that, and the place of what it waits for next. -/
def initStores (masterSecret : Bytes) (accountId : AccountId) (mode : KeyWrapMode)
    (wrapKey : Option CryptoKey) (credentialId : Option Bytes) : Option (AnyStoredKeyRecord × Nat) :=
  if mode = .passkey then
    credentialId.bind fun credentialId =>
      if rejects 1 then none
      else some (.passkey ⟨accountId, credentialId,
        (primitives.deriveKeyTree masterSecret).identity⟩, 2)
  else if persists rejects 1 mode wrapKey credentialId then
    some (.v2 (persistedRecord primitives choices masterSecret mode (some accountId) wrapKey
      credentialId), 1 + persistLength mode wrapKey credentialId)
  else none

/-- The upgrade of a record of version one is stored, or its keys are in memory. -/
def upgrades (place : Nat) (secret : Bytes) (mode : KeyWrapMode) (wrapKey : Option CryptoKey)
    (credentialId : Option Bytes) (memory : Memory) : Prop :=
  persists rejects place mode wrapKey credentialId ∨ memory.holds primitives secret

/-- When a request that replaces the keys does no harm: it fails before it writes anything, it does
not fail, or what it writes before it fails is there already. -/
def Harmless (worker : Worker) : Request → Prop
  | .init masterSecret refreshToken accountId mode wrapKey credentialId =>
    rejects 0 ∨
      match initStores primitives choices rejects masterSecret accountId mode wrapKey
        credentialId with
      | none => worker.memory.holds primitives masterSecret
      | some (record, place) => rejects place →
        worker.memory.holds primitives masterSecret ∧
          worker.memory.loadedForAccount = some accountId ∧
          worker.memory.refreshToken = some refreshToken ∧ worker.stores.key = some record
  | .claimPasskey _ masterSecret _ =>
    rejects 0 ∨ (rejects 1 → worker.memory.holds primitives masterSecret)
  | .acceptKeyResponse response mode wrapKey credentialId =>
    rejects 0 ∨ acceptedShare primitives (primitives.decodeBase64 response) worker.memory = none ∨
      persists rejects 1 mode wrapKey credentialId
  | .migrateFromPin pin mode wrapKey credentialId =>
    rejects 0 ∨
      match worker.stores.key with
      | some (.v1 record) =>
        rejects 1 ∨ rejects 2 ∨ rejects 3 ∨
          match masterSecretOf (primitives.unwrapWithPin record.wrapped pin) with
          | none => True
          | some secret =>
            match record.wrappedRefreshToken with
            | none => upgrades primitives rejects 4 secret mode wrapKey credentialId worker.memory
            | some wrappedToken =>
              rejects 4 ∨
                match primitives.unwrapWithPin wrappedToken pin with
                | none =>
                  upgrades primitives rejects 5 secret mode wrapKey credentialId worker.memory
                | some token =>
                  let carried := some (primitives.decodeText token)
                  if rejects 5 then worker.memory.refreshToken = carried
                  else persists rejects 6 mode wrapKey credentialId ∨
                    worker.memory.refreshToken = carried ∧ worker.stores.session = carried ∧
                      worker.memory.holds primitives secret
      | _ => True
  | _ => True

/-! ## When a request is orderly -/

/-- A request whose keys are in memory and whose record is not stored. -/
theorem unchanged_holding (secret : Bytes) (worker : Worker) :
    Unchanged worker (worker.holding primitives secret) ↔
      worker.memory.holds primitives secret := by
  simp [unchanged_iff, Worker.holding, MemoryUpdate.apply, Memory.holds]

/-- `init` once it has stored a record. -/
theorem init_stored (place : Nat) (masterSecret : Bytes) (refreshToken : String)
    (accountId : AccountId) (mode : KeyWrapMode) (wrapKey : Option CryptoKey)
    (credentialId : Option Bytes) {record : AnyStoredKeyRecord} (worker : Worker)
    (same : identityFrom record = (primitives.deriveKeyTree masterSecret).identity) :
    Orderly worker (.init masterSecret refreshToken accountId mode wrapKey credentialId)
        (failing primitives choices rejects place
          (.write (.refreshToken (some refreshToken)) <|
            awaiting (.saveSession refreshToken) fun _ =>
              .write (.activeDek none) <| .done (.ok .null))
          (((worker.holding primitives masterSecret).saving record).tagging (some accountId))) ↔
      (rejects place → worker.memory.holds primitives masterSecret ∧
        worker.memory.loadedForAccount = some accountId ∧
        worker.memory.refreshToken = some refreshToken ∧ worker.stores.key = some record) := by
  simp only [failing_write, failing_saveSession]
  cases rejects place with
  | true =>
    simp only [Orderly, Request.replacesKeys, Response.failed, unchanged_iff, Worker.holding,
      Worker.saving, Worker.tagging, MemoryUpdate.apply, Memory.holds, if_true, true_implies]
    tauto
  | false =>
    simp [Orderly, Response.failed, Agrees, Worker.holding, Worker.saving, Worker.tagging,
      MemoryUpdate.apply, same]

theorem orderly_init (masterSecret : Bytes) (refreshToken : String) (accountId : AccountId)
    (mode : KeyWrapMode) (wrapKey : Option CryptoKey) (credentialId : Option Bytes)
    (worker : Worker) :
    Orderly worker (.init masterSecret refreshToken accountId mode wrapKey credentialId)
        (worker.attempt primitives choices rejects
          (.init masterSecret refreshToken accountId mode wrapKey credentialId)) ↔
      Harmless primitives choices rejects worker
        (.init masterSecret refreshToken accountId mode wrapKey credentialId) := by
  have unstored (message : String) :
      Orderly worker (.init masterSecret refreshToken accountId mode wrapKey credentialId)
          (worker.holding primitives masterSecret, .error message) ↔
        worker.memory.holds primitives masterSecret := by
    simp [Orderly, Request.replacesKeys, Response.failed, unchanged_holding]
  simp only [Worker.attempt, Crypto.handle, failing_ready, Harmless]
  cases rejects 0 with
  | true => simp [Orderly, Response.failed, unchanged_iff]
  | false =>
    simp only [Bool.false_eq_true, if_false, false_or]
    by_cases passkey : mode = .passkey
    · cases credentialId with
      | none =>
        simp only [passkey, if_true, initStores, Option.bind_none]
        exact passkey ▸ unstored _
      | some credentialId =>
        simp only [failing_write, if_pos passkey, initStores, Option.bind_some, savePasskey,
          failing_save]
        cases rejects 1 with
        | true => exact unstored _
        | false =>
          exact init_stored primitives choices rejects 2 masterSecret refreshToken accountId mode
            wrapKey (some credentialId) worker rfl
    · simp only [failing_write, if_neg passkey, initStores]
      refine (iff_of_eq (congrArg (Orderly worker _) (persist_attempt primitives choices rejects 1
        masterSecret mode (some accountId) wrapKey credentialId _
        (worker.holding primitives masterSecret)))).trans ?_
      cases persists rejects 1 mode wrapKey credentialId with
      | true =>
        exact init_stored primitives choices rejects _ masterSecret refreshToken accountId mode
          wrapKey credentialId worker rfl
      | false => exact unstored _

theorem orderly_claimPasskey (accountId : AccountId) (masterSecret credentialId : Bytes)
    (worker : Worker) :
    Orderly worker (.claimPasskey accountId masterSecret credentialId)
        (worker.attempt primitives choices rejects
          (.claimPasskey accountId masterSecret credentialId)) ↔
      Harmless primitives choices rejects worker
        (.claimPasskey accountId masterSecret credentialId) := by
  simp only [Worker.attempt, Crypto.handle, failing_ready, Harmless, failing_write, savePasskey,
    failing_save, failing_done]
  cases rejects 0 with
  | true => simp [Orderly, Response.failed, unchanged_iff]
  | false =>
    cases rejects 1 with
    | true =>
      have unstored := unchanged_holding primitives masterSecret worker
      simpa [Orderly, Request.replacesKeys, Response.failed, Worker.holding] using unstored
    | false =>
      simp [Orderly, Response.failed, Agrees, Worker.saving, MemoryUpdate.apply, identityFrom]

/-- An answered key request is one of the pending ones, so deleting it is a change. -/
theorem share_deleted {response : Bytes} {memory : Memory} {ephPub : String} {secret : Bytes}
    (accepted : acceptedShare primitives response memory = some (ephPub, secret)) :
    memory.pendingKeyRequests ≠ memory.pendingKeyRequests.delete ephPub := by
  obtain ⟨entry, member, opened⟩ := List.exists_of_findSome?_eq_some accepted
  obtain ⟨found, _, same⟩ := Option.map_eq_some_iff.mp opened
  obtain ⟨rfl, _⟩ := Prod.mk.inj same
  have pending := (memory.pendingKeyRequests.mem_entries entry.1 entry.2).mp member
  intro unchanged
  rw [unchanged, OrderedMap.get_delete, if_pos rfl] at pending
  contradiction

theorem orderly_acceptKeyResponse (response : String) (mode : KeyWrapMode)
    (wrapKey : Option CryptoKey) (credentialId : Option Bytes) (worker : Worker) :
    Orderly worker (.acceptKeyResponse response mode wrapKey credentialId)
        (worker.attempt primitives choices rejects
          (.acceptKeyResponse response mode wrapKey credentialId)) ↔
      Harmless primitives choices rejects worker
        (.acceptKeyResponse response mode wrapKey credentialId) := by
  simp only [Worker.attempt, Crypto.handle, failing_ready, failing_read, Harmless]
  cases rejects 0 with
  | true => simp [Orderly, Response.failed, unchanged_iff]
  | false =>
    cases accepted : acceptedShare primitives (primitives.decodeBase64 response) worker.memory with
    | none => simp [Orderly, Response.failed, unchanged_iff]
    | some share =>
      obtain ⟨ephPub, secret⟩ := share
      simp only [Bool.false_eq_true, if_false, failing_write, persist_attempt, failing_done]
      cases persists rejects 1 mode wrapKey credentialId with
      | true =>
        simp [Orderly, Response.failed, Agrees, Worker.saving, Worker.tagging, MemoryUpdate.apply,
          identityFrom, persistedRecord]
      | false =>
        have deleted := share_deleted primitives accepted
        simp [Orderly, Request.replacesKeys, Response.failed, unchanged_iff, MemoryUpdate.apply,
          deleted]

/-- The rest of a migration, once it has opened the master secret. -/
theorem migrate_upgrades (place : Nat) (pin : String) (secret : Bytes) (mode : KeyWrapMode)
    (wrapKey : Option CryptoKey) (credentialId : Option Bytes) (before worker : Worker)
    (pending : before.memory.pendingKeyRequests = worker.memory.pendingKeyRequests)
    (tag : before.memory.loadedForAccount = worker.memory.loadedForAccount)
    (record : before.stores.key = worker.stores.key) :
    Orderly before (.migrateFromPin pin mode wrapKey credentialId)
        (failing primitives choices rejects place (.write (.deriveFrom secret) <|
          persistKeyMaterial secret (primitives.deriveKeyTree secret) mode none wrapKey
            credentialId (.done (.ok (.bool true)))) worker) ↔
      persists rejects place mode wrapKey credentialId ∨
        before.memory.refreshToken = worker.memory.refreshToken ∧
          before.stores.session = worker.stores.session ∧
            before.memory.holds primitives secret := by
  simp only [failing_write, persist_attempt, failing_done]
  cases persists rejects place mode wrapKey credentialId with
  | true =>
    simp [Orderly, Response.failed, Agrees, Worker.saving, Worker.tagging, MemoryUpdate.apply,
      identityFrom, persistedRecord]
  | false =>
    simp only [Orderly, Request.replacesKeys, Response.failed, unchanged_iff, MemoryUpdate.apply,
      Memory.holds, Bool.false_eq_true, if_false, if_true, true_implies, false_or]
    tauto

/-- A migration that carries the session across. -/
theorem migrate_carries (place : Nat) (pin token : String) (secret : Bytes) (mode : KeyWrapMode)
    (wrapKey : Option CryptoKey) (credentialId : Option Bytes) (worker : Worker) :
    Orderly worker (.migrateFromPin pin mode wrapKey credentialId)
        (failing primitives choices rejects place (.write (.refreshToken (some token)) <|
          awaiting (.saveSession token) fun _ => .write (.deriveFrom secret) <|
            persistKeyMaterial secret (primitives.deriveKeyTree secret) mode none wrapKey
              credentialId (.done (.ok (.bool true)))) worker) ↔
      if rejects place then worker.memory.refreshToken = some token
      else persists rejects (place + 1) mode wrapKey credentialId ∨
        worker.memory.refreshToken = some token ∧ worker.stores.session = some token ∧
          worker.memory.holds primitives secret := by
  rw [failing_write, failing_saveSession]
  cases rejects place with
  | true =>
    simp [Orderly, Request.replacesKeys, Response.failed, unchanged_iff, MemoryUpdate.apply]
  | false =>
    exact migrate_upgrades primitives choices rejects (place + 1) pin secret mode wrapKey
      credentialId worker _ rfl rfl rfl

theorem orderly_migrateFromPin (pin : String) (mode : KeyWrapMode) (wrapKey : Option CryptoKey)
    (credentialId : Option Bytes) (worker : Worker) :
    Orderly worker (.migrateFromPin pin mode wrapKey credentialId)
        (worker.attempt primitives choices rejects
          (.migrateFromPin pin mode wrapKey credentialId)) ↔
      Harmless primitives choices rejects worker
        (.migrateFromPin pin mode wrapKey credentialId) := by
  have unchanged (response : Response) (failed : response.failed) :
      Orderly worker (.migrateFromPin pin mode wrapKey credentialId) (worker, response) := by
    simp [Orderly, failed, unchanged_iff]
  have upgraded (place : Nat) (secret : Bytes) :=
    migrate_upgrades primitives choices rejects place pin secret mode wrapKey credentialId worker
      worker rfl rfl rfl
  simp only [true_and] at upgraded
  simp only [Worker.attempt, Crypto.handle, failing_load, Harmless]
  cases rejects 0 with
  | true => exact iff_of_true (unchanged _ rfl) (.inl rfl)
  | false =>
    simp only [Bool.false_eq_true, if_false, false_or]
    cases worker.stores.key with
    | none => exact iff_of_true (unchanged _ rfl) trivial
    | some stored =>
    cases stored with
    | v2 _ => exact iff_of_true (unchanged _ rfl) trivial
    | passkey _ => exact iff_of_true (unchanged _ rfl) trivial
    | v1 record =>
      simp only [failing_ready, failing_unwrapWithPin]
      cases rejects 1 with
      | true => exact iff_of_true (unchanged _ rfl) (.inl rfl)
      | false =>
      cases rejects 2 with
      | true => exact iff_of_true (unchanged _ rfl) (.inr (.inl rfl))
      | false =>
      cases rejects 3 with
      | true => exact iff_of_true (unchanged _ rfl) (.inr (.inr (.inl rfl)))
      | false =>
        simp only [Bool.false_eq_true, if_false, false_or]
        cases masterSecretOf (primitives.unwrapWithPin record.wrapped pin) with
        | none => exact iff_of_true (unchanged _ rfl) trivial
        | some secret =>
          cases record.wrappedRefreshToken with
          | none => exact upgraded 4 secret
          | some wrappedToken =>
            simp only [failing_unwrapWithPin]
            cases rejects 4 with
            | true => exact iff_of_true (unchanged _ rfl) (.inl rfl)
            | false =>
              simp only [Bool.false_eq_true, if_false, false_or]
              cases primitives.unwrapWithPin wrappedToken pin with
              | none => exact upgraded 5 secret
              | some token =>
                exact migrate_carries primitives choices rejects 5 pin _ secret mode wrapKey
                  credentialId worker

/-- A request is orderly exactly if it does no harm. -/
theorem orderly_iff (worker : Worker) (request : Request) :
    Orderly worker request (worker.attempt primitives choices rejects request) ↔
      Harmless primitives choices rejects worker request := by
  cases request with
  | init masterSecret refreshToken accountId mode wrapKey credentialId =>
    exact orderly_init primitives choices rejects masterSecret refreshToken accountId mode wrapKey
      credentialId worker
  | claimPasskey accountId masterSecret credentialId =>
    exact orderly_claimPasskey primitives choices rejects accountId masterSecret credentialId worker
  | acceptKeyResponse response mode wrapKey credentialId =>
    exact orderly_acceptKeyResponse primitives choices rejects response mode wrapKey credentialId
      worker
  | migrateFromPin pin mode wrapKey credentialId =>
    exact orderly_migrateFromPin primitives choices rejects pin mode wrapKey credentialId worker
  | describeStorage | ensureLoaded | setSessionKey | useKeys | useDek | clear | getIdentity
  | beginKeyRequest | setRefreshToken | refreshSession =>
    exact iff_of_true (fun replaces => absurd replaces Bool.false_ne_true) trivial

/-! ## Runs -/

/-- A request, with what is chosen outside while it is handled and which operations are rejected. -/
structure Handling where
  choices : Choices
  rejects : Nat → Bool
  request : Request

/-- A request is handled after the ones before. -/
def Handling.step (primitives : Primitives) (worker : Worker) (handling : Handling) :
    Option Worker :=
  some (worker.attempt primitives handling.choices handling.rejects handling.request).1

/-- What is asked of a request holds when it is handled. -/
def Handling.Orderly (primitives : Primitives) (worker : Worker) (handling : Handling) : Prop :=
  Crypto.Orderly worker handling.request
    (worker.attempt primitives handling.choices handling.rejects handling.request)

/-- In every run, a request leaves the keys as they were when it fails, and a record of them when it
does not, exactly if it does no harm. -/
theorem harmless_requests_orderly (primitives : Primitives) (worker : Worker)
    (handled : List Handling) :
    Runs.Always (Handling.step primitives)
      (fun before handling _ => handling.Orderly primitives before ↔
        Harmless primitives handling.choices handling.rejects before handling.request)
      worker handled :=
  Runs.always_invariant (fun _ => True) _
    (fun before handling _ _ _ => ⟨trivial, orderly_iff primitives handling.choices
      handling.rejects before handling.request⟩) handled trivial

/-- Requests that fail leave the keys as they were: not so. Keys of one account are in memory when a
passkey of another one is claimed and its record cannot be saved. -/
theorem failed_claim_replaces_keys :
    ¬∀ (primitives : Primitives) (worker : Worker) (handled : List Handling),
      Runs.Always (Handling.step primitives)
        (fun before handling _ => handling.Orderly primitives before) worker handled := by
  intro orderly
  have alice : AccountId := ⟨"alice", by decide⟩
  have bob : AccountId := ⟨"bob", by decide⟩
  have always := orderly transparent ⟨.fresh, ⟨none, none, 0⟩⟩
    [⟨accepting, fun _ => false, .init (List.replicate 32 1) "session" alice .device none none⟩,
      ⟨accepting, fun place => place = 1, .claimPasskey bob (List.replicate 32 2) []⟩]
  have claimed := ((always _ rfl).2 _ rfl).1 rfl
  have same : some (List.replicate 32 (1 : UInt8)) = some (List.replicate 32 2) :=
    claimed.masterSecret
  exact absurd same (by decide)

end Kvy.Web.Crypto
