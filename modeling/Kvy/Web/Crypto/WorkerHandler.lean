import Kvy.General.OrderedMap
import Kvy.General.Routines

/-!
# The crypto worker

The worker holds the keys of one browser in its memory and wraps them into a store of one
record; the session's refresh token has a store of its own. Every request is a routine that
waits wherever its handler awaits. What the cryptographic library computes is a parameter, and
so is what comes back from a store, from the network and from random sources.
-/

namespace Kvy.Web.Crypto

open General

/-- A string of bytes. -/
abbrev Bytes := List UInt8

/-- The id of an account, which is never empty. -/
structure AccountId where
  id : String
  named : id ≠ ""
deriving DecidableEq

/-- A `CryptoKey`, which nobody can look into. -/
structure CryptoKey where
  handle : Nat
deriving DecidableEq

/-- `KeyTree`, with its public keys as they are encoded. -/
structure KeyTree where
  signPubKey : String
  contentPubKey : String
  contentSecretKey : Bytes
  signSecretKey : Bytes
  workspaceIndexKey : Bytes
deriving DecidableEq

/-- `DeviceIdentity`. -/
structure DeviceIdentity where
  signPubKey : String
  contentPubKey : String
deriving DecidableEq

/-- The public keys of a tree. -/
def KeyTree.identity (tree : KeyTree) : DeviceIdentity := ⟨tree.signPubKey, tree.contentPubKey⟩

/-- `KeyWrapMode`. -/
inductive KeyWrapMode where
  | prf
  | device
  | passkey
deriving DecidableEq

/-- `StoredKeyRecordV1`. -/
structure StoredKeyRecordV1 where
  wrapped : Bytes
  identity : DeviceIdentity
  wrappedRefreshToken : Option Bytes
deriving DecidableEq

/-- `StoredKeyRecordV2`. -/
structure StoredKeyRecordV2 where
  accountId : Option AccountId
  mode : KeyWrapMode
  wrapKey : Option CryptoKey
  credentialId : Option Bytes
  wrapped : Bytes
  identity : DeviceIdentity
deriving DecidableEq

/-- `StoredKeyRecordPasskey`. -/
structure StoredKeyRecordPasskey where
  accountId : AccountId
  credentialId : Bytes
  identity : DeviceIdentity
deriving DecidableEq

/-- `AnyStoredKeyRecord`. -/
inductive AnyStoredKeyRecord where
  | v1 (record : StoredKeyRecordV1)
  | v2 (record : StoredKeyRecordV2)
  | passkey (record : StoredKeyRecordPasskey)
deriving DecidableEq

/-- The account a record is tagged with. -/
def AnyStoredKeyRecord.accountId : AnyStoredKeyRecord → Option AccountId
  | .v1 _ => none
  | .v2 record => record.accountId
  | .passkey record => some record.accountId

/-- `identityFrom`. -/
def identityFrom : AnyStoredKeyRecord → DeviceIdentity
  | .v1 record => record.identity
  | .v2 record => record.identity
  | .passkey record => record.identity

/-- `MASTER_SECRET_BYTES`. -/
def masterSecretBytes : Nat := 32

/-- `X25519_PUBLIC_KEY_BYTES`. -/
def publicKeyBytes : Nat := 32

/-- `KEY_SHARE_PAYLOAD_VERSION`. -/
def keySharePayloadVersion : UInt8 := 2

/-- `MAX_PENDING_KEY_REQUESTS`. -/
def maxPendingKeyRequests : Nat := 4

/-- A request that uses the keys and leaves them as they are. -/
inductive KeyUse where
  | createDek (data : String)
  | hashWorkspacePath (path : String)
  | bindKeysProof (accountId : AccountId) (nonce : String)
  | sealForPeer (ephPub refreshToken : String)
  | sealKeysForPeer (ephPub : String)
deriving DecidableEq

/-- A request that uses the key of the active session. -/
inductive DekUse where
  | seal (data : String)
  | open (box : Bytes)
  | sealBlob (data : Bytes)
  | openBlob (bundle : Bytes)
deriving DecidableEq

/-- `RefreshOutcome`. -/
inductive RefreshOutcome where
  | ok (accessToken : String)
  | noCredential
  | rejected
  | unreachable
deriving DecidableEq

/-- `StorageDescription`. -/
structure StorageDescription where
  present : Bool
  version : Nat
  mode : Option KeyWrapMode
  credentialId : Option Bytes
deriving DecidableEq

/-- What a request answers. -/
inductive Result where
  | null
  | bool (value : Bool)
  | identity (value : Option DeviceIdentity)
  | storage (value : StorageDescription)
  | refresh (outcome : RefreshOutcome)
  | text (value : String)
deriving DecidableEq

/-- `CryptoWorkerResponse`, without the id of its request. -/
inductive Response where
  | ok (result : Result)
  | error (message : String)
deriving DecidableEq

/-- `@kvy/crypto/web` and `device-key.ts`, as far as they are functions. -/
structure Primitives where
  deriveKeyTree : Bytes → KeyTree
  wrapBytes : CryptoKey → Bytes → Bytes → Bytes
  unwrapBytes : CryptoKey → Bytes → Option Bytes
  unwrapWithPin : Bytes → String → Option Bytes
  decodeText : Bytes → String
  decodeBase64 : String → Bytes
  decryptWithSecretKey : Bytes → Bytes → Option Bytes
  unwrapDek : Bytes → Bytes → Option Bytes
  useKeys : KeyUse → KeyTree → Bytes → Result
  useDek : DekUse → Bytes → Result

/-! ## Memory -/

/-- What `createCryptoWorkerHandler` closes over. -/
structure Memory where
  keyTree : Option KeyTree
  masterSecret : Option Bytes
  refreshToken : Option String
  activeDek : Option Bytes
  loadedForAccount : Option AccountId
  pendingKeyRequests : OrderedMap String Bytes

/-- The memory of a fresh worker. -/
def Memory.fresh : Memory := ⟨none, none, none, none, none, .empty⟩

/-- A write to the memory. -/
inductive MemoryUpdate where
  | deriveFrom (secret : Bytes)
  | loadedForAccount (accountId : Option AccountId)
  | refreshToken (token : Option String)
  | activeDek (dek : Option Bytes)
  | addKeyRequest (ephPub : String) (secretKey : Bytes)
  | deleteKeyRequest (ephPub : String)
  | resetMemory
deriving DecidableEq

/-- The memory after a write. -/
def MemoryUpdate.apply (primitives : Primitives) (update : MemoryUpdate) (memory : Memory) :
    Memory :=
  match update with
  | .deriveFrom secret =>
    { memory with keyTree := some (primitives.deriveKeyTree secret), masterSecret := some secret }
  | .loadedForAccount accountId => { memory with loadedForAccount := accountId }
  | .refreshToken token => { memory with refreshToken := token }
  | .activeDek dek => { memory with activeDek := dek }
  | .addKeyRequest ephPub secretKey =>
    { memory with pendingKeyRequests := memory.pendingKeyRequests.set ephPub secretKey }
  | .deleteKeyRequest ephPub =>
    { memory with pendingKeyRequests := memory.pendingKeyRequests.delete ephPub }
  | .resetMemory => .fresh

/-! ## Operations -/

/-- A parsed answer of the refresh route: its status and, if it is one, the new tokens. -/
structure RefreshReply where
  status : Nat
  tokens : Option (String × String)
deriving DecidableEq

/-- What a handler awaits. A `tick` only lets others go on. -/
inductive Operation where
  | tick
  | ready
  | generateKeyPair
  | createWrapKey
  | wrapBytes (key : CryptoKey) (data : Bytes)
  | unwrapBytes (key : CryptoKey) (wrapped : Bytes)
  | unwrapWithPin (wrapped : Bytes) (pin : String)
  | load
  | save (record : AnyStoredKeyRecord)
  | destroy
  | loadSession
  | saveSession (refreshToken : String)
  | destroySession
  | fetch (refreshToken : String)
deriving DecidableEq

/-- What an operation answers. -/
abbrev Operation.Answer : Operation → Type
  | .generateKeyPair => String × Bytes
  | .createWrapKey => CryptoKey
  | .wrapBytes _ _ => Bytes
  | .unwrapBytes _ _ | .unwrapWithPin _ _ => Option Bytes
  | .load => Option AnyStoredKeyRecord
  | .loadSession => Option String
  | .fetch _ => RefreshReply
  | .tick | .ready | .save _ | .destroy | .saveSession _ | .destroySession => Unit

/-- The kinds of operations that may be rejected. -/
inductive OperationKind where
  | ready
  | createWrapKey
  | wrapBytes
  | unwrapWithPin
  | load
  | save
  | destroy
  | loadSession
  | saveSession
  | destroySession
  | fetch
deriving DecidableEq

/-- The kind of an operation, if it may be rejected. -/
def Operation.kind : Operation → Option OperationKind
  | .tick | .unwrapBytes _ _ => none
  | .ready | .generateKeyPair => some .ready
  | .createWrapKey => some .createWrapKey
  | .wrapBytes _ _ => some .wrapBytes
  | .unwrapWithPin _ _ => some .unwrapWithPin
  | .load => some .load
  | .save _ => some .save
  | .destroy => some .destroy
  | .loadSession => some .loadSession
  | .saveSession _ => some .saveSession
  | .destroySession => some .destroySession
  | .fetch _ => some .fetch

/-- The two stores, and how often the key store has been written. -/
structure Stores where
  key : Option AnyStoredKeyRecord
  session : Option String
  saves : Nat
deriving DecidableEq

/-- What is chosen outside while a request is handled: which operations are rejected, what is
random, and what the server answers. -/
structure Choices where
  rejects : OperationKind → Bool
  keyPair : String × Bytes
  wrapKey : CryptoKey
  nonce : Bytes
  reply : RefreshReply

/-- An operation takes effect, at once and as a whole. -/
def perform (primitives : Primitives) (choices : Choices) (operation : Operation)
    (stores : Stores) : Stores × Option operation.Answer :=
  if operation.kind.any choices.rejects then (stores, none)
  else
    match operation with
    | .tick | .ready => (stores, some ())
    | .generateKeyPair => (stores, some choices.keyPair)
    | .createWrapKey => (stores, some choices.wrapKey)
    | .wrapBytes key data => (stores, some (primitives.wrapBytes key choices.nonce data))
    | .unwrapBytes key wrapped => (stores, some (primitives.unwrapBytes key wrapped))
    | .unwrapWithPin wrapped pin => (stores, some (primitives.unwrapWithPin wrapped pin))
    | .load => (stores, some stores.key)
    | .save record => ({ stores with key := some record, saves := stores.saves + 1 }, some ())
    | .destroy => ({ stores with key := none }, some ())
    | .loadSession => (stores, some stores.session)
    | .saveSession refreshToken => ({ stores with session := some refreshToken }, some ())
    | .destroySession => ({ stores with session := none }, some ())
    | .fetch _ => (stores, some choices.reply)

/-! ## Handlers -/

/-- A handler, or what is left of one. -/
abbrev Handler := Routine Memory MemoryUpdate Operation Operation.Answer Response

/-- What `handle` answers when something is thrown. -/
def thrown : Handler := .done (.error "rejected")

/-- Await an operation; a rejection is thrown. -/
def awaiting (operation : Operation) (next : operation.Answer → Handler) : Handler :=
  .await operation (fun answer => answer.elim thrown next)

/-- `belongsTo`. -/
def belongsTo (record : AnyStoredKeyRecord) (accountId : Option AccountId) : Bool :=
  match accountId, record.accountId with
  | some accountId, some tagged => tagged = accountId
  | _, _ => true

/-- Whether the keys in memory may be used for an account. -/
def Memory.usableFor (memory : Memory) (accountId : Option AccountId) : Bool :=
  match accountId, memory.loadedForAccount with
  | some accountId, some loaded => loaded = accountId
  | _, _ => true

/-- A master secret of the right length. -/
def masterSecretOf (secret : Option Bytes) : Option Bytes :=
  secret.filter (fun bytes => bytes.length = masterSecretBytes)

/-- `ensureLoaded`; its caller goes on in a later tick. -/
def ensureLoaded (providedWrapKey : Option CryptoKey) (accountId : Option AccountId)
    (masterSecretFromMain : Option Bytes) (caller : Bool → Handler) : Handler :=
  let next (loaded : Bool) : Handler := awaiting .tick fun _ => caller loaded
  .read fun memory =>
    if memory.keyTree.isSome then next (memory.usableFor accountId)
    else awaiting .load fun stored =>
      match stored.filter (belongsTo · accountId) with
      | none => next false
      | some (.passkey record) =>
        match masterSecretOf masterSecretFromMain with
        | none => next false
        | some secret =>
          awaiting .ready fun _ =>
            .write (.deriveFrom secret) <|
            .write (.loadedForAccount (some (accountId.getD record.accountId))) <|
            next true
      | some (.v1 _) => next false
      | some (.v2 record) =>
        match if record.mode = .prf then providedWrapKey else record.wrapKey with
        | none => next false
        | some wrapKey =>
          awaiting (.unwrapBytes wrapKey record.wrapped) fun unwrapped =>
            match masterSecretOf unwrapped with
            | none => next false
            | some secret =>
              awaiting .ready fun _ =>
                .write (.deriveFrom secret) <|
                .write (.loadedForAccount (accountId.or record.accountId)) <|
                if accountId.isSome && record.accountId.isNone then
                  awaiting (.save (.v2 { record with accountId })) fun _ => next true
                else next true

/-- `persistKeyMaterial`; its caller goes on in a later tick. -/
def persistKeyMaterial (secret : Bytes) (tree : KeyTree) (mode : KeyWrapMode)
    (accountId : Option AccountId) (wrapKey : Option CryptoKey) (credentialId : Option Bytes)
    (caller : Handler) : Handler :=
  let next : Handler := awaiting .tick fun _ => caller
  let wrapUnder (usePrf : Bool) (effectiveKey : CryptoKey) : Handler :=
    awaiting (.wrapBytes effectiveKey secret) fun wrapped =>
      let record : StoredKeyRecordV2 :=
        { accountId
          mode := if usePrf then .prf else .device
          wrapped
          identity := tree.identity
          credentialId := if usePrf then credentialId else none
          wrapKey := if usePrf then none else some effectiveKey }
      awaiting (.save (.v2 record)) fun _ =>
        if accountId.isSome then .write (.loadedForAccount accountId) next else next
  match mode, wrapKey, credentialId with
  | .prf, some wrapKey, some _ => wrapUnder true wrapKey
  | _, _, _ => awaiting .createWrapKey (wrapUnder false)

/-- A passkey record is saved and its keys are tagged. -/
def savePasskey (tree : KeyTree) (accountId : AccountId) (credentialId : Bytes)
    (next : Handler) : Handler :=
  awaiting (.save (.passkey ⟨accountId, credentialId, tree.identity⟩)) fun _ =>
    .write (.loadedForAccount (some accountId)) next

/-- `CryptoWorkerRequest`. -/
inductive Request where
  | init (masterSecret : Bytes) (refreshToken : String) (accountId : AccountId)
      (mode : KeyWrapMode) (wrapKey : Option CryptoKey) (credentialId : Option Bytes)
  | describeStorage (accountId : Option AccountId)
  | ensureLoaded (wrapKey : Option CryptoKey) (accountId : Option AccountId)
      (masterSecret : Option Bytes)
  | migrateFromPin (pin : String) (mode : KeyWrapMode) (wrapKey : Option CryptoKey)
      (credentialId : Option Bytes)
  | setSessionKey (wrappedDek : Bytes)
  | useKeys (use : KeyUse)
  | useDek (use : DekUse)
  | clear
  | getIdentity (accountId : Option AccountId)
  | beginKeyRequest
  | acceptKeyResponse (response : String) (mode : KeyWrapMode) (wrapKey : Option CryptoKey)
      (credentialId : Option Bytes)
  | setRefreshToken (refreshToken : String)
  | refreshSession
  | claimPasskey (accountId : AccountId) (masterSecret credentialId : Bytes)
deriving DecidableEq

/-- The description of what is stored. -/
def describe : Option AnyStoredKeyRecord → StorageDescription
  | none => ⟨false, 2, none, none⟩
  | some (.passkey record) => ⟨true, 3, some .passkey, some record.credentialId⟩
  | some (.v2 record) => ⟨true, 2, some record.mode, record.credentialId⟩
  | some (.v1 _) => ⟨true, 1, none, none⟩

/-- The master secret in a key response that was sealed to one of the pending requests. -/
def sharedSecret (primitives : Primitives) (response : Bytes) (ephSecret : Bytes) :
    Option Bytes :=
  match primitives.decryptWithSecretKey response ephSecret with
  | some (version :: secret) =>
    if secret.length = masterSecretBytes ∧ version = keySharePayloadVersion then some secret
    else none
  | _ => none

/-- The first pending request that a key response answers, with the master secret. -/
def acceptedShare (primitives : Primitives) (response : Bytes) (memory : Memory) :
    Option (String × Bytes) :=
  memory.pendingKeyRequests.entries.findSome? (fun entry =>
    (sharedSecret primitives response entry.2).map (fun secret => (entry.1, secret)))

/-- What the request of a peer needs to be a public key. -/
def KeyUse.wellFormed (primitives : Primitives) : KeyUse → Bool
  | .sealForPeer ephPub _ | .sealKeysForPeer ephPub =>
    (primitives.decodeBase64 ephPub).length = publicKeyBytes
  | _ => true

/-- Whether the keys that a request uses are in memory. -/
def KeyUse.held (use : KeyUse) (memory : Memory) : Bool :=
  match use with
  | .sealForPeer _ _ | .sealKeysForPeer _ => memory.masterSecret.isSome
  | _ => memory.keyTree.isSome

/-- Use the keys, if they are in memory. -/
def useKeys (primitives : Primitives) (use : KeyUse) (missing : Response) : Handler :=
  .read fun memory =>
    match memory.keyTree, memory.masterSecret with
    | some tree, some secret => .done (.ok (primitives.useKeys use tree secret))
    | _, _ => .done missing

/-- `refreshSession`, once it has read the refresh token. -/
def refreshWith (refreshToken : Option String) : Handler :=
  match refreshToken.filter (fun token => token ≠ "") with
  | none => .done (.ok (.refresh .noCredential))
  | some refreshToken =>
    .await (.fetch refreshToken) fun answered =>
      match answered with
      | none => .done (.ok (.refresh .unreachable))
      | some reply =>
        if reply.status = 401 ∨ reply.status = 403 then .done (.ok (.refresh .rejected))
        else if reply.status < 200 ∨ 300 ≤ reply.status then
          .done (.ok (.refresh .unreachable))
        else
          awaiting .tick fun _ =>
            match reply.tokens with
            | none => .done (.ok (.refresh .unreachable))
            | some (accessToken, rotated) =>
              .write (.refreshToken (some rotated)) <|
              .await (.saveSession rotated) fun saved =>
                match saved with
                | none => .done (.ok (.refresh .unreachable))
                | some _ => .done (.ok (.refresh (.ok accessToken)))

/-- `handle`. -/
def handle (primitives : Primitives) : Request → Handler
  | .init masterSecret refreshToken accountId mode wrapKey credentialId =>
    awaiting .ready fun _ =>
      let tree := primitives.deriveKeyTree masterSecret
      let storeSession : Handler :=
        .write (.refreshToken (some refreshToken)) <|
        awaiting (.saveSession refreshToken) fun _ =>
          .write (.activeDek none) <|
          .done (.ok .null)
      .write (.deriveFrom masterSecret) <|
      if mode = .passkey then
        match credentialId with
        | none => .done (.error "passkey-mode-requires-credential-id")
        | some credentialId => savePasskey tree accountId credentialId storeSession
      else persistKeyMaterial masterSecret tree mode (some accountId) wrapKey credentialId storeSession
  | .describeStorage accountId =>
    awaiting .load fun stored =>
      .done (.ok (.storage (describe (stored.filter (belongsTo · accountId)))))
  | .ensureLoaded wrapKey accountId masterSecret =>
    ensureLoaded wrapKey accountId masterSecret fun loaded => .done (.ok (.bool loaded))
  | .migrateFromPin pin mode wrapKey credentialId =>
    awaiting .load fun stored =>
      match stored with
      | some (.v1 record) =>
        awaiting .ready fun _ => awaiting .ready fun _ =>
          awaiting (.unwrapWithPin record.wrapped pin) fun unwrapped =>
            match masterSecretOf unwrapped with
            | none => .done (.ok (.bool false))
            | some secret =>
              let upgrade : Handler :=
                .write (.deriveFrom secret) <|
                persistKeyMaterial secret (primitives.deriveKeyTree secret) mode none wrapKey
                  credentialId (.done (.ok (.bool true)))
              match record.wrappedRefreshToken with
              | none => upgrade
              | some wrappedToken =>
                awaiting (.unwrapWithPin wrappedToken pin) fun tokenBytes =>
                  match tokenBytes with
                  | none => upgrade
                  | some tokenBytes =>
                    .write (.refreshToken (some (primitives.decodeText tokenBytes))) <|
                    awaiting (.saveSession (primitives.decodeText tokenBytes)) fun _ => upgrade
      | _ => .done (.ok (.bool false))
  | .setSessionKey wrappedDek =>
    ensureLoaded none none none fun loaded =>
      .read fun memory =>
        if loaded && memory.keyTree.isSome then
          awaiting .ready fun _ =>
            .read fun memory =>
              match memory.keyTree with
              | none => thrown
              | some tree =>
                let dek := primitives.unwrapDek wrappedDek tree.contentSecretKey
                .write (.activeDek dek) <|
                .done (.ok (.bool dek.isSome))
        else .done (.error "needs-keys")
  | .useKeys use =>
    ensureLoaded none none none fun loaded =>
      .read fun memory =>
        if loaded && use.held memory then
          if use.wellFormed primitives then
            match use with
            | .hashWorkspacePath _ => useKeys primitives use (.error "needs-keys")
            | _ => awaiting .ready fun _ => useKeys primitives use (.error "rejected")
          else .done (.error "invalid-eph-pub")
        else .done (.error "needs-keys")
  | .useDek use =>
    .read fun memory =>
      match memory.activeDek with
      | none => .done (.error "no-active-session-key")
      | some dek =>
        match use with
        | .sealBlob _ | .openBlob _ => .done (.ok (primitives.useDek use dek))
        | .seal _ | .open _ => awaiting .ready fun _ => .done (.ok (primitives.useDek use dek))
  | .clear =>
    awaiting .destroy fun _ =>
      awaiting .destroySession fun _ =>
        .write .resetMemory <|
        .done (.ok .null)
  | .getIdentity accountId =>
    .read fun memory =>
      match memory.keyTree.filter
          (fun _ => memory.loadedForAccount = accountId.or memory.loadedForAccount) with
      | some tree => .done (.ok (.identity (some tree.identity)))
      | none =>
        awaiting .load fun stored =>
          .done (.ok (.identity ((stored.filter (belongsTo · accountId)).map identityFrom)))
  | .beginKeyRequest =>
    .read fun memory =>
      if maxPendingKeyRequests ≤ memory.pendingKeyRequests.entries.length then
        .done (.error "too-many-key-requests")
      else awaiting .generateKeyPair fun (ephPub, secretKey) =>
        .write (.addKeyRequest ephPub secretKey) <|
        .done (.ok (.text ephPub))
  | .acceptKeyResponse response mode wrapKey credentialId =>
    awaiting .ready fun _ =>
      .read fun memory =>
        match acceptedShare primitives (primitives.decodeBase64 response) memory with
        | none => .done (.ok (.bool false))
        | some (ephPub, secret) =>
          .write (.deriveFrom secret) <|
          .write (.deleteKeyRequest ephPub) <|
          persistKeyMaterial secret (primitives.deriveKeyTree secret) mode none wrapKey credentialId <|
          .write (.activeDek none) <|
          .done (.ok (.bool true))
  | .setRefreshToken refreshToken =>
    .write (.refreshToken (some refreshToken)) <|
    awaiting (.saveSession refreshToken) fun _ =>
      .done (.ok .null)
  | .refreshSession =>
    .read fun memory =>
      if memory.refreshToken.isSome then refreshWith memory.refreshToken
      else awaiting .loadSession fun stored =>
        .write (.refreshToken stored) <|
        refreshWith stored
  | .claimPasskey accountId masterSecret credentialId =>
    awaiting .ready fun _ =>
      .write (.deriveFrom masterSecret) <|
      savePasskey (primitives.deriveKeyTree masterSecret) accountId credentialId <|
      .write (.activeDek none) <|
      .done (.ok (.bool true))

/-! ## Inputs to run the handlers on -/

/-- A library that hides nothing. -/
def transparent : Primitives where
  deriveKeyTree secret :=
    let key := String.ofList (secret.map (fun byte => Char.ofNat byte.toNat))
    ⟨key, key, secret, secret, secret⟩
  wrapBytes _ _ data := data
  unwrapBytes _ wrapped := some wrapped
  unwrapWithPin wrapped _ := some wrapped
  decodeText bytes := String.ofList (bytes.map (fun byte => Char.ofNat byte.toNat))
  decodeBase64 text := text.toList.map (fun char => UInt8.ofNat char.toNat)
  decryptWithSecretKey sealed _ := some sealed
  unwrapDek wrapped _ := some wrapped
  useKeys _ _ _ := .null
  useDek _ _ := .null

/-- Nothing is rejected. -/
def accepting : Choices := ⟨fun _ => false, ("ephemeral", []), ⟨0⟩, [], ⟨200, none⟩⟩

end Kvy.Web.Crypto
