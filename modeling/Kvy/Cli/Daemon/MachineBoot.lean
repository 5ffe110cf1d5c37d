import Kvy.General.Runs
import Kvy.Server.App.StructuralWrites

/-!
# The machine of a daemon

A daemon registers its machine with a key of its own, wrapped for the account. The id of the machine
and the wrapped key are kept in the daemon's state file, from which the next boot takes both: it
resumes the machine under the key. The server never changes the key of a machine.

A boot takes many steps, and it may end after any of them. Meanwhile other clients write machines,
the file may be removed, and the master secret of the account may be replaced.
-/

namespace Kvy.Cli.Daemon

open General Wire Server.Db Server.App

/-! ## The state file -/

/-- `DaemonState`. -/
structure DaemonState where
  pid : Nat
  port : Nat
  version : String
  startedAt : Nat
  machineId : Option String
  wrappedDek : Option String
deriving DecidableEq

/-- `wrapDek` and `unwrapDek` as base64, for the content keys of a master secret. What is wrapped is
unwrapped with the same secret; nothing is wrapped in an empty text. -/
structure DekWrap (Secret Dek : Type) where
  wrapDek : Dek → Secret → (nonce : Nat) → String
  unwrapDek : String → Secret → Option Dek
  unwraps : ∀ dek secret nonce, unwrapDek (wrapDek dek secret nonce) secret = some dek
  empty : ∀ secret, unwrapDek "" secret = none

/-! ## The route -/

/-- The body of `POST /v1/machines`. -/
structure MachinePost where
  machineId : Option String
  dek : Option String
  metadata : EncryptedBox
  expectedMetadata : Nat
  daemonState : Option (EncryptedBox × Nat)

/-- What the route answers, as far as the client reads it. -/
inductive MachineAnswer where
  | created (machineId : String)
  | updated (machineId : String)
  | badRequest
  | notFound
  | conflict (metadataVersion daemonStateVersion : Nat)

/-- `POST /v1/machines`, with the id and the time that a new row gets. -/
def postMachines (machines : OrderedMap String MachineRecord) (accountId : String)
    (post : MachinePost) (id : String) (now : Int) :
    OrderedMap String MachineRecord × MachineAnswer :=
  match post.machineId.filter (· ≠ "") with
  | none =>
    match post.dek.filter (· ≠ "") with
    | none => (machines, .badRequest)
    | some dek =>
      (machines.set id
        { id, accountId, dek
          metadata := post.metadata
          metadataVersion := 0
          daemonState := post.daemonState.map Prod.fst
          daemonStateVersion := 0
          lastSeenAt := some now }, .created id)
  | some machineId =>
    match (machines.get? machineId).filter (fun row => row.accountId = accountId) with
    | none => (machines, .notFound)
    | some row =>
      if row.metadataVersion ≠ post.expectedMetadata ∨
          post.daemonState.any (fun state => row.daemonStateVersion ≠ state.2) then
        (machines, .conflict row.metadataVersion
          (if row.daemonState.isSome then row.daemonStateVersion else 0))
      else
        (machines.set machineId (updatedMachine post.metadata post.daemonState now row),
          .updated machineId)

/-! ## A boot -/

/-- Where `startMachineIntegration` stands. A state that was read is held until it is written. -/
inductive BootStage (Dek : Type) where
  | reading
  | keyed (dek : Dek) (wrappedDek : String)
  | posting (dek : Dek) (wrappedDek : String) (machineId : Option String)
      (metadataVersion daemonStateVersion left : Nat)
  | registered (dek : Dek) (wrappedDek machineId : String)
  | mergingId (dek : Dek) (wrappedDek machineId : String) (existing : DaemonState)
  | persistedId (dek : Dek) (wrappedDek machineId : String)
  | mergingDek (dek : Dek) (wrappedDek machineId : String) (existing : DaemonState)
  | serving (dek : Dek) (machineId : String)

/-- A boot, with the master secret that it started with. -/
structure Boot (Secret Dek : Type) where
  secret : Secret
  stage : BootStage Dek

/-- The account and its machines, the file of one home directory and the boot that is under way.
`used` are the ids that machines have had. -/
structure MachineWorld (Secret Dek : Type) where
  accountId : String
  maxCasRetries : Nat
  secret : Secret
  file : Option DaemonState
  machines : OrderedMap String MachineRecord
  used : List String
  boot : Option (Boot Secret Dek)

/-- What can happen. -/
inductive MachineEvent (Secret Dek : Type) where
  /-- The daemon starts, and it carries the machine over from the file to the file. -/
  | boot (pid port : Nat) (version : String) (startedAt : Nat)
  /-- A running daemon starts the integration again. -/
  | reload
  /-- The key is read from the file, or the given one is taken. -/
  | readDek (fresh : Dek) (nonce : Nat)
  | readMachineId
  /-- The route handles a request, with the boxes that were sealed for it; its answer arrives or is
  lost. -/
  | post (metadata daemonState : EncryptedBox) (id : String) (now : Int) (heard : Bool)
  | readForId
  | writeId
  | readForDek
  | writeDek
  /-- The boot fails, crashes or is stopped. -/
  | finish
  /-- The file is removed, or a crash in the middle of a write leaves it unreadable. -/
  | clear
  | replaceSecret (secret : Secret)
  /-- Another client's request. -/
  | otherPost (accountId : String) (post : MachinePost) (id : String) (now : Int)
  | deleteMachine (id : String)

namespace MachineWorld

variable {Secret Dek : Type}

/-- The boot goes to a stage. -/
def move (world : MachineWorld Secret Dek) (boot : Boot Secret Dek) (stage : BootStage Dek) :
    MachineWorld Secret Dek := { world with boot := some { boot with stage } }

/-- The payload of a boot. -/
def payload (file : Option DaemonState) (pid port : Nat) (version : String) (startedAt : Nat) :
    DaemonState where
  pid := pid
  port := port
  version := version
  startedAt := startedAt
  machineId := file.bind DaemonState.machineId
  wrappedDek := file.bind DaemonState.wrappedDek

/-- The key of a boot: the one in the file where it opens, otherwise a fresh one. -/
def chooseDek (keys : DekWrap Secret Dek) (file : Option DaemonState) (secret : Secret) (fresh : Dek)
    (nonce : Nat) : Dek × String :=
  match (file.bind DaemonState.wrappedDek).filter (· ≠ "") with
  | some previous =>
    match keys.unwrapDek previous secret with
    | some dek => (dek, previous)
    | none => (fresh, keys.wrapDek fresh secret nonce)
  | none => (fresh, keys.wrapDek fresh secret nonce)

/-- The body of the next request. A machine that is registered is given its key. -/
def request (wrappedDek : String) (machineId : Option String)
    (metadataVersion daemonStateVersion : Nat) (metadata daemonState : EncryptedBox) : MachinePost where
  machineId := machineId
  dek := if machineId.isSome then none else some wrappedDek
  metadata := metadata
  expectedMetadata := metadataVersion
  daemonState := some (daemonState, daemonStateVersion)

/-- What `registerOrResumeMachine` does with an answer. -/
def hear (world : MachineWorld Secret Dek) (boot : Boot Secret Dek) (dek : Dek) (wrappedDek : String)
    (machineId : Option String) (left : Nat) : MachineAnswer → MachineWorld Secret Dek
  | .created id | .updated id => world.move boot (.registered dek wrappedDek id)
  | .badRequest => { world with boot := none }
  | .notFound =>
    -- A remembered machine that is gone is registered anew.
    if machineId.isSome then world.move boot (.posting dek wrappedDek none 0 0 1)
    else { world with boot := none }
  | .conflict metadataVersion daemonStateVersion =>
    if machineId.isSome ∧ 0 < left then
      world.move boot (.posting dek wrappedDek machineId metadataVersion daemonStateVersion left)
    else { world with boot := none }

/-- A request is handled. New rows get ids that were never used. -/
def handle (world : MachineWorld Secret Dek) (accountId : String) (post : MachinePost) (id : String)
    (now : Int) : Option (MachineWorld Secret Dek × MachineAnswer) :=
  let (machines, answer) := postMachines world.machines accountId post id now
  match answer with
  | .created _ =>
    if id ∈ world.used ∨ id = "" then none
    else some ({ world with machines, used := id :: world.used }, answer)
  | _ => some ({ world with machines }, answer)

/-- One step. -/
def step (keys : DekWrap Secret Dek) (world : MachineWorld Secret Dek) :
    MachineEvent Secret Dek → Option (MachineWorld Secret Dek)
  | .boot pid port version startedAt =>
    if world.boot.isSome then none
    else some
      { world with
        file := some (payload world.file pid port version startedAt)
        boot := some ⟨world.secret, .reading⟩ }
  | .reload =>
    match world.boot with
    | none => some { world with boot := some ⟨world.secret, .reading⟩ }
    | some ⟨_, .serving _ _⟩ => some { world with boot := some ⟨world.secret, .reading⟩ }
    | _ => none
  | .readDek fresh nonce =>
    match world.boot with
    | some ⟨secret, .reading⟩ =>
      let (dek, wrappedDek) := chooseDek keys world.file secret fresh nonce
      some (world.move ⟨secret, .reading⟩ (.keyed dek wrappedDek))
    | _ => none
  | .readMachineId =>
    match world.boot with
    | some ⟨secret, .keyed dek wrappedDek⟩ =>
      match (world.file.bind DaemonState.machineId).filter (· ≠ "") with
      | none => some (world.move ⟨secret, .keyed dek wrappedDek⟩ (.posting dek wrappedDek none 0 0 1))
      | some machineId => some (world.move ⟨secret, .keyed dek wrappedDek⟩
          (.posting dek wrappedDek (some machineId) 0 0 world.maxCasRetries))
    | _ => none
  | .post metadata daemonState id now heard =>
    match world.boot with
    | some ⟨secret, .posting dek wrappedDek machineId metadataVersion daemonStateVersion (left + 1)⟩ =>
      match world.handle world.accountId
        (request wrappedDek machineId metadataVersion daemonStateVersion metadata daemonState) id now with
      | some (handled, answer) =>
        if heard then some (handled.hear ⟨secret, .reading⟩ dek wrappedDek machineId left answer)
        else some { handled with boot := none }
      | none => none
    | _ => none
  | .readForId =>
    match world.boot with
    | some ⟨secret, .registered dek wrappedDek machineId⟩ =>
      match world.file.filter (fun state => state.machineId ≠ some machineId) with
      | none => some (world.move ⟨secret, .reading⟩ (.persistedId dek wrappedDek machineId))
      | some existing =>
        some (world.move ⟨secret, .reading⟩ (.mergingId dek wrappedDek machineId existing))
    | _ => none
  | .writeId =>
    match world.boot with
    | some ⟨secret, .mergingId dek wrappedDek machineId existing⟩ =>
      some { world.move ⟨secret, .reading⟩ (.persistedId dek wrappedDek machineId) with
        file := some { existing with machineId := some machineId } }
    | _ => none
  | .readForDek =>
    match world.boot with
    | some ⟨secret, .persistedId dek wrappedDek machineId⟩ =>
      match world.file.filter (fun state => state.wrappedDek ≠ some wrappedDek) with
      | none => some (world.move ⟨secret, .reading⟩ (.serving dek machineId))
      | some existing =>
        some (world.move ⟨secret, .reading⟩ (.mergingDek dek wrappedDek machineId existing))
    | _ => none
  | .writeDek =>
    match world.boot with
    | some ⟨secret, .mergingDek dek wrappedDek machineId existing⟩ =>
      some { world.move ⟨secret, .reading⟩ (.serving dek machineId) with
        file := some { existing with wrappedDek := some wrappedDek } }
    | _ => none
  | .finish => if world.boot.isSome then some { world with boot := none } else none
  | .clear => some { world with file := none }
  | .replaceSecret secret => some { world with secret }
  | .otherPost accountId post id now => (world.handle accountId post id now).map Prod.fst
  | .deleteMachine id => some { world with machines := world.machines.delete id }

/-- The account before the first boot. -/
def start (accountId : String) (maxCasRetries : Nat) (secret : Secret) : MachineWorld Secret Dek where
  accountId := accountId
  maxCasRetries := maxCasRetries
  secret := secret
  file := none
  machines := .empty
  used := []
  boot := none

end MachineWorld

end Kvy.Cli.Daemon
