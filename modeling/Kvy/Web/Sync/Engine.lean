import Kvy.General.CachedQuery
import Kvy.General.KeyedRows
import Kvy.Server.App.Routes.MessageList
import Kvy.Wire.Updates

/-!
# The sync engine

The engine follows two numbered streams. A structural update that continues the
cached snapshot is applied to it in place, and so is a message that continues the
newest cached page of its session; any other update invalidates the query. Its two
trackers are set from the cached data each time a query changes. Cached are the account
snapshot, and for each open session its message rows in pages, newest page and newest
message first.
-/

namespace Kvy.Web.Sync

open General Wire Server.App

/-! ## What is cached -/

/-- `MessagesQueryData`, without the page parameters, which the engine never reads. -/
structure MessagesQueryData where
  pages : List MessagesPage
deriving DecidableEq

/-- `SyncSnapshot`. -/
structure SyncSnapshot where
  headerSeq : Nat
  accountKeyEpoch : Nat
  sessions : List SessionRow
  machines : List MachineRow
  unmanagedSessions : List UnmanagedSessionRow
  workspaces : List WorkspaceRow
deriving DecidableEq

/-! ## The engine -/

/-- The engine with the part of the query cache that it reads and writes. -/
structure Engine where
  lastHeaderSeq : Option Nat
  lastMsgSeq : String → Option Nat
  sync : Query SyncSnapshot
  messages : String → Query MessagesQueryData

/-- `upsertById`. -/
def upsertById {α : Type} (id : α → String) (item : α) (list : List α) : List α :=
  Keyed.upsert id item list

/-- `msgSeqBaseline`. -/
def msgSeqBaseline (data : MessagesQueryData) : Nat :=
  match data.pages with
  | ⟨item :: _, _⟩ :: _ => item.seq
  | _ => 0

/-- `patchSession`. -/
def patchSession (session : SessionRow) (patch : SessionPatch) : SessionRow :=
  { session with
    metadata := patch.metadata.getD session.metadata
    agentState := patch.agentState.or session.agentState
    status := patch.status.getD session.status
    notificationsMuted := patch.notificationsMuted.getD session.notificationsMuted }

theorem patch_session_id (patch : SessionPatch) (session : SessionRow) :
    (patchSession session patch).id = session.id := rfl

/-- The updater of `applyStructural`. -/
def patchSnapshot (body : UpdateBody) (seq : Nat) (old : SyncSnapshot) : SyncSnapshot :=
  let next := { old with headerSeq := seq }
  match body with
  | .sessionNew session => { next with sessions := upsertById SessionRow.id session next.sessions }
  | .sessionUpdate id patch =>
    { next with
      sessions := Keyed.modify SessionRow.id id (fun session => patchSession session patch)
        next.sessions }
  | .sessionDelete id => { next with sessions := Keyed.delete SessionRow.id id next.sessions }
  | .machineNew machine | .machineUpdate machine =>
    { next with machines := upsertById MachineRow.id machine next.machines }
  | .unmanagedNew item | .unmanagedUpdate item =>
    { next with
      unmanagedSessions := upsertById UnmanagedSessionRow.id item next.unmanagedSessions }
  | .workspaceNew workspace | .workspaceUpdate workspace =>
    { next with workspaces := upsertById WorkspaceRow.id workspace next.workspaces }
  | .accountUpdate _ => next
  | .messageNew .. => next

/-- The updater of `applyMessageFastPath`. -/
def prependMessage (item : MessageItem) (old : MessagesQueryData) : MessagesQueryData :=
  match old.pages with
  | [] => old
  | first :: rest => ⟨{ first with messages := item :: first.messages } :: rest⟩

namespace Engine

/-- The `['sync']` query changes, and the cache subscription sees its data. -/
def setSync (engine : Engine) (query : Query SyncSnapshot) : Engine :=
  { engine with
    sync := query
    lastHeaderSeq := (query.data.map SyncSnapshot.headerSeq).or engine.lastHeaderSeq }

/-- A `['messages', sessionId]` query changes, and the cache subscription sees its data. -/
def setMessages (engine : Engine) (sessionId : String) (query : Query MessagesQueryData) : Engine :=
  { engine with
    messages := Function.update engine.messages sessionId query
    lastMsgSeq := Function.update engine.lastMsgSeq sessionId
      ((query.data.map msgSeqBaseline).or (engine.lastMsgSeq sessionId)) }

/-- `createSyncEngine` on a query cache. -/
def create (sync : Query SyncSnapshot) (messages : String → Query MessagesQueryData) : Engine where
  lastHeaderSeq := sync.data.map SyncSnapshot.headerSeq
  lastMsgSeq := fun sessionId => (messages sessionId).data.map msgSeqBaseline
  sync := sync
  messages := messages

/-- `applyStructural`. -/
def applyStructural (engine : Engine) (body : UpdateBody) (seq : Nat) : Engine :=
  match engine.sync.data with
  | none => engine
  | some old => engine.setSync (engine.sync.write (patchSnapshot body seq old))

/-- `applyMessageFastPath`. -/
def applyMessageFastPath (engine : Engine) (sessionId : String) (msgSeq : Nat)
    (localId : Option String) (content : EncryptedBox) (ts : Int) : Engine :=
  match engine.lastMsgSeq sessionId with
  | none => engine
  | some known =>
    if msgSeq ≤ known then engine
    else if msgSeq ≠ known + 1 then
      engine.setMessages sessionId (engine.messages sessionId).invalidate
    else
      let item : MessageItem := { seq := msgSeq, localId, content, createdAt := ts }
      let patched :=
        match (engine.messages sessionId).data with
        | none => engine
        | some old =>
          engine.setMessages sessionId ((engine.messages sessionId).write (prependMessage item old))
      { patched with lastMsgSeq := Function.update patched.lastMsgSeq sessionId (some msgSeq) }

/-- Whether a structural update continues the cached snapshot. -/
def continues (engine : Engine) (update : Update) : Bool :=
  match update.seq, engine.lastHeaderSeq with
  | some seq, some last => seq = last + 1
  | _, _ => false

/-- `handleUpdate`. -/
def handleUpdate (engine : Engine) (update : Update) : Engine :=
  match update.body with
  | .messageNew sessionId msgSeq localId content =>
    engine.applyMessageFastPath sessionId msgSeq localId content update.ts
  | body =>
    match update.seq, engine.continues update with
    | some seq, true => { engine.applyStructural body seq with lastHeaderSeq := some seq }
    | _, _ => engine.setSync engine.sync.invalidate

/-- `handleReconnect`. -/
def handleReconnect (engine : Engine) : Engine :=
  let reset := engine.setSync engine.sync.invalidate
  { reset with
    messages := fun sessionId => (engine.messages sessionId).invalidate
    lastMsgSeq := fun sessionId =>
      ((engine.messages sessionId).data.map msgSeqBaseline).or (engine.lastMsgSeq sessionId) }

end Engine
end Kvy.Web.Sync
