import Kvy.Wire.Rows

/-!
# The update stream

An update is a read-only broadcast of a write that has landed. Its `seq` is the
account's `headerSeq` and is present on structural updates only; `message-new`
carries the message counter of its session instead. Ephemeral events are broadcast
and never stored.
-/

namespace Kvy.Wire

/-- The optional fields of a `session-update` body. -/
structure SessionPatch where
  metadata : Option (Versioned EncryptedBox)
  agentState : Option (Versioned EncryptedBox)
  status : Option SessionStatus
  notificationsMuted : Option Bool
deriving DecidableEq

/-- `UpdateBodySchema`. -/
inductive UpdateBody where
  | sessionNew (session : SessionRow)
  | sessionUpdate (id : String) (patch : SessionPatch)
  | sessionDelete (id : String)
  | messageNew (sessionId : String) (msgSeq : Nat) (localId : Option String) (content : EncryptedBox)
  | machineNew (machine : MachineRow)
  | machineUpdate (machine : MachineRow)
  | unmanagedNew (item : UnmanagedSessionRow)
  | unmanagedUpdate (item : UnmanagedSessionRow)
  | accountUpdate (settings : EncryptedBox)
  | workspaceNew (workspace : WorkspaceRow)
  | workspaceUpdate (workspace : WorkspaceRow)
deriving DecidableEq

/-- Whether a body belongs to the message stream of a session. -/
def UpdateBody.isMessage : UpdateBody → Bool
  | .messageNew .. => true
  | _ => false

theorem UpdateBody.of_message {body : UpdateBody} (message : body.isMessage = true) :
    ∃ sessionId msgSeq localId content, body = .messageNew sessionId msgSeq localId content := by
  cases body with
  | messageNew sessionId msgSeq localId content => exact ⟨sessionId, msgSeq, localId, content, rfl⟩
  | _ => contradiction

/-- `UpdateSchema`. -/
structure Update where
  seq : Option Nat
  ts : Int
  body : UpdateBody
deriving DecidableEq

/-- `LifecycleKindSchema`. -/
inductive LifecycleKind where
  | perm
  | question
  | done
  | failed
deriving DecidableEq

/-- `EphemeralSchema`. -/
inductive Ephemeral where
  | activity (sessionId : String) (working : Bool)
  | machinePresence (machineId : String) (online : Bool) (needsReauth : Option Bool)
  | attention (sessionId : String) (kind : LifecycleKind)
  | keyRequest (ephPub : String) (label : Option String)
deriving DecidableEq

end Kvy.Wire
