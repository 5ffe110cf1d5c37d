import Kvy.General.Json

/-!
# Rows on the wire

The client-facing projections of the stored rows. Content stays encrypted, and
times are milliseconds. The deprecated `path` of a workspace is never sent and is
left out.

The server stores and routes an encrypted container without opening it. Only the
payload varies: the tag and the version are fixed literals of the wire schema.
-/

namespace Kvy.Wire

open General

/-- `EncryptedBox`: the payload under the literal tag `enc` and version `1`. -/
structure EncryptedBox where
  c : String
deriving DecidableEq

/-- The JSON form of a container. -/
def EncryptedBox.toJson (box : EncryptedBox) : Json :=
  .obj [("t", .str "enc"), ("v", .num (Decimal.ofInt 1)), ("c", .str box.c)]

theorem EncryptedBox.to_json_distinct (box : EncryptedBox) : box.toJson.distinct = true := by
  simp [toJson, Json.distinct, Json.distinctFields]

/-- A value together with the version it was written at. -/
structure Versioned (α : Type) where
  value : α
  version : Nat
deriving DecidableEq

/-- `SessionStatusSchema`. -/
inductive SessionStatus where
  | active
  | archived
  | failed
  | compacted
  | ended
deriving DecidableEq

/-- `SessionRowSchema`. -/
structure SessionRow where
  id : String
  accountId : String
  workspaceId : Option String
  machineId : Option String
  tag : String
  provider : String
  executionTarget : String
  status : SessionStatus
  metadata : Versioned EncryptedBox
  agentState : Option (Versioned EncryptedBox)
  dek : String
  keyEpoch : Option Nat
  msgSeq : Nat
  notificationsMuted : Bool
  createdAt : Int
  updatedAt : Int
deriving DecidableEq

/-- `MachineRowSchema`. -/
structure MachineRow where
  id : String
  accountId : String
  metadata : Versioned EncryptedBox
  daemonState : Option (Versioned EncryptedBox)
  dek : String
  lastSeenAt : Option Int
  needsReauth : Option Bool
deriving DecidableEq

/-- `WorkspaceRowSchema`. -/
structure WorkspaceRow where
  id : String
  accountId : String
  pathHash : String
  metadata : Versioned EncryptedBox
  dek : String
deriving DecidableEq

/-- `UnmanagedSessionRowSchema`. -/
structure UnmanagedSessionRow where
  id : String
  accountId : String
  machineId : String
  workspaceId : String
  providerRef : String
  summary : EncryptedBox
  dek : String
  updatedAt : Int
deriving DecidableEq

end Kvy.Wire
