import Kvy.General.Runs
import Kvy.Wire.Updates

/-!
# Ephemeral events on one connection

The router hands an ephemeral event to the socket while its write buffer is short. Beyond that it
keeps the last event of each key and hands these over when the buffer drains.

The transport takes the whole write buffer while it is writable; the buffer is then empty and
`drain` is emitted before anything else runs. How often it stays writable is up to it. Other
packets, updates among them, share the buffer. An event is not routed to a socket that is gone.
-/

namespace Kvy.Server.App.Events

open General Wire

/-- `BACKPRESSURE_WRITE_BUFFER_THRESHOLD`. -/
def backpressureWriteBufferThreshold : Nat := 16

def coalesceKeyFor : Ephemeral → Option String
  | .activity sessionId _ => some s!"activity:{sessionId}"
  | .attention sessionId _ => some s!"attention:{sessionId}"
  | .machinePresence .. | .keyRequest .. => none

/-- What the write buffer holds. -/
inductive Packet where
  | ephemeral (payload : Ephemeral)
  | other
deriving DecidableEq

/-- One socket, its entry in `pendingBySocket` and what happened on it. -/
structure Connection where
  isOpen : Bool
  writeBuffer : List Packet
  /-- How many buffers the transport takes before it is no longer writable. -/
  writable : Nat
  /-- What the transport took. -/
  delivered : List Packet
  pending : Option (OrderedMap String Ephemeral)
  /-- Whether `flush` waits for the next `drain`. -/
  flushOnDrain : Bool
  /-- What was emitted to the socket. -/
  emitted : List Ephemeral
deriving DecidableEq

/-- A socket that has connected. -/
def connected : Connection where
  isOpen := true
  writeBuffer := []
  writable := 0
  delivered := []
  pending := none
  flushOnDrain := false
  emitted := []

namespace Connection

/-- The transport takes the buffer. -/
def take (conn : Connection) : Connection :=
  if 0 < conn.writable ∧ conn.writeBuffer ≠ [] then
    { conn with
      delivered := conn.delivered ++ conn.writeBuffer
      writeBuffer := []
      writable := conn.writable - 1 }
  else conn

/-- A packet joins the buffer. -/
def push (conn : Connection) (packet : Packet) : Connection :=
  { conn with writeBuffer := conn.writeBuffer ++ [packet] }

/-- The listener of `drain`, which `once` has removed before it runs: a buffer that is taken
meanwhile calls nothing. -/
def flush (conn : Connection) : Connection :=
  let payloads := (conn.pending.getD .empty).entries.map Prod.snd
  let conn := payloads.foldl (fun conn payload => (conn.push (.ephemeral payload)).take)
    { conn with flushOnDrain := false }
  { conn with pending := none }

/-- The engine tries to send: where the transport takes the buffer, `drain` is emitted. -/
def engineFlush (conn : Connection) : Connection :=
  if 0 < conn.writable ∧ conn.writeBuffer ≠ [] then
    if conn.flushOnDrain then conn.take.flush else conn.take
  else conn

/-- A packet is written. -/
def write (conn : Connection) (packet : Packet) : Connection := (conn.push packet).engineFlush

def scheduleFlush (conn : Connection) : Connection := { conn with flushOnDrain := true }

def emitEphemeralToSocket (conn : Connection) (payload : Ephemeral) : Connection :=
  match coalesceKeyFor payload with
  | none => conn.write (.ephemeral payload)
  | some key =>
    if conn.writeBuffer.length ≤ backpressureWriteBufferThreshold then
      conn.write (.ephemeral payload)
    else
      match conn.pending with
      | some pending => { conn with pending := some (pending.set key payload) }
      | none => { conn with pending := some (OrderedMap.empty.set key payload) }.scheduleFlush

/-- The handlers of `disconnect`: `removeConnection`, and the one of `scheduleFlush`. -/
def disconnect (conn : Connection) : Connection :=
  { conn with isOpen := false, pending := none, flushOnDrain := false }

end Connection

/-- What can happen. -/
inductive Event where
  | emit (payload : Ephemeral)
  | other
  /-- The transport becomes writable, for that many buffers. -/
  | ready (buffers : Nat)
  | disconnect
deriving DecidableEq

/-- One event of a socket that is open. -/
def step (conn : Connection) (event : Event) : Option Connection :=
  if conn.isOpen then
    match event with
    | .emit payload =>
      some ({ conn with emitted := conn.emitted ++ [payload] }.emitEphemeralToSocket payload)
    | .other => some (conn.write .other)
    | .ready buffers => some { conn with writable := buffers }.engineFlush
    | .disconnect => some conn.disconnect
  else none

end Kvy.Server.App.Events
