import Kvy.General.Conflation
import Kvy.Server.App.Events.EventRouter

/-!
# The latest event of a key wins

What the transport was given, what the buffer holds and what waits in the slot of a key are, in
this order, some of the events emitted with that key, in the order of emission and with the last
one at the end. Slots are in use only while the buffer is long, so nothing waits in a slot when
the buffer is empty.
-/

namespace Kvy.Server.App.Events

open General General.Runs Wire

/-- The ephemeral event of a packet. -/
def Packet.payload : Packet → Option Ephemeral
  | .ephemeral payload => some payload
  | .other => none

/-- The events of one key. -/
def ofKey (key : String) (payloads : List Ephemeral) : List Ephemeral :=
  payloads.filter (fun payload => coalesceKeyFor payload = some key)

/-- The events of one key among packets. -/
def keyed (key : String) (packets : List Packet) : List Ephemeral :=
  ofKey key (packets.filterMap Packet.payload)

namespace Connection

/-- The delivered events of each key are a subsequence of those emitted; when the connection is
open and its buffer is empty, the last one delivered is the last one emitted. -/
def LatestWins (conn : Connection) : Prop :=
  ∀ key, (keyed key conn.delivered).Sublist (ofKey key conn.emitted) ∧
    (conn.isOpen = true → conn.writeBuffer = [] →
      (keyed key conn.delivered).getLast? = (ofKey key conn.emitted).getLast?)

/-- What was written, in order. -/
def written (conn : Connection) : List Packet := conn.delivered ++ conn.writeBuffer

/-- What waits in the slot of a key. -/
def slot (conn : Connection) (key : String) : List Ephemeral :=
  (conn.pending.bind (·.get? key)).toList

/-- Slots are used while the buffer is long, hold events under their keys, and wait for `drain`. -/
structure Blocked (conn : Connection) : Prop where
  waiting : ∀ pending, conn.pending = some pending →
    conn.flushOnDrain = true ∧ backpressureWriteBufferThreshold < conn.writeBuffer.length
  named : ∀ pending, conn.pending = some pending → ∀ key payload,
    (key, payload) ∈ pending.entries → coalesceKeyFor payload = some key
  idle : conn.pending = none → conn.flushOnDrain = false

/-- The law of an open connection. -/
structure Kept (conn : Connection) : Prop where
  blocked : Blocked conn
  conflated : ∀ key,
    Conflated (ofKey key conn.emitted) (keyed key conn.written ++ conn.slot key)

/-! ## Packets of a key -/

@[simp] theorem keyed_append (key : String) (first second : List Packet) :
    keyed key (first ++ second) = keyed key first ++ keyed key second := by
  simp [keyed, ofKey]

@[simp] theorem keyed_other (key : String) : keyed key [.other] = [] := rfl

theorem keyed_payloads (key : String) (payloads : List Ephemeral) :
    keyed key (payloads.map Packet.ephemeral) = ofKey key payloads := by
  rw [keyed, List.filterMap_map]
  congr 1
  exact List.filterMap_some

@[simp] theorem ofKey_append (key : String) (first second : List Ephemeral) :
    ofKey key (first ++ second) = ofKey key first ++ ofKey key second := by
  simp [ofKey]

variable {conn : Connection}

/-- The slots together hold what the slot of each key holds. -/
theorem ofKey_pending (blocked : Blocked conn) (key : String) :
    ofKey key ((conn.pending.getD .empty).entries.map Prod.snd) = conn.slot key := by
  cases pending : conn.pending with
  | none => simp [slot, pending, ofKey, OrderedMap.empty]
  | some slots =>
    simpa [slot, pending, ofKey] using
      OrderedMap.values_of_key slots coalesceKeyFor (blocked.named slots pending) key

/-! ## Operations -/

@[simp] theorem written_take (conn : Connection) : conn.take.written = conn.written := by
  unfold take
  split <;> simp [written]

@[simp] theorem written_push (conn : Connection) (packet : Packet) :
    (conn.push packet).written = conn.written ++ [packet] := by
  simp [written, push]

theorem take_same (conn : Connection) :
    conn.take.pending = conn.pending ∧ conn.take.flushOnDrain = conn.flushOnDrain ∧
      conn.take.emitted = conn.emitted ∧ conn.take.isOpen = conn.isOpen := by
  unfold take
  split <;> simp

/-- Writing several events in the listener. -/
theorem writes (payloads : List Ephemeral) (conn : Connection) :
    (payloads.foldl (fun conn payload => (conn.push (.ephemeral payload)).take) conn).written =
        conn.written ++ payloads.map .ephemeral ∧
      (payloads.foldl (fun conn payload => (conn.push (.ephemeral payload)).take)
        conn).flushOnDrain = conn.flushOnDrain ∧
      (payloads.foldl (fun conn payload => (conn.push (.ephemeral payload)).take) conn).emitted =
        conn.emitted ∧
      (payloads.foldl (fun conn payload => (conn.push (.ephemeral payload)).take) conn).isOpen =
        conn.isOpen := by
  induction payloads generalizing conn with
  | nil => simp
  | cons payload payloads inductionHypothesis =>
    obtain ⟨wrote, listens, emits, opens⟩ :=
      inductionHypothesis (conn.push (.ephemeral payload)).take
    obtain ⟨_, sameListens, sameEmits, sameOpens⟩ := take_same (conn.push (.ephemeral payload))
    simp only [List.foldl_cons]
    refine ⟨?_, listens.trans sameListens, emits.trans sameEmits, opens.trans sameOpens⟩
    rw [wrote]
    simp

/-- The listener writes what waits and leaves no slot. -/
theorem flush_spec (conn : Connection) :
    conn.flush.written =
        conn.written ++ ((conn.pending.getD .empty).entries.map Prod.snd).map .ephemeral ∧
      conn.flush.pending = none ∧ conn.flush.flushOnDrain = false ∧
      conn.flush.emitted = conn.emitted ∧ conn.flush.isOpen = conn.isOpen := by
  obtain ⟨wrote, listens, emits, opens⟩ :=
    writes ((conn.pending.getD .empty).entries.map Prod.snd) { conn with flushOnDrain := false }
  exact ⟨wrote, rfl, listens, emits, opens⟩

/-- The buffer grows behind the slots. -/
theorem Blocked.push (blocked : Blocked conn) (packet : Packet) :
    Blocked (conn.push packet) where
  waiting pending held := by
    obtain ⟨listens, long⟩ := blocked.waiting pending held
    refine ⟨listens, ?_⟩
    rw [Connection.push, List.length_append]
    exact Nat.lt_add_right 1 long
  named := blocked.named
  idle := blocked.idle

/-- A drain moves what waits behind what was written. -/
theorem Kept.engineFlush (kept : Kept conn) : Kept conn.engineFlush := by
  unfold Connection.engineFlush
  split
  · obtain ⟨samePending, sameListens, sameEmitted, _⟩ := take_same conn
    split
    · obtain ⟨wrote, pending, listens, emitted, _⟩ := flush_spec conn.take
      constructor
      · exact ⟨by simp [pending], by simp [pending], fun _ => listens⟩
      · intro key
        have moved := kept.conflated key
        rw [← ofKey_pending kept.blocked] at moved
        rw [emitted, sameEmitted, wrote, written_take, samePending, keyed_append, keyed_payloads]
        simpa [slot, pending] using moved
    · rename_i silent
      have none : conn.pending = none := by
        cases pending : conn.pending with
        | none => rfl
        | some slots => exact absurd (kept.blocked.waiting slots pending).1 silent
      constructor
      · exact ⟨by simp [samePending, none], by simp [samePending, none],
          fun _ => sameListens.trans (kept.blocked.idle none)⟩
      · intro key
        rw [sameEmitted, written_take, slot, samePending]
        exact kept.conflated key
  · exact kept

/-- A packet is written where it may stand behind what was written. -/
theorem Blocked.write {packet : Packet} (blocked : Blocked conn)
    (conflated : ∀ key, Conflated (ofKey key conn.emitted)
      (keyed key conn.written ++ keyed key [packet] ++ conn.slot key)) : Kept (conn.write packet) := by
  refine Kept.engineFlush ⟨blocked.push packet, fun key => ?_⟩
  rw [written_push, keyed_append]
  exact conflated key

/-- A packet of no key. -/
theorem Kept.other (kept : Kept conn) : Kept (conn.write .other) := by
  refine kept.blocked.write (fun key => ?_)
  rw [keyed_other, List.append_nil]
  exact kept.conflated key

/-- An event is emitted: it is written behind what was written, or takes the slot of its key. -/
theorem Kept.emit (kept : Kept conn) (payload : Ephemeral) :
    Kept ({ conn with emitted := conn.emitted ++ [payload] }.emitEphemeralToSocket payload) := by
  have single : ∀ key, ofKey key [payload] = if coalesceKeyFor payload = some key then [payload]
      else [] := by
    intro key
    by_cases own : coalesceKeyFor payload = some key <;> simp [ofKey, own]
  have wrote : ∀ key, keyed key [.ephemeral payload] = ofKey key [payload] :=
    fun key => keyed_payloads key [payload]
  unfold emitEphemeralToSocket
  cases named : coalesceKeyFor payload with
  | none =>
    refine Blocked.write ⟨kept.blocked.waiting, kept.blocked.named, kept.blocked.idle⟩
      (fun key => ?_)
    show Conflated (ofKey key (conn.emitted ++ [payload])) (keyed key conn.written ++ _ ++ conn.slot key)
    simpa [wrote, single, named] using kept.conflated key
  | some own =>
    by_cases short : conn.writeBuffer.length ≤ backpressureWriteBufferThreshold
    · have none : conn.pending = none := by
        cases pending : conn.pending with
        | none => rfl
        | some slots => exact absurd short (Nat.not_le.mpr (kept.blocked.waiting slots pending).2)
      simp only [short, ↓reduceIte]
      refine Blocked.write ⟨kept.blocked.waiting, kept.blocked.named, kept.blocked.idle⟩
        (fun key => ?_)
      show Conflated (ofKey key (conn.emitted ++ [payload]))
        (keyed key conn.written ++ _ ++ conn.slot key)
      have before := kept.conflated key
      simp only [slot, none, Option.bind_none, Option.toList_none, List.append_nil] at before ⊢
      rw [wrote, ofKey_append, single]
      split
      · exact before.append payload
      · simpa using before
    · simp only [short, ↓reduceIte]
      have long : backpressureWriteBufferThreshold < conn.writeBuffer.length := Nat.not_le.mp short
      -- Both ways the key's slot now holds the event, and the other slots stay.
      have settle : ∀ slots : OrderedMap String Ephemeral,
          (∀ key value, (key, value) ∈ slots.entries → coalesceKeyFor value = some key) →
          (∀ key, (slots.get? key).toList = conn.slot key) →
          Kept { conn with
            emitted := conn.emitted ++ [payload]
            pending := some (slots.set own payload)
            flushOnDrain := true } := by
        intro slots names holds
        constructor
        · refine ⟨fun _ _ => ⟨rfl, long⟩, ?_, by simp⟩
          rintro _ ⟨⟩ key value member
          rw [OrderedMap.mem_entries, OrderedMap.get_set] at member
          split at member
          · rename_i same
            rw [same, ← Option.some.inj member]
            exact named
          · exact names key value ((OrderedMap.mem_entries slots key value).mpr member)
        · intro key
          have before := kept.conflated key
          simp only [slot, Option.bind_some, OrderedMap.get_set, ofKey_append, single, named,
            Option.some.injEq]
          by_cases same : key = own
          · subst same
            simpa [written] using before.replace payload
          · simpa [same, Ne.symm same, holds, written] using before
      cases pending : conn.pending with
      | some slots =>
        have listens := (kept.blocked.waiting slots pending).1
        have settled := settle slots (kept.blocked.named slots pending)
          (fun key => by simp [slot, pending])
        simpa [← listens] using settled
      | none => exact settle .empty (by simp [OrderedMap.empty]) (fun key => by simp [slot, pending])

/-! ## Runs -/

/-- The law of the connection, open or closed. -/
structure Lasting (conn : Connection) : Prop where
  kept : conn.isOpen = true → Kept conn
  sublist : ∀ key, (keyed key conn.written).Sublist (ofKey key conn.emitted)

/-- What was written of a key was emitted. -/
theorem Kept.sublist (kept : Kept conn) (key : String) :
    (keyed key conn.written).Sublist (ofKey key conn.emitted) :=
  (List.sublist_append_left _ _).trans (kept.conflated key).sublist

theorem step_lasting {next : Connection} {event : Event} (lasting : Lasting conn)
    (taken : step conn event = some next) : Lasting next := by
  obtain ⟨isOpen, happened⟩ := Option.ite_none_right_eq_some.mp taken
  have kept := lasting.kept isOpen
  cases event with
  | emit payload =>
    cases happened
    exact ⟨fun _ => kept.emit payload, (kept.emit payload).sublist⟩
  | other =>
    cases happened
    exact ⟨fun _ => kept.other, kept.other.sublist⟩
  | ready buffers =>
    cases happened
    have flushed : Kept { conn with writable := buffers }.engineFlush :=
      Kept.engineFlush ⟨⟨kept.blocked.waiting, kept.blocked.named, kept.blocked.idle⟩,
        kept.conflated⟩
    exact ⟨fun _ => flushed, flushed.sublist⟩
  | disconnect =>
    cases happened
    exact ⟨fun isOpen => absurd isOpen (by simp [disconnect]), lasting.sublist⟩

/-- With an empty buffer nothing waits in a slot. -/
theorem Lasting.latest (lasting : Lasting conn) : LatestWins conn := by
  intro key
  refine ⟨?_, fun isOpen empty => ?_⟩
  · have sublist := lasting.sublist key
    rw [written, keyed_append] at sublist
    exact (List.sublist_append_left _ _).trans sublist
  · have kept := lasting.kept isOpen
    have none : conn.pending = none := by
      cases pending : conn.pending with
      | none => rfl
      | some slots =>
        have long := (kept.blocked.waiting slots pending).2
        simp [empty] at long
    simpa [written, empty, slot, none] using (kept.conflated key).last

/-- Whatever is emitted and however the transport blocks and drains, the latest event of each key
wins. -/
theorem latest_wins {conn : Connection} (reached : Reachable step connected conn) :
    LatestWins conn := by
  have start : Lasting connected := by
    refine ⟨fun _ => ⟨⟨by simp [connected], by simp [connected], fun _ => rfl⟩, fun _ => ?_⟩,
      fun _ => List.Sublist.refl _⟩
    exact Conflated.nil
  exact (reachable_invariant Lasting (fun _ _ _ holds taken => step_lasting holds taken) start
    reached).latest

/-- Two events of one key behind a buffer that is too long: the first is spared, the second is
delivered after the drain. -/
theorem latest_wins_blocked :
    ∃ conn,
      run step connected
        (List.replicate 17 .other ++
          [.emit (.activity "session" true), .emit (.activity "session" false), .ready 1,
            .ready 1]) = some conn ∧
        conn.delivered = List.replicate 17 .other ++ [.ephemeral (.activity "session" false)] ∧
        conn.LatestWins :=
  ⟨_, rfl, rfl,
    latest_wins
      ⟨List.replicate 17 .other ++
        [.emit (.activity "session" true), .emit (.activity "session" false), .ready 1, .ready 1],
        rfl⟩⟩

end Connection

end Kvy.Server.App.Events
