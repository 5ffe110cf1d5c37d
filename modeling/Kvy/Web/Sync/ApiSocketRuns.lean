import Kvy.Web.Sync.ApiSocket

/-!
# Reconnections that are signalled

Between two connections of the client updates may be missed, so each connection but the first has
to be signalled by `reconnect` before an update follows on it. The client remembers an earlier
connection in a flag, and every teardown forgets it: exactly the connections that follow a teardown
go without the signal.
-/

namespace Kvy.Web.Sync.ApiSocket

open General General.Runs

variable {Raw Update Ephemeral : Type}

/-- Every connection but the first is followed by `reconnect`, before any update and before the
next connection. -/
def Signalled (log : List (Entry Update Ephemeral)) : Prop :=
  ∀ before after, log = before ++ .opened :: after → .opened ∈ before →
    ∃ middle rest, after = middle ++ .emitted .reconnect :: rest ∧
      ∀ entry ∈ middle, entry ≠ .opened ∧ ∀ update, entry ≠ .emitted (.update update)

/-- There was a connection, and nothing was torn down since the last one. -/
def keptConnection (log : List (Entry Update Ephemeral)) : Bool :=
  log.foldl
    (fun kept entry =>
      match entry with
      | .opened => true
      | .tornDown => false
      | _ => kept)
    false

/-- Where the transport connects again, nothing was torn down since the last connection. -/
def NotTornDown (client : Client Update Ephemeral) (event : Event Raw) : Prop :=
  event = .connected → .opened ∈ client.log → keptConnection client.log = true

/-! ## Logs -/

@[simp] theorem signalled_nil : Signalled ([] : List (Entry Update Ephemeral)) := by
  intro before after split
  simp at split

/-- Lines that open no connection keep the law. -/
theorem signalled_quiet {log more : List (Entry Update Ephemeral)} (signalled : Signalled log)
    (quiet : .opened ∉ more) : Signalled (log ++ more) := by
  intro before after split again
  obtain ⟨gap, rfl, rest⟩ | ⟨gap, rfl, rest⟩ := List.append_eq_append_iff.mp split
  · -- The connection would stand among the new lines.
    exact absurd (rest ▸ List.mem_append_right gap List.mem_cons_self) quiet
  · cases gap with
    | nil =>
      have first : more = .opened :: after := by simpa using rest.symm
      exact absurd (first ▸ List.mem_cons_self) quiet
    | cons entry gap =>
      obtain ⟨rfl, rfl⟩ := List.cons.inj rest
      obtain ⟨middle, others, rfl, clear⟩ := signalled before gap rfl again
      exact ⟨middle, others ++ more, by simp, clear⟩

/-- A connection is signalled where it is the first or `reconnect` follows at once. -/
theorem signalled_opened {log more : List (Entry Update Ephemeral)} (signalled : Signalled log)
    (quiet : .opened ∉ more) (told : .opened ∈ log → more.head? = some (.emitted .reconnect)) :
    Signalled (log ++ .opened :: more) := by
  intro before after split again
  obtain ⟨gap, rfl, rest⟩ | ⟨gap, rfl, rest⟩ := List.append_eq_append_iff.mp split
  · cases gap with
    | nil =>
      have same : more = after := (List.cons.inj rest).2
      obtain ⟨others, shape⟩ := List.head?_eq_some_iff.mp (told (by simpa using again))
      exact ⟨[], others, by simp [← same, shape], by simp⟩
    | cons entry gap =>
      obtain ⟨_, shape⟩ := List.cons.inj rest
      exact absurd (shape ▸ List.mem_append_right gap List.mem_cons_self) quiet
  · cases gap with
    | nil =>
      have same : after = more := (List.cons.inj rest).2
      obtain ⟨others, shape⟩ := List.head?_eq_some_iff.mp (told (by simpa using again))
      exact ⟨[], others, by simp [same, shape], by simp⟩
    | cons entry gap =>
      obtain ⟨rfl, rfl⟩ := List.cons.inj rest
      obtain ⟨middle, others, rfl, clear⟩ := signalled before gap rfl again
      exact ⟨middle, others ++ .opened :: more, by simp, clear⟩

/-- A log that ends in a connection with no `reconnect` after it breaks the law. -/
theorem unsignalled {log more : List (Entry Update Ephemeral)} (again : .opened ∈ log)
    (silent : .emitted .reconnect ∉ more) : ¬ Signalled (log ++ .opened :: more) := by
  intro signalled
  obtain ⟨middle, rest, shape, _⟩ := signalled log more rfl again
  exact silent (shape ▸ List.mem_append_right middle List.mem_cons_self)

@[simp] theorem keptConnection_tornDown (log : List (Entry Update Ephemeral)) :
    keptConnection (log ++ [.tornDown]) = false := by simp [keptConnection]

@[simp] theorem keptConnection_emitted (log : List (Entry Update Ephemeral))
    (event : Emitted Update Ephemeral) :
    keptConnection (log ++ [.emitted event]) = keptConnection log := by simp [keptConnection]

@[simp] theorem keptConnection_sentAppState (log : List (Entry Update Ephemeral))
    (state : AppState) : keptConnection (log ++ [.sentAppState state]) = keptConnection log := by
  simp [keptConnection]

@[simp] theorem keptConnection_sentRenewToken (log : List (Entry Update Ephemeral))
    (token : String) : keptConnection (log ++ [.sentRenewToken token]) = keptConnection log := by
  simp [keptConnection]

/-! ## What the handlers do -/

/-- The flag says whether a connection was kept. -/
def Remembers (client : Client Update Ephemeral) : Prop :=
  client.hasConnectedBefore = keptConnection client.log

/-- The log grows without a connection, and the flag stays right. -/
def Quietly (client next : Client Update Ephemeral) : Prop :=
  (∃ more, next.log = client.log ++ more ∧ .opened ∉ more) ∧ (Remembers client → Remembers next)

variable {client next : Client Update Ephemeral}

namespace Quietly

/-- A change of other variables. -/
theorem same (log : next.log = client.log)
    (flag : next.hasConnectedBefore = client.hasConnectedBefore) : Quietly client next := by
  refine ⟨⟨[], by simp [log], by simp⟩, fun remembers => ?_⟩
  rw [Remembers, flag, log]
  exact remembers

/-- One change after the other. -/
theorem trans {middle : Client Update Ephemeral} (first : Quietly client middle)
    (second : Quietly middle next) : Quietly client next := by
  obtain ⟨⟨one, oneLog, oneQuiet⟩, oneKeeps⟩ := first
  obtain ⟨⟨two, twoLog, twoQuiet⟩, twoKeeps⟩ := second
  refine ⟨⟨one ++ two, by rw [twoLog, oneLog, List.append_assoc], ?_⟩, twoKeeps ∘ oneKeeps⟩
  exact fun member => (List.mem_append.mp member).elim oneQuiet twoQuiet

theorem emit (client : Client Update Ephemeral) (event : Emitted Update Ephemeral) :
    Quietly client (client.emit event) := by
  refine ⟨⟨[.emitted event], rfl, by simp⟩, fun remembers => ?_⟩
  simpa [Remembers, Client.emit, Client.record] using remembers

theorem armRenewTimer (setup : Setup Raw Update Ephemeral) (client : Client Update Ephemeral) :
    Quietly client (client.armRenewTimer setup) := by
  unfold Client.armRenewTimer
  split
  · exact same rfl rfl
  · exact same rfl rfl

theorem handleDisconnect (client : Client Update Ephemeral) :
    Quietly client client.handleDisconnect :=
  (same rfl rfl : Quietly client client.stopRenewTimer).trans (emit _ _)

theorem disconnectSocket (client : Client Update Ephemeral) :
    Quietly client client.disconnectSocket := by
  unfold Client.disconnectSocket
  split
  · exact (same rfl rfl : Quietly client { client with socket := some false }).trans
      (handleDisconnect _)
  · exact same rfl rfl

/-- A teardown clears the flag and says so in the log. -/
theorem teardown (client : Client Update Ephemeral) : Quietly client client.teardown := by
  obtain ⟨⟨more, log, quiet⟩, _⟩ := (same rfl rfl : Quietly client client.stopRenewTimer).trans
    (disconnectSocket _)
  refine ⟨⟨more ++ [.tornDown], ?_, by simpa using quiet⟩, fun _ => ?_⟩
  · show client.stopRenewTimer.disconnectSocket.log ++ [.tornDown] = _
    rw [log, List.append_assoc]
  · show false = keptConnection (client.stopRenewTimer.disconnectSocket.log ++ [.tornDown])
    simp

theorem expire (client : Client Update Ephemeral) (message : String) :
    Quietly client (client.expire message) :=
  ((same rfl rfl : Quietly client { client with authExpired := true }).trans (emit _ _)).trans
    (teardown _)

theorem connect (client : Client Update Ephemeral) (token : String) (visibility : AppState) :
    Quietly client (client.connect token visibility) := by
  unfold Client.connect
  split
  · exact same rfl rfl
  · exact ((same rfl rfl : Quietly client { client with authExpired := false }).trans
      (teardown _)).trans (same rfl rfl)

theorem handleConnectError (setup : Setup Raw Update Ephemeral) (client : Client Update Ephemeral)
    (message : String) : Quietly client (client.handleConnectError setup message) := by
  unfold Client.handleConnectError
  split
  · split
    · exact same rfl rfl
    · exact expire client message
  · exact same rfl rfl

theorem handleUpdate (setup : Setup Raw Update Ephemeral) (client : Client Update Ephemeral)
    (raw : Raw) : Quietly client (client.handleUpdate setup raw) := by
  unfold Client.handleUpdate
  split
  · exact emit _ _
  · exact same rfl rfl

theorem handleEphemeral (setup : Setup Raw Update Ephemeral) (client : Client Update Ephemeral)
    (raw : Raw) : Quietly client (client.handleEphemeral setup raw) := by
  unfold Client.handleEphemeral
  split
  · exact emit _ _
  · exact same rfl rfl

theorem visibilityChanged (client : Client Update Ephemeral) (state : AppState) :
    Quietly client (client.visibilityChanged state) := by
  unfold Client.visibilityChanged
  dsimp only
  split
  · refine ⟨⟨[.sentAppState state], rfl, by simp⟩, fun remembers => ?_⟩
    simpa [Remembers, Client.record] using remembers
  · exact same rfl rfl

theorem renewTimerFired (client : Client Update Ephemeral) :
    Quietly client client.renewTimerFired := by
  unfold Client.renewTimerFired
  dsimp only
  split
  · exact same rfl rfl
  · exact same rfl rfl

theorem renewed (client : Client Update Ephemeral) (renewal : Renewal) (fresh : Option String) :
    Quietly client (client.renewed renewal fresh) := by
  cases renewal with
  | timer =>
    cases fresh with
    | none => exact same rfl rfl
    | some token =>
      simp only [Client.renewed]
      split
      · exact same rfl rfl
      · refine ⟨⟨[.sentRenewToken token], rfl, by simp⟩, fun remembers => ?_⟩
        simpa [Remembers, Client.record] using remembers
  | rejected message =>
    cases fresh with
    | none =>
      exact (same rfl rfl : Quietly client { client with renewInFlight := none }).trans
        (expire _ message)
    | some token => exact same rfl rfl

theorem renewAcknowledged (setup : Setup Raw Update Ephemeral) (client : Client Update Ephemeral)
    (ok : Bool) : Quietly client (client.renewAcknowledged setup ok) := by
  unfold Client.renewAcknowledged
  dsimp only
  split
  · exact (same rfl rfl : Quietly client
      { client with unacknowledged := client.unacknowledged - 1 }).trans (armRenewTimer setup _)
  · exact same rfl rfl

end Quietly

variable {setup : Setup Raw Update Ephemeral}

/-- Every event but a connection of the transport. -/
theorem step_quietly
    {event : Event Raw} (other : event ≠ .connected) (taken : step setup client event = some next) :
    Quietly client next := by
  cases event with
  | connect token visibility =>
    cases taken
    exact Quietly.connect client token visibility
  | disconnect =>
    cases taken
    exact Quietly.teardown client
  | connected => exact absurd rfl other
  | dropped =>
    obtain ⟨_, ⟨⟩⟩ := Option.ite_none_right_eq_some.mp taken
    exact (Quietly.same rfl rfl : Quietly client { client with socket := some false }).trans
      (Quietly.handleDisconnect _)
  | connectError message =>
    obtain ⟨_, ⟨⟩⟩ := Option.ite_none_right_eq_some.mp taken
    exact Quietly.handleConnectError setup client message
  | update raw =>
    obtain ⟨_, ⟨⟩⟩ := Option.ite_none_right_eq_some.mp taken
    exact Quietly.handleUpdate setup client raw
  | ephemeral raw =>
    obtain ⟨_, ⟨⟩⟩ := Option.ite_none_right_eq_some.mp taken
    exact Quietly.handleEphemeral setup client raw
  | visibility state =>
    obtain ⟨_, ⟨⟩⟩ := Option.ite_none_right_eq_some.mp taken
    exact Quietly.visibilityChanged client state
  | renewTimer =>
    obtain ⟨_, ⟨⟩⟩ := Option.ite_none_right_eq_some.mp taken
    exact Quietly.renewTimerFired client
  | renewed fresh =>
    cases inFlight : client.renewInFlight with
    | none => simp [step, inFlight] at taken
    | some renewal =>
      simp only [step, inFlight, Option.some.injEq] at taken
      exact taken ▸ Quietly.renewed client renewal fresh
  | renewFailed =>
    obtain ⟨_, ⟨⟩⟩ := Option.ite_none_right_eq_some.mp taken
    exact Quietly.same rfl rfl
  | renewAcknowledged ok =>
    obtain ⟨_, ⟨⟩⟩ := Option.ite_none_right_eq_some.mp taken
    exact Quietly.renewAcknowledged setup client ok

/-- What a connection adds to the log. -/
def told (hasConnectedBefore : Bool) : List (Entry Update Ephemeral) :=
  if hasConnectedBefore then [.emitted .reconnect, .emitted .connect] else [.emitted .connect]

/-- A connection of the transport: `reconnect` comes first where the flag is set. -/
theorem connected_log (taken : step setup client .connected = some next) :
    next.log = client.log ++ .opened :: told client.hasConnectedBefore ∧
      next.hasConnectedBefore = true := by
  obtain ⟨_, ⟨⟩⟩ := Option.ite_none_right_eq_some.mp taken
  cases client.hasConnectedBefore <;> cases renews : setup.renew <;>
    simp [Client.handleConnect, Client.armRenewTimer, Client.stopRenewTimer, Client.emit,
      Client.record, renews, told]

/-- The flag stays right. -/
theorem step_remembers
    {event : Event Raw} (remembers : Remembers client) (taken : step setup client event = some next) :
    Remembers next := by
  by_cases opens : event = .connected
  · subst opens
    obtain ⟨log, flag⟩ := connected_log taken
    rw [Remembers, flag, log]
    cases client.hasConnectedBefore <;> simp [told, keptConnection]
  · exact (step_quietly opens taken).2 remembers

/-- A step keeps the law exactly when it opens no connection after a teardown. -/
theorem step_signalled
    {event : Event Raw} (remembers : Remembers client) (signalled : Signalled client.log)
    (taken : step setup client event = some next) :
    Signalled next.log ↔ NotTornDown client event := by
  by_cases opens : event = .connected
  · subst opens
    obtain ⟨log, _⟩ := connected_log taken
    rw [log]
    constructor
    · intro holds _ again
      by_contra forgotten
      have flag : client.hasConnectedBefore = false :=
        remembers.trans (Bool.eq_false_iff.mpr forgotten)
      exact unsignalled again (by simp [flag, told]) holds
    · intro kept
      refine signalled_opened signalled ?_ (fun again => ?_)
      · cases client.hasConnectedBefore <;> simp [told]
      · have flag : client.hasConnectedBefore = true := remembers.trans (kept rfl again)
        simp [flag, told]
  · obtain ⟨⟨more, log, quiet⟩, _⟩ := step_quietly opens taken
    constructor
    · exact fun _ connects => absurd connects opens
    · exact fun _ => log ▸ signalled_quiet signalled quiet

end Kvy.Web.Sync.ApiSocket
