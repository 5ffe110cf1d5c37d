import Kvy.Server.App.Routes.Keys

/-!
# Key binds that overlap

Along a run whose binds commit onto the row that they read, the key of the account changes to
another one only by a rotation, and every epoch stands for one key. A nonce is good for one bind
along every run.
-/

namespace Kvy.Server.App.Keys

open General Function

/-! ## What is claimed of a step -/

/-- One event changes the key as it may. -/
structure Lawful (binding : Binding) (event : Event) (next : Binding) : Prop where
  authorised : ∀ row row' key, binding.account = some row → next.account = some row' →
    row.signPublicKey = some key → row'.signPublicKey ≠ some key →
    ∃ index verified call, event = .advance index verified ∧ binding.calls index = some call ∧
      call.body.rotate = true ∧ call.proved = true ∧
      ∀ session ∈ binding.sessions, session.id ≠ call.sessionId →
        session.healthy binding.now = false
  counted : ∀ row row', binding.account = some row → next.account = some row' →
    row'.signPublicKey ≠ row.signPublicKey → row.keyEpoch + 1 ≤ row'.keyEpoch
  identified : ∀ first ∈ next.log, ∀ second ∈ next.log, first.keyEpoch = second.keyEpoch →
    first.signPublicKey = second.signPublicKey
  single : ∀ nonce, (next.log.filter (fun bound => bound.nonce = nonce)).length ≤ 1

/-- The row that a call has read, when it is about to commit. -/
def Stage.commits : Stage → Option Account
  | .committing account _ _ => some account
  | _ => none

/-- A bind writes what is stored, or finds the row that it has read; and a rotation finds no healthy
session but its own that it has not looked at. -/
def Fits (binding : Binding) (call : Call) (read row : Account) : Prop :=
  (row.signPublicKey = some call.body.signPublicKeyHex ∧
    row.keyEpoch = read.newEpoch call.body) ∨
  (row.signPublicKey = read.signPublicKey ∧ row.keyEpoch = read.keyEpoch ∧
    (read.rotates call.body → ∀ session ∈ binding.sessions, session.id ∉ call.seen →
      session.id ≠ call.sessionId → session.healthy binding.now = false))

instance (binding : Binding) (call : Call) (read row : Account) :
    Decidable (Fits binding call read row) :=
  inferInstanceAs (Decidable (_ ∨ _))

/-- A bind that commits fits the stored row. -/
def Undisturbed (binding : Binding) : Event → Prop
  | .advance index _ =>
    ∀ call ∈ binding.calls index, ∀ read ∈ call.stage.commits, ∀ row ∈ binding.account,
      Fits binding call read row
  | _ => True

instance (binding : Binding) : (event : Event) → Decidable (Undisturbed binding event)
  | .advance index _ =>
    inferInstanceAs (Decidable (∀ call ∈ binding.calls index, ∀ read ∈ call.stage.commits,
      ∀ row ∈ binding.account, Fits binding call read row))
  | .challenge _ | .bind _ _ _ | .fail _ | .login _ _ | .revoke _ | .others _ | .identify _
  | .pass _ => isTrue trivial

/-! ## What holds of a call -/

/-- The row that a call has read. -/
def Stage.read : Stage → Option Account
  | .proving account | .checking account _ | .conflicting account | .updating account
  | .revoking account | .committing account _ _ => some account
  | _ => none

/-- The row that a call has read, once a rotation has proved its step-up. -/
def Stage.proven : Stage → Option Account
  | .checking account _ | .conflicting account | .updating account | .revoking account
  | .committing account _ _ => some account
  | _ => none

/-- The row that a call has read, once a rotation has looked for other sessions. -/
def Stage.checked : Stage → Option Account
  | .conflicting account | .updating account | .revoking account | .committing account _ _ =>
    some account
  | _ => none

/-- A call that has consumed its nonce and has not answered. -/
def Stage.underway : Stage → Bool
  | .consuming _ | .answered _ => false
  | _ => true

/-- A row without a key has epoch zero, and no other row has. -/
def Account.Coherent (account : Account) : Prop :=
  account.keyEpoch = 0 ↔ account.signPublicKey = none

/-- What holds of a call that has not answered. -/
structure Call.Sound (binding : Binding) (index : Nat) (call : Call) : Prop where
  coherent : ∀ read, call.stage.read = some read → read.Coherent
  explicit : ∀ read, call.stage.read = some read → read.rotates call.body → call.body.rotate
  proved : ∀ read, call.stage.proven = some read → read.rotates call.body → call.proved
  alone : ∀ read, call.stage.checked = some read → read.rotates call.body →
    ∀ session ∈ binding.sessions, session.id ∈ call.seen → session.id ≠ call.sessionId →
      session.healthy binding.now = false
  seen : ∀ id ∈ call.seen, id ∈ binding.sessions.map DeviceSession.id
  consuming : ∀ now, call.stage = .consuming now → now ≤ binding.now
  checking : ∀ account now, call.stage = .checking account now → now ≤ binding.now
  spender : call.stage.underway → binding.consumer call.body.nonce = some index

/-- What may change while a call waits: time passes, nonces are consumed, and sessions come and
stop being healthy. -/
structure Later (binding next : Binding) : Prop where
  now : binding.now ≤ next.now
  consumer : ∀ nonce index, binding.consumer nonce = some index →
    next.consumer nonce = some index
  ids : ∀ id ∈ binding.sessions.map DeviceSession.id, id ∈ next.sessions.map DeviceSession.id
  spent : ∀ session ∈ next.sessions, session.id ∈ binding.sessions.map DeviceSession.id →
    ∃ old ∈ binding.sessions, old.id = session.id ∧
      (old.healthy binding.now = false → session.healthy next.now = false)

variable {binding next : Binding} {index : Nat}

/-- What holds of a call goes on to hold while it waits. -/
theorem Call.Sound.later {call : Call}
    (sound : call.Sound binding index) (later : Later binding next) : call.Sound next index := by
  refine ⟨sound.coherent, sound.explicit, sound.proved, ?_, ?_, ?_, ?_, ?_⟩
  · intro read checked rotates session member seen apart
    obtain ⟨old, stored, same, spent⟩ := later.spent session member (sound.seen _ seen)
    exact spent (sound.alone read checked rotates old stored (same ▸ seen) (same ▸ apart))
  · exact fun id member => later.ids id (sound.seen id member)
  · exact fun now stage => Nat.le_trans (sound.consuming now stage) later.now
  · exact fun account now stage => Nat.le_trans (sound.checking account now stage) later.now
  · exact fun underway => later.consumer _ _ (sound.spender underway)

variable {now : Nat}

/-- An unhealthy session stays so. -/
theorem unhealthy_later {session : DeviceSession} {later : Nat} (passes : now ≤ later)
    (unhealthy : session.healthy now = false) : session.healthy later = false := by
  cases revoked : session.revokedAt with
  | some time => simp [DeviceSession.healthy, revoked]
  | none =>
    have expired : session.expiresAt ≤ now := by
      simpa [DeviceSession.healthy, revoked] using unhealthy
    simpa [DeviceSession.healthy, revoked] using Nat.le_trans expired passes

/-- A change that leaves the time, the sessions and the consumed nonces. -/
theorem later_of_same (now : next.now = binding.now)
    (consumer : next.consumer = binding.consumer) (sessions : next.sessions = binding.sessions) :
    Later binding next := by
  refine ⟨Nat.le_of_eq now.symm, ?_, ?_, ?_⟩
  · intro nonce index
    rw [consumer]
    exact id
  · intro id
    rw [sessions]
    exact fun member => member
  · intro session member _
    rw [sessions] at member
    exact ⟨session, member, rfl, now ▸ fun unhealthy => unhealthy⟩

/-- Sessions are revoked. -/
theorem later_revoke (binding : Binding) (ids : List String) (now : Nat) :
    Later binding (binding.revoke ids now) := by
  have same (session : DeviceSession) :
      (if session.id ∈ ids then { session with revokedAt := some now } else session).id =
        session.id := by
    split <;> rfl
  refine ⟨Nat.le_refl _, fun _ _ => id, ?_, ?_⟩
  · intro id member
    simpa [Binding.revoke, Function.comp_def, same] using member
  · intro session member _
    obtain ⟨old, stored, rfl⟩ := List.mem_map.mp member
    refine ⟨old, stored, (same old).symm, fun unhealthy => ?_⟩
    split
    · rfl
    · exact unhealthy

/-- A session is issued. -/
theorem later_login {id : String} (fresh : id ∉ binding.sessions.map
    DeviceSession.id) (expiresAt : Nat) :
    Later binding { binding with sessions := binding.sessions ++ [⟨id, expiresAt, none⟩] } := by
  refine ⟨Nat.le_refl _, fun _ _ => fun held => held, ?_, ?_⟩
  · intro other member
    simp only [List.map_append, List.mem_append]
    exact .inl member
  · intro session member known
    rcases List.mem_append.mp member with old | new
    · exact ⟨session, old, rfl, fun unhealthy => unhealthy⟩
    · obtain rfl := List.mem_singleton.mp new
      exact (fresh known).elim

/-- Time passes. -/
theorem later_pass (binding : Binding) (milliseconds : Nat) :
    Later binding { binding with now := binding.now + milliseconds } := by
  refine ⟨Nat.le_add_right _ _, fun _ _ => fun held => held, fun _ member => member, ?_⟩
  intro session member _
  exact ⟨session, member, rfl, unhealthy_later (Nat.le_add_right _ _)⟩

/-! ## What holds of every state -/

/-- The calls are sound, each nonce has one consumer, and the binds that have committed lead to
the row. -/
structure Sound (binding : Binding) : Prop where
  present : binding.account.isSome
  coherent : ∀ row, binding.account = some row → row.Coherent
  calls : ∀ index call, binding.calls index = some call → call.Sound binding index
  nonces : (binding.nonces.map KeyBindNonce.nonce).Nodup
  consumed : ∀ nonce index, binding.consumer nonce = some index →
    nonce ∈ binding.nonces.map KeyBindNonce.nonce ∧
      ∀ row ∈ binding.nonces, row.nonce = nonce → row.consumedAt.isSome
  logged : ∀ bound ∈ binding.log, binding.consumer bound.nonce = some bound.call ∧
    ∃ call reply, binding.calls bound.call = some call ∧ call.stage = .answered reply
  distinct : (binding.log.map Bound.call).Nodup
  epochs : ∀ bound ∈ binding.log, ∀ row, binding.account = some row →
    0 < bound.keyEpoch ∧ bound.keyEpoch ≤ row.keyEpoch ∧
      (bound.keyEpoch = row.keyEpoch → row.signPublicKey = some bound.signPublicKey)
  identified : ∀ first ∈ binding.log, ∀ second ∈ binding.log, first.keyEpoch = second.keyEpoch →
    first.signPublicKey = second.signPublicKey

/-- A registered account. -/
theorem sound_start (identities : List AuthIdentity) (now : Nat) :
    Sound (Binding.start identities now) := by
  refine ⟨rfl, ?_, ?_, List.nodup_nil, ?_, ?_, List.nodup_nil, ?_, ?_⟩ <;>
    simp [Binding.start, Account.fresh, Account.Coherent]

/-- A change around the calls keeps what holds. -/
theorem Sound.around (sound : Sound binding) (later : Later binding next)
    (account : next.account = binding.account) (calls : next.calls = binding.calls)
    (log : next.log = binding.log) (nonces : (next.nonces.map KeyBindNonce.nonce).Nodup)
    (consumed : ∀ nonce index, next.consumer nonce = some index →
      nonce ∈ next.nonces.map KeyBindNonce.nonce ∧
        ∀ row ∈ next.nonces, row.nonce = nonce → row.consumedAt.isSome) : Sound next := by
  refine ⟨account ▸ sound.present, account ▸ sound.coherent, ?_, nonces, consumed, ?_,
    log ▸ sound.distinct, log ▸ account ▸ sound.epochs, log ▸ sound.identified⟩
  · intro index call held
    exact (sound.calls index call (calls ▸ held)).later later
  · intro bound member
    obtain ⟨consumer, answered⟩ := sound.logged bound (log ▸ member)
    exact ⟨later.consumer _ _ consumer, calls ▸ answered⟩

/-- A call that is new or has not answered is set to another stage. -/
theorem Sound.put (sound : Sound binding) {next : Call}
    (waits : ∀ call reply, binding.calls index = some call → call.stage ≠ .answered reply)
    (onward : next.Sound binding index) :
    Sound { binding with calls := update binding.calls index (some next) } := by
  have later : Later binding { binding with calls := update binding.calls index (some next) } :=
    later_of_same rfl rfl rfl
  refine ⟨sound.present, sound.coherent, ?_, sound.nonces, sound.consumed, ?_, sound.distinct,
    sound.epochs, sound.identified⟩
  · intro other call found
    by_cases same : other = index
    · subst same
      obtain rfl : next = call := by simpa using found
      exact onward.later later
    · refine (sound.calls other call ?_).later later
      simpa [update_of_ne same] using found
  · intro bound member
    obtain ⟨consumer, call, reply, logged, answered⟩ := sound.logged bound member
    have apart : bound.call ≠ index := by
      intro same
      exact waits call reply (same ▸ logged) answered
    exact ⟨consumer, call, reply, by simpa [update_of_ne apart] using logged, answered⟩

/-- A call that has not answered goes on. -/
theorem Sound.await (sound : Sound binding) (next : Call) (stage : Stage)
    {call : Call} (held : binding.calls index = some call)
    (waits : ∀ reply, call.stage ≠ .answered reply)
    (onward : ({ next with stage } : Call).Sound binding index) :
    Sound (binding.await index next stage) := by
  refine sound.put ?_ onward
  intro other reply found
  obtain rfl := Option.some.inj (held.symm.trans found)
  exact waits reply

/-- A call that answers holds nothing more. -/
theorem Call.Sound.answered {call : Call} (sound : call.Sound binding index) (reply : Reply) :
    ({ call with stage := .answered reply } : Call).Sound binding index :=
  ⟨nofun, nofun, nofun, nofun, sound.seen, nofun, nofun, nofun⟩

/-- The lock of the row is taken or released. -/
theorem Sound.locked (sound : Sound binding) (lock : Option Nat) :
    Sound { binding with lock } :=
  sound.around (later_of_same rfl rfl rfl) rfl rfl rfl sound.nonces sound.consumed

variable {nonce : String}

/-- A nonce that can be consumed has no consumer. -/
theorem Sound.unconsumed
    (sound : Sound binding)     (usable : binding.nonces.any (fun row => row.usable nonce now)) :
    binding.consumer nonce = none := by
  obtain ⟨row, member, usable⟩ := List.any_eq_true.mp usable
  obtain ⟨⟨same, free⟩, _⟩ : (row.nonce = nonce ∧ row.consumedAt.isNone = true) ∧
      now < row.expiresAt := by
    simpa [KeyBindNonce.usable] using usable
  cases consumer : binding.consumer nonce with
  | none => rfl
  | some index =>
    have spent := (sound.consumed nonce index consumer).2 row member same
    cases consumed : row.consumedAt <;> simp [consumed] at spent free

/-- A nonce is consumed. -/
theorem later_consume
    (sound : Sound binding)     (usable : binding.nonces.any (fun row => row.usable nonce now)) (index : Nat) :
    Later binding (binding.consume index nonce now) := by
  have free := sound.unconsumed usable
  refine ⟨Nat.le_refl _, ?_, fun _ member => member, ?_⟩
  · intro other consumer held
    have apart : other ≠ nonce := by
      rintro rfl
      simp [free] at held
    simpa [Binding.consume, update_of_ne apart] using held
  · exact fun session member _ => ⟨session, member, rfl, fun unhealthy => unhealthy⟩

/-- A nonce that is consumed has one consumer. -/
theorem Sound.consume
    (sound : Sound binding)     (usable : binding.nonces.any (fun row => row.usable nonce now)) (index : Nat) :
    Sound (binding.consume index nonce now) := by
  have same (row : KeyBindNonce) :
      (if row.usable nonce now then { row with consumedAt := some now } else row).nonce =
        row.nonce := by
    split <;> rfl
  have kept : (binding.consume index nonce now).nonces.map KeyBindNonce.nonce =
      binding.nonces.map KeyBindNonce.nonce := by
    simp [Binding.consume, Function.comp_def, same]
  refine sound.around (later_consume sound usable index) rfl rfl rfl (kept ▸ sound.nonces) ?_
  intro other consumer held
  rw [kept]
  by_cases apart : other = nonce
  · subst apart
    obtain ⟨found, member, usable⟩ := List.any_eq_true.mp usable
    have named : found.nonce = other := by
      have parts := usable
      simp only [KeyBindNonce.usable, Bool.and_eq_true, decide_eq_true_eq] at parts
      exact parts.1.1
    refine ⟨named ▸ List.mem_map_of_mem member, ?_⟩
    intro row stored rowNamed
    obtain ⟨old, present, rfl⟩ := List.mem_map.mp stored
    have only : old = found := List.inj_on_of_nodup_map sound.nonces present member
      ((same old).symm.trans (rowNamed.trans named.symm))
    simp [only, usable]
  · have before : binding.consumer other = some consumer := by
      simpa [Binding.consume, update_of_ne apart] using held
    obtain ⟨member, spent⟩ := sound.consumed other consumer before
    refine ⟨member, ?_⟩
    intro row stored rowNamed
    obtain ⟨old, present, rfl⟩ := List.mem_map.mp stored
    have consumed := spent old present ((same old).symm.trans rowNamed)
    split
    · rfl
    · exact consumed

/-! ## One step of a bind -/

section Advance

variable {library : Library} {accountId : String} {binding : Binding} {index : Nat}
  {verified : Option OAuthIdentity} {call : Call}

/-- A call that refuses keeps what holds. -/
theorem Sound.refuse (sound : Sound binding) (held : binding.calls index = some call)
    (waits : ∀ reply, call.stage ≠ .answered reply) (status : Nat) (error : String) :
    Sound (binding.refuse index call status error) :=
  sound.await _ _ held waits ((sound.calls index call held).answered _)

/-- A call that consumes its nonce goes on to read the row. -/
theorem sound_consuming (sound : Sound binding) (held : binding.calls index = some call)
    (stage : call.stage = .consuming now)
    (taken : binding.advance library accountId index verified call = some next) : Sound next := by
  have waits : ∀ reply, call.stage ≠ .answered reply := by
    intro reply
    simp [stage]
  simp only [Binding.advance, stage] at taken
  split at taken
  · rename_i usable
    have consumed := sound.consume usable index
    split at taken
    · cases taken
      refine consumed.await _ _ held waits ⟨nofun, nofun, nofun, nofun, ?_, nofun, nofun, ?_⟩
      · exact (sound.calls index call held).seen
      · intro _
        simp [Binding.consume]
    · cases taken
      exact consumed.refuse held waits _ _
  · cases taken
    exact sound.refuse held waits _ _

/-- A call reads the row and decides which bind it is. -/
theorem sound_reading (sound : Sound binding) (held : binding.calls index = some call)
    (stage : call.stage = .reading)
    (taken : binding.advance library accountId index verified call = some next) : Sound next := by
  have waits : ∀ reply, call.stage ≠ .answered reply := by
    intro reply
    simp [stage]
  have own := sound.calls index call held
  have spender := own.spender (by simp [stage, Stage.underway])
  simp only [Binding.advance, stage] at taken
  split at taken
  · cases taken
    exact sound.refuse held waits _ _
  · rename_i account present
    have coherent := sound.coherent account present
    split at taken
    · split at taken
      · rename_i rotate
        cases taken
        exact sound.await _ _ held waits ⟨fun _ read => Option.some.inj read ▸ coherent,
          fun _ _ _ => rotate, nofun, nofun, own.seen, nofun, nofun, fun _ => spender⟩
      · cases taken
        exact sound.refuse held waits _ _
    · rename_i stays
      cases taken
      have never (read : Account) (same : some account = some read) :
          ¬read.rotates call.body = true := Option.some.inj same ▸ stays
      exact sound.await _ _ held waits ⟨fun _ read => Option.some.inj read ▸ coherent,
        fun read same rotates => (never read same rotates).elim,
        fun read same rotates => (never read same rotates).elim,
        fun read same rotates => (never read same rotates).elim,
        own.seen, nofun, nofun, fun _ => spender⟩

/-- A rotation proves its step-up. -/
theorem sound_proving (sound : Sound binding) (held : binding.calls index = some call)
    {account : Account} (stage : call.stage = .proving account)
    (taken : binding.advance library accountId index verified call = some next) : Sound next := by
  have waits : ∀ reply, call.stage ≠ .answered reply := by
    intro reply
    simp [stage]
  have own := sound.calls index call held
  have spender := own.spender (by simp [stage, Stage.underway])
  have read : call.stage.read = some account := by simp [stage, Stage.read]
  simp only [Binding.advance, stage] at taken
  split at taken
  · cases taken
    exact sound.await _ _ held waits ⟨fun _ same => own.coherent _ (read.trans same),
      fun _ same => own.explicit _ (read.trans same), fun _ _ _ => rfl, nofun, own.seen, nofun,
      fun _ _ same => (Stage.checking.inj same).2 ▸ Nat.le_refl _, fun _ => spender⟩
  · cases taken
    exact sound.refuse held waits _ _

/-- A rotation looks for other sessions. -/
theorem sound_checking (sound : Sound binding) (held : binding.calls index = some call)
    {account : Account} (stage : call.stage = .checking account now)
    (taken : binding.advance library accountId index verified call = some next) : Sound next := by
  have waits : ∀ reply, call.stage ≠ .answered reply := by
    intro reply
    simp [stage]
  have own := sound.calls index call held
  have spender := own.spender (by simp [stage, Stage.underway])
  have read : call.stage.read = some account := by simp [stage, Stage.read]
  have proven : call.stage.proven = some account := by simp [stage, Stage.proven]
  simp only [Binding.advance, stage] at taken
  split at taken
  · cases taken
    exact sound.refuse held waits _ _
  · rename_i nobody
    cases taken
    have alone : ∀ session ∈ binding.sessions, session.id ≠ call.sessionId →
        session.healthy binding.now = false := by
      intro session member apart
      have unhealthy : session.healthy now = false := by
        have others := nobody
        simp only [List.any_eq_true, not_exists, not_and, Bool.and_eq_true, decide_eq_true_eq]
          at others
        simpa using others session member apart
      exact unhealthy_later (own.checking account now stage) unhealthy
    exact sound.await _ _ held waits ⟨fun _ same => own.coherent _ (read.trans same),
      fun _ same => own.explicit _ (read.trans same),
      fun _ same => own.proved _ (proven.trans same),
      fun _ _ _ session member _ apart => alone session member apart,
      fun _ member => member, nofun, nofun, fun _ => spender⟩

/-- A call that has looked for sessions goes on with what it knows. -/
theorem Sound.onward (sound : Sound binding) (account : Account)
    (held : binding.calls index = some call) {stage : Stage} (underway : call.stage.underway)
    (read : call.stage.read = some account) (checked : call.stage.checked = some account)
    (proven : call.stage.proven = some account)
    (readNext : stage.read = some account) (checkedNext : stage.checked = some account)
    (provenNext : stage.proven = some account) : Sound (binding.await index call stage) := by
  have own := sound.calls index call held
  refine sound.await _ _ held ?_ ⟨?_, ?_, ?_, ?_, own.seen, ?_, ?_, fun _ => own.spender underway⟩
  · intro reply answered
    simp [answered, Stage.underway] at underway
  · exact fun _ same => own.coherent _ (read.trans (readNext.symm.trans same))
  · exact fun _ same => own.explicit _ (read.trans (readNext.symm.trans same))
  · exact fun _ same => own.proved _ (proven.trans (provenNext.symm.trans same))
  · exact fun _ same => own.alone _ (checked.trans (checkedNext.symm.trans same))
  · intro now same
    have impossible : stage = .consuming now := same
    simp [impossible, Stage.read] at readNext
  · intro other now same
    have impossible : stage = .checking other now := same
    simp [impossible, Stage.checked] at checkedNext

/-- The steps between the check and the commit. -/
theorem sound_transaction (sound : Sound binding) (held : binding.calls index = some call)
    {account : Account} (stage : call.stage = .conflicting account ∨
      call.stage = .updating account ∨ call.stage = .revoking account)
    (taken : binding.advance library accountId index verified call = some next) : Sound next := by
  rcases stage with stage | stage | stage
  · simp only [Binding.advance, stage] at taken
    split at taken
    · cases taken
      exact sound.refuse held (by simp [stage]) _ _
    · cases taken
      exact sound.onward account held (by simp [stage, Stage.underway])
        (by simp [stage, Stage.read]) (by simp [stage, Stage.checked])
        (by simp [stage, Stage.proven]) rfl rfl rfl
  · simp only [Binding.advance, stage] at taken
    split at taken
    · contradiction
    · split at taken
      all_goals
        cases taken
        exact (sound.locked (some index)).onward account held
          (by simp [stage, Stage.underway]) (by simp [stage, Stage.read])
          (by simp [stage, Stage.checked]) (by simp [stage, Stage.proven]) rfl rfl rfl
  · simp only [Binding.advance, stage] at taken
    cases taken
    exact sound.onward account held (by simp [stage, Stage.underway])
      (by simp [stage, Stage.read]) (by simp [stage, Stage.checked])
      (by simp [stage, Stage.proven]) rfl rfl rfl

/-- A bind is recorded with the row that it has written. -/
theorem Sound.bound (sound : Sound binding) (row : Account) (bound : Bound)
    (coherent : row.Coherent) (consumer : binding.consumer bound.nonce = some bound.call)
    (answered : ∃ call reply, binding.calls bound.call = some call ∧ call.stage = .answered reply)
    (fresh : bound.call ∉ binding.log.map Bound.call) (positive : 0 < row.keyEpoch)
    (before : ∀ earlier ∈ binding.log, earlier.keyEpoch ≤ row.keyEpoch ∧
      (earlier.keyEpoch = row.keyEpoch → row.signPublicKey = some earlier.signPublicKey))
    (epoch : bound.keyEpoch = row.keyEpoch) (key : row.signPublicKey = some bound.signPublicKey)
    (lock : Option Nat) :
    Sound { binding with account := some row, lock, log := binding.log ++ [bound] } := by
  have agrees : ∀ earlier ∈ binding.log, earlier.keyEpoch = bound.keyEpoch →
      earlier.signPublicKey = bound.signPublicKey := by
    intro earlier member same
    have stored := (before earlier member).2 (same.trans epoch)
    exact Option.some.inj (stored.symm.trans key)
  have later : Later binding { binding with
      account := some row, lock, log := binding.log ++ [bound] } := later_of_same rfl rfl rfl
  refine ⟨rfl, fun _ same => Option.some.inj same ▸ coherent,
    fun other call held => (sound.calls other call held).later later, sound.nonces,
    sound.consumed, ?_, ?_, ?_, ?_⟩
  · intro any member
    rcases List.mem_append.mp member with earlier | now
    · exact sound.logged any earlier
    · obtain rfl := List.mem_singleton.mp now
      exact ⟨consumer, answered⟩
  · rw [List.map_append]
    refine List.nodup_append.mpr ⟨sound.distinct, List.nodup_singleton _, ?_⟩
    intro first earlier second now same
    rw [List.map_singleton, List.mem_singleton] at now
    exact fresh (now ▸ same ▸ earlier)
  · intro any member other same
    obtain rfl : row = other := Option.some.inj same
    rcases List.mem_append.mp member with earlier | now
    · obtain ⟨present, _⟩ : (0 < any.keyEpoch) ∧ True := by
        obtain ⟨stored, account⟩ := Option.isSome_iff_exists.mp sound.present
        exact ⟨(sound.epochs any earlier stored account).1, trivial⟩
      exact ⟨present, before any earlier⟩
    · obtain rfl := List.mem_singleton.mp now
      exact ⟨epoch ▸ positive, Nat.le_of_eq epoch, fun _ => key⟩
  · intro first one second two same
    rcases List.mem_append.mp one with earlier | now
    · rcases List.mem_append.mp two with earlier' | now'
      · exact sound.identified first earlier second earlier' same
      · obtain rfl := List.mem_singleton.mp now'
        exact agrees first earlier same
    · obtain rfl := List.mem_singleton.mp now
      rcases List.mem_append.mp two with earlier' | now'
      · exact (agrees second earlier' same.symm).symm
      · obtain rfl := List.mem_singleton.mp now'
        rfl

/-- Sessions are revoked. -/
theorem Sound.revoke (sound : Sound binding) (ids : List String) (now : Nat) :
    Sound (binding.revoke ids now) :=
  sound.around (later_revoke binding ids now) rfl rfl rfl sound.nonces sound.consumed

/-- The epoch that a bind writes is positive. -/
theorem newEpoch_positive (account : Account) (body : Body) : 0 < account.newEpoch body := by
  unfold Account.newEpoch
  split
  · exact Nat.one_pos
  · rename_i bound
    have positive : 0 < account.keyEpoch := by
      simpa [Account.isFirstBind, Nat.pos_iff_ne_zero] using bound
    split
    · exact positive
    · exact Nat.succ_pos _

/-- An undisturbed bind writes what is stored, is the first, or is a rotation of the stored row with
no other session healthy. -/
theorem commit_cases (sound : Sound binding) (held : binding.calls index = some call)
    {read row : Account} {revoked : List String}
    (stage : call.stage = .committing read revoked now) (present : binding.account = some row)
    (undisturbed : Undisturbed binding (.advance index verified)) :
    (row.signPublicKey = some call.body.signPublicKeyHex ∧
        row.keyEpoch = read.newEpoch call.body) ∨
      (row.signPublicKey = none ∧ row.keyEpoch = 0) ∨
      (read.rotates call.body = true ∧ read.newEpoch call.body = row.keyEpoch + 1 ∧
        ∀ session ∈ binding.sessions, session.id ≠ call.sessionId →
          session.healthy binding.now = false) := by
  have own := sound.calls index call held
  rcases undisturbed call held read (by simp [stage, Stage.commits]) row present with stored | ⟨key, epoch, alone⟩
  · exact .inl stored
  · by_cases first : read.keyEpoch = 0
    · have unbound : read.signPublicKey = none := (own.coherent read (by simp [stage, Stage.read])).mp first
      exact .inr (.inl ⟨key.trans unbound, epoch.trans first⟩)
    · by_cases same : read.signPublicKey = some call.body.signPublicKeyHex
      · refine .inl ⟨key.trans same, epoch.trans ?_⟩
        simp [Account.newEpoch, Account.isFirstBind, Account.sameKey, first, same]
      · have rotates : read.rotates call.body = true := by
          simp [Account.rotates, Account.isFirstBind, Account.sameKey, first, same]
        refine .inr (.inr ⟨rotates, ?_, ?_⟩)
        · simp [Account.newEpoch, Account.isFirstBind, Account.sameKey, first, same, epoch]
        · intro session member apart
          by_cases seen : session.id ∈ call.seen
          · exact own.alone read (by simp [stage, Stage.checked]) rotates session member seen apart
          · exact alone rotates session member seen apart

/-- An undisturbed bind that commits keeps what holds. -/
theorem sound_committing (sound : Sound binding) (held : binding.calls index = some call)
    {read : Account} {revoked : List String}
    (stage : call.stage = .committing read revoked now)
    (undisturbed : Undisturbed binding (.advance index verified)) :
    Sound (binding.commit index call read revoked now) := by
  have spender := (sound.calls index call held).spender (by simp [stage, Stage.underway])
  obtain ⟨row, present⟩ := Option.isSome_iff_exists.mp sound.present
  have positive := newEpoch_positive read call.body
  have before : ∀ earlier ∈ binding.log, earlier.keyEpoch ≤ read.newEpoch call.body ∧
      (earlier.keyEpoch = read.newEpoch call.body →
        some call.body.signPublicKeyHex = some earlier.signPublicKey) := by
    intro earlier member
    obtain ⟨least, most, key⟩ := sound.epochs earlier member row present
    rcases commit_cases sound held stage present undisturbed with
      ⟨same, epoch⟩ | ⟨_, first⟩ | ⟨_, next, _⟩
    · exact ⟨epoch ▸ most, fun equal => same.symm.trans (key (equal.trans epoch.symm))⟩
    · omega
    · exact ⟨by omega, fun equal => by omega⟩
  have fresh : index ∉ binding.log.map Bound.call := by
    intro member
    obtain ⟨bound, logged, same⟩ := List.mem_map.mp member
    obtain ⟨_, other, reply, found, answered⟩ := sound.logged bound logged
    rw [same, held] at found
    cases found
    simp [stage] at answered
  have revoking := sound.revoke revoked now
  have answered := revoking.await call (.answered (.success (read.newEpoch call.body))) held
    (by simp [stage]) ((revoking.calls index call held).answered _)
  have written := answered.bound
    ⟨some call.body.signPublicKeyHex, some call.body.contentPubKey, read.newEpoch call.body⟩
    ⟨index, call.body.nonce, read.newEpoch call.body, call.body.signPublicKeyHex⟩
    ⟨fun zero => absurd zero (Nat.ne_of_gt positive), nofun⟩ spender
    ⟨{ call with stage := .answered (.success (read.newEpoch call.body)) }, _,
      by simp [Binding.await], rfl⟩
    fresh positive before rfl rfl none
  have row' : (binding.commit index call read revoked now).account = some
      ⟨some call.body.signPublicKeyHex, some call.body.contentPubKey, read.newEpoch call.body⟩ := by
    simp [Binding.commit, present]
  have committed : binding.commit index call read revoked now =
      { (binding.revoke revoked now).await index call
          (.answered (.success (read.newEpoch call.body))) with
        account := (binding.commit index call read revoked now).account
        lock := none
        log := binding.log ++ [⟨index, call.body.nonce, read.newEpoch call.body,
          call.body.signPublicKeyHex⟩] } := rfl
  rw [committed, row']
  exact written

/-- Only a commit changes the row or records a bind. -/
theorem advance_keeps
    (uncommitted : ∀ read revoked now, call.stage ≠ .committing read revoked now)
    (taken : binding.advance library accountId index verified call = some next) :
    next.account = binding.account ∧ next.log = binding.log := by
  cases stage : call.stage with
  | committing read revoked now => exact (uncommitted read revoked now stage).elim
  | answered reply => simp [Binding.advance, stage] at taken
  | consuming | reading | proving | checking | conflicting | updating | revoking =>
    simp only [Binding.advance, stage] at taken
    repeat' split at taken
    all_goals first
      | contradiction
      | (cases taken
         exact ⟨rfl, rfl⟩)

/-- A step of a bind keeps what holds. -/
theorem sound_advance (sound : Sound binding) (held : binding.calls index = some call)
    (undisturbed : Undisturbed binding (.advance index verified))
    (taken : binding.advance library accountId index verified call = some next) : Sound next := by
  cases stage : call.stage with
  | consuming now => exact sound_consuming sound held stage taken
  | reading => exact sound_reading sound held stage taken
  | proving account => exact sound_proving sound held stage taken
  | checking account now => exact sound_checking sound held stage taken
  | conflicting account => exact sound_transaction sound held (.inl stage) taken
  | updating account => exact sound_transaction sound held (.inr (.inl stage)) taken
  | revoking account => exact sound_transaction sound held (.inr (.inr stage)) taken
  | committing account revoked now =>
    simp only [Binding.advance, stage] at taken
    cases taken
    exact sound_committing sound held stage undisturbed
  | answered reply => simp [Binding.advance, stage] at taken

end Advance

/-! ## One event -/

section Steps

variable {library : Library} {accountId : String}

/-- A challenge stores a nonce that has no consumer. -/
theorem sound_challenge (sound : Sound binding)
    (fresh : nonce ∉ binding.nonces.map KeyBindNonce.nonce) (expiresAt : Nat) :
    Sound { binding with nonces := binding.nonces ++ [⟨nonce, expiresAt, none⟩] } := by
  refine sound.around (later_of_same rfl rfl rfl) rfl rfl rfl ?_ ?_
  · rw [List.map_append]
    refine List.nodup_append.mpr ⟨sound.nonces, List.nodup_singleton _, ?_⟩
    intro first earlier second now same
    obtain rfl : second = nonce := by simpa using now
    exact fresh (same ▸ earlier)
  · intro other index held
    obtain ⟨member, spent⟩ := sound.consumed other index held
    refine ⟨by simpa using .inl (List.mem_map.mp member), ?_⟩
    intro row stored named
    rcases List.mem_append.mp stored with earlier | now
    · exact spent row earlier named
    · obtain rfl := List.mem_singleton.mp now
      obtain rfl : nonce = other := named
      exact (fresh member).elim

/-- An undisturbed event keeps what holds. -/
theorem sound_step {event : Event} (sound : Sound binding) (undisturbed : Undisturbed binding event)
    (taken : step library accountId binding event = some next) : Sound next := by
  cases event with
  | challenge nonce =>
    simp only [step] at taken
    split at taken
    · contradiction
    · rename_i fresh
      cases taken
      exact sound_challenge sound fresh _
  | bind index sessionId body =>
    simp only [step] at taken
    split at taken
    · contradiction
    · rename_i unused
      cases taken
      refine sound.put (fun call reply found => by simp [unused] at found)
        ⟨nofun, nofun, nofun, nofun, nofun, ?_, nofun, nofun⟩
      exact fun now same => Stage.consuming.inj same ▸ Nat.le_refl _
  | advance index verified =>
    obtain ⟨call, held, advanced⟩ := Option.bind_eq_some_iff.mp taken
    exact sound_advance sound held undisturbed advanced
  | fail index =>
    simp only [step] at taken
    split at taken
    · contradiction
    · rename_i call held
      split at taken
      · contradiction
      · rename_i waits
        cases taken
        exact (sound.refuse held (fun reply answered => waits reply answered) _ _).locked _
  | login sessionId expiresAt =>
    simp only [step] at taken
    split at taken
    · contradiction
    · rename_i fresh
      cases taken
      exact sound.around (later_login fresh expiresAt) rfl rfl rfl sound.nonces sound.consumed
  | revoke ids =>
    cases taken
    exact sound.revoke ids binding.now
  | others keys =>
    cases taken
    exact sound.around (later_of_same rfl rfl rfl) rfl rfl rfl sound.nonces sound.consumed
  | identify identities =>
    cases taken
    exact sound.around (later_of_same rfl rfl rfl) rfl rfl rfl sound.nonces sound.consumed
  | pass milliseconds =>
    cases taken
    exact sound.around (later_pass binding milliseconds) rfl rfl rfl sound.nonces sound.consumed

/-- Every event but a commit leaves the row and the binds on record. -/
theorem step_keeps {event : Event}
    (uncommitted : ∀ index verified call read revoked now, event = .advance index verified →
      binding.calls index = some call → call.stage ≠ .committing read revoked now)
    (taken : step library accountId binding event = some next) :
    next.account = binding.account ∧ next.log = binding.log := by
  cases event with
  | advance index verified =>
    obtain ⟨call, held, advanced⟩ := Option.bind_eq_some_iff.mp taken
    exact advance_keeps (fun read revoked now => uncommitted index verified call read revoked now
      rfl held) advanced
  | challenge | bind | fail | login | revoke | others | identify | pass =>
    simp only [step] at taken
    repeat' split at taken
    all_goals first
      | contradiction
      | (cases taken
         exact ⟨rfl, rfl⟩)

/-- Where each nonce has one consumer, it is good for one bind. -/
theorem Sound.single (sound : Sound binding) (nonce : String) :
    (binding.log.filter (fun bound => bound.nonce = nonce)).length ≤ 1 := by
  have distinct : ((binding.log.filter (fun bound => bound.nonce = nonce)).map Bound.call).Nodup :=
    (List.filter_sublist.map Bound.call).nodup sound.distinct
  cases consumer : binding.consumer nonce with
  | none =>
    have nobody : binding.log.filter (fun bound => bound.nonce = nonce) = [] := by
      refine List.filter_eq_nil_iff.mpr fun bound member named => ?_
      obtain rfl : bound.nonce = nonce := by simpa using named
      have owner := (sound.logged bound member).1
      simp [consumer] at owner
    simp [nobody]
  | some index =>
    have same : ∀ call ∈ (binding.log.filter (fun bound => bound.nonce = nonce)).map Bound.call,
        call = index := by
      intro call member
      obtain ⟨bound, found, rfl⟩ := List.mem_map.mp member
      obtain ⟨logged, named⟩ := List.mem_filter.mp found
      have owner := (sound.logged bound logged).1
      rw [of_decide_eq_true named, consumer] at owner
      exact (Option.some.inj owner).symm
    rw [List.eq_replicate_of_mem same, List.nodup_replicate] at distinct
    simpa using distinct

/-- An undisturbed event is lawful. -/
theorem lawful_step {event : Event} (sound : Sound binding)
    (undisturbed : Undisturbed binding event)
    (taken : step library accountId binding event = some next) : Lawful binding event next := by
  have kept := sound_step sound undisturbed taken
  by_cases commits : ∃ index verified call read revoked now, event = .advance index verified ∧
      binding.calls index = some call ∧ call.stage = .committing read revoked now
  · obtain ⟨index, verified, call, read, revoked, now, rfl, held, stage⟩ := commits
    have own := sound.calls index call held
    have committed : binding.commit index call read revoked now = next := by
      have advanced : (binding.calls index).bind
          (binding.advance library accountId index verified) = some next := taken
      rw [held] at advanced
      simpa [Binding.advance, stage] using advanced
    have written (row row' : Account) (present : binding.account = some row)
        (after : next.account = some row') : row' = ⟨some call.body.signPublicKeyHex,
          some call.body.contentPubKey, read.newEpoch call.body⟩ := by
      rw [← committed] at after
      simpa [Binding.commit, present] using after.symm
    refine ⟨?_, ?_, kept.identified, kept.single⟩
    · intro row row' key present after bound changes
      rw [written row row' present after] at changes
      rcases commit_cases sound held stage present undisturbed with
        ⟨same, _⟩ | ⟨unbound, _⟩ | ⟨rotates, _, alone⟩
      · exact (changes (same.symm.trans bound)).elim
      · simp [unbound] at bound
      · exact ⟨index, verified, call, rfl, held,
          own.explicit read (by simp [stage, Stage.read]) rotates,
          own.proved read (by simp [stage, Stage.proven]) rotates, alone⟩
    · intro row row' present after changes
      rw [written row row' present after] at changes ⊢
      rcases commit_cases sound held stage present undisturbed with
        ⟨same, _⟩ | ⟨_, first⟩ | ⟨_, epoch, _⟩
      · exact (changes same.symm).elim
      · have positive := newEpoch_positive read call.body
        simp only
        omega
      · exact Nat.le_of_eq epoch.symm
  · have same := step_keeps (fun index verified call read revoked now happens held stage =>
      commits ⟨index, verified, call, read, revoked, now, happens, held, stage⟩) taken
    refine ⟨?_, ?_, kept.identified, kept.single⟩
    · intro row row' key present after bound changes
      obtain rfl := Option.some.inj (present.symm.trans (same.1.symm.trans after))
      exact (changes bound).elim
    · intro row row' present after changes
      obtain rfl := Option.some.inj (present.symm.trans (same.1.symm.trans after))
      exact (changes rfl).elim

end Steps

/-! ## Whole runs -/

/-- Where every bind of a run commits undisturbed, its key changes as it may. -/
theorem undisturbed_binds_lawful (library : Library) (accountId : String)
    (identities : List AuthIdentity) (now : Nat) (events : List Event)
    (undisturbed : Runs.Always (step library accountId)
      (fun binding event _ => Undisturbed binding event) (Binding.start identities now) events) :
    Runs.Always (step library accountId) Lawful (Binding.start identities now) events := by
  apply Runs.always_under Sound Undisturbed Lawful ?_ (sound_start identities now) undisturbed
  intro binding event next sound met taken
  exact ⟨sound_step sound met taken, lawful_step sound met taken⟩

/-! ## Runs on fixed inputs -/

/-- A library that accepts every signature and every password. -/
def trusting : Library := ⟨fun _ _ _ => some true, fun _ _ => true⟩

/-- An identity with a password. -/
def passwordIdentity : AuthIdentity := ⟨"password", "someone@example.test", some "hash"⟩

/-- A body with a key of 32 bytes whose sextets are all the same. -/
def bodyOf (sextet : Char) (nonce : String) (proof : Option StepUpProof) : Body :=
  ⟨String.ofList (List.replicate 43 sextet), "content", nonce, "signature", proof.isSome, proof⟩

/-- A device binds its key, and the account later rotates to another. -/
def bindThenRotate : List Event :=
  [.login "first" 1000, .challenge "one", .bind 0 "first" (bodyOf 'A' "one" none),
    .advance 0 none, .advance 0 none, .advance 0 none, .advance 0 none, .advance 0 none,
    .challenge "two", .bind 1 "first" (bodyOf 'B' "two" (some (.password "secret"))),
    .advance 1 none, .advance 1 none, .advance 1 none, .advance 1 none, .advance 1 none,
    .advance 1 none, .advance 1 none, .advance 1 none]

/-- Two devices bind their keys at the same time, each with a nonce of its own. -/
def twoFirstBinds : List Event :=
  [.challenge "one", .challenge "two", .bind 0 "first" (bodyOf 'A' "one" none),
    .bind 1 "second" (bodyOf 'B' "two" none), .advance 0 none, .advance 1 none, .advance 0 none,
    .advance 1 none, .advance 0 none, .advance 1 none, .advance 0 none, .advance 0 none,
    .advance 1 none]

/-- A first bind and a rotation, one after the other, change the key as they may. -/
theorem bind_then_rotate_lawful :
    Runs.Always (step trusting "account") Lawful (Binding.start [passwordIdentity] 0)
      bindThenRotate :=
  undisturbed_binds_lawful trusting "account" [passwordIdentity] 0 bindThenRotate (by decide +kernel)

/-- The second of two first binds replaces the key of the first, under the same epoch. -/
theorem two_first_binds_unlawful :
    ¬Runs.Always (step trusting "account") Lawful (Binding.start [] 0)
      (twoFirstBinds ++ [.advance 1 none]) := by
  intro always
  have lawful := Runs.always_step always rfl rfl
  have counted := lawful.counted _ _ rfl rfl
  revert counted
  decide +kernel

end Kvy.Server.App.Keys
