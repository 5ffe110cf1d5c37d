import Kvy.Cli.Api.SessionMetadataRuns

/-!
# Patching a session's metadata from the browser

A patch is applied to the metadata that is known, sealed and sent under the known version. A
conflict brings metadata that was stored while the request was under way, and the patch is applied
to that. Five requests are sent at most.

Versions count the values that a session's metadata has had. Other clients write at any time, and
an answer may get lost after the write has taken effect.
-/

namespace Kvy.Web.Lib

open General Wire Cli.Api Server.Db Server.App

/-! ## Plaintexts -/

/-- A value that `JSON.stringify` writes and `JSON.parse` reads back. -/
abbrev Plain := {value : Json // value.distinct = true}

/-- Whether an opened value passes `if (!opened)`. -/
def truthy : Json → Bool
  | .null => false
  | .bool value => value
  | .num number => number.mantissa ≠ 0
  | .str string => string ≠ ""
  | .arr _ | .obj _ => true

/-- `bridge.open`. -/
def openBox (cipher : Cipher) (box : EncryptedBox) : Option Json :=
  (cipher.decrypt box).bind Json.parse

/-- `bridge.seal`. -/
def sealBox (cipher : Cipher) (value : Plain) (nonce : Nat) : EncryptedBox :=
  cipher.encrypt (value.1.stringify 0) nonce

/-- What is sealed is opened. -/
theorem open_sealBox (cipher : Cipher) (value : Plain) (nonce : Nat) :
    openBox cipher (sealBox cipher value nonce) = some value.1 := by
  rw [openBox, sealBox, cipher.decrypts, Option.bind_some]
  exact Json.parse_stringify value.1 0 value.2

/-- `SessionMetadataPatch`; nothing where it throws. -/
abbrev SessionMetadataPatch := Json → Option Plain

/-! ## The loop -/

/-- `MAX_ATTEMPTS`. -/
def maxAttempts : Nat := 5

/-- A value that the metadata has had, and whether it was written here. -/
structure Entry where
  value : Option EncryptedBox
  own : Bool
deriving DecidableEq

/-- What `putSessionMetadataCas` is answered. -/
inductive PutAnswer where
  | ok (version : Nat)
  | conflict (value : Option EncryptedBox) (version : Nat)
deriving DecidableEq

/-- Where the loop stands. -/
inductive Phase where
  /-- It waits for `setSessionKey`. -/
  | unwrapping
  /-- It waits for `open`. -/
  | opening
  /-- It waits for `seal`. -/
  | sealing (patched : Plain)
  /-- It waits for the answer to its request, sent when this many values had been stored. -/
  | putting (sealed : EncryptedBox) (since : Nat) (answer : Option PutAnswer)
  | returned (value : EncryptedBox) (version : Nat)
  | thrown (message : String)

/-- `patchSessionMetadataCas`, with all values the metadata has had, whether an answer to a write
that took effect has got lost, and how many requests were sent. -/
structure Writer where
  entries : List Entry
  current : Versioned EncryptedBox
  phase : Phase
  attempts : Nat
  lost : Bool

/-- What can happen. -/
inductive WriteEvent where
  /-- Another client's write succeeds. -/
  | other (value : EncryptedBox)
  | unwrapped (ok : Bool)
  | opened
  | sealed (nonce : Nat)
  /-- A call of the bridge is rejected. -/
  | bridgeFails (message : String)
  /-- The request takes effect. -/
  | accept
  /-- The request is refused with what was stored under a version. -/
  | refuse (version : Nat)
  /-- The answer arrives. -/
  | answered
  /-- No answer arrives, or another one. -/
  | putFails (message : String)

namespace Writer

/-- The loop goes on with another attempt, or it gives up. -/
def retry (writer : Writer) : Writer :=
  { writer with
    phase := if writer.attempts < maxAttempts then .opening
      else .thrown "Could not save: too many conflicting writes. Try again." }

/-- `open` and `patch`. -/
def openAndPatch (cipher : Cipher) (patch : SessionMetadataPatch) (writer : Writer) : Writer :=
  { writer with
    phase :=
      match (openBox cipher writer.current.value).filter (fun opened => truthy opened) with
      | none => .thrown "Could not decrypt this session's metadata."
      | some opened =>
        match patch opened with
        | none => .thrown "the patch threw"
        | some patched => .sealing patched }

/-- What the loop does with an answer. -/
def receive (writer : Writer) (sealed : EncryptedBox) : PutAnswer → Writer
  | .ok version => { writer with phase := .returned sealed version }
  | .conflict none _ =>
    { writer with phase := .thrown "This session's metadata is missing server-side." }
  | .conflict (some value) version => { writer with current := ⟨value, version⟩ }.retry

/-- One step. -/
def step (cipher : Cipher) (patch : SessionMetadataPatch) (writer : Writer) :
    WriteEvent → Option Writer
  | .other value => some { writer with entries := writer.entries ++ [⟨some value, false⟩] }
  | .unwrapped ok =>
    match writer.phase with
    | .unwrapping =>
      if ok then some writer.retry
      else some { writer with phase := .thrown "Could not unwrap this session's key." }
    | _ => none
  | .opened =>
    match writer.phase with
    | .opening => some (writer.openAndPatch cipher patch)
    | _ => none
  | .sealed nonce =>
    match writer.phase with
    | .sealing patched =>
      some
        { writer with
          phase := .putting (sealBox cipher patched nonce) writer.entries.length none
          attempts := writer.attempts + 1 }
    | _ => none
  | .bridgeFails message =>
    match writer.phase with
    | .unwrapping | .opening | .sealing _ => some { writer with phase := .thrown message }
    | _ => none
  | .accept =>
    match writer.phase with
    | .putting sealed since none =>
      if writer.current.version + 1 = writer.entries.length then
        some
          { writer with
            entries := writer.entries ++ [⟨some sealed, true⟩]
            phase := .putting sealed since (some (.ok (writer.current.version + 1))) }
      else none
    | _ => none
  | .refuse version =>
    match writer.phase, writer.entries[version]? with
    | .putting sealed since none, some entry =>
      if since ≤ version + 1 then
        some { writer with phase := .putting sealed since (some (.conflict entry.value version)) }
      else none
    | _, _ => none
  | .answered =>
    match writer.phase with
    | .putting sealed _ (some answer) => some (writer.receive sealed answer)
    | _ => none
  | .putFails message =>
    match writer.phase with
    | .putting _ _ answer =>
      some
        { writer with
          phase := .thrown message
          lost := writer.lost || answer = some (.ok (writer.current.version + 1)) }
    | _ => none

end Writer

/-- A call with a pair that was stored: after some values, and before others. -/
def patchSessionMetadataCas (older : List (Option EncryptedBox)) (value : EncryptedBox)
    (newer : List (Option EncryptedBox)) : Writer where
  entries := (older ++ some value :: newer).map (⟨·, false⟩)
  current := ⟨value, older.length⟩
  phase := .unwrapping
  attempts := 0
  lost := false

/-! ## What is asked -/

/-- A value of its own is stored under a version: it is the patch applied to the value before. -/
def Patched (cipher : Cipher) (patch : SessionMetadataPatch) (writer : Writer)
    (value : EncryptedBox) (version : Nat) : Prop :=
  writer.entries[version]? = some ⟨some value, true⟩ ∧
    ∃ before stored plain patched, version = before + 1 ∧
      (writer.entries[before]?).map Entry.value = some (some stored) ∧
      openBox cipher stored = some plain ∧ patch plain = some patched ∧
      openBox cipher value = some patched.1

/-- A patch is one atomic read and write. -/
structure Atomic (cipher : Cipher) (patch : SessionMetadataPatch) (writer : Writer) : Prop where
  /-- What was written here is the patch of what was stored right before. -/
  based : ∀ version value, writer.entries[version]? = some ⟨value, true⟩ →
    ∃ box, value = some box ∧ Patched cipher patch writer box version
  /-- What is returned is stored, and nothing else was written. -/
  returned : ∀ value version, writer.phase = .returned value version →
    Patched cipher patch writer value version ∧
      ∀ other entry, writer.entries[other]? = some entry → entry.own → other = version
  /-- Where it throws nothing was written, unless the answer to a write got lost. -/
  thrown : ∀ message, writer.phase = .thrown message → writer.lost = false →
    ∀ entry ∈ writer.entries, entry.own = false
  attempts : writer.attempts ≤ maxAttempts

/-- Nothing that is stored is removed. -/
def Keeps (writer next : Writer) : Prop := writer.entries <+: next.entries

/-! ## What every step keeps -/

namespace Writer

/-- Nothing was written here. -/
def Unwritten (writer : Writer) : Prop := ∀ entry ∈ writer.entries, entry.own = false

/-- Nothing was written here but under one version. -/
def Only (writer : Writer) (version : Nat) : Prop :=
  ∀ (other : Nat) (entry : Entry), writer.entries[other]? = some entry → entry.own → other = version

/-- A value is stored under a version. -/
def Holds (writer : Writer) (version : Nat) (value : Option EncryptedBox) : Prop :=
  (writer.entries[version]?).map Entry.value = some value

/-- A value that is patched from the known one. -/
def Based (cipher : Cipher) (patch : SessionMetadataPatch) (writer : Writer) (patched : Plain) :
    Prop :=
  ∃ plain, openBox cipher writer.current.value = some plain ∧ patch plain = some patched

/-- What holds where the loop stands. -/
def Stands (cipher : Cipher) (patch : SessionMetadataPatch) (writer : Writer) : Phase → Prop
  | .unwrapping | .opening => writer.Unwritten ∧ writer.attempts < maxAttempts
  | .sealing patched =>
    writer.Unwritten ∧ writer.attempts < maxAttempts ∧ writer.Based cipher patch patched
  | .putting sealed _ answer =>
    (∃ patched, writer.Based cipher patch patched ∧ openBox cipher sealed = some patched.1) ∧
      match answer with
      | none => writer.Unwritten
      | some (.ok version) =>
        version = writer.current.version + 1 ∧ Patched cipher patch writer sealed version ∧
          writer.Only version
      | some (.conflict value version) => writer.Unwritten ∧ writer.Holds version value
  | .returned value version => Patched cipher patch writer value version ∧ writer.Only version
  | .thrown _ => writer.lost = false → writer.Unwritten

/-- What holds between any two steps. -/
structure Sound (cipher : Cipher) (patch : SessionMetadataPatch) (writer : Writer) : Prop where
  stored : writer.Holds writer.current.version (some writer.current.value)
  stands : writer.Stands cipher patch writer.phase
  based : ∀ (version : Nat) value, writer.entries[version]? = some ⟨value, true⟩ →
    ∃ box, value = some box ∧ Patched cipher patch writer box version
  attempts : writer.attempts ≤ maxAttempts

variable {cipher : Cipher} {patch : SessionMetadataPatch} {writer : Writer}

/-! ## Values that are added -/

variable {version : Nat}

theorem held_append {entries : List Entry} {added entry : Entry}
    (held : entries[version]? = some entry) : (entries ++ [added])[version]? = some entry := by
  rw [List.getElem?_append_left (List.getElem?_eq_some_iff.mp held).1, held]

variable {next : Writer} {value : Option EncryptedBox}

theorem Holds.append {added : Entry}     (holds : writer.Holds version value)
    (entries : next.entries = writer.entries ++ [added]) : next.Holds version value := by
  obtain ⟨entry, held, same⟩ := Option.map_eq_some_iff.mp holds
  rw [Holds, entries, held_append held, Option.map_some, same]

theorem Patched.append {added : Entry} {value : EncryptedBox}
    (patched : Patched cipher patch writer value version)
    (entries : next.entries = writer.entries ++ [added]) :
    Patched cipher patch next value version := by
  obtain ⟨held, before, stored, plain, written, later, holds, rest⟩ := patched
  exact ⟨entries ▸ held_append held, before, stored, plain, written, later,
    Holds.append holds entries, rest⟩

/-- A value that another client adds is found behind all others. -/
theorem own_before
    {entries : List Entry}     {entry : Entry} (held : (entries ++ [⟨value, false⟩])[version]? = some entry)
    (own : entry.own = true) : entries[version]? = some entry := by
  rw [List.getElem?_append] at held
  split at held
  · exact held
  · have member := List.mem_of_getElem? held
    obtain rfl := List.mem_singleton.mp member
    contradiction

theorem Unwritten.append (unwritten : writer.Unwritten)
    (entries : next.entries = writer.entries ++ [⟨value, false⟩]) :
    next.Unwritten := by
  intro entry member
  rw [entries, List.mem_append, List.mem_singleton] at member
  rcases member with before | rfl
  · exact unwritten entry before
  · rfl

theorem Only.append (only : writer.Only version)
    (entries : next.entries = writer.entries ++ [⟨value, false⟩]) :
    next.Only version := by
  intro other entry held own
  rw [entries] at held
  exact only other entry (own_before held own) own

/-- Another client's write leaves the loop where it stands. -/
theorem Stands.other {phase : Phase} (stands : writer.Stands cipher patch phase) :
    Stands cipher patch { writer with entries := writer.entries ++ [⟨value, false⟩] } phase := by
  match phase, stands with
  | .unwrapping, stands | .opening, stands => exact ⟨stands.1.append rfl, stands.2⟩
  | .sealing patched, stands => exact ⟨stands.1.append rfl, stands.2⟩
  | .putting sealed since none, stands => exact ⟨stands.1, Unwritten.append stands.2 rfl⟩
  | .putting sealed since (some (.ok version)), stands =>
    exact ⟨stands.1, stands.2.1, Patched.append stands.2.2.1 rfl, Only.append stands.2.2.2 rfl⟩
  | .putting sealed since (some (.conflict value version)), stands =>
    exact ⟨stands.1, Unwritten.append stands.2.1 rfl, Holds.append stands.2.2 rfl⟩
  | .returned value version, stands =>
    exact ⟨Patched.append stands.1 rfl, Only.append stands.2 rfl⟩
  | .thrown message, stands => exact fun kept => (stands kept).append rfl

/-! ## Steps -/

theorem sound_other (sound : Sound cipher patch writer) (value : EncryptedBox) :
    Sound cipher patch { writer with entries := writer.entries ++ [⟨some value, false⟩] } where
  stored := sound.stored.append rfl
  stands := sound.stands.other
  based := by
    intro version held own
    obtain ⟨box, same, patched⟩ := sound.based version held (own_before own rfl)
    exact ⟨box, same, Patched.append patched rfl⟩
  attempts := sound.attempts

/-- The loop moves on and leaves what is stored. -/
theorem Sound.move (sound : Sound cipher patch writer) {phase : Phase} {lost : Bool}
    (stands : Stands cipher patch { writer with phase, lost } phase) :
    Sound cipher patch { writer with phase, lost } where
  stored := sound.stored
  stands := stands
  based := sound.based
  attempts := sound.attempts

theorem sound_retry {current : Versioned EncryptedBox} (sound : Sound cipher patch writer)
    (unwritten : writer.Unwritten) (holds : writer.Holds current.version (some current.value)) :
    Sound cipher patch ({ writer with current }.retry) where
  stored := holds
  stands := by
    unfold retry
    dsimp only
    split
    · next fewer => exact ⟨unwritten, fewer⟩
    · exact fun _ => unwritten
  based := sound.based
  attempts := sound.attempts

theorem sound_openAndPatch (sound : Sound cipher patch writer) (unwritten : writer.Unwritten)
    (fewer : writer.attempts < maxAttempts) :
    Sound cipher patch (writer.openAndPatch cipher patch) where
  stored := sound.stored
  stands := by
    unfold openAndPatch
    dsimp only
    split
    · exact fun _ => unwritten
    · next plain opened =>
      split
      · exact fun _ => unwritten
      · next patched applied =>
        exact ⟨unwritten, fewer, plain, (Option.filter_eq_some_iff.mp opened).1, applied⟩
  based := sound.based
  attempts := sound.attempts

theorem sound_sealed (sound : Sound cipher patch writer) {patched : Plain}
    (unwritten : writer.Unwritten) (fewer : writer.attempts < maxAttempts)
    (based : writer.Based cipher patch patched) (since nonce : Nat) :
    Sound cipher patch
      { writer with
        phase := .putting (sealBox cipher patched nonce) since none
        attempts := writer.attempts + 1 } where
  stored := sound.stored
  stands := ⟨⟨patched, based, open_sealBox cipher patched nonce⟩, unwritten⟩
  based := sound.based
  attempts := fewer

theorem sound_accept (sound : Sound cipher patch writer) {sealed : EncryptedBox} {since : Nat}
    (unwritten : writer.Unwritten) {patched : Plain} (based : writer.Based cipher patch patched)
    (opens : openBox cipher sealed = some patched.1)
    (newest : writer.current.version + 1 = writer.entries.length) :
    Sound cipher patch
      { writer with
        entries := writer.entries ++ [⟨some sealed, true⟩]
        phase := .putting sealed since (some (.ok (writer.current.version + 1))) } := by
  obtain ⟨plain, reads, applied⟩ := based
  have own (other : Nat) (entry : Entry)
      (held : (writer.entries ++ [⟨some sealed, true⟩])[other]? = some entry) (own : entry.own) :
      other = writer.current.version + 1 := by
    rw [List.getElem?_append] at held
    split at held
    · rw [unwritten entry (List.mem_of_getElem? held)] at own
      contradiction
    · have inside := (List.getElem?_eq_some_iff.mp held).1
      rw [List.length_singleton] at inside
      omega
  have written : Patched cipher patch
      { writer with
        entries := writer.entries ++ [⟨some sealed, true⟩]
        phase := .putting sealed since (some (.ok (writer.current.version + 1))) }
      sealed (writer.current.version + 1) := by
    refine ⟨?_, writer.current.version, writer.current.value, plain, patched, rfl,
      sound.stored.append rfl, reads, applied, opens⟩
    rw [newest]
    exact List.getElem?_concat_length
  refine ⟨sound.stored.append rfl, ⟨⟨patched, ⟨plain, reads, applied⟩, opens⟩, rfl, written, own⟩,
    ?_, sound.attempts⟩
  intro version value held
  obtain rfl := own version _ held rfl
  obtain ⟨rfl, _⟩ := Entry.mk.inj (Option.some.inj (held.symm.trans written.1))
  exact ⟨sealed, rfl, written⟩

theorem sound_receive (sound : Sound cipher patch writer) {sealed : EncryptedBox}
    {since : Nat} {answer : PutAnswer}
    (stands : writer.Stands cipher patch (.putting sealed since (some answer))) :
    Sound cipher patch (writer.receive sealed answer) := by
  match answer, stands with
  | .ok version, stands => exact sound.move stands.2.2
  | .conflict none version, stands => exact sound.move (fun _ => stands.2.1)
  | .conflict (some value) version, stands => exact sound_retry sound stands.2.1 stands.2.2

/-- Every step keeps what holds. -/
theorem sound_step {event : WriteEvent} (sound : Sound cipher patch writer)
    (taken : writer.step cipher patch event = some next) : Sound cipher patch next := by
  have stands := sound.stands
  cases event with
  | other value =>
    cases taken
    exact sound_other sound value
  | unwrapped ok =>
    simp only [step] at taken
    split at taken
    · next phase =>
      rw [phase] at stands
      split at taken
      · cases taken
        exact sound_retry sound stands.1 sound.stored
      · cases taken
        exact sound.move (fun _ => stands.1)
    · contradiction
  | opened =>
    simp only [step] at taken
    split at taken
    · next phase =>
      rw [phase] at stands
      cases taken
      exact sound_openAndPatch sound stands.1 stands.2
    · contradiction
  | sealed nonce =>
    simp only [step] at taken
    split at taken
    · next patched phase =>
      rw [phase] at stands
      cases taken
      exact sound_sealed sound stands.1 stands.2.1 stands.2.2 _ nonce
    · contradiction
  | bridgeFails message =>
    simp only [step] at taken
    split at taken
    · next phase =>
      rw [phase] at stands
      cases taken
      exact sound.move (fun _ => stands.1)
    · next phase =>
      rw [phase] at stands
      cases taken
      exact sound.move (fun _ => stands.1)
    · next phase =>
      rw [phase] at stands
      cases taken
      exact sound.move (fun _ => stands.1)
    · contradiction
  | accept =>
    simp only [step] at taken
    split at taken
    · next sealed since phase =>
      rw [phase] at stands
      obtain ⟨newest, same⟩ := Option.ite_none_right_eq_some.mp taken
      cases same
      obtain ⟨⟨patched, based, opens⟩, unwritten⟩ := stands
      exact sound_accept sound unwritten based opens newest
    · contradiction
  | refuse version =>
    simp only [step] at taken
    split at taken
    · next sealed since entry phase held =>
      rw [phase] at stands
      obtain ⟨_, same⟩ := Option.ite_none_right_eq_some.mp taken
      cases same
      refine sound.move ⟨stands.1, stands.2, ?_⟩
      rw [Holds, held, Option.map_some]
    · contradiction
  | answered =>
    simp only [step] at taken
    split at taken
    · next sealed since answer phase =>
      rw [phase] at stands
      cases taken
      exact sound_receive sound stands
    · contradiction
  | putFails message =>
    simp only [step] at taken
    split at taken
    · next sealed since answer phase =>
      rw [phase] at stands
      cases taken
      refine sound.move ?_
      match answer, stands with
      | none, stands => exact fun _ => stands.2
      | some (.ok version), stands =>
        obtain ⟨_, rfl, _⟩ := stands
        intro kept
        simp at kept
      | some (.conflict value version), stands => exact fun _ => stands.2.1
    · contradiction

@[simp] theorem receive_entries (sealed : EncryptedBox) (answer : PutAnswer) :
    (writer.receive sealed answer).entries = writer.entries := by
  match answer with
  | .ok _ | .conflict none _ | .conflict (some _) _ => rfl

/-- Every step leaves what is stored, and may add to it. -/
theorem keeps_step {event : WriteEvent}
    (taken : writer.step cipher patch event = some next) : Keeps writer next := by
  have same (entries : next.entries = writer.entries) : Keeps writer next := by
    unfold Keeps
    exact entries ▸ List.prefix_refl _
  cases event with
  | other value =>
    cases taken
    exact List.prefix_append _ _
  | accept =>
    simp only [step] at taken
    split at taken
    · obtain ⟨_, same⟩ := Option.ite_none_right_eq_some.mp taken
      cases same
      exact List.prefix_append _ _
    · contradiction
  | unwrapped | opened | sealed | bridgeFails | refuse | answered | putFails =>
    refine same ?_
    simp only [step] at taken
    grind [retry, openAndPatch, receive_entries]

theorem Sound.atomic (sound : Sound cipher patch writer) : Atomic cipher patch writer where
  based := sound.based
  returned := by
    intro value version phase
    have stands := sound.stands
    rw [phase] at stands
    exact stands
  thrown := by
    intro message phase kept
    have stands := sound.stands
    rw [phase] at stands
    exact stands kept
  attempts := sound.attempts

/-- A call starts with nothing written. -/
theorem sound_start (older : List (Option EncryptedBox)) (value : EncryptedBox)
    (newer : List (Option EncryptedBox)) :
    Sound cipher patch (patchSessionMetadataCas older value newer) := by
  have unwritten : (patchSessionMetadataCas older value newer).Unwritten := by
    intro entry member
    obtain ⟨_, _, rfl⟩ := List.mem_map.mp member
    rfl
  refine ⟨?_, ⟨unwritten, Nat.zero_lt_succ 4⟩, ?_, Nat.zero_le _⟩
  · simp [Holds, patchSessionMetadataCas]
  · intro version held own
    have quiet := unwritten _ (List.mem_of_getElem? own)
    contradiction

/-! ## The route -/

/-- The row has the newest of the values. -/
structure Matches (writer : Writer) (row : SessionRecord) : Prop where
  version : writer.entries.length = row.metadataVersion + 1
  holds : writer.Holds row.metadataVersion (some row.metadata)

/-- What the route decides on its row is a request that takes effect or one that is refused. -/
theorem route_decides {row : SessionRecord} (same : writer.Matches row) {sealed : EncryptedBox}
    {since : Nat} (phase : writer.phase = .putting sealed since none)
    (sent : since ≤ writer.entries.length) (now : Int) :
    ∃ after answer event next,
      casMetadata (some row) writer.current.version sealed now = (some after, answer) ∧
        writer.step cipher patch event = some next ∧ next.Matches after ∧
        (answer = .ok (writer.current.version + 1) ∧
            next.phase = .putting sealed since (some (.ok (writer.current.version + 1))) ∨
          answer = .conflict row.metadata row.metadataVersion ∧
            next.phase =
              .putting sealed since (some (.conflict (some row.metadata) row.metadataVersion))) := by
  obtain ⟨version, holds⟩ := same
  by_cases expected : row.metadataVersion = writer.current.version
  · have newest : writer.current.version + 1 = writer.entries.length := by omega
    refine ⟨CasField.metadata.set sealed now row, .ok (writer.current.version + 1), .accept, _,
      if_pos expected, by simp only [step, phase]; exact if_pos newest, ⟨?_, ?_⟩, .inl ⟨rfl, rfl⟩⟩
    · simp [CasField.set, version]
    · simp only [Holds, CasField.set, ← version]
      simp
  · obtain ⟨entry, held, value⟩ := Option.map_eq_some_iff.mp holds
    have during : since ≤ row.metadataVersion + 1 := by omega
    refine ⟨row, .conflict row.metadata row.metadataVersion, .refuse row.metadataVersion,
      { writer with
        phase := .putting sealed since (some (.conflict entry.value row.metadataVersion)) },
      if_neg expected, by simp only [step, phase, held]; exact if_pos during, ⟨version, holds⟩,
      .inr ⟨rfl, ?_⟩⟩
    rw [value]

/-- A session as it was created. -/
def newRow : SessionRecord :=
  NewSession.record ⟨"session", "account", "tag", "claude-code", none, none, none, ⟨"old"⟩, "dek", 0⟩

/-- A patch of its metadata is sent. -/
def sentPatch : Writer := ⟨[⟨some ⟨"old"⟩, false⟩], ⟨⟨"old"⟩, 0⟩, .putting ⟨"new"⟩ 1 none, 1, false⟩

theorem sent_patch_decided : ∃ after answer event next,
    casMetadata (some newRow) 0 ⟨"new"⟩ 5 = (some after, answer) ∧
      sentPatch.step plainCipher (fun _ => none) event = some next ∧ next.Matches after := by
  have same : sentPatch.Matches newRow := ⟨rfl, rfl⟩
  obtain ⟨after, answer, event, next, decided, taken, still, _⟩ :=
    route_decides same rfl (le_refl 1) 5
  exact ⟨after, answer, event, next, decided, taken, still⟩

end Writer

/-- Along every run, what is returned is the patch of the value stored right before it, nothing
else was written, and where the loop throws nothing was, unless an answer to a write got lost. -/
theorem metadata_patch_atomic (cipher : Cipher) (patch : SessionMetadataPatch)
    (older : List (Option EncryptedBox)) (value : EncryptedBox) (newer : List (Option EncryptedBox))
    (events : List WriteEvent) :
    Runs.Always (Writer.step cipher patch)
      (fun before _ next => Atomic cipher patch next ∧ Keeps before next)
      (patchSessionMetadataCas older value newer) events :=
  Runs.always_invariant (Writer.Sound cipher patch) _
    (fun _ _ _ sound taken =>
      have after := Writer.sound_step sound taken
      ⟨after, after.atomic, Writer.keeps_step taken⟩)
    events (Writer.sound_start older value newer)

end Kvy.Web.Lib
