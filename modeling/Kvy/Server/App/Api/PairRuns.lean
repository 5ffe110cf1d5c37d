import Kvy.General.Streams
import Kvy.Server.App.Api.Pair

/-!
# A pairing request is used once

A request stands in the table, was picked up by one call, or was delivered: it is never in two of
these places. Its response is the one of the first approval that found it, and the deadline is
checked when a poller gets the response, and before a session is issued. The session itself comes
later and may miss the deadline.
-/

namespace Kvy.Server.App.Pair

open General General.Runs General.Streams Function

/-- What may happen after what happened before: a request is approved once, delivered once with
the response of its approval and within its time; a session is issued within a deadline. -/
def law (deadline : (checkedAt now expiresAt : Nat) → Prop) (before : List Entry) : Entry → Prop
  | .approved request _ => ∀ response, .approved request response ∉ before
  | .delivered request response now expiresAt =>
    .approved request response ∈ before ∧ now ≤ expiresAt ∧
      ∀ earlier at' until', .delivered request earlier at' until' ∉ before
  | .minted _ _ _ _ checkedAt now expiresAt => deadline checkedAt now expiresAt

/-- A session is issued while the request lasts. -/
def mintedInTime (_ now expiresAt : Nat) : Prop := now ≤ expiresAt

/-- A session is issued for a request that lasted when it was checked. -/
def checkedInTime (checkedAt _ expiresAt : Nat) : Prop := checkedAt ≤ expiresAt

/-- The request whose standing a line changes. -/
def Entry.request : Entry → Option Nat
  | .approved request _ | .delivered request .. => some request
  | .minted .. => none

/-! ## The invariant -/

/-- A request that was not delivered, with the response of its approval. -/
structure Backed (log : List Entry) (next : Nat) (row : PairRequest) : Prop where
  known : row.id < next
  approved : ∀ response, .approved row.id response ∈ log ↔ row.response = some response
  fresh : ∀ response now expiresAt, .delivered row.id response now expiresAt ∉ log

/-- Requests stand in the table or were picked up by one call. -/
structure Sound (pairing : Pairing) : Prop where
  lawful : Lawful (law checkedInTime) pairing.log
  known : ∀ entry ∈ pairing.log, ∀ request, entry.request = some request → request < pairing.next
  stored : ∀ ephPub row, pairing.pairRequests.get? ephPub = some row →
    Backed pairing.log pairing.next row
  distinct : ∀ ephPub other row otherRow, pairing.pairRequests.get? ephPub = some row →
    pairing.pairRequests.get? other = some otherRow → row.id = otherRow.id → ephPub = other
  held : ∀ index ephPub row, pairing.calls index = .picked ephPub (some row) →
    Backed pairing.log pairing.next row ∧
      ∀ other stored, pairing.pairRequests.get? other = some stored → stored.id ≠ row.id
  apart : ∀ index other ephPub otherPub row otherRow,
    pairing.calls index = .picked ephPub (some row) →
      pairing.calls other = .picked otherPub (some otherRow) → row.id = otherRow.id → index = other
  checked : ∀ index accountId refreshToken row checkedAt,
    pairing.calls index = .issuing accountId refreshToken row checkedAt →
      checkedAt ≤ row.expiresAt

theorem sound_start : Sound start := by
  constructor <;> simp [start, OrderedMap.get?, OrderedMap.empty]

variable {row : PairRequest}

/-- A line about another request. -/
theorem Backed.note {log : List Entry} {next : Nat} {entry : Entry}
    (backed : Backed log next row) (other : entry.request ≠ some row.id) :
    Backed (log ++ [entry]) next row where
  known := backed.known
  approved response := by
    rw [List.mem_append, List.mem_singleton, ← backed.approved]
    refine or_iff_left (fun same => other ?_)
    rw [← same]
    rfl
  fresh response now expiresAt member := by
    rcases List.mem_append.mp member with held | same
    · exact backed.fresh response now expiresAt held
    · obtain rfl := List.mem_singleton.mp same
      exact other rfl

theorem Backed.mono {log : List Entry} {next later : Nat}
    (backed : Backed log next row) (grows : next ≤ later) : Backed log later row :=
  ⟨Nat.lt_of_lt_of_le backed.known grows, backed.approved, backed.fresh⟩

@[simp] theorem calls_self (pairing : Pairing) (index : Nat) (call : Call) :
    (pairing.await index call).calls index = call := by simp [Pairing.await]

variable {index : Nat}

theorem calls_other (pairing : Pairing) {tested : Nat} (call : Call) (different : tested ≠ index) :
    (pairing.await index call).calls tested = pairing.calls tested := by
  simp [Pairing.await, different]

variable {pairing : Pairing}

namespace Sound

/-- A call goes on, without a request and without a session to issue. -/
theorem await (sound : Sound pairing) (index : Nat) (call : Call)
    (without : ∀ ephPub row, call ≠ .picked ephPub (some row))
    (checked : ∀ accountId refreshToken row checkedAt,
      call = .issuing accountId refreshToken row checkedAt → checkedAt ≤ row.expiresAt) :
    Sound (pairing.await index call) where
  lawful := sound.lawful
  known := sound.known
  stored := sound.stored
  distinct := sound.distinct
  held tested ephPub row picked := by
    by_cases same : tested = index
    · subst same
      exact absurd ((calls_self pairing tested call).symm.trans picked) (without ephPub row)
    · exact sound.held tested ephPub row ((calls_other pairing call same).symm.trans picked)
  apart tested other ephPub otherPub row otherRow picked otherPicked same := by
    by_cases here : tested = index
    · subst here
      exact absurd ((calls_self pairing tested call).symm.trans picked) (without ephPub row)
    · by_cases there : other = index
      · subst there
        exact absurd ((calls_self pairing other call).symm.trans otherPicked)
          (without otherPub otherRow)
      · exact sound.apart tested other ephPub otherPub row otherRow
          ((calls_other pairing call here).symm.trans picked)
          ((calls_other pairing call there).symm.trans otherPicked) same
  checked tested accountId refreshToken row checkedAt issuing := by
    by_cases same : tested = index
    · subst same
      exact checked accountId refreshToken row checkedAt
        ((calls_self pairing tested call).symm.trans issuing)
    · exact sound.checked tested accountId refreshToken row checkedAt
        ((calls_other pairing call same).symm.trans issuing)

/-- A call goes on to something that is neither. -/
theorem plain (sound : Sound pairing) (index : Nat) {call : Call}
    (without : ∀ ephPub row, call ≠ .picked ephPub (some row))
    (unissued : ∀ accountId refreshToken row checkedAt,
      call ≠ .issuing accountId refreshToken row checkedAt) :
    Sound (pairing.await index call) :=
  sound.await index call without (fun _ _ _ _ issuing => absurd issuing (unissued _ _ _ _))

/-- A new request. -/
theorem insert (sound : Sound pairing) (ephPub : String)
    (label cwd : Option String) (expiresAt : Nat) :
    Sound (pairing.insert ephPub label cwd expiresAt) := by
  unfold Pairing.insert
  split
  · exact sound
  · have older : ∀ {row : PairRequest}, Backed pairing.log pairing.next row →
        row.id ≠ pairing.next := fun backed => Nat.ne_of_lt backed.known
    have rows : ∀ tested row,
        (pairing.pairRequests.set ephPub ⟨pairing.next, label, cwd, none, expiresAt⟩).get? tested =
            some row →
          (tested = ephPub ∧ row = ⟨pairing.next, label, cwd, none, expiresAt⟩) ∨
            pairing.pairRequests.get? tested = some row := by
      intro tested row found
      rw [OrderedMap.get_set] at found
      split at found
      · exact Or.inl ⟨‹_›, (Option.some.inj found).symm⟩
      · exact Or.inr found
    constructor
    · exact sound.lawful
    · exact fun entry member request settles =>
        Nat.lt_succ_of_lt (sound.known entry member request settles)
    · intro tested row found
      rcases rows tested row found with ⟨_, rfl⟩ | held
      · refine ⟨Nat.lt_succ_self _, fun response => ?_, fun response now until' member => ?_⟩
        · simp only [reduceCtorEq, iff_false]
          exact fun member => absurd (sound.known _ member _ rfl) (Nat.lt_irrefl _)
        · exact absurd (sound.known _ member _ rfl) (Nat.lt_irrefl _)
      · exact (sound.stored tested row held).mono (Nat.le_succ _)
    · intro tested other row otherRow found otherFound same
      rcases rows tested row found with ⟨here, rfl⟩ | held <;>
        rcases rows other otherRow otherFound with ⟨there, rfl⟩ | otherHeld
      · exact here.trans there.symm
      · exact absurd same.symm (older (sound.stored other otherRow otherHeld))
      · exact absurd same (older (sound.stored tested row held))
      · exact sound.distinct tested other row otherRow held otherHeld same
    · intro index heldPub row picked
      obtain ⟨backed, elsewhere⟩ := sound.held index heldPub row picked
      refine ⟨backed.mono (Nat.le_succ _), fun other stored found => ?_⟩
      rcases rows other stored found with ⟨_, rfl⟩ | held
      · exact Ne.symm (older backed)
      · exact elsewhere other stored held
    · exact sound.apart
    · exact sound.checked

/-- A request is picked up by one call. -/
theorem pick (sound : Sound pairing) (index : Nat) (ephPub : String) :
    Sound ((pairing.pick ephPub).1.await index (.picked ephPub (pairing.pick ephPub).2)) := by
  have nothing : Sound (pairing.await index (.picked ephPub none)) :=
    sound.plain index (by simp) (by simp)
  unfold Pairing.pick
  split
  · rename_i row found
    split
    · have backed := sound.stored ephPub row found
      have rows : ∀ tested stored, (pairing.pairRequests.delete ephPub).get? tested = some stored →
          tested ≠ ephPub ∧ pairing.pairRequests.get? tested = some stored := by
        intro tested stored held
        rw [OrderedMap.get_delete] at held
        split at held
        · contradiction
        · exact ⟨‹_›, held⟩
      -- A request that another call has picked up no longer stands in the table.
      have others : ∀ other otherPub otherRow,
          pairing.calls other = .picked otherPub (some otherRow) → row.id ≠ otherRow.id :=
        fun other otherPub otherRow picked =>
          (sound.held other otherPub otherRow picked).2 ephPub row found
      constructor
      · exact sound.lawful
      · exact sound.known
      · exact fun tested stored held => sound.stored tested stored (rows tested stored held).2
      · exact fun tested other stored otherStored held otherHeld =>
          sound.distinct tested other stored otherStored (rows tested stored held).2
            (rows other otherStored otherHeld).2
      · intro tested heldPub heldRow picked
        by_cases same : tested = index
        · subst same
          obtain ⟨rfl, ⟨⟩⟩ := Call.picked.inj ((calls_self _ _ _).symm.trans picked)
          refine ⟨backed, fun other stored held equal => ?_⟩
          obtain ⟨different, held⟩ := rows other stored held
          exact different (sound.distinct other ephPub stored row held found equal)
        · obtain ⟨heldBacked, elsewhere⟩ := sound.held tested heldPub heldRow
            ((calls_other _ _ same).symm.trans picked)
          exact ⟨heldBacked, fun other stored held => elsewhere other stored (rows other stored held).2⟩
      · intro tested other heldPub otherPub heldRow otherRow picked otherPicked same
        by_cases here : tested = index <;> by_cases there : other = index
        · exact here.trans there.symm
        · subst here
          obtain ⟨_, ⟨⟩⟩ := Call.picked.inj ((calls_self _ _ _).symm.trans picked)
          exact absurd same (others other otherPub otherRow
            ((calls_other _ _ there).symm.trans otherPicked))
        · subst there
          obtain ⟨_, ⟨⟩⟩ := Call.picked.inj ((calls_self _ _ _).symm.trans otherPicked)
          exact absurd same.symm (others tested heldPub heldRow
            ((calls_other _ _ here).symm.trans picked))
        · exact sound.apart tested other heldPub otherPub heldRow otherRow
            ((calls_other _ _ here).symm.trans picked)
            ((calls_other _ _ there).symm.trans otherPicked) same
      · intro tested accountId refreshToken issued checkedAt issuing
        by_cases same : tested = index
        · subst same
          have impossible := (calls_self _ _ _).symm.trans issuing
          contradiction
        · exact sound.checked tested accountId refreshToken issued checkedAt
            ((calls_other _ _ same).symm.trans issuing)
    · exact nothing
  · exact nothing

/-- A call delivers the request it has picked up. -/
theorem deliver (sound : Sound pairing) {ephPub : String} {response : List UInt8}
    (picked : pairing.calls index = .picked ephPub (some row))
    (answers : row.response = some response) (lasts : pairing.now ≤ row.expiresAt) :
    Sound ((pairing.note (.delivered row.id response pairing.now row.expiresAt)).await index
      (.answered (.authorized response))) := by
  obtain ⟨backed, elsewhere⟩ := sound.held index ephPub row picked
  constructor
  · refine (lawful_snoc _ _).mpr ⟨sound.lawful, (backed.approved response).mpr answers, lasts, ?_⟩
    exact backed.fresh
  · intro entry member request settles
    rcases List.mem_append.mp member with held | same
    · exact sound.known entry held request settles
    · obtain rfl := List.mem_singleton.mp same
      cases settles
      exact backed.known
  · exact fun tested stored found =>
      (sound.stored tested stored found).note (fun same =>
        elsewhere tested stored found (Option.some.inj same).symm)
  · exact sound.distinct
  · intro tested heldPub heldRow held
    by_cases same : tested = index
    · subst same
      have impossible := (calls_self _ _ _).symm.trans held
      contradiction
    · have before := (calls_other _ _ same).symm.trans held
      obtain ⟨heldBacked, heldElsewhere⟩ := sound.held tested heldPub heldRow before
      refine ⟨heldBacked.note (fun equal => ?_), heldElsewhere⟩
      exact same (sound.apart index tested ephPub heldPub row heldRow picked before
        (Option.some.inj equal)).symm
  · intro tested other heldPub otherPub heldRow otherRow held otherHeld same
    by_cases here : tested = index
    · subst here
      have impossible := (calls_self _ _ _).symm.trans held
      contradiction
    · by_cases there : other = index
      · subst there
        have impossible := (calls_self _ _ _).symm.trans otherHeld
        contradiction
      · exact sound.apart tested other heldPub otherPub heldRow otherRow
          ((calls_other _ _ here).symm.trans held) ((calls_other _ _ there).symm.trans otherHeld)
          same
  · intro tested accountId refreshToken issued checkedAt issuing
    by_cases same : tested = index
    · subst same
      have impossible := (calls_self _ _ _).symm.trans issuing
      contradiction
    · exact sound.checked tested accountId refreshToken issued checkedAt
        ((calls_other _ _ same).symm.trans issuing)

/-- An approval stores its response where there is none. -/
theorem approve (sound : Sound pairing) (ephPub : String)
    (response : List UInt8) : Sound (pairing.approve ephPub response) := by
  unfold Pairing.approve
  split
  · rename_i row found
    split
    · rename_i unanswered
      have backed := sound.stored ephPub row found
      have rows : ∀ tested stored,
          (pairing.pairRequests.set ephPub { row with response := some response }).get? tested =
              some stored →
            (tested = ephPub ∧ stored = { row with response := some response }) ∨
              tested ≠ ephPub ∧ pairing.pairRequests.get? tested = some stored := by
        intro tested stored held
        rw [OrderedMap.get_set] at held
        split at held
        · exact Or.inl ⟨‹_›, (Option.some.inj held).symm⟩
        · exact Or.inr ⟨‹_›, held⟩
      have others : ∀ tested stored, tested ≠ ephPub →
          pairing.pairRequests.get? tested = some stored → row.id ≠ stored.id :=
        fun tested stored different held same =>
          different (sound.distinct tested ephPub stored row held found same.symm)
      constructor
      · refine (lawful_snoc _ _).mpr ⟨sound.lawful, fun earlier member => ?_⟩
        have answered := (backed.approved earlier).mp member
        simp [unanswered] at answered
      · intro entry member request settles
        rcases List.mem_append.mp member with held | same
        · exact sound.known entry held request settles
        · obtain rfl := List.mem_singleton.mp same
          cases settles
          exact backed.known
      · intro tested stored held
        rcases rows tested stored held with ⟨_, rfl⟩ | ⟨different, held⟩
        · refine ⟨backed.known, fun other => ?_, fun other now expiresAt member => ?_⟩
          · have before := backed.approved other
            simp only [unanswered, reduceCtorEq, iff_false] at before
            simp [Pairing.note, before, eq_comm]
          · rcases List.mem_append.mp member with held | same
            · exact backed.fresh other now expiresAt held
            · simp at same
        · exact (sound.stored tested stored held).note (fun same =>
            others tested stored different held (Option.some.inj same))
      · intro tested other stored otherStored held otherHeld same
        rcases rows tested stored held with ⟨here, rfl⟩ | ⟨different, held⟩ <;>
          rcases rows other otherStored otherHeld with ⟨there, rfl⟩ | ⟨otherDifferent, otherHeld⟩
        · exact here.trans there.symm
        · exact absurd same (others other otherStored otherDifferent otherHeld)
        · exact absurd same.symm (others tested stored different held)
        · exact sound.distinct tested other stored otherStored held otherHeld same
      · intro index heldPub heldRow picked
        obtain ⟨heldBacked, elsewhere⟩ := sound.held index heldPub heldRow picked
        refine ⟨heldBacked.note (fun same => elsewhere ephPub row found (Option.some.inj same)),
          fun other stored held => ?_⟩
        rcases rows other stored held with ⟨_, rfl⟩ | ⟨_, held⟩
        · exact elsewhere ephPub row found
        · exact elsewhere other stored held
      · exact sound.apart
      · exact sound.checked
    · exact sound
  · exact sound

/-- A session is issued. -/
theorem mint (sound : Sound pairing) {accountId refreshToken : String} {checkedAt : Nat}
    (issuing : pairing.calls index = .issuing accountId refreshToken row checkedAt) :
    Sound (pairing.note
      (.minted row.id accountId refreshToken row.label checkedAt pairing.now row.expiresAt)) where
  lawful := (lawful_snoc _ _).mpr
    ⟨sound.lawful, sound.checked index accountId refreshToken row checkedAt issuing⟩
  known entry member request settles := by
    rcases List.mem_append.mp member with held | same
    · exact sound.known entry held request settles
    · obtain rfl := List.mem_singleton.mp same
      contradiction
  stored tested stored found := (sound.stored tested stored found).note (by simp [Entry.request])
  distinct := sound.distinct
  held tested ephPub picked held :=
    ⟨(sound.held tested ephPub picked held).1.note (by simp [Entry.request]),
      (sound.held tested ephPub picked held).2⟩
  apart := sound.apart
  checked := sound.checked

/-- What a call does next. -/
theorem advance {next : Pairing} (sound : Sound pairing)
    (taken : pairing.advance index (pairing.calls index) = some next) : Sound next := by
  cases call : pairing.calls index with
  | unused =>
    rw [call] at taken
    contradiction
  | inserting ephPub label cwd expiresAt =>
    rw [call] at taken
    cases taken
    exact (sound.insert ephPub label cwd expiresAt).plain index (by simp) (by simp)
  | picking ephPub =>
    rw [call] at taken
    cases taken
    exact sound.pick index ephPub
  | picked ephPub row =>
    rw [call] at taken
    rcases row with _ | ⟨id, label, cwd, _ | response, expiresAt⟩
    · cases taken
      exact sound.plain index (by simp) (by simp)
    · cases taken
      exact sound.plain index (by simp) (by simp)
    · simp only [Pairing.advance] at taken
      split at taken
      · cases taken
        exact sound.plain index (by simp) (by simp)
      · rename_i lasts
        cases taken
        exact sound.deliver call rfl (by simpa [isExpired] using lasts)
  | reading ephPub =>
    rw [call] at taken
    cases taken
    exact sound.plain index (by simp) (by simp)
  | read row =>
    rw [call] at taken
    cases row with
    | none =>
      cases taken
      exact sound.plain index (by simp [Pairing.invalid]) (by simp [Pairing.invalid])
    | some row =>
      simp only [Pairing.advance] at taken
      split at taken <;> obtain rfl := Option.some.inj taken <;>
        exact sound.plain index (by simp) (by simp)
  | approving ephPub response =>
    rw [call] at taken
    cases taken
    exact sound.plain index (by simp) (by simp)
  | approveRead ephPub response row =>
    rw [call] at taken
    cases row with
    | none =>
      cases taken
      exact sound.plain index (by simp) (by simp)
    | some row =>
      simp only [Pairing.advance] at taken
      split at taken <;> obtain rfl := Option.some.inj taken <;>
        exact sound.plain index (by simp) (by simp)
  | updating ephPub response =>
    rw [call] at taken
    cases taken
    exact (sound.approve ephPub (decodeBase64 response)).plain index (by simp) (by simp)
  | minting accountId ephPub refreshToken =>
    rw [call] at taken
    cases taken
    exact sound.plain index (by simp) (by simp)
  | mintRead accountId refreshToken row =>
    rw [call] at taken
    cases row with
    | none =>
      cases taken
      exact sound.plain index (by simp) (by simp)
    | some row =>
      simp only [Pairing.advance] at taken
      split at taken
      · cases taken
        exact sound.plain index (by simp) (by simp)
      · rename_i lasts
        cases taken
        refine sound.await index _ (by simp) ?_
        rintro _ _ _ _ ⟨⟩
        simpa [isExpired] using lasts
  | issuing accountId refreshToken row checkedAt =>
    rw [call] at taken
    cases taken
    exact (sound.mint call).plain index (by simp) (by simp)
  | answered reply =>
    rw [call] at taken
    contradiction

end Sound

/-! ## Runs -/

theorem step_sound {next : Pairing} {event : Event} (sound : Sound pairing)
    (taken : step pairing event = some next) : Sound next := by
  cases event with
  | pair index ephPub label cwd =>
    obtain ⟨_, ⟨⟩⟩ := Option.ite_none_right_eq_some.mp taken
    split <;> exact sound.plain index (by simp [Pairing.invalid]) (by simp [Pairing.invalid])
  | approve index ephPub response =>
    obtain ⟨_, ⟨⟩⟩ := Option.ite_none_right_eq_some.mp taken
    split <;> exact sound.plain index (by simp [Pairing.invalid]) (by simp [Pairing.invalid])
  | mint index accountId ephPub refreshToken =>
    obtain ⟨_, ⟨⟩⟩ := Option.ite_none_right_eq_some.mp taken
    split <;> exact sound.plain index (by simp [Pairing.invalid]) (by simp [Pairing.invalid])
  | advance index => exact sound.advance taken
  | fail index =>
    simp only [step] at taken
    split at taken
    · contradiction
    · contradiction
    · cases taken
      exact sound.plain index (by simp) (by simp)
  | pass milliseconds =>
    cases taken
    exact ⟨sound.lawful, sound.known, sound.stored, sound.distinct, sound.held, sound.apart,
      sound.checked⟩

/-- A public key of thirty-two bytes. -/
def somePub : String := "AAAAAAAAAAAAAAAAAAAAAAAAAAAAAAAAAAAAAAAAAAA="

end Kvy.Server.App.Pair
