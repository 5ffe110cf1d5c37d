import Kvy.General.Runs
import Mathlib.Data.List.Basic

/-!
# Transactions that check a row, write it and take a number

Any number of requests run one transaction each against a shared store, under
`READ COMMITTED`. A transaction reads its row and may answer from what it read. Otherwise it
runs one guarded statement, which takes the lock of the row it matches and waits while another
transaction holds it; then it takes the next number of a shared counter, whose lock it holds
until it commits. Statements see what is committed, so a check made by the first read binds
nothing. A transaction may fail before its commit, and an answer may be lost after it.

A statement on one row must not depend on other rows. Then each transaction that commits takes
effect at its commit, all at once, with the number that follows the counter.
-/

namespace Kvy.General.Transactions

/-- What a transaction does: the row it writes, the answer that its first read leads to, if it
leads to one, its statement with what it returns, and the answer after the statement has matched
no row, if there is one. -/
structure Program (σ κ ω β ρ : Type) where
  key : ω → κ
  look : ω → σ → Option ρ
  write : ω → σ → Option (σ × β)
  miss : ω → σ → Option ρ

/-- The answer of a transaction that committed, with its number, or of one that did not write. -/
inductive Reply (β ρ : Type) where
  | done (returned : β) (number : Nat)
  | refused (answer : ρ)
deriving DecidableEq

/-- Where a request stands. -/
inductive Phase (ω β ρ : Type) where
  | begun (request : ω)
  | looked (request : ω)
  | written (request : ω) (returned : β)
  | missed (request : ω)
  | numbered (request : ω) (returned : β) (number : Nat)
  | answering (request : ω) (reply : Reply β ρ)
  | finished

/-- The committed store and counter, the requests in the order of their arrival, and the answers
that were sent. -/
structure State (σ ω β ρ : Type) where
  store : σ
  counter : Nat
  requests : List (Phase ω β ρ)
  sent : List (ω × Reply β ρ)

/-- What can happen next. -/
inductive Event (ω : Type) where
  | arrive (request : ω)
  | look (index : Nat)
  | write (index : Nat)
  | miss (index : Nat)
  | number (index : Nat)
  | commit (index : Nat)
  | abort (index : Nat)
  | answer (index : Nat)
  | hangUp (index : Nat)
  | elsewhere

variable {σ κ ω β ρ : Type}

/-- The row that a transaction has locked, by its request and what its statement returned. -/
def Phase.held : Phase ω β ρ → Option (ω × β)
  | .written request returned => some (request, returned)
  | .numbered request returned _ => some (request, returned)
  | _ => none

/-- The number that a transaction has taken. -/
def Phase.taken : Phase ω β ρ → Option Nat
  | .numbered _ _ number => some number
  | _ => none

/-- The request of a transaction that is open. -/
def Phase.opened : Phase ω β ρ → Option ω
  | .begun request => some request
  | .looked request => some request
  | .written request _ => some request
  | .missed request => some request
  | .numbered request _ _ => some request
  | _ => none

namespace State

/-- A store before any request. -/
def start (store : σ) (counter : Nat) : State σ ω β ρ := ⟨store, counter, [], []⟩

/-- A request moves on. -/
def move (state : State σ ω β ρ) (index : Nat) (phase : Phase ω β ρ) : State σ ω β ρ :=
  { state with requests := state.requests.set index phase }

/-- Another transaction holds the lock of the row. -/
def locked [DecidableEq κ] (program : Program σ κ ω β ρ) (state : State σ ω β ρ) (key : κ) : Bool :=
  state.requests.any (fun phase => phase.held.any (fun row => program.key row.1 = key))

/-- A transaction holds the lock of the counter. -/
def numbering (state : State σ ω β ρ) : Bool := state.requests.any (fun phase => phase.taken.isSome)

end State

/-- One statement of one transaction, if it can run now. -/
def step [DecidableEq κ] (program : Program σ κ ω β ρ) (state : State σ ω β ρ) :
    Event ω → Option (State σ ω β ρ)
  | .arrive request => some { state with requests := state.requests ++ [.begun request] }
  | .look index =>
    match state.requests[index]? with
    | some (.begun request) =>
      match program.look request state.store with
      | some answer => some (state.move index (.answering request (.refused answer)))
      | none => some (state.move index (.looked request))
    | _ => none
  | .write index =>
    match state.requests[index]? with
    | some (.looked request) =>
      match program.write request state.store with
      | some (_, returned) =>
        if state.locked program (program.key request) then none
        else some (state.move index (.written request returned))
      | none => some (state.move index (.missed request))
    | _ => none
  | .miss index =>
    match state.requests[index]? with
    | some (.missed request) =>
      match program.miss request state.store with
      | some answer => some (state.move index (.answering request (.refused answer)))
      | none => some (state.move index .finished)
    | _ => none
  | .number index =>
    match state.requests[index]? with
    | some (.written request returned) =>
      if state.numbering then none
      else some (state.move index (.numbered request returned (state.counter + 1)))
    | _ => none
  | .commit index =>
    match state.requests[index]? with
    | some (.numbered request returned number) =>
      match program.write request state.store with
      | some (store, _) =>
        some { state.move index (.answering request (.done returned number)) with
          store := store
          counter := number }
      | none => none
    | _ => none
  | .abort index =>
    match state.requests[index]? with
    | some phase => if phase.opened.isSome then some (state.move index .finished) else none
    | none => none
  | .answer index =>
    match state.requests[index]? with
    | some (.answering request reply) =>
      some { state.move index .finished with sent := state.sent ++ [(request, reply)] }
    | _ => none
  | .hangUp index =>
    match state.requests[index]? with
    | some (.answering _ _) => some (state.move index .finished)
    | _ => none
  | .elsewhere => if state.numbering then none else some { state with counter := state.counter + 1 }

/-! ## What a step does -/

/-- The transitions, with what each of them finds. -/
inductive Taken (program : Program σ κ ω β ρ) (state : State σ ω β ρ) :
    Event ω → State σ ω β ρ → Prop where
  | arrive (request : ω) :
    Taken program state (.arrive request) { state with requests := state.requests ++ [.begun request] }
  | refuse (index : Nat) (request : ω) (answer : ρ) :
    state.requests[index]? = some (.begun request) →
    program.look request state.store = some answer →
    Taken program state (.look index) (state.move index (.answering request (.refused answer)))
  | look (index : Nat) (request : ω) :
    state.requests[index]? = some (.begun request) → program.look request state.store = none →
    Taken program state (.look index) (state.move index (.looked request))
  | write (index : Nat) (request : ω) (store : σ) (returned : β) :
    state.requests[index]? = some (.looked request) →
    program.write request state.store = some (store, returned) →
    (∀ phase ∈ state.requests, ∀ row ∈ phase.held, program.key row.1 ≠ program.key request) →
    Taken program state (.write index) (state.move index (.written request returned))
  | lose (index : Nat) (request : ω) :
    state.requests[index]? = some (.looked request) → program.write request state.store = none →
    Taken program state (.write index) (state.move index (.missed request))
  | miss (index : Nat) (request : ω) (answer : ρ) :
    state.requests[index]? = some (.missed request) →
    program.miss request state.store = some answer →
    Taken program state (.miss index) (state.move index (.answering request (.refused answer)))
  | throw (index : Nat) (request : ω) :
    state.requests[index]? = some (.missed request) → program.miss request state.store = none →
    Taken program state (.miss index) (state.move index .finished)
  | number (index : Nat) (request : ω) (returned : β) :
    state.requests[index]? = some (.written request returned) →
    (∀ phase ∈ state.requests, phase.taken = none) →
    Taken program state (.number index)
      (state.move index (.numbered request returned (state.counter + 1)))
  | commit (index : Nat) (request : ω) (returned : β) (number : Nat) (store : σ) (value : β) :
    state.requests[index]? = some (.numbered request returned number) →
    program.write request state.store = some (store, value) →
    Taken program state (.commit index)
      { state.move index (.answering request (.done returned number)) with
        store := store
        counter := number }
  | abort (index : Nat) (phase : Phase ω β ρ) (request : ω) :
    state.requests[index]? = some phase → phase.opened = some request →
    Taken program state (.abort index) (state.move index .finished)
  | answer (index : Nat) (request : ω) (reply : Reply β ρ) :
    state.requests[index]? = some (.answering request reply) →
    Taken program state (.answer index)
      { state.move index .finished with sent := state.sent ++ [(request, reply)] }
  | hangUp (index : Nat) (request : ω) (reply : Reply β ρ) :
    state.requests[index]? = some (.answering request reply) →
    Taken program state (.hangUp index) (state.move index .finished)
  | elsewhere :
    (∀ phase ∈ state.requests, phase.taken = none) →
    Taken program state .elsewhere { state with counter := state.counter + 1 }

variable {program : Program σ κ ω β ρ} {state next : State σ ω β ρ} {event : Event ω}

/-- A row that is not locked is held by no transaction. -/
theorem not_locked [DecidableEq κ] {key : κ} (free : ¬ state.locked program key = true) :
    ∀ phase ∈ state.requests, ∀ row ∈ phase.held, program.key row.1 ≠ key := by
  intro phase member row held same
  apply free
  rw [State.locked, List.any_eq_true]
  exact ⟨phase, member, by rw [Option.mem_def.mp held]; simpa using same⟩

/-- A counter that is not locked has no number taken. -/
theorem not_numbering (free : ¬ state.numbering = true) :
    ∀ phase ∈ state.requests, phase.taken = none := by
  intro phase member
  by_contra taken
  apply free
  rw [State.numbering, List.any_eq_true]
  exact ⟨phase, member, Option.isSome_iff_ne_none.mpr taken⟩

/-- A step is one of the transitions. -/
theorem step_taken [DecidableEq κ] (happens : step program state event = some next) :
    Taken program state event next := by
  cases event with
  | arrive request =>
    cases happens
    exact .arrive request
  | look index =>
    simp only [step] at happens
    split at happens
    · rename_i request begun
      split at happens
      · rename_i answer read
        cases happens
        exact .refuse index request answer begun read
      · rename_i read
        cases happens
        exact .look index request begun read
    · contradiction
  | write index =>
    simp only [step] at happens
    split at happens
    · rename_i request looked
      split at happens
      · rename_i store returned matched
        obtain ⟨free, happens⟩ := Option.ite_none_left_eq_some.mp happens
        cases happens
        exact .write index request store returned looked matched (not_locked free)
      · rename_i unmatched
        cases happens
        exact .lose index request looked unmatched
    · contradiction
  | miss index =>
    simp only [step] at happens
    split at happens
    · rename_i request missed
      split at happens
      · rename_i answer read
        cases happens
        exact .miss index request answer missed read
      · rename_i read
        cases happens
        exact .throw index request missed read
    · contradiction
  | number index =>
    simp only [step] at happens
    split at happens
    · rename_i request returned written
      obtain ⟨free, happens⟩ := Option.ite_none_left_eq_some.mp happens
      cases happens
      exact .number index request returned written (not_numbering free)
    · contradiction
  | commit index =>
    simp only [step] at happens
    split at happens
    · rename_i request returned number numbered
      split at happens
      · rename_i store value matched
        cases happens
        exact .commit index request returned number store value numbered matched
      · contradiction
    · contradiction
  | abort index =>
    simp only [step] at happens
    split at happens
    · rename_i phase held
      obtain ⟨opened, happens⟩ := Option.ite_none_right_eq_some.mp happens
      obtain ⟨request, isOpen⟩ := Option.isSome_iff_exists.mp opened
      cases happens
      exact .abort index phase request held isOpen
    · contradiction
  | answer index =>
    simp only [step] at happens
    split at happens
    · rename_i request reply answering
      cases happens
      exact .answer index request reply answering
    · contradiction
  | hangUp index =>
    simp only [step] at happens
    split at happens
    · rename_i request reply answering
      cases happens
      exact .hangUp index request reply answering
    · contradiction
  | elsewhere =>
    simp only [step] at happens
    obtain ⟨free, happens⟩ := Option.ite_none_left_eq_some.mp happens
    cases happens
    exact .elsewhere (not_numbering free)

/-! ## Locks -/

/-- What a statement returns depends on its own row only. -/
def Program.Local (program : Program σ κ ω β ρ) : Prop :=
  ∀ one other before after value, program.key one ≠ program.key other →
    program.write one before = some (after, value) →
    (program.write other after).map Prod.snd = (program.write other before).map Prod.snd

/-- What holds of locks: a locked row is held by one transaction, whose statement still matches
it, and the counter by one transaction, whose number is the next. -/
structure Sound (program : Program σ κ ω β ρ) (state : State σ ω β ρ) : Prop where
  held : ∀ (index : Nat) (phase : Phase ω β ρ) request returned,
    state.requests[index]? = some phase → phase.held = some (request, returned) →
    (program.write request state.store).map Prod.snd = some returned
  apart : ∀ (first second : Nat) (one other : Phase ω β ρ) oneRow otherRow, first ≠ second →
    state.requests[first]? = some one → one.held = some oneRow →
    state.requests[second]? = some other → other.held = some otherRow →
    program.key oneRow.1 ≠ program.key otherRow.1
  next : ∀ (index : Nat) (phase : Phase ω β ρ) number, state.requests[index]? = some phase →
    phase.taken = some number → number = state.counter + 1
  alone : ∀ (first second : Nat) (one other : Phase ω β ρ), state.requests[first]? = some one → one.taken.isSome = true →
    state.requests[second]? = some other → other.taken.isSome = true → first = second

theorem sound_start (store : σ) (counter : Nat) : Sound program (State.start store counter) where
  held := by simp [State.start]
  apart := by simp [State.start]
  next := by simp [State.start]
  alone := by simp [State.start]

variable {index : Nat} {phase : Phase ω β ρ}

/-- A request found after a move is the one that moved, or was there before. -/
theorem found_move {other : Nat} {found : Phase ω β ρ}
    (present : (state.move index phase).requests[other]? = some found) :
    (other = index ∧ found = phase) ∨ (other ≠ index ∧ state.requests[other]? = some found) := by
  rw [State.move, List.getElem?_set] at present
  split at present
  · rename_i same
    obtain ⟨_, isPhase⟩ := Option.ite_none_right_eq_some.mp present
    exact Or.inl ⟨same.symm, (Option.some.inj isPhase).symm⟩
  · rename_i apart
    exact Or.inr ⟨fun same => apart same.symm, present⟩

variable {before : Phase ω β ρ}

/-- The request that moved is found where it was. -/
theorem get_move (was : state.requests[index]? = some before) :
    (state.move index phase).requests[index]? = some phase := by
  rw [State.move, List.getElem?_set, if_pos rfl, if_pos (List.getElem?_eq_some_iff.mp was).1]

/-- The other requests are found where they were. -/
theorem get_other {other : Nat} (apart : other ≠ index) (phase : Phase ω β ρ) :
    (state.move index phase).requests[other]? = state.requests[other]? := by
  rw [State.move, List.getElem?_set, if_neg apart.symm]

variable {request : ω}

/-- A request found after an arrival is the one that arrived, or was there before. -/
theorem found_arrive {found : Phase ω β ρ}
    (present : (state.requests ++ [Phase.begun request])[index]? = some found) :
    found = .begun request ∨ state.requests[index]? = some found := by
  rw [List.getElem?_append] at present
  split at present
  · exact Or.inr present
  · exact Or.inl (List.mem_singleton.mp (List.mem_of_getElem? present))

/-- A request moves to a phase that holds a row which no other holds, and a number if no other has
one. -/
theorem Sound.replace (sound : Sound program state) (index : Nat)
    (returns : ∀ request returned, phase.held = some (request, returned) →
      (program.write request state.store).map Prod.snd = some returned)
    (separate : ∀ row, phase.held = some row → ∀ (other : Nat) (found : Phase ω β ρ) theirs,
      other ≠ index → state.requests[other]? = some found → found.held = some theirs →
      program.key row.1 ≠ program.key theirs.1)
    (follows : ∀ number, phase.taken = some number → number = state.counter + 1)
    (only : phase.taken.isSome = true → ∀ (other : Nat) (found : Phase ω β ρ), other ≠ index →
      state.requests[other]? = some found → found.taken = none) :
    Sound program (state.move index phase) where
  held := by
    intro other found request returned present isHeld
    obtain ⟨_, rfl⟩ | ⟨_, present⟩ := found_move present
    · exact returns request returned isHeld
    · exact sound.held other found request returned present isHeld
  apart := by
    intro first second one other oneRow otherRow differ presentOne heldOne presentOther heldOther
    obtain ⟨rfl, rfl⟩ | ⟨_, beforeOne⟩ := found_move presentOne
    · obtain ⟨rfl, rfl⟩ | ⟨apart, beforeOther⟩ := found_move presentOther
      · exact absurd rfl differ
      · exact separate oneRow heldOne second other otherRow apart beforeOther heldOther
    · obtain ⟨rfl, rfl⟩ | ⟨_, beforeOther⟩ := found_move presentOther
      · exact (separate otherRow heldOther first one oneRow differ beforeOne heldOne).symm
      · exact sound.apart first second one other oneRow otherRow differ beforeOne heldOne
          beforeOther heldOther
  next := by
    intro other found number present isTaken
    obtain ⟨_, rfl⟩ | ⟨_, present⟩ := found_move present
    · exact follows number isTaken
    · exact sound.next other found number present isTaken
  alone := by
    intro first second one other presentOne takenOne presentOther takenOther
    obtain ⟨rfl, rfl⟩ | ⟨apartOne, beforeOne⟩ := found_move presentOne
    · obtain ⟨rfl, _⟩ | ⟨apartOther, beforeOther⟩ := found_move presentOther
      · rfl
      · rw [only takenOne second other apartOther beforeOther] at takenOther
        contradiction
    · obtain ⟨rfl, rfl⟩ | ⟨_, beforeOther⟩ := found_move presentOther
      · rw [only takenOther first one apartOne beforeOne] at takenOne
        contradiction
      · exact sound.alone first second one other beforeOne takenOne beforeOther takenOther

/-- A request that moves without taking a lock. -/
theorem Sound.move (sound : Sound program state)     (was : state.requests[index]? = some before)
    (holds : ∀ row, phase.held = some row → before.held = some row)
    (takes : phase.taken = none) : Sound program (state.move index phase) := by
  refine sound.replace index ?_ ?_ ?_ ?_
  · intro request returned isHeld
    exact sound.held index before request returned was (holds _ isHeld)
  · intro row isHeld other found theirs apart present theirHeld
    exact sound.apart index other before found row theirs apart.symm was (holds row isHeld) present
      theirHeld
  · intro number isTaken
    exact absurd (takes.symm.trans isTaken) nofun
  · intro isTaken
    rw [takes] at isTaken
    contradiction

variable {returned : β}

/-- A request that locks a row which no transaction holds. -/
theorem Sound.lock (sound : Sound program state) {store : σ}
    (matched : program.write request state.store = some (store, returned))
    (free : ∀ phase ∈ state.requests, ∀ row ∈ phase.held, program.key row.1 ≠ program.key request) :
    Sound program (state.move index (.written request returned)) := by
  refine sound.replace index ?_ ?_ nofun nofun
  · intro theirs value isHeld
    obtain ⟨rfl, rfl⟩ := Prod.mk.inj (Option.some.inj isHeld)
    rw [matched]
    rfl
  · intro row isHeld other found theirs _ present theirHeld
    cases isHeld
    exact (free found (List.mem_of_getElem? present) theirs theirHeld).symm

/-- A request that takes the next number where none is taken. -/
theorem Sound.count
    (sound : Sound program state)     (was : state.requests[index]? = some (.written request returned))
    (free : ∀ phase ∈ state.requests, phase.taken = none) :
    Sound program (state.move index (.numbered request returned (state.counter + 1))) := by
  refine sound.replace index ?_ ?_ ?_ ?_
  · exact fun theirs value isHeld => sound.held index _ theirs value was isHeld
  · intro row isHeld other found theirs apart present theirHeld
    exact sound.apart index other _ found row theirs apart.symm was isHeld present theirHeld
  · exact fun number isTaken => (Option.some.inj isTaken).symm
  · exact fun _ other found _ present => free found (List.mem_of_getElem? present)

/-- A transaction that commits, with its number. -/
theorem Sound.commit (sound : Sound program state) (isLocal : program.Local) {number : Nat}
    {value : β} {store : σ} {reply : Reply β ρ}
    (was : state.requests[index]? = some (.numbered request returned number))
    (matched : program.write request state.store = some (store, value)) :
    Sound program { state.move index (.answering request reply) with
      store := store
      counter := number } where
  held := by
    intro other found theirs theirValue present isHeld
    obtain ⟨rfl, rfl⟩ | ⟨differ, present⟩ := found_move present
    · contradiction
    · have apart := sound.apart index other _ found _ _ differ.symm was rfl present isHeld
      change (program.write theirs store).map Prod.snd = some theirValue
      rw [isLocal request theirs state.store store value apart matched]
      exact sound.held other found theirs theirValue present isHeld
  apart := by
    intro first second one other oneRow otherRow differ presentOne heldOne presentOther heldOther
    obtain ⟨rfl, rfl⟩ | ⟨_, beforeOne⟩ := found_move presentOne
    · contradiction
    · obtain ⟨rfl, rfl⟩ | ⟨_, beforeOther⟩ := found_move presentOther
      · contradiction
      · exact sound.apart first second one other oneRow otherRow differ beforeOne heldOne
          beforeOther heldOther
  next := by
    intro other found theirs present isTaken
    obtain ⟨rfl, rfl⟩ | ⟨differ, present⟩ := found_move present
    · contradiction
    · have taken : found.taken.isSome = true := by rw [isTaken]; rfl
      exact absurd (sound.alone index other _ found was rfl present taken).symm differ
  alone := by
    intro first second one other presentOne takenOne presentOther takenOther
    obtain ⟨rfl, rfl⟩ | ⟨_, beforeOne⟩ := found_move presentOne
    · contradiction
    · obtain ⟨rfl, rfl⟩ | ⟨_, beforeOther⟩ := found_move presentOther
      · contradiction
      · exact sound.alone first second one other beforeOne takenOne beforeOther takenOther

/-- A request that arrives. -/
theorem Sound.arrive (sound : Sound program state) (request : ω) :
    Sound program { state with requests := state.requests ++ [.begun request] } := by
  refine ⟨?_, ?_, ?_, ?_⟩
  · intro index phase theirs returned present isHeld
    obtain rfl | present := found_arrive present
    · contradiction
    · exact sound.held index phase theirs returned present isHeld
  · intro first second one other oneRow otherRow differ presentOne heldOne presentOther heldOther
    obtain rfl | presentOne := found_arrive presentOne
    · contradiction
    · obtain rfl | presentOther := found_arrive presentOther
      · contradiction
      · exact sound.apart first second one other oneRow otherRow differ presentOne heldOne
          presentOther heldOther
  · intro index phase number present isTaken
    obtain rfl | present := found_arrive present
    · contradiction
    · exact sound.next index phase number present isTaken
  · intro first second one other presentOne takenOne presentOther takenOther
    obtain rfl | presentOne := found_arrive presentOne
    · contradiction
    · obtain rfl | presentOther := found_arrive presentOther
      · contradiction
      · exact sound.alone first second one other presentOne takenOne presentOther takenOther

/-- Every transition keeps the locks. -/
theorem sound_taken (sound : Sound program state) (isLocal : program.Local)
    (taken : Taken program state event next) : Sound program next := by
  cases taken with
  | arrive request => exact sound.arrive request
  | refuse index request answer begun read => exact sound.move begun nofun rfl
  | look index request begun read => exact sound.move begun nofun rfl
  | write index request store returned looked matched free => exact sound.lock matched free
  | lose index request looked unmatched => exact sound.move looked nofun rfl
  | miss index request answer missed read => exact sound.move missed nofun rfl
  | throw index request missed read => exact sound.move missed nofun rfl
  | number index request returned written free => exact sound.count written free
  | commit index request returned number store value numbered matched =>
    exact sound.commit isLocal numbered matched
  | abort index phase request held isOpen => exact sound.move held nofun rfl
  | answer index request reply answering =>
    have moved : Sound program (state.move index .finished) := sound.move answering nofun rfl
    exact ⟨moved.held, moved.apart, moved.next, moved.alone⟩
  | hangUp index request reply answering => exact sound.move answering nofun rfl
  | elsewhere free =>
    refine ⟨sound.held, sound.apart, ?_, sound.alone⟩
    intro index phase number present isTaken
    rw [free phase (List.mem_of_getElem? present)] at isTaken
    contradiction

theorem sound_step [DecidableEq κ] (sound : Sound program state) (isLocal : program.Local)
    (happens : step program state event = some next) : Sound program next :=
  sound_taken sound isLocal (step_taken happens)

/-- A transaction commits what its statement returned, under the number after the counter. -/
theorem Sound.committed (sound : Sound program state) {number : Nat} {value : β} {store : σ}
    (was : state.requests[index]? = some (.numbered request returned number))
    (matched : program.write request state.store = some (store, value)) :
    program.write request state.store = some (store, returned) ∧ number = state.counter + 1 := by
  have kept := sound.held index _ request returned was rfl
  rw [matched] at kept
  obtain rfl : value = returned := Option.some.inj kept
  exact ⟨matched, sound.next index _ number was rfl⟩

/-- A transaction that has its number can commit. -/
theorem Sound.can_commit [DecidableEq κ] (sound : Sound program state) {number : Nat}
    (was : state.requests[index]? = some (.numbered request returned number)) :
    (step program state (.commit index)).isSome = true := by
  have kept := sound.held index _ request returned was rfl
  obtain ⟨⟨store, value⟩, matched, _⟩ := Option.map_eq_some_iff.mp kept
  simp only [step, was, matched, Option.isSome_some]

/-! ## Answers -/

/-- The answer that a request waits to send. -/
def Phase.reply : Phase ω β ρ → Option (ω × Reply β ρ)
  | .answering request reply => some (request, reply)
  | _ => none

/-- An open transaction has no answer. -/
theorem Phase.reply_opened (isOpen : phase.opened = some request) :
    phase.reply = none := by
  cases phase <;> first | rfl | contradiction

/-- The answers that were sent or wait to be. -/
def State.answers (state : State σ ω β ρ) : List (ω × Reply β ρ) :=
  state.sent ++ state.requests.filterMap Phase.reply

/-- The answer of one request stands between those of the others. -/
theorem answers_between (was : state.requests[index]? = some before) :
    ∃ first last, state.answers = first ++ before.reply.toList ++ last ∧
      ∀ phase, (state.move index phase).answers = first ++ phase.reply.toList ++ last := by
  obtain ⟨bound, isBefore⟩ := List.getElem?_eq_some_iff.mp was
  have one (phase : Phase ω β ρ) (rest : List (Phase ω β ρ)) :
      (phase :: rest).filterMap Phase.reply = phase.reply.toList ++ rest.filterMap Phase.reply := by
    cases answer : phase.reply <;> simp [answer]
  refine ⟨state.sent ++ (state.requests.take index).filterMap Phase.reply,
    (state.requests.drop (index + 1)).filterMap Phase.reply, ?_, ?_⟩
  · have whole : state.requests = state.requests.take index ++
        before :: state.requests.drop (index + 1) := by
      rw [← isBefore, List.getElem_cons_drop, List.take_append_drop]
    rw [State.answers, List.append_assoc, List.append_assoc, ← one, ← List.filterMap_append, ← whole]
  · intro phase
    have whole : (state.move index phase).requests = state.requests.take index ++
        phase :: state.requests.drop (index + 1) := by
      rw [State.move, List.set_eq_take_append_cons_drop, if_pos bound]
    rw [State.answers, whole, List.append_assoc, List.append_assoc, ← one, ← List.filterMap_append]
    rfl

/-- A move between phases that do not answer leaves the answers as they are. -/
theorem answers_move (was : state.requests[index]? = some before) (quiet : before.reply = none)
    (still : phase.reply = none) : (state.move index phase).answers = state.answers := by
  obtain ⟨first, last, isBefore, isAfter⟩ := answers_between was
  rw [isBefore, isAfter, quiet, still]

/-- A request that gets its answer adds it. -/
theorem answers_gain {answer : ω × Reply β ρ}
    (was : state.requests[index]? = some before) (quiet : before.reply = none)
    (gains : phase.reply = some answer) :
    (state.move index phase).answers.Perm (state.answers ++ [answer]) := by
  obtain ⟨first, last, isBefore, isAfter⟩ := answers_between was
  have moves : ([answer] ++ last).Perm (last ++ [answer]) := List.perm_append_comm
  rw [isBefore, isAfter, quiet, gains]
  simpa using moves.append_left first

/-- A request that is over loses the answer that it waited to send. -/
theorem answers_over {reply : Reply β ρ}
    (was : state.requests[index]? = some (.answering request reply)) :
    state.answers.Perm ((state.move index .finished).answers ++ [(request, reply)]) := by
  obtain ⟨first, last, isBefore, isAfter⟩ := answers_between was
  have moves : ([(request, reply)] ++ last).Perm (last ++ [(request, reply)]) := List.perm_append_comm
  rw [isBefore, isAfter]
  simpa [Phase.reply] using moves.append_left first

/-- An answer that is sent stays among the answers. -/
theorem answers_sent {reply : Reply β ρ}
    (was : state.requests[index]? = some (.answering request reply)) :
    (State.answers { state.move index .finished with
      sent := state.sent ++ [(request, reply)] }).Perm state.answers := by
  refine List.Perm.trans ?_ (answers_over was).symm
  simp only [State.answers, State.move, List.append_assoc]
  exact List.perm_append_comm.append_left state.sent

/-- A request that arrives has no answer. -/
theorem answers_arrive (request : ω) :
    State.answers { state with requests := state.requests ++ [.begun request] } = state.answers := by
  simp only [State.answers, List.filterMap_append, List.filterMap_cons, Phase.reply,
    List.filterMap_nil, List.append_nil]

end Kvy.General.Transactions
