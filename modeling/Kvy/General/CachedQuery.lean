import Mathlib.Logic.Basic

/-!
# A cached query with background fetches

A query holds the last data, a mark that the data is stale, and at most one fetch. A
fetch is requested, reads the source at some later moment, and lands later still. A
landing fetch replaces the data and clears the mark; so does a direct write, which
leaves the fetch alone. Invalidating sets the mark and, on a query that is in use,
starts a fetch in place of a running one. A fetch without data to show is not replaced.

Where the data has a position in a numbered stream of changes, a query remembers a
change if its data has reached it, or if newer data is still due.
-/

namespace Kvy.General

universe u
variable {α : Type u}

/-- A fetch in the background. One that extends cached data holds the data it started from. -/
inductive Fetch (α : Type u) where
  | idle
  | requested (base : Option α)
  | received (data : α)
deriving DecidableEq

/-- A query and the cache entry it keeps. -/
structure Query (α : Type u) where
  data : Option α
  isInvalidated : Bool
  active : Bool
  fetch : Fetch α
deriving DecidableEq

namespace Query

/-- A query nobody has asked for. -/
def unused : Query α := ⟨none, false, false, .idle⟩

/-- Start a fetch, in place of a running one if there is data to show meanwhile. -/
def start (query : Query α) (base : Option α) : Query α :=
  match query.fetch, query.data with
  | .idle, _ => { query with fetch := .requested base }
  | _, some _ => { query with fetch := .requested base }
  | _, none => query

/-- Mark the data stale, and fetch again if the query is in use. -/
def invalidate (query : Query α) : Query α :=
  let marked := { query with isInvalidated := true }
  if query.active then marked.start none else marked

/-- Write data directly. -/
def write (query : Query α) (data : α) : Query α :=
  { query with data := some data, isInvalidated := false }

/-- The fetch reads the source. -/
def receive (query : Query α) (read : Option α → α) : Option (Query α) :=
  match query.fetch with
  | .requested base => some { query with fetch := .received (read base) }
  | _ => none

/-- The fetch completes. -/
def land (query : Query α) : Option (Query α) :=
  match query.fetch with
  | .received data => some { query with data := some data, isInvalidated := false, fetch := .idle }
  | _ => none

/-- Whether a fetch is under way. -/
def isFetching (query : Query α) : Bool :=
  match query.fetch with
  | .idle => false
  | _ => true

/-- Whether newer data is still due. -/
def outstanding (query : Query α) : Bool := query.isInvalidated || query.isFetching

/-- The data has reached a position. -/
def Reached (position : α → Nat) (query : Query α) (seq : Nat) : Prop :=
  ∃ data, query.data = some data ∧ seq ≤ position data

/-- Every change that was announced has been reached or is still due. -/
def Remembers (position : α → Nat) (query : Query α) (announced : List Nat) : Prop :=
  ∀ seq ∈ announced, query.Reached position seq ∨ query.outstanding = true

variable {position : α → Nat} {query next : Query α} {announced : List Nat}

@[simp] theorem invalidate_data (query : Query α) : query.invalidate.data = query.data := by
  unfold invalidate start
  dsimp only
  repeat' split
  all_goals rfl

@[simp] theorem invalidate_marks (query : Query α) : query.invalidate.isInvalidated = true := by
  unfold invalidate start
  dsimp only
  repeat' split
  all_goals rfl

@[simp] theorem start_data (query : Query α) (base : Option α) :
    (query.start base).data = query.data := by
  unfold start
  split <;> rfl

theorem start_fetching (query : Query α) (base : Option α) :
    (query.start base).isFetching = true := by
  unfold start
  cases running : query.fetch with
  | idle => rfl
  | requested base => cases query.data <;> simp [isFetching, running]
  | received data => cases query.data <;> simp [isFetching, running]

/-- After an invalidation newer data is due. -/
theorem invalidate_outstanding (query : Query α) : query.invalidate.outstanding = true := by
  simp [outstanding]

/-- While newer data is due, everything is remembered. -/
theorem remembers_outstanding (due : query.outstanding = true) :
    query.Remembers position announced :=
  fun _ _ => Or.inr due

/-- A landing fetch remembers exactly what its data has reached. -/
theorem remembers_land {data : α} (received : query.fetch = .received data)
    (landed : query.land = some next) :
    next.Remembers position announced ↔ ∀ seq ∈ announced, seq ≤ position data := by
  simp only [land, received] at landed
  cases landed
  simp [Remembers, Reached, outstanding, isFetching]

/-- A direct write remembers what its data has reached, and everything if a fetch runs. -/
theorem remembers_write (query : Query α) (data : α) :
    (query.write data).Remembers position announced ↔
      (query.isFetching = true ∨ ∀ seq ∈ announced, seq ≤ position data) := by
  have due : (query.write data).outstanding = query.isFetching := rfl
  constructor
  · intro remembers
    cases fetching : query.isFetching with
    | true => exact Or.inl rfl
    | false =>
      refine Or.inr fun seq member => ?_
      rcases remembers seq member with ⟨held, same, reached⟩ | outstanding
      · cases same
        exact reached
      · rw [due, fetching] at outstanding
        contradiction
  · rintro (fetching | reached)
    · exact remembers_outstanding (due.trans fetching)
    · exact fun seq member => Or.inl ⟨data, rfl, reached seq member⟩

/-- A step that keeps the data and does not drop what is due keeps everything remembered. -/
theorem remembers_same (query : Query α) (data : next.data = query.data)
    (due : query.outstanding = true → next.outstanding = true)
    (remembers : query.Remembers position announced) : next.Remembers position announced := by
  intro seq member
  rcases remembers seq member with ⟨held, same, reached⟩ | outstanding
  · exact Or.inl ⟨held, data.trans same, reached⟩
  · exact Or.inr (due outstanding)

/-- Announcing what has been reached changes nothing. -/
theorem remembers_announce {seq : Nat} (reached : query.Reached position seq) :
    query.Remembers position (seq :: announced) ↔ query.Remembers position announced := by
  constructor
  · exact fun remembers other member => remembers other (List.mem_cons_of_mem seq member)
  · intro remembers other member
    rcases List.mem_cons.mp member with rfl | before
    · exact Or.inl reached
    · exact remembers other before

end Query
end Kvy.General
