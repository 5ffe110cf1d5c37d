import Kvy.General.JsonScan
import Kvy.General.Runs

/-!
# Calls that are replayed and calls that are joined

A call of the machine's procedures is looked up by its parameters first and by the resource it names
second. The wrapped function runs only if neither is found. What a call is handed is told by its
parameters and by the execution that it rests on.

An execution settles in steps: the wrapped function's own promise, the guard's `finally` and the
reactions of all attempts that rest on it, which run one right after the other. Calls may arrive
between any two of these steps.
-/

namespace Kvy.Cli.Daemon.MachineRpc

open General

/-! ## The key of a request -/

/-- Parameters that have passed their schema: an object with distinct keys, one of them a key for
retries. -/
structure Params where
  fields : List (String × Json)
  idempotencyKey : String
  keyed : ("idempotencyKey", .str idempotencyKey) ∈ fields
  distinct : (Json.obj fields).distinct = true

/-- `JSON.stringify` of the parameters. -/
def Params.text (params : Params) : List Char := (Json.obj params.fields).stringify 0

/-- `cacheKey` of `withIdempotencyCache`. -/
def cacheKey (params : Params) : List Char :=
  params.idempotencyKey.toList ++ ':' :: params.text

variable {first second : Params}

/-- The fields are all there is to parameters. -/
theorem Params.same_of_fields (same : first.fields = second.fields) :
    first = second := by
  obtain ⟨fields, key, keyed, distinct⟩ := first
  obtain ⟨_, other, otherKeyed, _⟩ := second
  obtain rfl : fields = _ := same
  have names : (fields.map Prod.fst).Nodup := by
    have both := distinct
    simp only [Json.distinct, Bool.and_eq_true, decide_eq_true_eq] at both
    exact both.1
  have values := List.inj_on_of_nodup_map names keyed otherKeyed rfl
  simp only [Prod.mk.injEq, Json.str.injEq, true_and] at values
  subst values
  rfl

/-- Parameters are read back from their text. -/
theorem Params.text_injective (same : first.text = second.text) :
    first = second := by
  have read := Json.parse_stringify (.obj first.fields) 0 first.distinct
  have other := Json.parse_stringify (.obj second.fields) 0 second.distinct
  rw [show (Json.obj first.fields).stringify 0 = (Json.obj second.fields).stringify 0 from same,
    other] at read
  exact Params.same_of_fields (Json.obj.inj (Option.some.inj read)).symm

/-- A colon and an object's text do not end an object's text. -/
theorem cut_object {rest shift text : List Char} (ends : Json.scan (.outside 1) rest = .outside 0)
    (whole : Json.Whole text) (crossed : Json.Crossed text) : rest ≠ shift ++ ':' :: text := by
  rintro rfl
  rw [Json.scan_append, Json.scan_cons] at ends
  have inside (depth : Nat) : Json.scan (.inside depth) text ≠ .outside 0 := by
    intro out
    have crosses := crossed depth
    rw [out] at crosses
    exact crosses
  have broken : Json.scan .broken text ≠ .outside 0 := by
    rw [Json.scan_broken]
    exact Json.Scan.noConfusion
  match state : Json.scan (.outside 1) shift with
  | .outside 0 | .separator 0 | .separator (_ + 1) | .broken =>
    rw [state] at ends
    exact broken ends
  | .outside (depth + 1) =>
    rw [state] at ends
    have whole := whole.separator depth
    rw [show (Json.Scan.outside (depth + 1)).next ':' = .separator (depth + 1) from rfl,
      whole] at ends
    exact absurd (Json.Scan.outside.inj ends) (Nat.succ_ne_zero depth)
  | .inside depth | .escaped depth =>
    rw [state] at ends
    exact inside depth ends

/-- A longer key before an object's text is another request. -/
theorem cut_key {shift : List Char}
    (same : ':' :: first.text = shift ++ ':' :: second.text) : shift = [] := by
  obtain ⟨rest, text, ends⟩ := Json.scan_object 0 first.fields
  match shift with
  | [] => rfl
  | [char] =>
    obtain ⟨_, same⟩ := List.cons.inj same
    rw [Params.text, Json.stringify, text] at same
    exact absurd (List.cons.inj same).1 (by decide)
  | char :: other :: shift =>
    obtain ⟨_, same⟩ := List.cons.inj same
    rw [Params.text, Json.stringify, text] at same
    exact absurd (List.cons.inj same).2 (cut_object ends (Json.whole_render 0 (.obj second.fields))
      (Json.crossed_render 0 (.obj second.fields)))

/-- Requests with one key are one request. -/
theorem cache_key_injective (same : cacheKey first = cacheKey second) :
    first = second := by
  rcases List.append_eq_append_iff.mp same with ⟨shift, _, rest⟩ | ⟨shift, _, rest⟩
  · obtain rfl := cut_key rest
    exact Params.text_injective (List.cons.inj rest).2
  · obtain rfl := cut_key rest
    exact (Params.text_injective (List.cons.inj rest).2).symm

/-! ## Executions and calls -/

/-- A run of the wrapped function: what its promise has settled with, whether the guard's `finally`
has run, and when its attempts have settled. -/
structure Execution (R : Type) where
  params : Params
  outcome : Option (Except String R)
  released : Bool
  settledAt : Option Nat

/-- A call and the execution that its attempt rests on. -/
structure Call where
  params : Params
  execution : Nat
  madeAt : Nat

/-- A wrapped function with both of its maps, and what has been called and run so far. -/
structure Wrapped (K R : Type) where
  clock : Nat
  executions : List (Execution R)
  calls : List Call
  cache : List Char → Option Nat
  inFlight : K → Option Nat

/-- What can happen to a wrapped function. -/
inductive Event (R : Type) where
  | call (params : Params)
  /-- The promise of the wrapped function settles. -/
  | complete (execution : Nat) (outcome : Except String R)
  /-- The guard's `finally` runs. -/
  | release (execution : Nat)
  /-- The attempts that rest on the execution settle. -/
  | settle (execution : Nat)

/-- An execution that has thrown. -/
def Execution.failed {R : Type} (execution : Execution R) : Bool :=
  match execution.outcome with
  | some (.error _) => true
  | _ => false

/-- An execution that is under way. -/
def Execution.running {R : Type} (execution : Execution R) : Bool := execution.outcome.isNone

/-- An execution that has returned. -/
def Execution.succeeded {R : Type} (execution : Execution R) : Bool :=
  match execution.outcome with
  | some (.ok _) => true
  | _ => false

namespace Wrapped

variable {K R : Type} [DecidableEq K] (keyOf : Params → Option K)

/-- Nothing has been called yet. -/
def fresh : Wrapped K R := ⟨0, [], [], fun _ => none, fun _ => none⟩

/-- `fn`, called with the parameters. Without a guard there is nothing to release. -/
def start (wrapped : Wrapped K R) (params : Params) : Wrapped K R × Nat :=
  ({ wrapped with executions :=
      wrapped.executions ++ [⟨params, none, (keyOf params).isNone, none⟩] },
    wrapped.executions.length)

/-- `withResourceGuard`; without a key it is left out. -/
def withResourceGuard (wrapped : Wrapped K R) (params : Params) : Wrapped K R × Nat :=
  match keyOf params with
  | none => start keyOf wrapped params
  | some key =>
    match wrapped.inFlight key with
    | some existing => (wrapped, existing)
    | none =>
      let (started, attempt) := start keyOf wrapped params
      ({ started with inFlight := Function.update started.inFlight key (some attempt) }, attempt)

/-- `withIdempotencyCache`. -/
def withIdempotencyCache (fn : Wrapped K R → Params → Wrapped K R × Nat) (wrapped : Wrapped K R)
    (params : Params) : Wrapped K R × Nat :=
  match wrapped.cache (cacheKey params) with
  | some cached => (wrapped, cached)
  | none =>
    let (called, attempt) := fn wrapped params
    ({ called with cache := Function.update called.cache (cacheKey params) (some attempt) }, attempt)

/-- A call of the wrapped function. -/
def call (wrapped : Wrapped K R) (params : Params) : Wrapped K R :=
  let (called, execution) := withIdempotencyCache (withResourceGuard keyOf) wrapped params
  { called with calls := called.calls ++ [⟨params, execution, called.clock⟩] }

/-- The wrapped function returns or throws. -/
def complete (wrapped : Wrapped K R) (id : Nat) (execution : Execution R)
    (outcome : Except String R) : Wrapped K R :=
  { wrapped with
    executions := wrapped.executions.set id { execution with outcome := some outcome } }

/-- The guard's `finally`. -/
def release (wrapped : Wrapped K R) (id : Nat) (execution : Execution R) : Wrapped K R :=
  { wrapped with
    executions := wrapped.executions.set id { execution with released := true }
    inFlight := fun key =>
      if keyOf execution.params = some key then none else wrapped.inFlight key }

/-- The reactions of the attempts that rest on an execution: each deletes its entry if the execution
has thrown. -/
def settle (wrapped : Wrapped K R) (id : Nat) (execution : Execution R) : Wrapped K R :=
  { wrapped with
    executions := wrapped.executions.set id { execution with settledAt := some wrapped.clock }
    cache := fun key =>
      if execution.failed ∧ ∃ call ∈ wrapped.calls, call.execution = id ∧ cacheKey call.params = key
      then none else wrapped.cache key }

/-- Time goes on. -/
def tick (wrapped : Wrapped K R) : Wrapped K R := { wrapped with clock := wrapped.clock + 1 }

/-- One step. -/
def step (wrapped : Wrapped K R) : Event R → Option (Wrapped K R)
  | .call params => some (wrapped.call keyOf params).tick
  | .complete id outcome =>
    match wrapped.executions[id]? with
    | some execution =>
      if execution.outcome.isNone then some (wrapped.complete id execution outcome).tick else none
    | none => none
  | .release id =>
    match wrapped.executions[id]? with
    | some execution =>
      if execution.outcome.isSome ∧ execution.released = false then
        some (wrapped.release keyOf id execution).tick
      else none
    | none => none
  | .settle id =>
    match wrapped.executions[id]? with
    | some execution =>
      if execution.outcome.isSome ∧ execution.released ∧ execution.settledAt = none then
        some (wrapped.settle id execution).tick
      else none
    | none => none

/-- When the attempt of a call has settled. -/
def settledAt (wrapped : Wrapped K R) (call : Call) : Option Nat :=
  wrapped.executions[call.execution]?.bind Execution.settledAt

/-- Neither of two calls was made after the other one's attempt had settled. -/
def Overlapped (wrapped : Wrapped K R) (first second : Call) : Prop :=
  (∀ time ∈ wrapped.settledAt first, second.madeAt < time) ∧
    ∀ time ∈ wrapped.settledAt second, first.madeAt < time

/-- An execution returned. -/
def Succeeded (wrapped : Wrapped K R) (id : Nat) : Prop :=
  ∃ execution ∈ wrapped.executions[id]?, execution.succeeded

/-- One call's attempt was made by the other call, which has the same parameters. -/
structure Repeats (call first : Call) : Prop where
  params : first.params = call.params
  execution : first.execution = call.execution
  earlier : first.madeAt ≤ call.madeAt

/-- Operations run once. Equal parameters are served by one execution, a resource by one at a time,
and a call by no attempt that had been rejected before. -/
structure RunsOnce (wrapped : Wrapped K R) : Prop where
  /-- The wrapped function returns once for equal parameters. -/
  once : ∀ first second : Nat, ∀ execution ∈ wrapped.executions[first]?,
    ∀ other ∈ wrapped.executions[second]?, execution.params = other.params →
      execution.succeeded → other.succeeded → first = second
  /-- Every caller with these parameters that succeeds has the result of this execution. -/
  served : ∀ id : Nat, ∀ execution ∈ wrapped.executions[id]?, execution.succeeded →
    ∀ call ∈ wrapped.calls, call.params = execution.params →
      wrapped.Succeeded call.execution → call.execution = id
  /-- Callers with equal parameters that succeed have the result of one execution. -/
  shared : ∀ first ∈ wrapped.calls, ∀ second ∈ wrapped.calls, first.params = second.params →
    wrapped.Succeeded first.execution → wrapped.Succeeded second.execution →
    first.execution = second.execution
  /-- No call has joined an attempt that had been rejected. -/
  unrejected : ∀ call ∈ wrapped.calls, ∀ execution ∈ wrapped.executions[call.execution]?,
    execution.failed → ∀ time ∈ execution.settledAt, call.madeAt < time
  /-- One execution runs for a resource at a time. -/
  alone : ∀ first second : Nat, ∀ execution ∈ wrapped.executions[first]?,
    ∀ other ∈ wrapped.executions[second]?, execution.running → other.running →
      ∀ key, keyOf execution.params = some key → keyOf other.params = some key → first = second

/-- Calls with different parameters that get the result of one execution name one resource. -/
def SameResource (wrapped : Wrapped K R) : Prop :=
  ∀ first ∈ wrapped.calls, ∀ second ∈ wrapped.calls, first.execution = second.execution →
    first.params ≠ second.params →
    ∃ key, keyOf first.params = some key ∧ keyOf second.params = some key

/-- Calls with different parameters that get the result of one execution overlapped. -/
def ResultsOverlap (wrapped : Wrapped K R) : Prop :=
  ∀ first ∈ wrapped.calls, ∀ second ∈ wrapped.calls, first.execution = second.execution →
    first.params ≠ second.params → wrapped.Overlapped first second

/-- Calls with different parameters that get the result of one execution repeat calls that
overlapped, or are such calls. -/
def RepeatsOverlap (wrapped : Wrapped K R) : Prop :=
  ∀ first ∈ wrapped.calls, ∀ second ∈ wrapped.calls, first.execution = second.execution →
    first.params ≠ second.params →
    ∃ one ∈ wrapped.calls, ∃ other ∈ wrapped.calls, Repeats first one ∧ Repeats second other ∧
      wrapped.Overlapped one other

/-! ## What every step keeps -/

/-- The attempts on an execution have been rejected. -/
def Rejected (wrapped : Wrapped K R) (id : Nat) : Prop :=
  ∃ execution ∈ wrapped.executions[id]?, execution.failed ∧ execution.settledAt.isSome

/-- How an execution's own data hang together. -/
structure Staged (wrapped : Wrapped K R) (execution : Execution R) : Prop where
  guarded : execution.running → execution.released = (keyOf execution.params).isNone
  settled : execution.settledAt.isSome → ¬execution.running ∧ execution.released
  past : ∀ time ∈ execution.settledAt, time < wrapped.clock

/-- How a call's data hang together. -/
structure Placed (wrapped : Wrapped K R) (call : Call) (execution : Execution R) : Prop where
  past : call.madeAt < wrapped.clock
  named : call.params = execution.params ∨
    ∃ key, keyOf call.params = some key ∧ keyOf execution.params = some key
  unrejected : execution.failed → ∀ time ∈ execution.settledAt, call.madeAt < time
  repeats : ∃ first ∈ wrapped.calls, Repeats call first ∧
    ∀ time ∈ execution.settledAt, first.madeAt < time

/-- What holds between any two steps. -/
structure Sound (wrapped : Wrapped K R) : Prop where
  staged : ∀ id : Nat, ∀ execution ∈ wrapped.executions[id]?, Staged keyOf wrapped execution
  /-- An execution is run for a call with its parameters. -/
  called : ∀ id : Nat, ∀ execution ∈ wrapped.executions[id]?,
    ∃ call ∈ wrapped.calls, call.params = execution.params ∧ call.execution = id
  placed : ∀ call ∈ wrapped.calls,
    ∃ execution ∈ wrapped.executions[call.execution]?, Placed keyOf wrapped call execution
  /-- An entry is an attempt that some call has made. -/
  known : ∀ key, ∀ id ∈ wrapped.cache key,
    ∃ call ∈ wrapped.calls, cacheKey call.params = key ∧ call.execution = id
  unrejected : ∀ key, ∀ id ∈ wrapped.cache key, ¬wrapped.Rejected id
  /-- An attempt stays in the cache until it is rejected. -/
  cached : ∀ call ∈ wrapped.calls, ¬wrapped.Rejected call.execution →
    wrapped.cache (cacheKey call.params) = some call.execution
  /-- The guard knows exactly what it has not released. -/
  guarded : ∀ (key : K) (id : Nat), wrapped.inFlight key = some id ↔
    ∃ execution ∈ wrapped.executions[id]?,
      keyOf execution.params = some key ∧ execution.released = false

variable {keyOf} {wrapped next : Wrapped K R}

theorem set_found {id : Nat} {execution new : Execution R}
    (found : wrapped.executions[id]? = some execution) (other : Nat) :
    (wrapped.executions.set id new)[other]? =
      if other = id then some new else wrapped.executions[other]? := by
  have inside := (List.getElem?_eq_some_iff.mp found).1
  rw [List.getElem?_set]
  by_cases same : id = other
  · rw [if_pos same, if_pos inside, if_pos same.symm]
  · rw [if_neg same, if_neg (Ne.symm same)]

/-- An execution goes on to its next stage. -/
structure Advances (keyOf : Params → Option K) (wrapped next : Wrapped K R) (id : Nat)
    (execution new : Execution R) : Prop where
  found : wrapped.executions[id]? = some execution
  executions : next.executions = wrapped.executions.set id new
  calls : next.calls = wrapped.calls
  clock : next.clock = wrapped.clock + 1
  params : new.params = execution.params
  unsettled : execution.settledAt = none
  settles : ∀ time ∈ new.settledAt, time = wrapped.clock
  staged : Staged keyOf next new
  keeps : execution.released → new.released
  cache : ∀ key, next.cache key =
    if (new.failed ∧ new.settledAt.isSome) ∧
      ∃ call ∈ wrapped.calls, call.execution = id ∧ cacheKey call.params = key
    then none else wrapped.cache key
  inFlight : ∀ key, next.inFlight key =
    if keyOf execution.params = some key ∧ new.released ∧ execution.released = false
    then none else wrapped.inFlight key

namespace Advances

variable {id : Nat} {execution new : Execution R}

/-- The executions after the step. -/
theorem lookup (advances : Advances keyOf wrapped next id execution new) (other : Nat) :
    next.executions[other]? = if other = id then some new else wrapped.executions[other]? := by
  rw [advances.executions]
  exact set_found advances.found other

/-- What is rejected after the step. -/
theorem rejected_iff (advances : Advances keyOf wrapped next id execution new) (other : Nat) :
    next.Rejected other ↔
      if other = id then new.failed ∧ new.settledAt.isSome else wrapped.Rejected other := by
  unfold Rejected
  rw [advances.lookup]
  split
  · simp
  · rfl

/-- The execution that goes on has not been rejected. -/
theorem unrejected (advances : Advances keyOf wrapped next id execution new) :
    ¬wrapped.Rejected id := by
  rintro ⟨other, found, _, settled⟩
  obtain rfl := Option.some.inj (advances.found.symm.trans found)
  rw [advances.unsettled] at settled
  contradiction

/-- Later calls and other stages of executions leave a call in its place. -/
theorem placed (advances : Advances keyOf wrapped next id execution new)
    (sound : Sound keyOf wrapped) {call : Call} (member : call ∈ wrapped.calls) :
    ∃ other ∈ next.executions[call.execution]?, Placed keyOf next call other := by
  obtain ⟨other, found, placed⟩ := sound.placed call member
  obtain ⟨first, among, repeats, before⟩ := placed.repeats
  have past : call.madeAt < next.clock := by
    rw [advances.clock]
    exact Nat.lt_succ_of_lt placed.past
  rw [advances.lookup]
  by_cases same : call.execution = id
  · rw [same] at found
    obtain rfl := Option.some.inj (advances.found.symm.trans found)
    refine ⟨new, if_pos same, past, by rw [advances.params]; exact placed.named, ?_, ?_⟩
    · intro _ time settled
      rw [advances.settles time settled]
      exact placed.past
    · refine ⟨first, advances.calls ▸ among, repeats, ?_⟩
      intro time settled
      rw [advances.settles time settled]
      exact Nat.lt_of_le_of_lt repeats.earlier placed.past
  · rw [if_neg same]
    exact ⟨other, found, past, placed.named, placed.unrejected, first, advances.calls ▸ among,
      repeats, before⟩

/-- The guard still knows what it has not released. -/
theorem guarded (advances : Advances keyOf wrapped next id execution new)
    (sound : Sound keyOf wrapped) (key : K) (other : Nat) :
    next.inFlight key = some other ↔
      ∃ found ∈ next.executions[other]?,
        keyOf found.params = some key ∧ found.released = false := by
  rw [advances.lookup, advances.inFlight]
  by_cases frees : keyOf execution.params = some key ∧ new.released ∧ execution.released = false
  · rw [if_pos frees]
    refine iff_of_false (by simp) ?_
    have held := (sound.guarded key id).mpr ⟨execution, advances.found, frees.1, frees.2.2⟩
    rintro ⟨found, member, named, unreleased⟩
    by_cases same : other = id
    · rw [if_pos same] at member
      cases member
      rw [frees.2.1] at unreleased
      contradiction
    · rw [if_neg same] at member
      have also := (sound.guarded key other).mpr ⟨found, member, named, unreleased⟩
      exact same (Option.some.inj (also.symm.trans held))
  · rw [if_neg frees, sound.guarded]
    by_cases same : other = id
    · subst same
      rw [if_pos rfl, advances.found]
      have released := advances.keeps
      simp only [Option.mem_some_iff, exists_eq_left', advances.params]
      grind
    · rw [if_neg same]

/-- An execution's next stage keeps everything sound. -/
theorem sound (advances : Advances keyOf wrapped next id execution new)
    (sound : Sound keyOf wrapped) : Sound keyOf next where
  staged := by
    intro other found member
    rw [advances.lookup] at member
    split at member
    · cases member
      exact advances.staged
    · have staged := sound.staged other found member
      refine ⟨staged.guarded, staged.settled, fun time settled => ?_⟩
      rw [advances.clock]
      exact Nat.lt_succ_of_lt (staged.past time settled)
  called := by
    intro other found member
    rw [advances.calls]
    rw [advances.lookup] at member
    split at member
    · next same =>
      cases member
      rw [advances.params, same]
      exact sound.called id execution advances.found
    · exact sound.called other found member
  placed := by
    intro call member
    exact advances.placed sound (advances.calls ▸ member)
  known := by
    intro key other member
    rw [advances.cache] at member
    rw [advances.calls]
    exact sound.known key other (Option.ite_none_left_eq_some.mp member).2
  unrejected := by
    intro key other member
    rw [advances.cache] at member
    obtain ⟨kept, entry⟩ := Option.ite_none_left_eq_some.mp member
    rw [advances.rejected_iff]
    split
    · next same =>
      subst same
      obtain ⟨call, among, keyed, rests⟩ := sound.known key other entry
      exact fun rejected => kept ⟨rejected, call, among, rests, keyed⟩
    · exact sound.unrejected key other entry
  cached := by
    intro call member unrejected
    rw [advances.calls] at member
    rw [advances.rejected_iff] at unrejected
    have before : wrapped.cache (cacheKey call.params) = some call.execution := by
      refine sound.cached call member ?_
      split at unrejected
      · next same => exact same ▸ advances.unrejected
      · exact unrejected
    rw [advances.cache, before]
    refine if_neg ?_
    rintro ⟨rejected, other, among, rests, keyed⟩
    have also := sound.cached other among (rests ▸ advances.unrejected)
    rw [keyed, before, rests] at also
    rw [if_pos (Option.some.inj also)] at unrejected
    exact unrejected rejected
  guarded := advances.guarded sound

end Advances

/-- A call is served by an execution, which is there already or is started for it. -/
structure Serves (keyOf : Params → Option K) (wrapped next : Wrapped K R) (call : Call)
    (execution : Execution R) : Prop where
  clock : next.clock = wrapped.clock + 1
  calls : next.calls = wrapped.calls ++ [call]
  older : ∀ (id : Nat) other, wrapped.executions[id]? = some other → next.executions[id]? = some other
  newer : ∀ (id : Nat) other, next.executions[id]? = some other → wrapped.executions[id]? = some other ∨
    call.execution = id ∧ call.params = other.params ∧ Staged keyOf next other
  found : next.executions[call.execution]? = some execution
  placed : Placed keyOf next call execution
  unrejected : execution.failed → execution.settledAt = none
  uncached : ∀ id ∈ wrapped.cache (cacheKey call.params), id = call.execution
  cache : ∀ key, next.cache key =
    if key = cacheKey call.params then some call.execution else wrapped.cache key
  guarded : ∀ (key : K) (id : Nat), next.inFlight key = some id ↔
    ∃ execution ∈ next.executions[id]?,
      keyOf execution.params = some key ∧ execution.released = false

namespace Serves

variable {call : Call} {execution : Execution R}

theorem mem_calls (serves : Serves keyOf wrapped next call execution) {other : Call} :
    other ∈ next.calls ↔ other ∈ wrapped.calls ∨ other = call := by
  rw [serves.calls, List.mem_append, List.mem_singleton]

/-- A call that was there is still in its place. -/
theorem placed_before (serves : Serves keyOf wrapped next call execution)
    (sound : Sound keyOf wrapped) {other : Call} (member : other ∈ wrapped.calls) :
    ∃ found ∈ next.executions[other.execution]?, Placed keyOf next other found := by
  obtain ⟨found, there, placed⟩ := sound.placed other member
  obtain ⟨first, among, repeats, before⟩ := placed.repeats
  refine ⟨found, serves.older _ _ there, ?_, placed.named, placed.unrejected, first,
    serves.mem_calls.mpr (.inl among), repeats, before⟩
  rw [serves.clock]
  exact Nat.lt_succ_of_lt placed.past

/-- Attempts that were there are rejected exactly if they were. -/
theorem rejected_iff (serves : Serves keyOf wrapped next call execution)
    (sound : Sound keyOf wrapped) {other : Call} (member : other ∈ wrapped.calls) :
    next.Rejected other.execution ↔ wrapped.Rejected other.execution := by
  obtain ⟨found, there, _⟩ := sound.placed other member
  have later := serves.older _ _ there
  unfold Rejected
  rw [later, there]

theorem own_unrejected (serves : Serves keyOf wrapped next call execution) :
    ¬next.Rejected call.execution := by
  rintro ⟨found, there, failed, settled⟩
  obtain rfl := Option.some.inj (serves.found.symm.trans there)
  rw [serves.unrejected failed] at settled
  contradiction

/-- A call that is served keeps everything sound. -/
theorem sound (serves : Serves keyOf wrapped next call execution)
    (sound : Sound keyOf wrapped) : Sound keyOf next where
  staged := by
    intro id found member
    rcases serves.newer id found member with before | ⟨_, _, staged⟩
    · have staged := sound.staged id found before
      refine ⟨staged.guarded, staged.settled, fun time settled => ?_⟩
      rw [serves.clock]
      exact Nat.lt_succ_of_lt (staged.past time settled)
    · exact staged
  called := by
    intro id found member
    rcases serves.newer id found member with before | ⟨own, params, _⟩
    · obtain ⟨other, among, both⟩ := sound.called id found before
      exact ⟨other, serves.mem_calls.mpr (.inl among), both⟩
    · exact ⟨call, serves.mem_calls.mpr (.inr rfl), params, own⟩
  placed := by
    intro other member
    rcases serves.mem_calls.mp member with before | rfl
    · exact serves.placed_before sound before
    · exact ⟨execution, serves.found, serves.placed⟩
  known := by
    intro key id member
    rw [serves.cache] at member
    split at member
    · next keyed =>
      exact ⟨call, serves.mem_calls.mpr (.inr rfl), keyed.symm, Option.some.inj member⟩
    · obtain ⟨other, among, both⟩ := sound.known key id member
      exact ⟨other, serves.mem_calls.mpr (.inl among), both⟩
  unrejected := by
    intro key id member
    rw [serves.cache] at member
    split at member
    · cases member
      exact serves.own_unrejected
    · obtain ⟨other, among, _, rests⟩ := sound.known key id member
      have before := sound.unrejected key id member
      rw [← rests] at before ⊢
      rwa [serves.rejected_iff sound among]
  cached := by
    intro other member unrejected
    rw [serves.cache]
    rcases serves.mem_calls.mp member with before | rfl
    · rw [serves.rejected_iff sound before] at unrejected
      have cached := sound.cached other before unrejected
      split
      · next keyed =>
        rw [keyed] at cached
        rw [serves.uncached _ cached]
      · exact cached
    · rw [if_pos rfl]
  guarded := serves.guarded

end Serves

/-! ## The steps -/

/-- A call that repeats a cached one is served by its execution. -/
theorem serves_cached (sound : Sound keyOf wrapped) {params : Params} {id : Nat}
    (cached : wrapped.cache (cacheKey params) = some id) :
    ∃ execution, Serves keyOf wrapped
      { wrapped with clock := wrapped.clock + 1
                     calls := wrapped.calls ++ [⟨params, id, wrapped.clock⟩] }
      ⟨params, id, wrapped.clock⟩ execution := by
  obtain ⟨other, among, keyed, rests⟩ := sound.known _ id cached
  obtain rfl := cache_key_injective keyed
  obtain ⟨execution, found, placed⟩ := sound.placed other among
  obtain ⟨first, member, repeats, before⟩ := placed.repeats
  subst rests
  have unrejected : execution.failed → execution.settledAt = none := by
    intro failed
    by_contra settled
    exact sound.unrejected _ _ cached ⟨execution, found, failed, Option.isSome_iff_ne_none.mpr settled⟩
  exact ⟨execution, {
    clock := rfl
    calls := rfl
    older := fun _ _ there => there
    newer := fun _ _ there => .inl there
    found := found
    placed := {
      past := Nat.lt_succ_self _
      named := placed.named
      unrejected := by
        intro failed time settled
        rw [unrejected failed] at settled
        contradiction
      repeats := ⟨first, List.mem_append_left _ member, ⟨repeats.params, repeats.execution,
        repeats.earlier.trans (Nat.le_of_lt placed.past)⟩, before⟩ }
    unrejected := unrejected
    uncached := fun _ member => (Option.some.inj (cached.symm.trans member)).symm
    cache := by
      intro key
      split
      · next same => rw [same, cached]
      · rfl
    guarded := sound.guarded }⟩

/-- A call whose resource is in flight is served by what is under way. -/
theorem serves_joined (sound : Sound keyOf wrapped) {params : Params} {key : K} {id : Nat}
    (uncached : wrapped.cache (cacheKey params) = none) (named : keyOf params = some key)
    (existing : wrapped.inFlight key = some id) :
    ∃ execution, Serves keyOf wrapped
      { wrapped with clock := wrapped.clock + 1
                     calls := wrapped.calls ++ [⟨params, id, wrapped.clock⟩]
                     cache := Function.update wrapped.cache (cacheKey params) (some id) }
      ⟨params, id, wrapped.clock⟩ execution := by
  obtain ⟨execution, found, also, unreleased⟩ := (sound.guarded key id).mp existing
  have unsettled : execution.settledAt = none := by
    by_contra settled
    have staged := sound.staged id execution found
    have released := (staged.settled (Option.isSome_iff_ne_none.mpr settled)).2
    rw [unreleased] at released
    contradiction
  exact ⟨execution, {
    clock := rfl
    calls := rfl
    older := fun _ _ there => there
    newer := fun _ _ there => .inl there
    found := found
    placed := {
      past := Nat.lt_succ_self _
      named := .inr ⟨key, named, also⟩
      unrejected := by simp [unsettled]
      repeats := ⟨_, List.mem_append_right _ (List.mem_singleton_self _),
        ⟨rfl, rfl, Nat.le_refl _⟩, by simp [unsettled]⟩ }
    unrejected := fun _ => unsettled
    uncached := by simp [uncached]
    cache := by
      intro other
      exact Function.update_apply wrapped.cache (cacheKey params) (some id) other
    guarded := sound.guarded }⟩

/-- A call that nothing serves yet is served by an execution of its own. -/
theorem serves_started (sound : Sound keyOf wrapped) {params : Params} {inFlight : K → Option Nat}
    (uncached : wrapped.cache (cacheKey params) = none)
    (free : ∀ key, keyOf params = some key → wrapped.inFlight key = none)
    (taken : ∀ key, inFlight key = if keyOf params = some key
      then some wrapped.executions.length else wrapped.inFlight key) :
    ∃ execution, Serves keyOf wrapped
      { clock := wrapped.clock + 1
        executions := wrapped.executions ++ [⟨params, none, (keyOf params).isNone, none⟩]
        calls := wrapped.calls ++ [⟨params, wrapped.executions.length, wrapped.clock⟩]
        cache := Function.update wrapped.cache (cacheKey params) (some wrapped.executions.length)
        inFlight := inFlight }
      ⟨params, wrapped.executions.length, wrapped.clock⟩ execution := by
  have lookup (id : Nat) (other : Execution R) :
      (wrapped.executions ++ [⟨params, none, (keyOf params).isNone, none⟩])[id]? = some other ↔
        wrapped.executions[id]? = some other ∨ id = wrapped.executions.length ∧
          other = ⟨params, none, (keyOf params).isNone, none⟩ := by
    grind
  refine ⟨⟨params, none, (keyOf params).isNone, none⟩, {
    clock := rfl
    calls := rfl
    older := fun id other there => (lookup id other).mpr (.inl there)
    newer := ?_
    found := List.getElem?_concat_length
    placed := {
      past := Nat.lt_succ_self _
      named := .inl rfl
      unrejected := fun failed => absurd failed (by simp [Execution.failed])
      repeats := ⟨_, List.mem_append_right _ (List.mem_singleton_self _),
        ⟨rfl, rfl, Nat.le_refl _⟩, by simp⟩ }
    unrejected := fun _ => rfl
    uncached := by simp [uncached]
    cache := fun other => Function.update_apply wrapped.cache (cacheKey params) _ other
    guarded := ?_ }⟩
  · intro id other there
    rcases (lookup id other).mp there with before | ⟨rfl, rfl⟩
    · exact .inl before
    · exact .inr ⟨rfl, rfl, fun _ => rfl, by simp, by simp⟩
  · intro key id
    have before := sound.guarded key id
    simp only [Option.mem_def, lookup] at before ⊢
    rw [taken]
    by_cases named : keyOf params = some key
    · rw [if_pos named]
      rw [free key named] at before
      constructor
      · rintro same
        cases same
        exact ⟨_, .inr ⟨rfl, rfl⟩, named, by simp [named]⟩
      · rintro ⟨execution, there | ⟨rfl, _⟩, also, unreleased⟩
        · exact absurd (before.mpr ⟨execution, there, also, unreleased⟩) (by simp)
        · rfl
    · rw [if_neg named, before]
      constructor
      · rintro ⟨execution, there, both⟩
        exact ⟨execution, .inl there, both⟩
      · rintro ⟨execution, there | ⟨_, rfl⟩, also, unreleased⟩
        · exact ⟨execution, there, also, unreleased⟩
        · exact absurd also named

/-- Every call is served. -/
theorem serves_call (sound : Sound keyOf wrapped) (params : Params) :
    ∃ call execution, Serves keyOf wrapped (wrapped.call keyOf params).tick call execution := by
  unfold Wrapped.call withIdempotencyCache
  cases cached : wrapped.cache (cacheKey params) with
  | some id => exact ⟨_, serves_cached sound cached⟩
  | none =>
    unfold withResourceGuard
    cases named : keyOf params with
    | none =>
      refine ⟨_, serves_started sound cached (by simp [named]) (fun key => ?_)⟩
      rw [named]
      rfl
    | some key =>
      cases existing : wrapped.inFlight key with
      | some id =>
        simp only [existing]
        exact ⟨_, serves_joined sound cached named existing⟩
      | none =>
        simp only [existing]
        refine ⟨_, serves_started sound cached ?_ ?_⟩
        · intro other also
          rw [named] at also
          exact Option.some.inj also ▸ existing
        · intro other
          simp only [named, Option.some.injEq, @eq_comm _ key other]
          exact Function.update_apply _ key _ other

variable {id : Nat} {execution : Execution R}

theorem advances_complete (sound : Sound keyOf wrapped)
    (found : wrapped.executions[id]? = some execution) (running : execution.running)
    (outcome : Except String R) :
    Advances keyOf wrapped (wrapped.complete id execution outcome).tick id execution
      { execution with outcome := some outcome } := by
  have staged := sound.staged id execution found
  have unsettled : execution.settledAt = none := by
    by_contra settled
    exact (staged.settled (Option.isSome_iff_ne_none.mpr settled)).1 running
  exact {
    found := found
    executions := rfl
    calls := rfl
    clock := rfl
    params := rfl
    unsettled := unsettled
    settles := by simp [unsettled]
    staged := ⟨fun running => absurd running (by simp [Execution.running]), by simp [unsettled],
      by simp [unsettled]⟩
    keeps := fun released => released
    cache := by
      intro key
      rw [if_neg]
      · rfl
      · simp [unsettled]
    inFlight := by
      intro key
      rw [if_neg]
      · rfl
      · simp +contextual }

theorem advances_release (sound : Sound keyOf wrapped)
    (found : wrapped.executions[id]? = some execution) (finished : execution.outcome.isSome)
    (unreleased : execution.released = false) :
    Advances keyOf wrapped (wrapped.release keyOf id execution).tick id execution
      { execution with released := true } := by
  have staged := sound.staged id execution found
  have unsettled : execution.settledAt = none := by
    by_contra settled
    have released := (staged.settled (Option.isSome_iff_ne_none.mpr settled)).2
    rw [unreleased] at released
    contradiction
  exact {
    found := found
    executions := rfl
    calls := rfl
    clock := rfl
    params := rfl
    unsettled := unsettled
    settles := by simp [unsettled]
    staged := ⟨fun running => by simp_all [Execution.running], by simp [unsettled],
      by simp [unsettled]⟩
    keeps := fun _ => rfl
    cache := by
      intro key
      rw [if_neg]
      · rfl
      · simp [unsettled]
    inFlight := by
      intro key
      simp only [unreleased, and_true]
      rfl }

theorem advances_settle (found : wrapped.executions[id]? = some execution)
    (finished : execution.outcome.isSome) (released : execution.released)
    (unsettled : execution.settledAt = none) :
    Advances keyOf wrapped (wrapped.settle id execution).tick id execution
      { execution with settledAt := some wrapped.clock } := by
  have stopped : ¬execution.running := by
    rw [Execution.running, Option.isNone_iff_eq_none]
    exact Option.isSome_iff_ne_none.mp finished
  exact {
    found := found
    executions := rfl
    calls := rfl
    clock := rfl
    params := rfl
    unsettled := unsettled
    settles := fun time settled => (Option.some.inj settled).symm
    staged := ⟨fun running => absurd running stopped, fun _ => ⟨stopped, released⟩, by
      rintro time settled
      cases settled
      exact Nat.lt_succ_self _⟩
    keeps := fun released => released
    cache := by
      intro key
      simp only [Option.isSome_some, and_true]
      rfl
    inFlight := by
      intro key
      rw [if_neg]
      · rfl
      · simp [released] }

theorem sound_fresh : Sound keyOf (fresh : Wrapped K R) where
  staged := by simp [fresh]
  called := by simp [fresh]
  placed := by simp [fresh]
  known := by simp [fresh]
  unrejected := by simp [fresh]
  cached := by simp [fresh]
  guarded := by simp [fresh]

/-- Every step keeps everything sound. -/
theorem sound_step {event : Event R} (sound : Sound keyOf wrapped)
    (taken : wrapped.step keyOf event = some next) : Sound keyOf next := by
  cases event with
  | call params =>
    cases taken
    obtain ⟨call, execution, serves⟩ := serves_call sound params
    exact serves.sound sound
  | complete id outcome =>
    simp only [step] at taken
    split at taken
    · next execution found =>
      obtain ⟨running, same⟩ := Option.ite_none_right_eq_some.mp taken
      cases same
      exact (advances_complete sound found running outcome).sound sound
    · contradiction
  | release id =>
    simp only [step] at taken
    split at taken
    · next execution found =>
      obtain ⟨⟨finished, unreleased⟩, same⟩ := Option.ite_none_right_eq_some.mp taken
      cases same
      exact (advances_release sound found finished unreleased).sound sound
    · contradiction
  | settle id =>
    simp only [step] at taken
    split at taken
    · next execution found =>
      obtain ⟨⟨finished, released, unsettled⟩, same⟩ := Option.ite_none_right_eq_some.mp taken
      cases same
      exact (advances_settle found finished released unsettled).sound sound
    · contradiction

/-! ## What follows -/

/-- An execution that has returned has not been rejected. -/
theorem unrejected_of_succeeded (succeeded : wrapped.Succeeded id) : ¬wrapped.Rejected id := by
  obtain ⟨execution, found, ok⟩ := succeeded
  rintro ⟨other, there, failed, _⟩
  obtain rfl := Option.some.inj (found.symm.trans there)
  unfold Execution.failed at failed
  unfold Execution.succeeded at ok
  split at ok
  · next result same =>
    rw [same] at failed
    contradiction
  · contradiction

theorem Sound.shared (sound : Sound keyOf wrapped) {first second : Call}
    (one : first ∈ wrapped.calls) (other : second ∈ wrapped.calls)
    (same : first.params = second.params) (succeeded : wrapped.Succeeded first.execution)
    (also : wrapped.Succeeded second.execution) : first.execution = second.execution := by
  have cached := sound.cached first one (unrejected_of_succeeded succeeded)
  rw [same, sound.cached second other (unrejected_of_succeeded also)] at cached
  exact (Option.some.inj cached).symm

theorem Sound.served (sound : Sound keyOf wrapped) (found : execution ∈ wrapped.executions[id]?)
    (succeeded : execution.succeeded) {call : Call} (member : call ∈ wrapped.calls)
    (same : call.params = execution.params) (also : wrapped.Succeeded call.execution) :
    call.execution = id := by
  obtain ⟨own, among, params, rfl⟩ := sound.called id execution found
  exact sound.shared member among (same.trans params.symm) also ⟨execution, found, succeeded⟩

theorem Sound.runs_once (sound : Sound keyOf wrapped) : RunsOnce keyOf wrapped where
  once := by
    intro first second execution found other there same succeeded also
    obtain ⟨own, among, params, rfl⟩ := sound.called first execution found
    exact sound.served there also among (params.trans same) ⟨execution, found, succeeded⟩
  served := fun _ _ found succeeded _ member same also =>
    sound.served found succeeded member same also
  shared := fun _ one _ other same succeeded also => sound.shared one other same succeeded also
  unrejected := by
    intro call member execution found failed
    obtain ⟨other, there, placed⟩ := sound.placed call member
    obtain rfl := Option.some.inj (found.symm.trans there)
    exact placed.unrejected failed
  alone := by
    intro first second execution found other there running also key named others
    have unreleased := (sound.staged first execution found).guarded running
    have neither := (sound.staged second other there).guarded also
    rw [named] at unreleased
    rw [others] at neither
    have held := (sound.guarded key first).mpr ⟨execution, found, named, unreleased⟩
    rw [(sound.guarded key second).mpr ⟨other, there, others, neither⟩] at held
    exact (Option.some.inj held).symm

theorem Sound.same_resource (sound : Sound keyOf wrapped) : SameResource keyOf wrapped := by
  intro first one second other same differ
  obtain ⟨execution, found, placed⟩ := sound.placed first one
  obtain ⟨also, there, others⟩ := sound.placed second other
  rw [← same] at there
  obtain rfl := Option.some.inj (found.symm.trans there)
  rcases placed.named with own | ⟨key, named, runs⟩
  · rcases others.named with also | ⟨key, named, runs⟩
    · exact absurd (own.trans also.symm) differ
    · exact ⟨key, own ▸ runs, named⟩
  · rcases others.named with own | ⟨also, othersNamed, othersRun⟩
    · exact ⟨key, named, own ▸ runs⟩
    · obtain rfl := Option.some.inj (runs.symm.trans othersRun)
      exact ⟨key, named, othersNamed⟩

theorem Sound.repeats_overlap (sound : Sound keyOf wrapped) : RepeatsOverlap wrapped := by
  intro first one second other same _
  obtain ⟨execution, found, placed⟩ := sound.placed first one
  obtain ⟨also, there, others⟩ := sound.placed second other
  rw [← same] at there
  obtain rfl := Option.some.inj (found.symm.trans there)
  obtain ⟨own, among, repeats, before⟩ := placed.repeats
  obtain ⟨theirs, amongOthers, othersRepeat, othersBefore⟩ := others.repeats
  have settles : wrapped.settledAt own = execution.settledAt := by
    rw [settledAt, repeats.execution, found]
    rfl
  have othersSettle : wrapped.settledAt theirs = execution.settledAt := by
    rw [settledAt, othersRepeat.execution, ← same, found]
    rfl
  refine ⟨own, among, theirs, amongOthers, repeats, othersRepeat, ?_, ?_⟩
  · rw [settles]
    exact othersBefore
  · rw [othersSettle]
    exact before

end Wrapped

/-! ## Every run -/

/-- What `git.init`, `run.start` and `worktree.remove` are guarded by. -/
def worktree (params : Params) : Option String :=
  match params.fields.lookup "worktree" with
  | some (.str value) => some value
  | _ => none

/-- A launch, asked for with a key. -/
def launch (key : String) : Params where
  fields := [("idempotencyKey", .str key), ("worktree", .str "/app")]
  idempotencyKey := key
  keyed := List.mem_cons_self
  distinct := by simp [Json.distinct, Json.distinctFields]

/-- Results of one execution reach calls with different parameters only if these overlapped: not so.
A device joins another one's launch and asks again, with the same key, after both are answered. -/
theorem replay_overlaps_nothing :
    ¬∀ events : List (Event Unit), Runs.Always (Wrapped.step worktree)
      (fun _ _ next => next.ResultsOverlap) Wrapped.fresh events := by
  intro always
  have overlap := Runs.always_run (always [.call (launch "a"), .call (launch "b"),
    .complete 0 (.ok ()), .release 0, .settle 0, .call (launch "b")])
    (by simp [Wrapped.ResultsOverlap, Wrapped.fresh]) rfl
  have both := overlap ⟨launch "a", 0, 0⟩ (.head _) ⟨launch "b", 0, 5⟩ (.tail _ (.tail _ (.head _)))
    rfl (fun same => absurd (congrArg Params.idempotencyKey same) (by decide))
  exact absurd (both.1 4 rfl) (by decide)

/-- Equal parameters are served by one execution that returns, a resource by one at a time, and no
call gets a rejection from before it. Different parameters get one result only for one resource, and
only by calls that overlapped or that repeat such calls. -/
theorem operations_run_once {K R : Type} [DecidableEq K] (keyOf : Params → Option K)
    (events : List (Event R)) :
    Runs.Always (Wrapped.step keyOf)
      (fun _ _ next => next.RunsOnce keyOf ∧ next.SameResource keyOf ∧ next.RepeatsOverlap)
      Wrapped.fresh events :=
  Runs.always_invariant (Wrapped.Sound keyOf) _
    (fun _ _ _ sound taken =>
      have after := Wrapped.sound_step sound taken
      ⟨after, after.runs_once, after.same_resource, after.repeats_overlap⟩)
    events Wrapped.sound_fresh

end Kvy.Cli.Daemon.MachineRpc
