import Kvy.General.FirstOccurrence
import Kvy.Web.Sync.Reducer.Reduce

/-!
# Fetching again and in another order

The reducer reads its input only through the envelopes kept by id and sorted by time. Lists
that give every id the same content reduce alike when envelopes of one time first occur in the
same order, whatever is repeated and wherever the repetitions arrive.
-/

namespace Kvy.Web.Sync

open General Wire

/-- Dropping repeated ids keeps the first envelope with each id. -/
theorem dedupe_keepFirst (envelopes : List SessionEnvelope) :
    dedupeById envelopes = keepFirst SessionEnvelope.id envelopes := by
  have run (rest : List SessionEnvelope) (seen : List String) (out : List SessionEnvelope)
      (known : ∀ id, id ∈ seen ↔ id ∈ out.map SessionEnvelope.id) :
      (rest.foldl (fun state env =>
        if env.id ∈ state.1 then state else (env.id :: state.1, state.2 ++ [env])) (seen, out)).2 =
        rest.foldl (keepNew SessionEnvelope.id) out := by
    induction rest generalizing seen out with
    | nil => rfl
    | cons env rest inductionHypothesis =>
      simp only [List.foldl_cons]
      by_cases held : env.id ∈ seen
      · rw [if_pos held, keepNew_known ((known env.id).mp held)]
        exact inductionHypothesis seen out known
      · rw [if_neg held, keepNew_unknown (fun kept => held ((known env.id).mpr kept))]
        apply inductionHypothesis
        intro id
        simp [known id, or_comm]
  exact run envelopes [] [] (by simp)

/-- The reducer works on the envelopes kept by id and sorted by time. -/
theorem reduce_kept (envelopes : List SessionEnvelope) :
    reduceEnvelopes envelopes =
      reduceSorted (sortBy (fun env => env.time.toRat) (keepFirst SessionEnvelope.id envelopes)) := by
  rw [reduceEnvelopes, dedupe_keepFirst, stableSortByTime, sort_indexed]

/-- Both lists hold the same ids, and wherever an id occurs it has the same content. -/
structure SameContent (first second : List SessionEnvelope) : Prop where
  ids : ∀ id, id ∈ first.map SessionEnvelope.id ↔ id ∈ second.map SessionEnvelope.id
  content : ∀ env ∈ first, ∀ other ∈ second, env.id = other.id → env = other

/-- Envelopes of one time first occur in the same order in both lists. -/
def SameTimeOrder (first second : List SessionEnvelope) : Prop :=
  ∀ env ∈ first, ∀ other ∈ first, env.time.toRat = other.time.toRat →
    (firstAt SessionEnvelope.id first env.id < firstAt SessionEnvelope.id first other.id ↔
      firstAt SessionEnvelope.id second env.id < firstAt SessionEnvelope.id second other.id)

/-- Lists with the same content keep the same envelopes. -/
theorem SameContent.mem_kept {first second : List SessionEnvelope}
    (same : SameContent first second) (env : SessionEnvelope) :
    env ∈ keepFirst SessionEnvelope.id first ↔ env ∈ keepFirst SessionEnvelope.id second := by
  constructor
  · intro kept
    have held : env.id ∈ (keepFirst SessionEnvelope.id second).map SessionEnvelope.id :=
      mem_keepFirst_keys.mpr ((same.ids env.id).mp
        (List.mem_map_of_mem (mem_of_mem_keepFirst kept)))
    obtain ⟨other, otherKept, sameId⟩ := List.mem_map.mp held
    rwa [same.content env (mem_of_mem_keepFirst kept) other (mem_of_mem_keepFirst otherKept)
      sameId.symm]
  · intro kept
    have held : env.id ∈ (keepFirst SessionEnvelope.id first).map SessionEnvelope.id :=
      mem_keepFirst_keys.mpr ((same.ids env.id).mpr
        (List.mem_map_of_mem (mem_of_mem_keepFirst kept)))
    obtain ⟨other, otherKept, sameId⟩ := List.mem_map.mp held
    rwa [← same.content other (mem_of_mem_keepFirst otherKept) env (mem_of_mem_keepFirst kept)
      sameId]

/-- Lists with the same content and the same order of equal times sort alike. -/
theorem sort_kept_eq {first second : List SessionEnvelope} (same : SameContent first second)
    (order : SameTimeOrder first second) :
    sortBy (fun env => env.time.toRat) (keepFirst SessionEnvelope.id first) =
      sortBy (fun env => env.time.toRat) (keepFirst SessionEnvelope.id second) := by
  rw [sort_eq_iff]
  intro time
  apply keepFirst_filter_eq
  · intro env _
    exact same.mem_kept env
  · intro env member atTime other otherMember otherAtTime before
    have times : env.time.toRat = other.time.toRat :=
      (of_decide_eq_true atTime).trans (of_decide_eq_true otherAtTime).symm
    exact (order env member other otherMember times).mpr before

/-- The transcript does not depend on repetitions or on the order of arrival. -/
theorem refetch_reorder_insensitive :
    (∀ first second : List SessionEnvelope, SameContent first second →
      SameTimeOrder first second → reduceEnvelopes first = reduceEnvelopes second) ∧
    (∀ envelopes again : List SessionEnvelope, (∀ env ∈ again, env ∈ envelopes) →
      reduceEnvelopes (envelopes ++ again) = reduceEnvelopes envelopes) := by
  constructor
  · intro first second same order
    rw [reduce_kept, reduce_kept, sort_kept_eq same order]
  · intro envelopes again known
    rw [reduce_kept, reduce_kept, keepFirst_append_known]
    intro env member
    exact List.mem_map_of_mem (known env member)

/-- A service note. -/
def noteEnvelope (id : String) (time : Int) : SessionEnvelope :=
  { id, time := Decimal.ofInt time, role := .agent, turn := none, subagent := none
    ev := .service id }

/-- Three notes, and the same notes with the last two first and one repeated. -/
theorem notes_reordered :
    SameContent [noteEnvelope "a" 1, noteEnvelope "b" 2, noteEnvelope "c" 2]
      [noteEnvelope "b" 2, noteEnvelope "c" 2, noteEnvelope "b" 2, noteEnvelope "a" 1] ∧
    reduceEnvelopes [noteEnvelope "a" 1, noteEnvelope "b" 2, noteEnvelope "c" 2] =
      reduceEnvelopes [noteEnvelope "b" 2, noteEnvelope "c" 2, noteEnvelope "b" 2,
        noteEnvelope "a" 1] := by
  have same : SameContent [noteEnvelope "a" 1, noteEnvelope "b" 2, noteEnvelope "c" 2]
      [noteEnvelope "b" 2, noteEnvelope "c" 2, noteEnvelope "b" 2, noteEnvelope "a" 1] := by
    constructor
    · intro id
      simp only [List.map_cons, List.map_nil, List.mem_cons, List.not_mem_nil, noteEnvelope]
      tauto
    · simp [noteEnvelope]
  refine ⟨same, refetch_reorder_insensitive.1 _ _ same ?_⟩
  unfold SameTimeOrder
  decide +kernel

end Kvy.Web.Sync
