import Mathlib.Data.List.Nodup
import Mathlib.Data.List.Zip

/-!
# Takers that claim items in turn

Each taker wants items of one key, or none. In turn each claims the first item of its key
that nobody has claimed before. Key by key the takers are then paired with the items in
their order, the first taker with the first item, and no item is claimed twice.
-/

namespace Kvy.General

universe u v w x
variable {τ : Type u} {ι : Type v} {κ : Type w} {δ : Type x} [DecidableEq κ] [DecidableEq δ]
variable (wants : τ → Option κ) (key : ι → κ) (ident : ι → δ)

/-- The first item of a key that is not claimed. -/
def firstUnclaimed (items : List ι) (claimed : List δ) (wanted : κ) : Option ι :=
  items.find? (fun item => ident item ∉ claimed ∧ key item = wanted)

/-- The takers with what they claim, where some items are claimed already. -/
def claims (items : List ι) : List δ → List τ → List (τ × Option ι)
  | _, [] => []
  | claimed, taker :: rest =>
    match (wants taker).bind (firstUnclaimed key ident items claimed) with
    | some item => (taker, some item) :: claims items (ident item :: claimed) rest
    | none => (taker, none) :: claims items claimed rest

/-- Takers and items in their order; takers beyond the last item get none. -/
def pairUp : List τ → List ι → List (τ × Option ι)
  | [], _ => []
  | takers, [] => takers.map (fun taker => (taker, none))
  | taker :: takers, item :: items => (taker, some item) :: pairUp takers items

theorem pairUp_nil (takers : List τ) :
    pairUp takers ([] : List ι) = takers.map (fun taker => (taker, none)) := by
  cases takers <;> rfl

/-- Every taker is paired up, with an item or with none. -/
theorem pairUp_takers (takers : List τ) (items : List ι) :
    (pairUp takers items).map Prod.fst = takers := by
  induction takers generalizing items with
  | nil => rfl
  | cons first takers inductionHypothesis =>
    cases items with
    | nil => simp [pairUp, Function.comp_def]
    | cons item items => rw [pairUp, List.map_cons, inductionHypothesis]

variable {item : ι} {items : List ι} {taker : τ} {takers : List τ}

/-- A taker that gets an item stands opposite to it. -/
theorem mem_zip_of_pairUp
    (member : (taker, some item) ∈ pairUp takers items) : (taker, item) ∈ takers.zip items := by
  induction takers generalizing items with
  | nil => contradiction
  | cons first takers inductionHypothesis =>
    cases items with
    | nil => simp [pairUp_nil] at member
    | cons opposite items =>
      rcases List.mem_cons.mp member with now | later
      · obtain ⟨rfl, rfl⟩ := by simpa using now
        exact List.mem_cons_self
      · exact List.mem_cons_of_mem _ (inductionHypothesis later)

/-- A taker that gets no item stands opposite to none. -/
theorem not_mem_zip_of_pairUp
    (distinct : takers.Nodup) (member : (taker, none) ∈ pairUp takers items) :
    taker ∉ (takers.zip items).map Prod.fst := by
  induction takers generalizing items with
  | nil => contradiction
  | cons first takers inductionHypothesis =>
    cases items with
    | nil => simp
    | cons opposite items =>
      have later : (taker, none) ∈ pairUp takers items := by simpa [pairUp] using member
      have held : taker ∈ takers := pairUp_takers takers items ▸ List.mem_map_of_mem later
      have apart : taker ≠ first := fun same => (List.nodup_cons.mp distinct).1 (same ▸ held)
      simp only [List.zip_cons_cons, List.map_cons, List.mem_cons, apart, false_or]
      exact inductionHypothesis (List.nodup_cons.mp distinct).2 later

variable {wants key ident}

variable {claimed : List δ} {wanted : κ}

/-- What is claimed is an item of the wanted key that nobody has claimed before. -/
theorem firstUnclaimed_some (found : firstUnclaimed key ident items claimed wanted = some item) :
    item ∈ items ∧ ident item ∉ claimed ∧ key item = wanted := by
  have passes := List.find?_some found
  exact ⟨List.mem_of_find?_eq_some found, by simpa using passes⟩

/-- A claimed item is one of the items, has the wanted key and was not claimed before. -/
theorem claimed_item (member : (taker, some item) ∈ claims wants key ident items claimed takers) :
    item ∈ items ∧ ident item ∉ claimed ∧ wants taker = some (key item) := by
  induction takers generalizing claimed with
  | nil => contradiction
  | cons first takers inductionHypothesis =>
    rw [claims] at member
    cases found : (wants first).bind (firstUnclaimed key ident items claimed) with
    | none =>
      rw [found] at member
      exact inductionHypothesis (by simpa using member)
    | some got =>
      rw [found] at member
      rcases List.mem_cons.mp member with now | later
      · obtain ⟨rfl, rfl⟩ := by simpa using now
        obtain ⟨wanted, wish, first⟩ := Option.bind_eq_some_iff.mp found
        obtain ⟨held, free, ofKey⟩ := firstUnclaimed_some first
        exact ⟨held, free, ofKey ▸ wish⟩
      · obtain ⟨held, free, wish⟩ := inductionHypothesis later
        exact ⟨held, fun old => free (List.mem_cons_of_mem _ old), wish⟩

/-- No item is claimed twice. -/
theorem claimed_once {other : τ}
    {again : ι} (first : (taker, some item) ∈ claims wants key ident items claimed takers)
    (second : (other, some again) ∈ claims wants key ident items claimed takers)
    (same : ident item = ident again) : taker = other := by
  induction takers generalizing claimed with
  | nil => contradiction
  | cons head takers inductionHypothesis =>
    rw [claims] at first second
    cases found : (wants head).bind (firstUnclaimed key ident items claimed) with
    | none =>
      rw [found] at first second
      exact inductionHypothesis (by simpa using first) (by simpa using second)
    | some got =>
      rw [found] at first second
      rcases List.mem_cons.mp first with now | later <;>
        rcases List.mem_cons.mp second with nowToo | laterToo
      · exact (Prod.ext_iff.mp now).1.trans (Prod.ext_iff.mp nowToo).1.symm
      · -- the head's item is claimed when the later taker comes
        obtain ⟨-, free, -⟩ := claimed_item laterToo
        obtain ⟨rfl, rfl⟩ := by simpa using now
        exact absurd (same ▸ List.mem_cons_self) free
      · obtain ⟨-, free, -⟩ := claimed_item later
        obtain ⟨rfl, rfl⟩ := by simpa using nowToo
        exact absurd (same ▸ List.mem_cons_self) free
      · exact inductionHypothesis later laterToo

/-- The items of a key that are not claimed. -/
def unclaimed (key : ι → κ) (ident : ι → δ) (items : List ι) (claimed : List δ) (wanted : κ) :
    List ι :=
  items.filter (fun item => ident item ∉ claimed ∧ key item = wanted)

theorem firstUnclaimed_head (items : List ι) (claimed : List δ) (wanted : κ) :
    firstUnclaimed key ident items claimed wanted =
      (unclaimed key ident items claimed wanted).head? :=
  (List.head?_filter).symm

/-- Claiming the first item of a key leaves the others of the key. -/
theorem unclaimed_claim (distinct : (items.map ident).Nodup)
        (found : firstUnclaimed key ident items claimed wanted = some item) :
    unclaimed key ident items (ident item :: claimed) wanted =
      (unclaimed key ident items claimed wanted).tail := by
  unfold unclaimed firstUnclaimed at *
  induction items with
  | nil => rfl
  | cons head items inductionHypothesis =>
    obtain ⟨fresh, rest⟩ := List.nodup_cons.mp distinct
    by_cases takes : ident head ∉ claimed ∧ key head = wanted
    · obtain rfl : head = item := by simpa [takes] using found
      have untouched : items.filter (fun other => ident other ∉ ident head :: claimed ∧
          key other = wanted) = items.filter (fun other => ident other ∉ claimed ∧
          key other = wanted) := by
        apply List.filter_congr
        intro other member
        have apart : ident other ≠ ident head := fun same =>
          fresh (same ▸ List.mem_map_of_mem member)
        simp [apart]
      rw [List.filter_cons_of_neg (by simp), List.filter_cons_of_pos (by simpa using takes),
        untouched, List.tail_cons]
    · have later : items.find? (fun item => ident item ∉ claimed ∧ key item = wanted) =
          some item := by simpa [takes] using found
      have passed : ¬ (ident head ∉ ident item :: claimed ∧ key head = wanted) := by
        rintro ⟨free, ofKey⟩
        exact takes ⟨fun old => free (List.mem_cons_of_mem _ old), ofKey⟩
      rw [List.filter_cons_of_neg (by simpa using passed),
        List.filter_cons_of_neg (by simpa using takes)]
      exact inductionHypothesis rest later

/-- Claiming an item of one key leaves those of another. -/
theorem unclaimed_other (distinct : (items.map ident).Nodup)
    (held : item ∈ items) (apart : key item ≠ wanted) :
    unclaimed key ident items (ident item :: claimed) wanted =
      unclaimed key ident items claimed wanted := by
  apply List.filter_congr
  intro other member
  by_cases same : ident other = ident item
  · obtain rfl := List.inj_on_of_nodup_map distinct member held same
    simp [apart]
  · simp [same]

/-- Key by key, takers and unclaimed items are paired in their order. -/
theorem claims_of_key (distinct : (items.map ident).Nodup) (claimed : List δ)
    (takers : List τ) (wanted : κ) :
    (claims wants key ident items claimed takers).filter (fun pair => wants pair.1 = some wanted) =
      pairUp (takers.filter (fun taker => wants taker = some wanted))
        (unclaimed key ident items claimed wanted) := by
  induction takers generalizing claimed with
  | nil => rfl
  | cons taker takers inductionHypothesis =>
    rw [claims]
    by_cases wish : wants taker = some wanted
    · rw [List.filter_cons_of_pos (by simpa using wish), wish, Option.bind_some]
      cases found : firstUnclaimed key ident items claimed wanted with
      | none =>
        have gone : unclaimed key ident items claimed wanted = [] := by
          simpa [firstUnclaimed_head] using found
        simp [wish, inductionHypothesis, gone, pairUp_nil]
      | some item =>
        rw [List.filter_cons_of_pos (by simpa using wish), inductionHypothesis,
          unclaimed_claim distinct found]
        have head : (unclaimed key ident items claimed wanted).head? = some item := by
          rw [← firstUnclaimed_head, found]
        cases left : unclaimed key ident items claimed wanted with
        | nil => simp [left] at head
        | cons front others =>
          obtain rfl : front = item := by simpa [left] using head
          rfl
    · rw [List.filter_cons_of_neg (by simpa using wish)]
      cases found : (wants taker).bind (firstUnclaimed key ident items claimed) with
      | none => simp [wish, inductionHypothesis]
      | some item =>
        obtain ⟨other, wishes, first⟩ := Option.bind_eq_some_iff.mp found
        obtain ⟨held, -, ofKey⟩ := firstUnclaimed_some first
        have apart : key item ≠ wanted := fun same => wish (by rw [wishes, ← ofKey, same])
        simp [wish, inductionHypothesis, unclaimed_other distinct held apart]

/-- A taker that claims an item stands opposite to it among those of its key. -/
theorem claimed_opposite (distinct : (items.map ident).Nodup) (wish : wants taker = some wanted)
    (member : (taker, some item) ∈ claims wants key ident items [] takers) :
    (taker, item) ∈ (takers.filter (fun taker => wants taker = some wanted)).zip
      (items.filter (fun item => key item = wanted)) := by
  have among : _ ∈ (claims wants key ident items [] takers).filter
      (fun pair => wants pair.1 = some wanted) :=
    List.mem_filter.mpr ⟨member, decide_eq_true wish⟩
  rw [claims_of_key distinct] at among
  simpa [unclaimed] using mem_zip_of_pairUp among

/-- A taker that wants a key and claims nothing stands opposite to no item of it. -/
theorem unclaimed_opposite (distinct : (items.map ident).Nodup)
    (apart : takers.Nodup)     (wish : wants taker = some wanted)
    (member : (taker, none) ∈ claims wants key ident items [] takers) :
    taker ∉ ((takers.filter (fun taker => wants taker = some wanted)).zip
      (items.filter (fun item => key item = wanted))).map Prod.fst := by
  have among : _ ∈ (claims wants key ident items [] takers).filter
      (fun pair => wants pair.1 = some wanted) :=
    List.mem_filter.mpr ⟨member, decide_eq_true wish⟩
  rw [claims_of_key distinct] at among
  simpa [unclaimed] using not_mem_zip_of_pairUp (apart.filter _) among

end Kvy.General
