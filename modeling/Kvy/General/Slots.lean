import Mathlib.Data.List.Induction
import Mathlib.Data.List.Pairwise
import Mathlib.Order.Lattice

/-!
# Slots written with rising values

Slots are filled one after the other, and a filled slot may be written again. Where the values
written never fall, the slots end in order exactly when no write leaves a smaller value behind it
that stays: what stands behind a slot that is written again has the same value, or is written
again itself.
-/

namespace Kvy.General.Slots

universe u
variable {τ : Type u}

/-- What one write does. -/
inductive Write (τ : Type u) where
  | keep
  | push (value : τ)
  | put (position : Nat) (value : τ)
deriving DecidableEq

/-- The value that is written. -/
def Write.value? : Write τ → Option τ
  | .keep => none
  | .push value | .put _ value => some value

/-- The slots after one more write. -/
def write (slots : List τ) : Write τ → List τ
  | .keep => slots
  | .push value => slots ++ [value]
  | .put position value => slots.set position value

/-- The slots after all writes. -/
def slotsOf (writes : List (Write τ)) : List τ := writes.foldl write []

/-- No value is smaller than one written before. -/
def Rising [LE τ] (writes : List (Write τ)) : Prop := (writes.filterMap Write.value?).Pairwise (· ≤ ·)

/-- What stands behind a slot when it is written again has the value written, or is written again
later, among these writes or otherwise. -/
def SettledBut (otherwise : Nat → Prop) (writes : List (Write τ)) : Prop :=
  ∀ before position value after, writes = before ++ .put position value :: after →
    ∀ later held, position < later → (slotsOf before)[later]? = some held →
      held = value ∨ otherwise later ∨ ∃ again, .put later again ∈ after

/-- What stands behind a slot when it is written again has the value written, or is written again
later. -/
def Settled (writes : List (Write τ)) : Prop :=
  ∀ before position value after, writes = before ++ .put position value :: after →
    ∀ later held, position < later → (slotsOf before)[later]? = some held →
      held = value ∨ ∃ again, .put later again ∈ after

@[simp] theorem slots_snoc (writes : List (Write τ)) (last : Write τ) :
    slotsOf (writes ++ [last]) = write (slotsOf writes) last := by
  simp [slotsOf]

/-- The slots hold values that were written. -/
theorem mem_slots {writes : List (Write τ)} {value : τ} (held : value ∈ slotsOf writes) :
    value ∈ writes.filterMap Write.value? := by
  induction writes using List.reverseRecOn with
  | nil => exact held
  | append_singleton writes last inductionHypothesis =>
    rw [slots_snoc] at held
    rw [List.filterMap_append, List.mem_append]
    cases last with
    | keep => exact Or.inl (inductionHypothesis held)
    | push pushed =>
      rcases List.mem_append.mp held with before | new
      · exact Or.inl (inductionHypothesis before)
      · exact Or.inr (by simpa [Write.value?] using new)
    | put position put =>
      rcases List.mem_or_eq_of_mem_set held with before | new
      · exact Or.inl (inductionHypothesis before)
      · exact Or.inr (by simp [Write.value?, new])

/-- The last write, where it is a slot that is written again, settles like the others. -/
theorem settled_snoc (otherwise : Nat → Prop) (writes : List (Write τ)) (last : Write τ) :
    SettledBut otherwise (writes ++ [last]) ↔
      SettledBut (fun slot => otherwise slot ∨ ∃ value, last = .put slot value) writes ∧
        ∀ position value, last = .put position value → ∀ later held, position < later →
          (slotsOf writes)[later]? = some held → held = value ∨ otherwise later := by
  constructor
  · intro settled
    refine ⟨?_, ?_⟩
    · rintro before position value after rfl later held behind found
      have split : before ++ .put position value :: after ++ [last] =
          before ++ .put position value :: (after ++ [last]) := by simp
      rcases settled before position value (after ++ [last]) split later held behind found with
        same | rewritten | ⟨again, member⟩
      · exact Or.inl same
      · exact Or.inr (Or.inl (Or.inl rewritten))
      · rcases List.mem_append.mp member with inside | isLast
        · exact Or.inr (Or.inr ⟨again, inside⟩)
        · exact Or.inr (Or.inl (Or.inr ⟨again, (List.mem_singleton.mp isLast).symm⟩))
    · rintro position value rfl later held behind found
      rcases settled writes position value [] rfl later held behind found with
        same | rewritten | ⟨again, member⟩
      · exact Or.inl same
      · exact Or.inr rewritten
      · exact absurd member List.not_mem_nil
  · rintro ⟨settled, lastSettled⟩ before position value after split later held behind found
    rcases List.eq_nil_or_concat after with rfl | ⟨rest, final, rfl⟩
    · obtain ⟨rfl, same⟩ := List.append_inj' split rfl
      rcases lastSettled position value (List.singleton_inj.mp same) later held behind found with
        same | rewritten
      · exact Or.inl same
      · exact Or.inr (Or.inl rewritten)
    · rw [List.concat_eq_append, ← List.cons_append, ← List.append_assoc] at split
      obtain ⟨rfl, same⟩ := List.append_inj' split rfl
      obtain rfl := List.singleton_inj.mp same
      rw [List.concat_eq_append]
      rcases settled before position value rest rfl later held behind found with
        same | (rewritten | ⟨again, isLast⟩) | ⟨again, member⟩
      · exact Or.inl same
      · exact Or.inr (Or.inl rewritten)
      · exact Or.inr (Or.inr ⟨again, by simp [isLast]⟩)
      · exact Or.inr (Or.inr ⟨again, List.mem_append_left _ member⟩)

variable [LinearOrder τ]

/-- The slots are in order, apart from later ones that are written otherwise. -/
def SortedBut (otherwise : Nat → Prop) (slots : List τ) : Prop :=
  ∀ (first second : Nat) (small large : τ), first < second → ¬ otherwise second →
    slots[first]? = some small → slots[second]? = some large → small ≤ large

/-- A value at the end that is no smaller than the others. -/
theorem sorted_push (otherwise : Nat → Prop) {slots : List τ} {value : τ}
    (greatest : ∀ held ∈ slots, held ≤ value) :
    SortedBut otherwise (slots ++ [value]) ↔ SortedBut otherwise slots := by
  constructor
  · intro sorted first second small large before stays firstFound secondFound
    have inside := (List.getElem?_eq_some_iff.mp secondFound).1
    have firstInside := (List.getElem?_eq_some_iff.mp firstFound).1
    apply sorted first second small large before stays
    · rwa [List.getElem?_append_left firstInside]
    · rwa [List.getElem?_append_left inside]
  · intro sorted first second small large before stays firstFound secondFound
    by_cases inside : second < slots.length
    · rw [List.getElem?_append_left inside] at secondFound
      rw [List.getElem?_append_left (Nat.lt_trans before inside)] at firstFound
      exact sorted first second small large before stays firstFound secondFound
    · have bound := (List.getElem?_eq_some_iff.mp secondFound).1
      have position : second = slots.length := by
        rw [List.length_append, List.length_singleton] at bound
        omega
      subst position
      have last : large = value := by simpa using secondFound.symm
      rw [List.getElem?_append_left before] at firstFound
      exact last ▸ greatest small (List.mem_of_getElem? firstFound)

/-- A slot that gets a value no smaller than the others: what stands behind it has that value, or is
written otherwise. -/
theorem sorted_put (otherwise : Nat → Prop) {slots : List τ} {position : Nat} {value : τ}
    (greatest : ∀ held ∈ slots, held ≤ value) :
    SortedBut otherwise (slots.set position value) ↔
      SortedBut (fun slot => otherwise slot ∨ slot = position) slots ∧
        ∀ later held, position < later → slots[later]? = some held → held = value ∨ otherwise later := by
  constructor
  · intro sorted
    refine ⟨?_, ?_⟩
    · intro first second small large before stays firstFound secondFound
      obtain ⟨kept, apart⟩ := not_or.mp stays
      have secondStays : (slots.set position value)[second]? = some large := by
        rwa [List.getElem?_set_ne (Ne.symm apart)]
      by_cases here : first = position
      · subst here
        have bound := (List.getElem?_eq_some_iff.mp firstFound).1
        have smallest := greatest small (List.mem_of_getElem? firstFound)
        exact le_trans smallest (sorted first second value large before kept
          (List.getElem?_set_self bound) secondStays)
      · refine sorted first second small large before kept ?_ secondStays
        rwa [List.getElem?_set_ne (Ne.symm here)]
    · intro later held behind found
      by_cases kept : otherwise later
      · exact Or.inr kept
      · left
        have bound : position < slots.length :=
          Nat.lt_trans behind (List.getElem?_eq_some_iff.mp found).1
        have ordered := sorted position later value held behind kept
          (List.getElem?_set_self bound)
          (by rwa [List.getElem?_set_ne (Nat.ne_of_lt behind)])
        exact le_antisymm (greatest held (List.mem_of_getElem? found)) ordered
  · rintro ⟨sorted, settled⟩ first second small large before stays firstFound secondFound
    by_cases there : second = position
    · subst there
      have last : large = value := by
        have bound : second < slots.length := by
          have inside := (List.getElem?_eq_some_iff.mp secondFound).1
          rwa [List.length_set] at inside
        rw [List.getElem?_set_self bound] at secondFound
        exact (Option.some.inj secondFound).symm
      rw [List.getElem?_set_ne (Nat.ne_of_gt before)] at firstFound
      exact last ▸ greatest small (List.mem_of_getElem? firstFound)
    · rw [List.getElem?_set_ne (Ne.symm there)] at secondFound
      by_cases here : first = position
      · subst here
        have new : small = value := by
          have bound : first < slots.length := by
            have inside := (List.getElem?_eq_some_iff.mp firstFound).1
            rwa [List.length_set] at inside
          rw [List.getElem?_set_self bound] at firstFound
          exact (Option.some.inj firstFound).symm
        rcases settled second large before secondFound with same | rewritten
        · exact le_of_eq (new.trans same.symm)
        · exact absurd rewritten stays
      · rw [List.getElem?_set_ne (Ne.symm here)] at firstFound
        exact sorted first second small large before (not_or.mpr ⟨stays, there⟩) firstFound
          secondFound

/-- One write after the others. The induction carries the slots that later writes will overwrite. -/
theorem sorted_but_iff (otherwise : Nat → Prop) {writes : List (Write τ)} (rising : Rising writes) :
    SortedBut otherwise (slotsOf writes) ↔ SettledBut otherwise writes := by
  induction writes using List.reverseRecOn generalizing otherwise with
  | nil => simp [SortedBut, SettledBut, slotsOf]
  | append_singleton writes last inductionHypothesis =>
    rw [Rising, List.filterMap_append, List.pairwise_append] at rising
    obtain ⟨before, _, below⟩ := rising
    have greatest : ∀ value, last.value? = some value → ∀ held ∈ slotsOf writes, held ≤ value := by
      intro value written held member
      exact below held (mem_slots member) value (by simp [written])
    rw [settled_snoc, ← inductionHypothesis _ before, slots_snoc]
    cases last with
    | keep => simp [write]
    | push value => simp [write, sorted_push otherwise (greatest value rfl)]
    | put position value =>
      rw [write, sorted_put otherwise (greatest value rfl)]
      have rewritten : (fun slot => otherwise slot ∨ ∃ held, Write.put position value = .put slot held) =
          fun slot => otherwise slot ∨ slot = position := by
        funext slot
        simp [eq_comm]
      rw [rewritten]
      apply and_congr_right
      intro _
      constructor
      · rintro settled _ _ ⟨⟩
        exact settled
      · intro settled
        exact settled position value rfl

/-- The slots end in order exactly when every slot that is written again settles. -/
theorem sorted_iff {writes : List (Write τ)} (rising : Rising writes) :
    (slotsOf writes).Pairwise (· ≤ ·) ↔ Settled writes := by
  have settled : Settled writes ↔ SettledBut (fun _ => False) writes := by
    simp [Settled, SettledBut]
  rw [settled, ← sorted_but_iff _ rising, List.pairwise_iff_getElem]
  constructor
  · intro sorted first second small large before _ firstFound secondFound
    obtain ⟨firstInside, rfl⟩ := List.getElem?_eq_some_iff.mp firstFound
    obtain ⟨secondInside, rfl⟩ := List.getElem?_eq_some_iff.mp secondFound
    exact sorted first second firstInside secondInside before
  · intro sorted first second firstInside secondInside before
    exact sorted first second _ _ before id (List.getElem?_eq_getElem firstInside)
      (List.getElem?_eq_getElem secondInside)

end Kvy.General.Slots
