import Mathlib.Data.List.Count
import Mathlib.Data.List.Induction
import Mathlib.Data.List.Nodup
import Mathlib.Data.List.TakeDrop

/-!
# Bracketed spans

A stream marks the start and the stop of spans and what lies within them. It is bracketed
when every span starts once and stops at most once, what lies within a span lies between
its start and its stop, and no two spans are open together. A reader that remembers the
spans seen and the open one accepts only bracketed streams.
-/

namespace Kvy.General.Brackets

universe u
variable {τ : Type u} [DecidableEq τ]

/-- One entry of a stream. -/
inductive Mark (τ : Type u) where
  | start (span : τ)
  | stop (span : τ)
  | within (span : τ)
  | free
deriving DecidableEq

/-- The span an entry belongs to. -/
def Mark.span? : Mark τ → Option τ
  | .start span | .stop span | .within span => some span
  | .free => none

/-- The span has started and has not stopped. -/
def OpenIn (marks : List (Mark τ)) (span : τ) : Prop :=
  .start span ∈ marks ∧ .stop span ∉ marks

/-- Spans start once, stop at most once, hold what belongs to them and do not overlap. -/
structure Bracketed (marks : List (Mark τ)) : Prop where
  one_start : ∀ (index : Nat) (mark : Mark τ) (span : τ), marks[index]? = some mark → mark.span? = some span →
    marks.count (.start span) = 1
  one_stop : ∀ span, marks.count (.stop span) ≤ 1
  between : ∀ (index : Nat) (mark : Mark τ) (span : τ), marks[index]? = some mark → mark.span? = some span →
    .start span ∈ marks.take (index + 1) ∧ .stop span ∉ marks.take index
  one_open : ∀ (length : Nat) (first second : τ), OpenIn (marks.take length) first →
    OpenIn (marks.take length) second → first = second

variable {mark : Mark τ} {span : τ}

/-- Nothing of a span stands behind its stop. -/
theorem Bracketed.after_stop {before after : List (Mark τ)}
    (bracketed : Bracketed (before ++ .stop span :: after)) (member : mark ∈ after) :
    mark.span? ≠ some span := by
  intro held
  obtain ⟨offset, stands⟩ := List.mem_iff_getElem?.mp member
  have entry : (before ++ .stop span :: after)[before.length + (offset + 1)]? = some mark := by
    rw [List.getElem?_append_right (Nat.le_add_right _ _), Nat.add_sub_cancel_left,
      List.getElem?_cons_succ, stands]
  have unstopped := (bracketed.between _ mark span entry held).2
  rw [List.take_length_add_append, List.take_succ_cons] at unstopped
  exact unstopped (List.mem_append_right _ List.mem_cons_self)

/-- Nothing of a span stands in front of its start. -/
theorem Bracketed.before_start {first second : List (Mark τ)}
    (bracketed : Bracketed (first ++ second)) (starts : .start span ∈ second)
    (member : mark ∈ first) : mark.span? ≠ some span := by
  intro held
  obtain ⟨index, stands⟩ := List.mem_iff_getElem?.mp member
  have bound := (List.getElem?_eq_some_iff.mp stands).1
  have entry : (first ++ second)[index]? = some mark := by
    rw [List.getElem?_append_left bound, stands]
  have early := (bracketed.between index mark span entry held).1
  rw [List.take_append_of_le_length bound] at early
  have once := bracketed.one_start index mark span entry held
  rw [List.count_append] at once
  have one := List.count_pos_iff.mpr (List.mem_of_mem_take early)
  have two := List.count_pos_iff.mpr starts
  omega

/-- What a reader remembers: the spans that have started and the open one. -/
structure Reader (τ : Type u) where
  seen : List τ
  current : Option τ

/-- Read one entry, if it fits. -/
def follow (reader : Reader τ) : Mark τ → Option (Reader τ)
  | .free => some reader
  | .start span =>
    if reader.current = none ∧ span ∉ reader.seen then some ⟨span :: reader.seen, some span⟩ else none
  | .within span => if reader.current = some span then some reader else none
  | .stop span => if reader.current = some span then some { reader with current := none } else none

/-- Read a stream. -/
def followAll (reader : Reader τ) (marks : List (Mark τ)) : Option (Reader τ) :=
  marks.foldlM follow reader

@[simp] theorem follow_all_nil (reader : Reader τ) : followAll reader [] = some reader := rfl

@[simp] theorem follow_all_cons (reader : Reader τ) (mark : Mark τ) (rest : List (Mark τ)) :
    followAll reader (mark :: rest) = (follow reader mark).bind (followAll · rest) := rfl

/-- Reading a stream in two parts. -/
theorem follow_all_append (reader : Reader τ) (first second : List (Mark τ)) :
    followAll reader (first ++ second) = (followAll reader first).bind (followAll · second) := by
  simp only [followAll, List.foldlM_append]
  rfl

/-- A reader's memory matches the bracketed stream it has read. -/
structure Remembers (marks : List (Mark τ)) (reader : Reader τ) : Prop where
  seen_iff : ∀ span, span ∈ reader.seen ↔ .start span ∈ marks
  current_iff : ∀ span, reader.current = some span ↔ OpenIn marks span
  bracketed : Bracketed marks

theorem remembers_nothing : Remembers ([] : List (Mark τ)) ⟨[], none⟩ where
  seen_iff := by simp
  current_iff := by simp [OpenIn]
  bracketed := ⟨by simp, by simp, by simp, by simp [OpenIn]⟩

variable {marks : List (Mark τ)}

/-- A stream stays bracketed under an entry that belongs to no span, to the open span, or
starts a span not seen before while none is open. -/
theorem Bracketed.snoc (bracketed : Bracketed marks)
    (fresh : ∀ span, mark = .start span → .start span ∉ marks)
    (inside : ∀ span, mark.span? = some span → mark ≠ .start span → OpenIn marks span)
    (single : ∀ first second, OpenIn (marks ++ [mark]) first → OpenIn (marks ++ [mark]) second →
      first = second) : Bracketed (marks ++ [mark]) := by
  have started (span : τ) (held : mark.span? = some span) : (marks ++ [mark]).count (.start span) = 1 := by
    by_cases starts : mark = .start span
    · have absent : marks.count (.start span) = 0 := List.count_eq_zero.mpr (fresh span starts)
      simp [List.count_append, absent, starts]
    · obtain ⟨member, _⟩ := inside span held starts
      obtain ⟨index, entry⟩ := List.mem_iff_getElem?.mp member
      have once := bracketed.one_start index _ span entry rfl
      simp [List.count_append, once, starts]
  have unstopped (span : τ) (held : mark.span? = some span) : .stop span ∉ marks := by
    by_cases starts : mark = .start span
    · intro stopped
      obtain ⟨index, entry⟩ := List.mem_iff_getElem?.mp stopped
      have once := bracketed.one_start index _ span entry rfl
      exact absurd (List.count_pos_iff.mp (by omega)) (fresh span starts)
    · exact (inside span held starts).2
  have split (index : Nat) (held : Mark τ) (entry : (marks ++ [mark])[index]? = some held) :
      marks[index]? = some held ∨ (index = marks.length ∧ held = mark) := by
    rw [List.getElem?_append] at entry
    split at entry
    · exact Or.inl entry
    · have position : index = marks.length := by
        have bound := (List.getElem?_eq_some_iff.mp entry).1
        simp only [List.length_singleton] at bound
        omega
      subst position
      simp only [Nat.sub_self, List.getElem?_cons_zero, Option.some.injEq] at entry
      exact Or.inr ⟨rfl, entry.symm⟩
  constructor
  · intro index held span entry belongs
    obtain before | ⟨_, rfl⟩ := split index held entry
    · have once := bracketed.one_start index held span before belongs
      have other : mark ≠ .start span := by
        intro starts
        exact fresh span starts (List.count_pos_iff.mp (by omega))
      simp [List.count_append, once, other]
    · exact started span belongs
  · intro span
    by_cases stops : mark = .stop span
    · have absent : marks.count (.stop span) = 0 :=
        List.count_eq_zero.mpr (unstopped span (by rw [stops]; rfl))
      simp [List.count_append, absent, stops]
    · simp [List.count_append, stops, bracketed.one_stop span]
  · intro index held span entry belongs
    obtain before | ⟨rfl, rfl⟩ := split index held entry
    · have bound := (List.getElem?_eq_some_iff.mp before).1
      obtain ⟨after, unclosed⟩ := bracketed.between index held span before belongs
      rw [List.take_append_of_le_length (by omega), List.take_append_of_le_length (by omega)]
      exact ⟨after, unclosed⟩
    · rw [List.take_of_length_le (by simp), List.take_append_of_le_length (Nat.le_refl _),
        List.take_length]
      refine ⟨?_, unstopped span belongs⟩
      have once := started span belongs
      exact List.count_pos_iff.mp (by omega)
  · intro length first second firstOpen secondOpen
    by_cases short : length ≤ marks.length
    · rw [List.take_append_of_le_length short] at firstOpen secondOpen
      exact bracketed.one_open length first second firstOpen secondOpen
    · rw [List.take_of_length_le (by simp; omega)] at firstOpen secondOpen
      exact single first second firstOpen secondOpen

variable {reader : Reader τ}

/-- Reading one more entry keeps the memory. -/
theorem Remembers.snoc {next : Reader τ}
    (remembers : Remembers marks reader) (read : follow reader mark = some next) :
    Remembers (marks ++ [mark]) next := by
  have opened := remembers.current_iff
  cases mark with
  | free =>
    obtain rfl : reader = next := by simpa [follow] using read
    refine ⟨by simpa using remembers.seen_iff, by simpa [OpenIn] using opened, ?_⟩
    apply remembers.bracketed.snoc
    · simp
    · simp [Mark.span?]
    · intro first second firstOpen secondOpen
      have firstCurrent := (opened first).mpr (by simpa [OpenIn] using firstOpen)
      have secondCurrent := (opened second).mpr (by simpa [OpenIn] using secondOpen)
      exact Option.some.inj (firstCurrent.symm.trans secondCurrent)
  | within span =>
    simp only [follow, Option.ite_none_right_eq_some, Option.some.injEq] at read
    obtain ⟨current, rfl⟩ := read
    refine ⟨by simpa using remembers.seen_iff, by simpa [OpenIn] using opened, ?_⟩
    apply remembers.bracketed.snoc
    · simp
    · simp only [Mark.span?, Option.some.injEq, forall_eq']
      exact fun _ => (opened span).mp current
    · intro first second firstOpen secondOpen
      have firstCurrent := (opened first).mpr (by simpa [OpenIn] using firstOpen)
      have secondCurrent := (opened second).mpr (by simpa [OpenIn] using secondOpen)
      exact Option.some.inj (firstCurrent.symm.trans secondCurrent)
  | start span =>
    simp only [follow, Option.ite_none_right_eq_some, Option.some.injEq] at read
    obtain ⟨⟨idle, unseen⟩, rfl⟩ := read
    have none_open : ∀ other, ¬ OpenIn marks other := by
      intro other isOpen
      have current := (opened other).mpr isOpen
      simp [idle] at current
    have fresh : .start span ∉ marks := fun member => unseen ((remembers.seen_iff span).mpr member)
    have unstopped : .stop span ∉ marks := by
      intro stopped
      obtain ⟨index, entry⟩ := List.mem_iff_getElem?.mp stopped
      have once := remembers.bracketed.one_start index _ span entry rfl
      exact fresh (List.count_pos_iff.mp (by omega))
    have now (other : τ) : OpenIn (marks ++ [.start span]) other ↔ other = span := by
      have closed := none_open other
      constructor
      · rintro ⟨started, unclosed⟩
        by_contra differs
        apply closed
        simpa [OpenIn, differs] using And.intro started unclosed
      · rintro rfl
        simp [OpenIn, unstopped]
    refine ⟨?_, ?_, ?_⟩
    · intro other
      simp [remembers.seen_iff other, or_comm]
    · intro other
      rw [now, Option.some.injEq, eq_comm]
    · apply remembers.bracketed.snoc
      · intro other starts
        obtain rfl := Mark.start.inj starts
        exact fresh
      · simp [Mark.span?]
      · intro first second firstOpen secondOpen
        rw [(now first).mp firstOpen, (now second).mp secondOpen]
  | stop span =>
    simp only [follow, Option.ite_none_right_eq_some, Option.some.injEq] at read
    obtain ⟨current, rfl⟩ := read
    have isOpen := (opened span).mp current
    have now (other : τ) : ¬ OpenIn (marks ++ [.stop span]) other := by
      rintro ⟨started, unclosed⟩
      have differs : other ≠ span := by
        rintro rfl
        exact unclosed (by simp)
      have before : OpenIn marks other := by
        simpa [OpenIn, differs] using And.intro started unclosed
      have same := current.symm.trans ((opened other).mpr before)
      exact differs (Option.some.inj same).symm
    refine ⟨?_, ?_, ?_⟩
    · intro other
      simp [remembers.seen_iff other]
    · intro other
      simp [now other]
    · apply remembers.bracketed.snoc
      · simp
      · simp only [Mark.span?, Option.some.injEq, forall_eq']
        exact fun _ => isOpen
      · intro first second firstOpen
        exact absurd firstOpen (now first)

/-- A span that is open after an entry was open before, or starts with it. -/
theorem follow_opens {next : Reader τ} (read : follow reader mark = some next)
    (isOpen : next.current = some span) : reader.current = some span ∨ mark = .start span := by
  cases mark with
  | free =>
    cases read
    exact Or.inl isOpen
  | within other =>
    obtain ⟨_, ⟨⟩⟩ := Option.ite_none_right_eq_some.mp read
    exact Or.inl isOpen
  | start other =>
    obtain ⟨_, ⟨⟩⟩ := Option.ite_none_right_eq_some.mp read
    exact Or.inr (congrArg Mark.start (Option.some.inj isOpen))
  | stop other =>
    obtain ⟨_, ⟨⟩⟩ := Option.ite_none_right_eq_some.mp read
    contradiction

/-- A span that is open after a stream was open before, or starts in it. -/
theorem follow_all_opens {later : Reader τ}
    (read : followAll reader marks = some later) (isOpen : later.current = some span) :
    reader.current = some span ∨ .start span ∈ marks := by
  induction marks generalizing reader with
  | nil =>
    cases read
    exact Or.inl isOpen
  | cons mark rest inductionHypothesis =>
    obtain ⟨next, first, last⟩ := Option.bind_eq_some_iff.mp read
    rcases inductionHypothesis last with current | starts
    · exact (follow_opens first current).imp_right (fun same => by simp [same])
    · exact Or.inr (List.mem_cons_of_mem _ starts)

/-- A reader that starts afresh accepts only bracketed streams. -/
theorem followed_bracketed
    (accepted : followAll ⟨[], none⟩ marks = some reader) : Bracketed marks := by
  suffices remembers : Remembers marks reader from remembers.bracketed
  induction marks using List.reverseRecOn generalizing reader with
  | nil =>
    cases accepted
    exact remembers_nothing
  | append_singleton before mark inductionHypothesis =>
    rw [follow_all_append] at accepted
    obtain ⟨middle, read, last⟩ := Option.bind_eq_some_iff.mp accepted
    apply (inductionHypothesis read).snoc
    simpa using last

end Kvy.General.Brackets
