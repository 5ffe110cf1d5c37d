import Mathlib.Data.List.DropRight
import Mathlib.Data.List.Infix

/-!
# Watching a text through a rolling buffer

A text arrives in chunks. A watcher keeps the end of what has arrived, cuts it to a limit and only
then looks for a pattern. It sees the pattern exactly when, at the end of some chunk, a place where
the pattern occurs began within the limit; so it depends on the cuts exactly when the pattern
occurs, but not within the limit at the end of the text.
-/

namespace Kvy.General.RollingBuffer

universe u
variable {α : Type u} {limit : Nat} {pattern : List α}

/-- One chunk for a watcher that has not seen the pattern. -/
def feed [DecidableEq α] (limit : Nat) (pattern : List α) (buffer chunk : List α) : Option (List α) :=
  let buffer := (buffer ++ chunk).rtake limit
  if pattern <:+: buffer then none else some buffer

/-- A watcher that has seen the pattern takes no more chunks. -/
def watch [DecidableEq α] (limit : Nat) (pattern : List α) (chunks : List (List α))
    (buffer : Option (List α)) : Option (List α) :=
  chunks.foldl (fun buffer chunk => buffer.bind fun held => feed limit pattern held chunk) buffer

/-- At the end of some chunk, the pattern occurs within the limit. -/
def Caught (limit : Nat) (pattern : List α) (chunks : List (List α)) : Prop :=
  ∃ seen rest before after, chunks = seen ++ rest ∧ seen.flatten = before ++ pattern ++ after ∧
    pattern.length + after.length ≤ limit

/-- A text is its first part and its end. -/
theorem rtake_split (limit : Nat) (text : List α) : ∃ before, text = before ++ text.rtake limit ∧
    (text.rtake limit).length ≤ limit :=
  ⟨text.take (text.length - limit), (List.take_append_drop _ _).symm, by
    simp only [List.rtake, List.length_drop]
    omega⟩

/-- The end of a text and more needs only the end of the text. -/
theorem rtake_append (text more : List α) :
    (text.rtake limit ++ more).rtake limit = (text ++ more).rtake limit := by
  unfold List.rtake
  rw [← List.drop_append_of_le_length (Nat.sub_le _ _), List.drop_drop]
  congr 1
  simp only [List.length_drop, List.length_append]
  omega

/-- A pattern is in the end of a text when it occurs there within the limit. -/
theorem infix_rtake (text : List α) :
    pattern <:+: text.rtake limit ↔ ∃ before after, text = before ++ pattern ++ after ∧
      pattern.length + after.length ≤ limit := by
  constructor
  · rintro ⟨first, after, inside⟩
    obtain ⟨before, split, short⟩ := rtake_split limit text
    refine ⟨before ++ first, after, ?_, ?_⟩
    · rw [split, ← inside]
      simp
    · rw [← inside] at short
      simp only [List.length_append] at short
      omega
  · rintro ⟨before, after, rfl, short⟩
    have ends : (before ++ pattern ++ after).rtake limit =
        before.rtake (limit - (pattern.length + after.length)) ++ (pattern ++ after) := by
      unfold List.rtake
      rw [List.append_assoc, List.drop_append_of_le_length (by simp only [List.length_append]; omega)]
      congr 2
      simp only [List.length_append]
      omega
    exact ⟨before.rtake (limit - (pattern.length + after.length)), after, by rw [ends]; simp⟩

/-- The pattern occurs within the limit at the end of the first chunk, or later. -/
theorem caught_from_iff (text chunk : List α) (chunks : List (List α)) :
    (∃ seen rest before after, chunk :: chunks = seen ++ rest ∧ seen ≠ [] ∧
        text ++ seen.flatten = before ++ pattern ++ after ∧ pattern.length + after.length ≤ limit) ↔
      pattern <:+: (text ++ chunk).rtake limit ∨
      ∃ seen rest before after, chunks = seen ++ rest ∧ seen ≠ [] ∧
        (text ++ chunk) ++ seen.flatten = before ++ pattern ++ after ∧
          pattern.length + after.length ≤ limit := by
  rw [infix_rtake]
  constructor
  · rintro ⟨seen, rest, before, after, cut, some_seen, occurs, short⟩
    cases seen with
    | nil => exact absurd rfl some_seen
    | cons first seen =>
      obtain ⟨rfl, rfl⟩ := List.cons.inj cut
      cases seen with
      | nil => exact .inl ⟨before, after, by simpa using occurs, short⟩
      | cons second seen =>
        exact .inr ⟨second :: seen, rest, before, after, rfl, List.cons_ne_nil _ _,
          by simpa using occurs, short⟩
  · rintro (⟨before, after, occurs, short⟩ | ⟨seen, rest, before, after, rfl, -, occurs, short⟩)
    · exact ⟨[chunk], chunks, before, after, rfl, List.cons_ne_nil _ _, by simpa using occurs, short⟩
    · exact ⟨chunk :: seen, rest, before, after, rfl, List.cons_ne_nil _ _, by simpa using occurs, short⟩

/-- A watcher that has seen the pattern is done. -/
theorem watch_none [DecidableEq α] (chunks : List (List α)) :
    watch limit pattern chunks none = none := by
  induction chunks with
  | nil => rfl
  | cons chunk chunks inductionHypothesis => exact inductionHypothesis

/-- A watcher of a text sees the pattern when the pattern occurs within the limit at the end of a
chunk to come. -/
theorem watch_from [DecidableEq α] (limit : Nat) (pattern text : List α) (chunks : List (List α)) :
    watch limit pattern chunks (some (text.rtake limit)) = none ↔
      ∃ seen rest before after, chunks = seen ++ rest ∧ seen ≠ [] ∧
        text ++ seen.flatten = before ++ pattern ++ after ∧
          pattern.length + after.length ≤ limit := by
  induction chunks generalizing text with
  | nil =>
    refine ⟨fun none => by simp [watch] at none, ?_⟩
    rintro ⟨seen, rest, -, -, cut, some_seen, -⟩
    exact absurd (List.append_eq_nil_iff.mp cut.symm).1 some_seen
  | cons chunk chunks inductionHypothesis =>
    rw [caught_from_iff, ← inductionHypothesis]
    simp only [watch, List.foldl_cons, Option.bind_some, feed, rtake_append]
    by_cases inside : pattern <:+: (text ++ chunk).rtake limit
    · rw [if_pos inside]
      exact ⟨fun _ => .inl inside, fun _ => watch_none chunks⟩
    · rw [if_neg inside]
      exact ⟨.inr, fun seen => seen.resolve_left inside⟩

/-- A watcher sees the pattern exactly when it is caught at the end of a chunk. -/
theorem watch_none_iff [DecidableEq α] (some_pattern : pattern ≠ []) (chunks : List (List α)) :
    watch limit pattern chunks (some []) = none ↔ Caught limit pattern chunks := by
  have empty : ([] : List α).rtake limit = [] := List.rtake_nil limit
  have from_start := watch_from limit pattern [] chunks
  rw [empty] at from_start
  rw [from_start]
  constructor
  · rintro ⟨seen, rest, before, after, cut, -, occurs, short⟩
    exact ⟨seen, rest, before, after, cut, occurs, short⟩
  · rintro ⟨seen, rest, before, after, cut, occurs, short⟩
    refine ⟨seen, rest, before, after, cut, ?_, occurs, short⟩
    rintro rfl
    simp only [List.flatten_nil] at occurs
    exact some_pattern (List.append_eq_nil_iff.mp (List.append_eq_nil_iff.mp occurs.symm).1).2

/-- A pattern that is caught occurs in the text. -/
theorem Caught.occurs {chunks : List (List α)} (caught : Caught limit pattern chunks) :
    pattern <:+: chunks.flatten := by
  obtain ⟨seen, rest, before, after, rfl, occurs, -⟩ := caught
  refine ⟨before, after ++ rest.flatten, ?_⟩
  rw [List.flatten_append, occurs]
  simp

/-- Every cut catches a pattern that occurs within the limit at the end of the text. -/
theorem caught_of_end {chunks : List (List α)} (ends : pattern <:+: chunks.flatten.rtake limit) :
    Caught limit pattern chunks := by
  obtain ⟨before, after, occurs, short⟩ := (infix_rtake _).mp ends
  exact ⟨chunks, [], before, after, (List.append_nil chunks).symm, occurs, short⟩

/-- One chunk catches the pattern only within the limit at the end of the text. -/
theorem caught_single_iff (some_pattern : pattern ≠ []) (text : List α) :
    Caught limit pattern [text] ↔ pattern <:+: text.rtake limit := by
  constructor
  · rintro ⟨seen, rest, before, after, cut, occurs, short⟩
    cases seen with
    | nil =>
      have nothing := List.append_eq_nil_iff.mp occurs.symm
      exact absurd (List.append_eq_nil_iff.mp nothing.1).2 some_pattern
    | cons first seen =>
      obtain ⟨rfl, none⟩ := List.cons.inj cut
      obtain ⟨rfl, rfl⟩ := List.append_eq_nil_iff.mp none.symm
      exact (infix_rtake _).mpr ⟨before, after, by simpa using occurs, short⟩
  · intro ends
    exact caught_of_end (by simpa using ends)

/-- Where the pattern fits the limit, a cut right behind it catches it. -/
theorem caught_of_cut (before after : List α) (fits : pattern.length ≤ limit) :
    Caught limit pattern [before ++ pattern, after] :=
  ⟨[before ++ pattern], [after], before, [], rfl, by simp, by simpa using fits⟩

/-- Watching agrees with the text for every cut exactly when the pattern does not occur, or occurs
within the limit at the end of the text. -/
theorem every_cut_iff (some_pattern : pattern ≠ []) (text : List α) :
    (∀ chunks : List (List α), chunks.flatten = text →
      (pattern <:+: chunks.flatten → Caught limit pattern chunks)) ↔
      (pattern <:+: text → pattern <:+: text.rtake limit) := by
  constructor
  · intro every occurs
    exact (caught_single_iff some_pattern text).mp (every [text] (by simp) (by simpa using occurs))
  · rintro ends chunks rfl occurs
    exact caught_of_end (ends occurs)

/-- Any two cuts of a text agree under the same condition. -/
theorem two_cuts_iff (some_pattern : pattern ≠ []) (fits : pattern.length ≤ limit) (text : List α) :
    (∀ first second : List (List α), first.flatten = text → second.flatten = text →
      (Caught limit pattern first ↔ Caught limit pattern second)) ↔
      (pattern <:+: text → pattern <:+: text.rtake limit) := by
  constructor
  · rintro agree ⟨before, after, rfl⟩
    have behind := caught_of_cut before after fits
    have whole := (agree _ [before ++ pattern ++ after] (by simp) (by simp)).mp behind
    exact (caught_single_iff some_pattern _).mp whole
  · rintro ends first second rfl same
    constructor
    · exact fun caught => caught_of_end (same ▸ ends caught.occurs)
    · exact fun caught => caught_of_end (ends (same ▸ caught.occurs))

end Kvy.General.RollingBuffer
