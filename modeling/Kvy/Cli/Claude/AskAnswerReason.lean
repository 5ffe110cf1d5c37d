import Kvy.Cli.Claude.PreToolPermissionBridge

/-!
# Answers that can be put into words

The answers to a question are written into the reason that the terminal program reads. Writing
them throws unless the questions are a list and each line of it can be written.
-/

namespace Kvy.Cli.Claude

open General

/-- A value that a template can convert: no object in it has its own `toString`. -/
inductive Convertible : Json → Prop
  | null : Convertible .null
  | bool (value : Bool) : Convertible (.bool value)
  | num (number : Decimal) : Convertible (.num number)
  | str (string : String) : Convertible (.str string)
  | arr (items : List Json) (each : ∀ item ∈ items, Convertible item) : Convertible (.arr items)
  | obj (fields : List (String × Json)) (plain : fields.lookup "toString" = none) :
      Convertible (.obj fields)

/-- The parts of a joined array: an entry that is `null` is empty. -/
theorem joinedTexts_cons (item : Json) (rest : List Json) :
    (joinedTexts (item :: rest)).isSome =
      ((templateText item).isSome && (joinedTexts rest).isSome) := by
  have joined (first : Option String) :
      (first.bind (fun text => (joinedTexts rest).bind (fun texts => some (text :: texts)))).isSome =
        (first.isSome && (joinedTexts rest).isSome) := by
    cases first <;> cases joinedTexts rest <;> rfl
  cases item with
  | null => exact joined (some "")
  | bool value => exact joined (templateText (.bool value))
  | num number => exact joined (templateText (.num number))
  | str string => exact joined (templateText (.str string))
  | arr items => exact joined (templateText (.arr items))
  | obj fields => exact joined (templateText (.obj fields))

mutual
theorem templateText_iff (value : Json) : (templateText value).isSome = true ↔ Convertible value := by
  cases value with
  | null => exact iff_of_true rfl .null
  | bool value => exact iff_of_true rfl (.bool value)
  | num number => exact iff_of_true rfl (.num number)
  | str string => exact iff_of_true rfl (.str string)
  | arr items =>
    rw [templateText, Option.isSome_map, joinedTexts_iff items]
    constructor
    · exact .arr items
    · rintro (_ | _ | _ | _ | ⟨_, each⟩ | _)
      exact each
  | obj fields =>
    rw [templateText]
    cases own : fields.lookup "toString" with
    | none => exact iff_of_true rfl (.obj fields own)
    | some value =>
      refine iff_of_false (by simp) ?_
      rintro (_ | _ | _ | _ | _ | ⟨_, plain⟩)
      exact absurd (own.symm.trans plain) (by simp)
theorem joinedTexts_iff (items : List Json) :
    (joinedTexts items).isSome = true ↔ ∀ item ∈ items, Convertible item := by
  cases items with
  | nil => simp [joinedTexts]
  | cons item rest =>
    rw [joinedTexts_cons, Bool.and_eq_true, List.forall_mem_cons, joinedTexts_iff rest,
      templateText_iff item]
end

/-- The line of a question can be written: it is no `null`, and its text and the answer to it
can be converted. -/
structure Worded (answers : List (String × Json)) (question : Json) : Prop where
  present : question ≠ .null
  asked : ∀ fields text, question = .obj fields → fields.lookup "question" = some text →
    Convertible text
  answered : ∀ text answer, questionText question = some text → answers.lookup text = some answer →
    Convertible answer

theorem questionText_isSome (question : Json) :
    (questionText question).isSome = true ↔ question ≠ .null ∧
      ∀ fields text, question = .obj fields → fields.lookup "question" = some text →
        Convertible text := by
  cases question with
  | null => simp [questionText]
  | bool value => simp [questionText]
  | num number => simp [questionText]
  | str string => simp [questionText]
  | arr items => simp [questionText]
  | obj fields =>
    rw [questionText]
    cases found : fields.lookup "question" with
    | none =>
      refine iff_of_true rfl ⟨by simp, ?_⟩
      rintro _ text ⟨rfl⟩ held
      exact absurd (found.symm.trans held) (by simp)
    | some text =>
      simp only [Option.elim_some, templateText_iff]
      constructor
      · rintro convertible
        refine ⟨by simp, ?_⟩
        rintro _ other ⟨rfl⟩ held
        cases found.symm.trans held
        exact convertible
      · rintro ⟨_, convertible⟩
        exact convertible fields text rfl found

theorem answerText_isSome (answers : List (String × Json)) (text : String) :
    (answerText answers text).isSome = true ↔
      ∀ answer, answers.lookup text = some answer → Convertible answer := by
  rw [answerText]
  cases answers.lookup text with
  | none =>
    refine iff_of_true ?_ (by simp)
    cases inheritedProperties.lookup text with
    | none => rfl
    | some property => cases property <;> rfl
  | some answer =>
    simp only [Option.some.injEq, forall_eq', ← templateText_iff]
    cases answer <;> rfl

theorem questionLine_isSome (answers : List (String × Json)) (question : Json) :
    (questionLine answers question).isSome = true ↔ Worded answers question := by
  have asks := questionText_isSome question
  unfold questionLine
  cases asked : questionText question with
  | none =>
    refine iff_of_false (by simp) ?_
    intro worded
    have present := asks.mpr ⟨worded.present, worded.asked⟩
    rw [asked] at present
    contradiction
  | some text =>
    obtain ⟨present, converted⟩ := asks.mp (asked ▸ rfl)
    have line (answer : Option String) :
        (answer.bind (fun found => some ("- " ++ text ++ "\n  → " ++ found))).isSome =
          answer.isSome := by cases answer <;> rfl
    change ((answerText answers text).bind (fun found =>
      some ("- " ++ text ++ "\n  → " ++ found))).isSome = true ↔ _
    rw [line, answerText_isSome]
    constructor
    · intro answered
      refine ⟨present, converted, ?_⟩
      intro other answer isText held
      cases asked.symm.trans isText
      exact answered answer held
    · intro worded answer held
      exact worded.answered text answer asked held

/-- A list is translated when each of its entries is. -/
theorem mapM_isSome {α β : Type} (translate : α → Option β) (list : List α) :
    (list.mapM translate).isSome = true ↔ ∀ entry ∈ list, (translate entry).isSome = true := by
  induction list with
  | nil => simp
  | cons entry rest inductionHypothesis =>
    rw [List.mapM_cons, List.forall_mem_cons, ← inductionHypothesis]
    cases translate entry with
    | none => simp
    | some first => cases rest.mapM translate <;> simp

/-- The answers to a question can be put into words exactly when the questions are a list and
each of its lines can be written. -/
theorem composeAskAnswerReason_isSome (questions : Json) (answers : List (String × Json)) :
    (composeAskAnswerReason questions answers).isSome = true ↔
      ∃ items, questions = .arr items ∧ ∀ question ∈ items, Worded answers question := by
  cases questions with
  | arr items =>
    have lines := mapM_isSome (questionLine answers) items
    simp only [questionLine_isSome] at lines
    simp only [Json.arr.injEq, exists_eq_left', ← lines]
    change (Option.bind (items.mapM (questionLine answers)) _).isSome = true ↔ _
    cases items.mapM (questionLine answers) <;> rfl
  | null => simp [composeAskAnswerReason]
  | bool value => simp [composeAskAnswerReason]
  | num number => simp [composeAskAnswerReason]
  | str string => simp [composeAskAnswerReason]
  | obj fields => simp [composeAskAnswerReason]

end Kvy.Cli.Claude
