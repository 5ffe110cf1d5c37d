import Kvy.Cli.Claude.TurnBrackets

/-!
# Runs of the transcript mapper

A session feeds the mapper the lines of its transcript in any order, and closes its turn at
any time; what the calls return is put together. A line whose mapping throws returns
nothing and leaves the state it had reached.
-/

namespace Kvy.Cli.Claude

open General Wire Brackets

/-- A call that a session makes. -/
inductive MapperCall where
  | line (message : Json)
  | close (status : TurnStatus)

/-- The mapper's state and all that its calls have returned. -/
structure Mapped where
  state : MapperState
  output : List SessionEnvelope

/-- A session before its first call. -/
def Mapped.fresh : Mapped := ⟨createClaudeEnvelopeMapperState, []⟩

/-- What a session keeps of a call: all that it returned, or the state it threw in. -/
def Mapped.receive (mapped : Mapped) : Result → Option Mapped
  | .ok mapping => some ⟨mapping.state, mapped.output ++ mapping.envelopes⟩
  | .error (.thrown state) => some ⟨state, mapped.output⟩
  | .error .exhausted => none

/-- One call. -/
def Mapped.step (minting : Minting) (mapped : Mapped) : MapperCall → Option Mapped
  | .line message => mapped.receive (mapClaudeToEnvelopes minting message mapped.state)
  | .close status => mapped.receive (.ok (closeClaudeTurnWithStatus minting mapped.state status))

/-- The line can be read, and it is not a prompt that would have to wait. -/
def Handled (mapped : Mapped) : MapperCall → Prop
  | .line message => readableLine message = true ∧
      (closesTurn message = true → waits mapped.state message = false)
  | .close _ => True

instance (mapped : Mapped) (call : MapperCall) : Decidable (Handled mapped call) := by
  cases call <;> unfold Handled <;> infer_instance

variable {minting : Minting}

/-- The mapper answers every call: it returns or throws. -/
theorem step_answers (minting : Minting) (mapped : Mapped) (call : MapperCall) :
    ∃ next, Mapped.step minting mapped call = some next := by
  cases call with
  | close status => exact ⟨_, rfl⟩
  | line message =>
    have terminates := map_line_terminates minting (mapped.state.buffered.length + 1) message
      mapped.state (Nat.lt_succ_self _)
    simp only [Mapped.step, mapClaudeToEnvelopes]
    cases answer : mapLine minting (mapped.state.buffered.length + 1) message mapped.state with
    | ok mapping => exact ⟨_, rfl⟩
    | error failure =>
      cases failure with
      | thrown state => exact ⟨_, rfl⟩
      | exhausted =>
        rw [answer] at terminates
        exact absurd rfl terminates

/-- What a session has put together can be read from its start. -/
structure Followed (minting : Minting) (mapped : Mapped) : Prop where
  quiet : Quiet mapped.state
  advances : Advances minting createClaudeEnvelopeMapperState mapped.state mapped.output

theorem fresh_followed : Followed minting Mapped.fresh where
  quiet := by simp [Quiet, Mapped.fresh, createClaudeEnvelopeMapperState, MapperState.buffered,
    OrderedMap.empty]
  advances := Advances.silent (Nat.le_refl _) rfl

/-- One more call can be read when it is handled. -/
theorem Followed.step {mapped next : Mapped} {call : MapperCall} (followed : Followed minting mapped)
    (handled : Handled mapped call) (taken : Mapped.step minting mapped call = some next) :
    Followed minting next := by
  cases call with
  | close status =>
    cases taken
    have start : Leads minting mapped.state ⟨mapped.state, []⟩ :=
      ⟨followed.quiet, Advances.silent (Nat.le_refl _) rfl⟩
    have closed := start.close_turn status
    exact ⟨closed.quiet, followed.advances.trans closed.advances⟩
  | line message =>
    obtain ⟨readable, prompt⟩ := handled
    have leads := map_line_leads minting (mapped.state.buffered.length + 1) message mapped.state
      followed.quiet readable prompt
    simp only [Mapped.step, mapClaudeToEnvelopes] at taken
    cases answer : mapLine minting (mapped.state.buffered.length + 1) message mapped.state with
    | ok mapping =>
      rw [answer] at leads taken
      cases taken
      exact ⟨leads.1.quiet, followed.advances.trans leads.1.advances⟩
    | error failure =>
      rw [answer] at leads taken
      obtain rfl : failure = .exhausted := leads
      contradiction

/-- A stream that can be read from a fresh state is bracketed. -/
theorem Followed.bracketed {mapped : Mapped} (followed : Followed minting mapped) :
    Bracketed (mapped.output.map mark) := by
  have nothing : Drawn minting createClaudeEnvelopeMapperState.issued [] := by simp [Drawn]
  obtain ⟨later, _, read⟩ := followed.advances.reads [] nothing
  exact followed_bracketed read

/-- A session all of whose calls are handled brackets its turns. -/
theorem handled_calls_bracket_turns (minting : Minting) (calls : List MapperCall)
    (handled : Runs.Always (Mapped.step minting) (fun mapped call _ => Handled mapped call)
      Mapped.fresh calls) :
    ∃ mapped, Runs.run (Mapped.step minting) Mapped.fresh calls = some mapped ∧
      Bracketed (mapped.output.map mark) := by
  have run (calls : List MapperCall) (mapped : Mapped) (followed : Followed minting mapped)
      (handled : Runs.Always (Mapped.step minting) (fun mapped call _ => Handled mapped call)
        mapped calls) :
      ∃ final, Runs.run (Mapped.step minting) mapped calls = some final ∧ Followed minting final := by
    induction calls generalizing mapped with
    | nil => exact ⟨mapped, rfl, followed⟩
    | cons call rest inductionHypothesis =>
      obtain ⟨next, taken⟩ := step_answers minting mapped call
      obtain ⟨now, later⟩ := handled next taken
      obtain ⟨final, ran, ends⟩ := inductionHypothesis next (followed.step now taken) later
      exact ⟨final, by simp [Runs.run, taken, ran], ends⟩
  obtain ⟨final, ran, followed⟩ := run calls Mapped.fresh fresh_followed handled
  exact ⟨final, ran, followed.bracketed⟩

/-- Identifiers that differ in their length. -/
def unaryMinting : Minting where
  createId draw := String.ofList (List.replicate (draw + 1) 'x')
  now _ := Decimal.ofInt 0
  injective first second same := by
    have lengths := congrArg (fun text => text.toList.length) same
    simpa using lengths
  nonEmpty draw empty := by
    have lengths := congrArg (fun text => text.toList.length) empty
    simp at lengths

/-- A line of the transcript with content blocks or text. -/
def transcriptLine (type uuid : String) (content : Json) (more : List (String × Json)) : Json :=
  .obj ([("type", .str type), ("uuid", .str uuid), ("message", .obj [("content", content)])] ++ more)

/-- The agent starts a task and goes on talking. -/
def taskLine : Json := transcriptLine "assistant" "a1" (.arr [
  .obj [("type", .str "tool_use"), ("id", .str "toolu_1"), ("name", .str "Task")],
  .obj [("type", .str "text"), ("text", .str "started")]]) []

/-- A reply and the prompt after it. -/
theorem reply_then_prompt :
    ∃ mapped, Runs.run (Mapped.step unaryMinting) Mapped.fresh
        [.line taskLine, .line (transcriptLine "user" "u1" (.str "go on") []), .close .completed] =
          some mapped ∧
      Bracketed (mapped.output.map mark) :=
  handled_calls_bracket_turns unaryMinting _ (by decide +kernel)

/-- A prompt that names the task's call arrives first: it is replayed inside the task's line and
closes the turn that the line goes on writing to. -/
theorem replayed_prompt_breaks_turn :
    ¬ ∀ (minting : Minting) (calls : List MapperCall) (mapped : Mapped),
      Runs.run (Mapped.step minting) Mapped.fresh calls = some mapped →
      Bracketed (mapped.output.map mark) := by
  intro always
  have trace : (Runs.run (Mapped.step unaryMinting) Mapped.fresh
      [.line (transcriptLine "user" "u1" (.str "go on") [("parent_tool_use_id", .str "toolu_1")]),
        .line taskLine]).map (fun mapped => mapped.output.map mark) =
      some [.start "x", .stop "x", .free, .within "x"] := by
    decide +kernel
  obtain ⟨mapped, ran, marks⟩ := Option.map_eq_some_iff.mp trace
  have bracketed := always unaryMinting _ mapped ran
  rw [marks] at bracketed
  have late := bracketed.between 3 (.within "x") "x" rfl rfl
  exact absurd late.2 (by decide)

end Kvy.Cli.Claude
