import Kvy.Cli.Claude.ReplayDepth

/-!
# Lines that wait for their parents

A line whose tool call has not been seen waits for it, and is mapped when the tool call is. A ledger keeps
account of every line: one that arrives is mapped or waits, the lines that wait for a tool call are taken
all at once and handled in their order, and a line that was taken is mapped, unless a turn was closed
meanwhile. Closing a turn discards all that wait. Every run of the mapper is accounted for.
-/

namespace Kvy.Cli.Claude

open General Wire

/-! ## The ledger -/

section ledger
variable {κ μ : Type} [DecidableEq κ]

/-- What happens to a message. -/
inductive Handling (κ μ : Type) where
  | arrives (message : μ)
  | maps (message : μ)
  | waits (parent : κ) (message : μ)
  | replays (parent : κ) (queue : List μ)
  | ends
  | discards
  | throws

/-- The messages of a queue that are left to handle, and whether they may wait again. -/
structure Round (μ : Type) where
  left : List μ
  mayWait : Bool

/-- The messages that wait, the queues that are being handled, innermost first, and what was lost. -/
structure Ledger (κ μ : Type) where
  waiting : OrderedMap κ (List μ)
  rounds : List (Round μ)
  lost : List μ

/-- Nothing has arrived. -/
def Ledger.empty : Ledger κ μ := ⟨.empty, [], []⟩

/-- All that waits. -/
def queued (waiting : OrderedMap κ (List μ)) : List μ := waiting.entries.flatMap Prod.snd

/-- How the ledger is kept. -/
inductive Ledger.Step : Ledger κ μ → Handling κ μ → Ledger κ μ → Prop where
  | arrives (waiting : OrderedMap κ (List μ)) (lost : List μ) (message : μ) :
    Step ⟨waiting, [], lost⟩ (.arrives message) ⟨waiting, [⟨[message], true⟩], lost⟩
  | maps (waiting : OrderedMap κ (List μ)) (lost : List μ) (message : μ) (left : List μ)
      (mayWait : Bool) (outer : List (Round μ)) :
    Step ⟨waiting, ⟨message :: left, mayWait⟩ :: outer, lost⟩ (.maps message)
      ⟨waiting, ⟨left, mayWait⟩ :: outer, lost⟩
  | waits (waiting : OrderedMap κ (List μ)) (lost : List μ) (parent : κ) (message : μ) (left : List μ)
      (outer : List (Round μ)) :
    Step ⟨waiting, ⟨message :: left, true⟩ :: outer, lost⟩ (.waits parent message)
      ⟨waiting.set parent ((waiting.get? parent).getD [] ++ [message]), ⟨left, true⟩ :: outer, lost⟩
  | replays (waiting : OrderedMap κ (List μ)) (rounds : List (Round μ)) (lost : List μ) (parent : κ) :
    Step ⟨waiting, rounds, lost⟩ (.replays parent ((waiting.get? parent).getD []))
      ⟨waiting.delete parent, ⟨(waiting.get? parent).getD [], false⟩ :: rounds, lost⟩
  | ends (waiting : OrderedMap κ (List μ)) (mayWait : Bool) (outer : List (Round μ)) (lost : List μ) :
    Step ⟨waiting, ⟨[], mayWait⟩ :: outer, lost⟩ .ends ⟨waiting, outer, lost⟩
  | discards (waiting : OrderedMap κ (List μ)) (rounds : List (Round μ)) (lost : List μ) :
    Step ⟨waiting, rounds, lost⟩ .discards
      ⟨.empty, rounds.map (fun round => ⟨round.left, true⟩), lost ++ queued waiting⟩
  | throws (waiting : OrderedMap κ (List μ)) (rounds : List (Round μ)) (lost : List μ) :
    Step ⟨waiting, rounds, lost⟩ .throws ⟨waiting, [], lost ++ rounds.flatMap Round.left⟩

/-- A ledger that is kept along a log. -/
inductive Ledger.Follows : Ledger κ μ → List (Handling κ μ) → Ledger κ μ → Prop where
  | nil (ledger : Ledger κ μ) : Follows ledger [] ledger
  | cons {ledger next final : Ledger κ μ} {handling : Handling κ μ} {log : List (Handling κ μ)}
      (step : Step ledger handling next) (rest : Follows next log final) :
    Follows ledger (handling :: log) final

variable {ledger : Ledger κ μ}

/-- A ledger is kept along one log and then along another. -/
theorem Ledger.Follows.append {middle final : Ledger κ μ} {log later : List (Handling κ μ)}
    (first : Follows ledger log middle) (second : Follows middle later final) :
    Follows ledger (log ++ later) final := by
  induction first with
  | nil ledger => exact second
  | cons step rest inductionHypothesis => exact .cons step (inductionHypothesis second)

/-- One entry of a log. -/
theorem Ledger.Step.follows {next : Ledger κ μ} {handling : Handling κ μ}
    (step : Step ledger handling next) : Follows ledger [handling] next :=
  .cons step (.nil next)

/-! ### Nothing is lost, nothing is handled twice -/

/-- The messages that arrived. -/
def arrived : List (Handling κ μ) → List μ
  | [] => []
  | .arrives message :: log => message :: arrived log
  | _ :: log => arrived log

/-- The messages that were mapped. -/
def mappedMessages : List (Handling κ μ) → List μ
  | [] => []
  | .maps message :: log => message :: mappedMessages log
  | _ :: log => mappedMessages log

/-- The messages that a ledger holds. -/
def Ledger.held (ledger : Ledger κ μ) : List μ :=
  queued ledger.waiting ++ ledger.rounds.flatMap Round.left ++ ledger.lost

/-- Every message that a step takes in is mapped or held. -/
theorem Ledger.Step.conserves {next : Ledger κ μ} {handling : Handling κ μ}
    (step : Step ledger handling next) :
    (arrived [handling] ++ ledger.held).Perm (mappedMessages [handling] ++ next.held) := by
  cases step with
  | arrives waiting lost message =>
    simp only [arrived, mappedMessages, held, List.flatMap_nil, List.flatMap_cons, List.append_nil,
      List.nil_append, List.singleton_append, List.append_assoc]
    exact List.perm_middle.symm
  | maps waiting lost message left mayWait outer =>
    simp only [arrived, mappedMessages, held, List.flatMap_cons, List.cons_append, List.nil_append,
      List.append_assoc]
    exact List.perm_middle
  | waits waiting lost parent message left outer =>
    have grown := waiting.perm_set parent ((waiting.get? parent).getD [] ++ [message])
    rw [List.append_assoc, List.perm_append_left_iff] at grown
    simp only [arrived, mappedMessages, held, queued, List.flatMap_cons, List.cons_append,
      List.nil_append, List.append_assoc]
    exact List.perm_middle.trans (grown.symm.append_right _)
  | replays waiting rounds lost parent =>
    have taken := waiting.perm_delete parent
    simp only [arrived, mappedMessages, held, queued, List.flatMap_cons, List.nil_append,
      ← List.append_assoc]
    exact ((taken.symm.trans List.perm_append_comm).append_right _).append_right _
  | ends waiting mayWait outer lost => exact List.Perm.refl _
  | discards waiting rounds lost =>
    have same : (rounds.map (fun round => (⟨round.left, true⟩ : Round μ))).flatMap Round.left =
        rounds.flatMap Round.left := List.flatMap_map _ _ rounds
    have nothing : queued (.empty : OrderedMap κ (List μ)) = [] := rfl
    simp only [arrived, mappedMessages, held, same, nothing, List.nil_append]
    rw [List.append_assoc (queued waiting), ← List.append_assoc _ lost]
    exact List.perm_append_comm
  | throws waiting rounds lost =>
    simp only [arrived, mappedMessages, held, List.flatMap_nil, List.nil_append, List.append_nil,
      List.append_assoc]
    exact List.perm_append_comm.append_left _

omit [DecidableEq κ] in
/-- Reading a log in two parts. -/
theorem arrived_append (log later : List (Handling κ μ)) :
    arrived (log ++ later) = arrived log ++ arrived later := by
  induction log with
  | nil => rfl
  | cons handling log inductionHypothesis =>
    cases handling with
    | arrives message => exact congrArg (message :: ·) inductionHypothesis
    | maps _ | waits _ _ | replays _ _ | ends | discards | throws => exact inductionHypothesis

omit [DecidableEq κ] in
theorem mapped_messages_append (log later : List (Handling κ μ)) :
    mappedMessages (log ++ later) = mappedMessages log ++ mappedMessages later := by
  induction log with
  | nil => rfl
  | cons handling log inductionHypothesis =>
    cases handling with
    | maps message => exact congrArg (message :: ·) inductionHypothesis
    | arrives _ | waits _ _ | replays _ _ | ends | discards | throws => exact inductionHypothesis

/-- Every message that a log takes in is mapped once, or held. -/
theorem Ledger.Follows.conserves {final : Ledger κ μ} {log : List (Handling κ μ)}
    (follows : Follows ledger log final) :
    (arrived log ++ ledger.held).Perm (mappedMessages log ++ final.held) := by
  induction follows with
  | nil ledger => exact List.Perm.refl _
  | @cons ledger next final handling log step rest inductionHypothesis =>
    have now := step.conserves
    have arrivals : arrived (handling :: log) = arrived [handling] ++ arrived log :=
      arrived_append [handling] log
    have mappings : mappedMessages (handling :: log) = mappedMessages [handling] ++ mappedMessages log :=
      mapped_messages_append [handling] log
    rw [arrivals, mappings, List.append_assoc, List.append_assoc]
    calc arrived [handling] ++ (arrived log ++ ledger.held)
        |>.Perm (arrived log ++ (arrived [handling] ++ ledger.held)) := List.perm_append_comm_assoc _ _ _
      _ |>.Perm (arrived log ++ (mappedMessages [handling] ++ next.held)) := now.append_left _
      _ |>.Perm (mappedMessages [handling] ++ (arrived log ++ next.held)) :=
        List.perm_append_comm_assoc _ _ _
      _ |>.Perm (mappedMessages [handling] ++ (mappedMessages log ++ final.held)) :=
        inductionHypothesis.append_left _

/-- Without a turn that is closed and a line that throws, nothing is lost. -/
theorem Ledger.Follows.keeps {final : Ledger κ μ} {log : List (Handling κ μ)}
    (follows : Follows ledger log final) (notClosed : .discards ∉ log) (notThrown : .throws ∉ log) :
    final.lost = ledger.lost := by
  induction follows with
  | nil ledger => rfl
  | @cons ledger next final handling log step rest inductionHypothesis =>
    have later := inductionHypothesis (fun member => notClosed (List.mem_cons_of_mem _ member))
      (fun member => notThrown (List.mem_cons_of_mem _ member))
    cases step with
    | discards => exact absurd List.mem_cons_self notClosed
    | throws => exact absurd List.mem_cons_self notThrown
    | arrives | maps | waits | replays | ends => exact later

end ledger

/-! ## The log of the mapper -/

namespace Mapping
variable (minting : Minting)

/-- A `tool_use` block, up to the replay of the lines that wait for it. -/
def prepareToolUse (turnId : String) (subagent : Option String) (mapping : Mapping) (block : Json) :
    Except Failure (Mapping × String) :=
  let (providerCallId, mapping) := mapping.pickCallId minting block
  let name := (nonEmptyString (block.field? "name")).getD "unknown"
  let input := block.field? "input"
  let mapping := mapping.mintSubagent minting providerCallId
  if name = "Task" then
    let state := (pickTaskPrompt input).elim mapping.state
      (fun prompt => mapping.state.queueTaskPromptSubagent prompt providerCallId)
    .ok ({ mapping with state := { state with
      hiddenParentToolCalls := addTo state.hiddenParentToolCalls providerCallId } }, providerCallId)
  else
    let (call, mapping) := mapping.mintedCall minting providerCallId
    let toolStart (risk : Option ToolRisk) : SessionEvent :=
      .toolStart call name (some (toolTitle name input)) (some (toToolArgs input)) risk
    match pickRisk name with
    | .inherited => .error (.thrown { mapping.state with issued := mapping.state.issued + 1 })
    | .absent => .ok (mapping.emitIn minting turnId subagent (toolStart none), providerCallId)
    | .risk risk => .ok (mapping.emitIn minting turnId subagent (toolStart (some risk)), providerCallId)

/-- A `tool_use` block ends with that replay. -/
theorem tool_use_prepared (replay : Json → MapperState → Result) (turnId : String)
    (subagent : Option String) (mapping : Mapping) (block : Json) :
    mapping.mapToolUse minting replay turnId subagent block =
      mapping.prepareToolUse minting turnId subagent block >>=
        fun (prepared, providerCallId) => prepared.flush replay providerCallId := by
  unfold mapToolUse prepareToolUse
  by_cases task : (nonEmptyString (block.field? "name")).getD "unknown" = "Task"
  · simp only [if_pos task]
    rfl
  · simp only [if_neg task]
    cases pickRisk ((nonEmptyString (block.field? "name")).getD "unknown") with
    | inherited => rfl
    | absent => rfl
    | risk risk => rfl

variable (log : Json → MapperState → List (Handling String Json)) (replay : Json → MapperState → Result)

/-- The log of what continues from a result; nothing continues from a failure. -/
def onward (result : Result) (later : Mapping → List (Handling String Json)) :
    List (Handling String Json) :=
  match result with
  | .ok mapping => later mapping
  | .error _ => []

/-- The lines of a queue are handled in turn. -/
def replayLog : List Json → MapperState → List (Handling String Json)
  | [], _ => [.ends]
  | message :: rest, state => log message state ++
      onward (replay message state) (fun replayed => replayLog rest replayed.state)

/-- The lines that wait for a tool call are taken and handled. -/
def flushLog (mapping : Mapping) (providerCallId : String) : List (Handling String Json) :=
  let (messages, state) := mapping.state.consumeBufferedMessages providerCallId
  .replays providerCallId messages :: replayLog log replay messages state

/-- A tool call takes the lines that wait for it. -/
def toolUseLog (turnId : String) (subagent : Option String) (mapping : Mapping) (block : Json) :
    List (Handling String Json) :=
  match mapping.prepareToolUse minting turnId subagent block with
  | .ok (prepared, providerCallId) => prepared.flushLog log replay providerCallId
  | .error _ => []

/-- A content block of an assistant line. -/
def blockLog (turnId : String) (subagent : Option String) (mapping : Mapping) (block : Json) :
    List (Handling String Json) :=
  if typeOf block = some "tool_use" then mapping.toolUseLog minting log replay turnId subagent block
  else []

/-- The content blocks of an assistant line. -/
def blocksLog (turnId : String) (subagent : Option String) : List Json → Mapping →
    List (Handling String Json)
  | [], _ => []
  | block :: rest, mapping => mapping.blockLog minting log replay turnId subagent block ++
      onward (mapping.mapAssistantBlock minting replay turnId subagent block)
        (blocksLog turnId subagent rest)

/-- Closing a turn, where one is open. -/
def closeLog (mapping : Mapping) : List (Handling String Json) :=
  if mapping.state.turn.isSome then [.discards] else []

/-- A line that does not wait. -/
def resolvedLog (message : Json) (subagent : Option String) (mapping : Mapping) :
    List (Handling String Json) :=
  if typeOf message = some "assistant" then
    if isCompactSummaryMessage message then []
    else
      let (turnId, mapping) := mapping.ensureTurn minting
      blocksLog minting log replay turnId subagent (pickContentBlocks message)
        (mapping.maybeEmitSubagentStart minting turnId subagent)
  else if closesTurn message then mapping.closeLog
  else []

end Mapping

/-- What a line does to itself and to the lines that wait, to a depth of replays bounded by the fuel. -/
def lineLog (minting : Minting) : Nat → Json → MapperState → List (Handling String Json)
  | 0, _, _ => []
  | fuel + 1, message, state =>
    let (providerSubagent, state) := state.resolveProviderSubagent message
    let subagent := providerSubagent.bind state.lookupSubagentId
    let state := state.rememberSubagentForMessage message providerSubagent
    match providerSubagent, subagent with
    | some provider, none => [.waits provider message]
    | _, _ => .maps message ::
        Mapping.resolvedLog minting (lineLog minting fuel) (mapLine minting fuel) message subagent
          ⟨state, []⟩

/-- What a call does. -/
def callLog (minting : Minting) (state : MapperState) : MapperCall → List (Handling String Json)
  | .close _ => Mapping.closeLog ⟨state, []⟩
  | .line message => .arrives message ::
      (lineLog minting (state.buffered.length + 1) message state ++
        match mapClaudeToEnvelopes minting message state with
        | .ok _ => [.ends]
        | .error _ => [.throws])

/-- What the calls of a session do. -/
def handlings (minting : Minting) : Mapped → List MapperCall → List (Handling String Json)
  | _, [] => []
  | mapped, call :: calls => callLog minting mapped.state call ++
      match Mapped.step minting mapped call with
      | some next => handlings minting next calls
      | none => []

/-! ## Where a line's parent comes from -/

/-- The tool call has been seen. -/
def Registered (tables : Tables) (provider : String) : Prop :=
  ∃ subagent, (tables.subagents.get? provider).filter (· ≠ "") = some subagent

/-- The lines that wait for a tool call. -/
def Tables.waitingFor (tables : Tables) (provider : String) : List Json :=
  (tables.waiting.get? provider).getD []

/-- A line is one of its own, or it names as its parent a line that is accepted. -/
def Descends (own : Json → Prop) (accepted : String → Prop) (message : Json) : Prop :=
  own message ∨ pickExplicitProviderSubagent message = none ∧
    ∃ uuid, pickParentUuid message = some uuid ∧ accepted uuid

/-- The same of every line of a queue, where the lines before it are accepted too. -/
def AllDescend (own : Json → Prop) : (String → Prop) → List Json → Prop
  | _, [] => True
  | accepted, message :: rest => Descends own accepted message ∧
      AllDescend own (fun uuid => accepted uuid ∨ pickUuid message = some uuid) rest

/-- What accepts more lines accepts the queue. -/
theorem AllDescend.mono
    {own others : Json → Prop} {accepted more : String → Prop} {queue : List Json}
    (descend : AllDescend own accepted queue) (owns : ∀ message, own message → others message)
    (accepts : ∀ uuid, accepted uuid → more uuid) : AllDescend others more queue := by
  induction queue generalizing accepted more with
  | nil => trivial
  | cons message rest inductionHypothesis =>
    obtain ⟨first, others⟩ := descend
    refine ⟨?_, inductionHypothesis others (fun uuid => Or.imp_left (accepts uuid))⟩
    obtain mine | ⟨implicit, uuid, named, good⟩ := first
    · exact .inl (owns message mine)
    · exact .inr ⟨implicit, uuid, named, accepts uuid good⟩

/-- A line joins the queue that its parent is in. -/
theorem AllDescend.append {own : Json → Prop} {accepted : String → Prop} {queue : List Json}
    {message : Json} (descend : AllDescend own accepted queue)
    (last : Descends own (fun uuid => accepted uuid ∨ ∃ earlier ∈ queue, pickUuid earlier = some uuid)
      message) : AllDescend own accepted (queue ++ [message]) := by
  induction queue generalizing accepted with
  | nil =>
    refine ⟨?_, trivial⟩
    obtain mine | ⟨implicit, uuid, named, good⟩ := last
    · exact .inl mine
    · exact .inr ⟨implicit, uuid, named, good.resolve_right (by simp)⟩
  | cons first rest inductionHypothesis =>
    refine ⟨descend.1, inductionHypothesis descend.2 ?_⟩
    obtain mine | ⟨implicit, uuid, named, good⟩ := last
    · exact .inl mine
    · refine .inr ⟨implicit, uuid, named, ?_⟩
      obtain good | ⟨earlier, member, own⟩ := good
      · exact .inl (.inl good)
      · obtain rfl | later := List.mem_cons.mp member
        · exact .inl (.inr own)
        · exact .inr ⟨earlier, later, own⟩

/-- The lines of the queue wait for the tool call: they name it, or a line before them. -/
def Anchored (provider : String) (queue : List Json) : Prop :=
  AllDescend (fun message => pickExplicitProviderSubagent message = some provider) (fun _ => False) queue

/-- The line belongs to a tool call that has been seen. -/
def Placed (tables : Tables) (uuid : String) : Prop :=
  ∃ provider, tables.uuids.get? uuid = some provider ∧ provider ≠ "" ∧ Registered tables provider

/-- The lines name tool calls that have been seen, or lines that belong to such. -/
def Ready (tables : Tables) (queue : List Json) : Prop :=
  AllDescend (fun message => ∃ provider, pickExplicitProviderSubagent message = some provider ∧
    Registered tables provider) (Placed tables) queue

/-- The prompts are those of tool calls that have been seen. -/
def Prompted (tables : Tables) : Prop :=
  ∀ prompt queue, tables.prompts.get? prompt = some queue → ∀ provider ∈ queue, Registered tables provider

/-- What the tables keep: a line that belongs to a tool call which has not been seen waits for it. -/
structure Traced (tables : Tables) : Prop where
  inherited : ∀ uuid provider, tables.uuids.get? uuid = some provider →
    Registered tables provider ∨ ∃ message ∈ tables.waitingFor provider, pickUuid message = some uuid
  anchored : ∀ provider, Anchored provider (tables.waitingFor provider)
  prompted : Prompted tables

/-- A property that is a text is not empty. -/
theorem non_empty_string
    {value : Option Json} {text : String} (found : nonEmptyString value = some text) :
    text ≠ "" := by
  unfold nonEmptyString at found
  split at found
  · split at found
    · contradiction
    · exact Option.some.inj found ▸ ‹_›
  · contradiction

variable {provider : String}

/-- The tool call that a line names has a name. -/
theorem explicit_named {message : Json}
    (explicit : pickExplicitProviderSubagent message = some provider) : provider ≠ "" := by
  unfold pickExplicitProviderSubagent at explicit
  cases first : nonEmptyString (message.field? "parent_tool_use_id") with
  | some found =>
    rw [first] at explicit
    exact Option.some.inj explicit ▸ non_empty_string first
  | none =>
    rw [first] at explicit
    exact non_empty_string explicit

variable {state : MapperState}

/-- A line whose parent has been seen is placed there. -/
theorem resolve_ready {message : Json}
    (descends : Descends (fun message => ∃ provider, pickExplicitProviderSubagent message = some provider ∧
      Registered state.tables provider) (Placed state.tables) message) :
    ∃ provider, state.resolveProviderSubagent message = (some provider, state) ∧ provider ≠ "" ∧
      Registered state.tables provider := by
  obtain ⟨provider, explicit, known⟩ | ⟨implicit, uuid, named, provider, held, nonEmpty, known⟩ := descends
  · refine ⟨provider, ?_, explicit_named explicit, known⟩
    simp only [MapperState.resolveProviderSubagent, explicit]
  · refine ⟨provider, ?_, nonEmpty, known⟩
    have found : state.uuidToProviderSubagent.get? uuid = some provider := held
    simp [MapperState.resolveProviderSubagent, implicit, named, found, Option.filter, nonEmpty]

/-- Taking the first of a prompt's tool calls leaves tool calls that have been seen. -/
theorem shift_prompted {prompt : String} {rest : List String} (prompted : Prompted state.tables)
    (held : state.taskPromptToProviderSubagents.get? prompt = some (provider :: rest)) :
    Prompted (state.shiftTaskPrompt prompt rest).tables := by
  intro other queue found candidate member
  simp only [MapperState.tables, MapperState.shiftTaskPrompt] at found
  split at found
  · rw [OrderedMap.get_delete] at found
    split at found
    · contradiction
    · exact prompted other queue found candidate member
  · rw [OrderedMap.get_set] at found
    split at found
    · rw [← Option.some.inj found] at member
      exact prompted prompt _ held candidate (List.mem_cons_of_mem _ member)
    · exact prompted other queue found candidate member

/-- What a prompt resolves to has been seen. -/
theorem consume_prompt (prompted : Prompted state.tables) (prompt : String) :
    Prompted (state.consumeTaskPromptSubagent prompt).2.tables ∧
      ∀ provider, (state.consumeTaskPromptSubagent prompt).1 = some provider →
        Registered state.tables provider := by
  unfold MapperState.consumeTaskPromptSubagent
  split
  · rename_i first rest held
    refine ⟨shift_prompted prompted held, ?_⟩
    rintro _ ⟨⟩
    exact prompted prompt _ held first List.mem_cons_self
  · exact ⟨prompted, by rintro _ ⟨⟩⟩

/-- What the one pending prompt resolves to has been seen, and has a name. -/
theorem consume_single (prompted : Prompted state.tables) :
    Prompted state.consumeSinglePendingTaskSubagent.2.tables ∧
      ∀ provider, state.consumeSinglePendingTaskSubagent.1 = some provider →
        provider ≠ "" ∧ Registered state.tables provider := by
  unfold MapperState.consumeSinglePendingTaskSubagent
  split
  · rename_i prompt first rest single
    have member : (prompt, first :: rest) ∈ state.taskPromptToProviderSubagents.entries.filter
        (fun entry => !entry.2.isEmpty) := by
      rw [single]
      exact List.mem_singleton.mpr rfl
    have held := (OrderedMap.mem_entries _ _ _).mp (List.mem_filter.mp member).1
    split
    · exact ⟨prompted, by rintro _ ⟨⟩⟩
    · rename_i named
      refine ⟨shift_prompted prompted held, ?_⟩
      rintro _ ⟨⟩
      exact ⟨fun empty => named (.inr empty), prompted prompt _ held first List.mem_cons_self⟩
  · exact ⟨prompted, by rintro _ ⟨⟩⟩

/-- A prompt changes nothing that tells which tool calls have been seen. -/
theorem consume_prompt_known (state : MapperState) (prompt provider : String) :
    Registered (state.consumeTaskPromptSubagent prompt).2.tables provider ↔ Registered state.tables provider := by
  unfold MapperState.consumeTaskPromptSubagent
  split
  · rfl
  · rfl

/-- What a line resolves to is the tool call that it names, that of the line it names as its parent, or
one that has been seen. -/
theorem resolve_traced (traced : Traced state.tables) (message : Json) :
    Prompted (state.resolveProviderSubagent message).2.tables ∧
      ∀ provider, (state.resolveProviderSubagent message).1 = some provider → provider ≠ "" ∧
        (Descends (fun message => pickExplicitProviderSubagent message = some provider)
          (fun uuid => state.tables.uuids.get? uuid = some provider) message ∨
            Registered state.tables provider) := by
  have root : Prompted ((pickSidechainRootPrompt message).elim ((none : Option String), state)
      state.consumeTaskPromptSubagent).2.tables ∧
      (∀ provider, ((pickSidechainRootPrompt message).elim ((none : Option String), state)
        state.consumeTaskPromptSubagent).1 = some provider → Registered state.tables provider) ∧
      ∀ provider, Registered ((pickSidechainRootPrompt message).elim ((none : Option String), state)
        state.consumeTaskPromptSubagent).2.tables provider ↔ Registered state.tables provider := by
    cases pickSidechainRootPrompt message with
    | none => exact ⟨traced.prompted, by rintro _ ⟨⟩, fun _ => Iff.rfl⟩
    | some prompt =>
      obtain ⟨prompted, known⟩ := consume_prompt traced.prompted prompt
      exact ⟨prompted, known, consume_prompt_known state prompt⟩
  obtain ⟨prompted, known, same⟩ := root
  unfold MapperState.resolveProviderSubagent
  split
  · rename_i explicit named
    refine ⟨traced.prompted, ?_⟩
    rintro _ ⟨⟩
    exact ⟨explicit_named named, .inl (.inl named)⟩
  · rename_i implicit
    simp only
    split
    · rename_i inherited held
      refine ⟨traced.prompted, ?_⟩
      rintro _ ⟨⟩
      obtain ⟨found, nonEmpty⟩ := Option.filter_eq_some_iff.mp held
      obtain ⟨uuid, parent, entry⟩ := Option.bind_eq_some_iff.mp found
      exact ⟨by simpa using nonEmpty, .inl (.inr ⟨implicit, uuid, parent, entry⟩)⟩
    · split
      · split
        · rename_i matched
          refine ⟨prompted, ?_⟩
          rintro _ ⟨⟩
          obtain ⟨found, nonEmpty⟩ := Option.filter_eq_some_iff.mp matched
          exact ⟨by simpa using nonEmpty, .inr (known _ found)⟩
        · obtain ⟨later, seen⟩ := consume_single prompted
          refine ⟨later, fun provider single => ?_⟩
          obtain ⟨nonEmpty, known⟩ := seen provider single
          exact ⟨nonEmpty, .inr ((same provider).mp known)⟩
        · exact ⟨prompted, by rintro _ ⟨⟩⟩
      · exact ⟨traced.prompted, by rintro _ ⟨⟩⟩

/-! ## Tables and ledger -/

/-- Tool calls are seen, and nothing else changes that lines depend on. -/
structure Registers (old new : Tables) : Prop where
  uuids : new.uuids = old.uuids
  waiting : new.waiting = old.waiting
  known : ∀ provider, Registered old provider → Registered new provider
  prompted : Prompted old → Prompted new

variable {new old : Tables}

/-- Tables that are the same. -/
theorem Registers.of_eq (same : new = old) : Registers old new := by
  subst same
  exact ⟨rfl, rfl, fun _ known => known, fun prompted => prompted⟩

theorem Registers.trans
    {middle : Tables} (first : Registers old middle) (second : Registers middle new) :
    Registers old new where
  uuids := second.uuids.trans first.uuids
  waiting := second.waiting.trans first.waiting
  known provider known := second.known provider (first.known provider known)
  prompted prompted := second.prompted (first.prompted prompted)

/-- Lines stay ready while tool calls are seen and lines are placed. -/
theorem Ready.mono {queue : List Json} (ready : Ready old queue)
    (known : ∀ provider, Registered old provider → Registered new provider)
    (placed : ∀ uuid, Placed old uuid → Placed new uuid) : Ready new queue :=
  AllDescend.mono ready (fun _ ⟨provider, named, seen⟩ => ⟨provider, named, known provider seen⟩) placed

/-- A line that belongs to a tool call still does. -/
theorem Registers.placed (grows : Registers old new) {uuid : String}
    (placed : Placed old uuid) : Placed new uuid := by
  obtain ⟨provider, held, nonEmpty, known⟩ := placed
  exact ⟨provider, by rw [grows.uuids, held], nonEmpty, grows.known provider known⟩

/-- What the tables keep. -/
theorem Registers.traced (grows : Registers old new) (traced : Traced old) : Traced new := by
  have same : ∀ provider, new.waitingFor provider = old.waitingFor provider := fun provider =>
    congrArg (fun waiting => (OrderedMap.get? waiting provider).getD []) grows.waiting
  refine ⟨fun uuid provider held => ?_, fun provider => ?_, grows.prompted traced.prompted⟩
  · rw [grows.uuids] at held
    rw [same provider]
    exact (traced.inherited uuid provider held).imp_left (grows.known provider)
  · rw [same provider]
    exact traced.anchored provider

/-- The ledger holds the lines that wait, and the queues of the calls under way. What such a queue holds
need not wait again, unless a turn was closed since it was taken. -/
structure Kept (tables : Tables) (ledger : Ledger String Json) (stack : List (List Json)) : Prop where
  traced : Traced tables
  waiting : ledger.waiting = tables.waiting
  left : ledger.rounds.map Round.left = stack
  ready : ∀ round ∈ ledger.rounds, round.mayWait = true ∨ Ready tables round.left
  nested : ledger.rounds.Pairwise (fun inner outer => inner.mayWait = true → outer.mayWait = true)

variable {minting : Minting} {mapping : Mapping} {ledger : Ledger String Json}
  {stack : List (List Json)}

theorem Kept.grows (kept : Kept old ledger stack) (grows : Registers old new) :
    Kept new ledger stack where
  traced := grows.traced kept.traced
  waiting := kept.waiting.trans grows.waiting.symm
  left := kept.left
  ready round member := (kept.ready round member).imp_right
    (fun ready => ready.mono grows.known (fun _ => grows.placed))
  nested := kept.nested

/-- A call is accounted for: the ledger is kept along its log, to what it leaves behind. -/
def Accounts (ledger : Ledger String Json) (stack : List (List Json))
    (log : List (Handling String Json)) : Result → Prop
  | .ok mapping => ∃ later, Ledger.Follows ledger log later ∧ Kept mapping.state.tables later stack
  | .error (.thrown state) => ∃ later, Ledger.Follows ledger log later ∧ Traced state.tables ∧
      later.waiting = state.tables.waiting
  | .error .exhausted => True

/-- Nothing happens to any line. -/
theorem Kept.accounts (kept : Kept mapping.state.tables ledger stack) :
    Accounts ledger stack [] (.ok mapping) := ⟨ledger, .nil ledger, kept⟩

/-- A call throws. -/
theorem Kept.throws (kept : Kept state.tables ledger stack) :
    Accounts ledger stack [] (.error (.thrown state)) := ⟨ledger, .nil ledger, kept.traced, kept.waiting⟩

/-- A call after what is accounted for. -/
theorem Accounts.after {middle : Ledger String Json} {log later : List (Handling String Json)}
    {result : Result} (first : Ledger.Follows ledger log middle)
    (second : Accounts middle stack later result) : Accounts ledger stack (log ++ later) result := by
  cases result with
  | ok mapping =>
    obtain ⟨final, follows, kept⟩ := second
    exact ⟨final, first.append follows, kept⟩
  | error failure =>
    cases failure with
    | exhausted => trivial
    | thrown state =>
      obtain ⟨final, follows, rest⟩ := second
      exact ⟨final, first.append follows, rest⟩

/-- A call that continues where the first one returns. -/
theorem Accounts.bind {inner : List (List Json)} {log : List (Handling String Json)}
    {later : Mapping → List (Handling String Json)} {first : Result} {rest : Mapping → Result}
    (start : Accounts ledger inner log first)
    (continues : ∀ mapping middle, first = .ok mapping → Kept mapping.state.tables middle inner →
      Accounts middle stack (later mapping) (rest mapping)) :
    Accounts ledger stack (log ++ Mapping.onward first later) (first >>= rest) := by
  cases first with
  | ok mapping =>
    obtain ⟨middle, follows, kept⟩ := start
    exact Accounts.after follows (continues mapping middle rfl kept)
  | error failure =>
    simp only [Mapping.onward, List.append_nil]
    cases failure with
    | exhausted => trivial
    | thrown state => exact start

/-- Closing a turn discards all that waits. -/
theorem Kept.close_turn (kept : Kept mapping.state.tables ledger stack) (status : TurnStatus) :
    Accounts ledger stack mapping.closeLog (.ok (mapping.closeTurn minting status)) := by
  unfold Mapping.closeLog Mapping.closeTurn
  cases mapping.state.turn with
  | none => exact kept.accounts
  | some turn =>
    refine ⟨_, (Ledger.Step.discards _ _ _).follows, ?_, rfl, ?_, ?_, ?_⟩
    · exact ⟨by rintro _ _ ⟨⟩, fun _ => trivial, by rintro _ _ ⟨⟩⟩
    · rw [List.map_map]
      exact kept.left
    · intro round member
      obtain ⟨_, _, rfl⟩ := List.mem_map.mp member
      exact .inl rfl
    · rw [List.pairwise_map]
      exact kept.nested.imp (fun _ _ => rfl)

/-! ## Tool calls -/

/-- Minting the identity of a tool call is how it is seen. -/
theorem mint_subagent_grows (minting : Minting) (mapping : Mapping) (provider : String) :
    Registers mapping.state.tables (mapping.mintSubagent minting provider).state.tables ∧
      Registered (mapping.mintSubagent minting provider).state.tables provider := by
  unfold Mapping.mintSubagent
  split
  · rename_i subagent found
    exact ⟨Registers.of_eq rfl, subagent, found⟩
  · have nonEmpty := minting.nonEmpty mapping.state.issued
    have known : ∀ tested, Registered mapping.state.tables tested ∨ tested = provider →
        Registered { mapping.state.tables with
          subagents := mapping.state.providerSubagentIds.set provider
            (minting.createId mapping.state.issued) } tested := by
      intro tested seen
      by_cases same : tested = provider
      · exact ⟨minting.createId mapping.state.issued, by simp [same, nonEmpty]⟩
      · obtain ⟨subagent, found⟩ := seen.resolve_right same
        exact ⟨subagent, by simpa [same, MapperState.tables] using found⟩
    refine ⟨⟨rfl, rfl, fun tested seen => known tested (.inl seen), ?_⟩, known provider (.inr rfl)⟩
    intro prompted prompt queue held candidate member
    exact known candidate (.inl (prompted prompt queue held candidate member))

/-- The prompt of a tool call that has been seen. -/
theorem queue_prompt_grows (known : Registered state.tables provider)
    (prompt : String) : Registers state.tables (state.queueTaskPromptSubagent prompt provider).tables := by
  refine ⟨rfl, rfl, fun _ known => known, ?_⟩
  intro prompted other queue held candidate member
  change (state.taskPromptToProviderSubagents.set prompt _).get? other = some queue at held
  rw [OrderedMap.get_set] at held
  split at held
  · rw [← Option.some.inj held] at member
    have candidates : candidate ∈ (state.taskPromptToProviderSubagents.get? prompt).getD [] ∨
        candidate = provider := by
      unfold addTo at member
      split at member
      · exact .inl member
      · exact (List.mem_append.mp member).imp_right List.mem_singleton.mp
    obtain earlier | rfl := candidates
    · cases found : state.taskPromptToProviderSubagents.get? prompt with
      | none =>
        rw [found] at earlier
        contradiction
      | some members =>
        rw [found] at earlier
        exact prompted prompt members found candidate earlier
    · exact known
  · exact prompted other queue held candidate member

/-- When the lines that wait for a tool call are replayed, it has been seen. -/
theorem prepare_grows
    (minting : Minting) (turnId : String) (subagent : Option String) (mapping : Mapping)
    (block : Json) :
    match mapping.prepareToolUse minting turnId subagent block with
    | .ok (prepared, provider) => Registers mapping.state.tables prepared.state.tables ∧
        Registered prepared.state.tables provider
    | .error (.thrown state) => Registers mapping.state.tables state.tables
    | .error .exhausted => False := by
  obtain ⟨grows, known⟩ := mint_subagent_grows minting (mapping.pickCallId minting block).2
    (mapping.pickCallId minting block).1
  have seen := (Registers.of_eq (call_id_tables minting mapping block)).trans grows
  have called := minted_call_tables minting ((mapping.pickCallId minting block).2.mintSubagent minting
    (mapping.pickCallId minting block).1) (mapping.pickCallId minting block).1
  have calledKnown : Registered (Mapping.mintedCall minting ((mapping.pickCallId minting block).2.mintSubagent
      minting (mapping.pickCallId minting block).1) (mapping.pickCallId minting block).1).2.state.tables
      (mapping.pickCallId minting block).1 := by
    rw [called]
    exact known
  have calledGrows := seen.trans (Registers.of_eq called)
  unfold Mapping.prepareToolUse
  by_cases task : (nonEmptyString (block.field? "name")).getD "unknown" = "Task"
  · simp only [if_pos task]
    cases pickTaskPrompt (block.field? "input") with
    | none => exact ⟨seen, known⟩
    | some prompt =>
      have queued := queue_prompt_grows known prompt
      exact ⟨seen.trans queued, queued.known _ known⟩
  · simp only [if_neg task]
    cases pickRisk ((nonEmptyString (block.field? "name")).getD "unknown") with
    | inherited => exact calledGrows
    | absent => exact ⟨calledGrows, calledKnown⟩
    | risk risk => exact ⟨calledGrows, calledKnown⟩

variable {log : Json → MapperState → List (Handling String Json)} {replay : Json → MapperState → Result}

/-- Each replay of a line is accounted for. -/
def AccountsFor (log : Json → MapperState → List (Handling String Json))
    (replay : Json → MapperState → Result) : Prop :=
  ∀ message state ledger left stack, Kept state.tables ledger ((message :: left) :: stack) →
    Accounts ledger (left :: stack) (log message state) (replay message state)

/-- So is the replay of a queue. -/
theorem replay_accounts (accounts : AccountsFor log replay) {messages : List Json}
    (kept : Kept mapping.state.tables ledger (messages :: stack)) :
    Accounts ledger stack (Mapping.replayLog log replay messages mapping.state)
      (Mapping.replayAll replay messages mapping) := by
  induction messages generalizing mapping ledger with
  | nil =>
    obtain ⟨waiting, rounds, lost⟩ := ledger
    obtain ⟨⟨left, mayWait⟩, outer, rfl, empty, rfl⟩ := List.map_eq_cons_iff.mp kept.left
    obtain rfl : left = [] := empty
    refine ⟨_, (Ledger.Step.ends waiting mayWait outer lost).follows, kept.traced, kept.waiting, rfl, ?_, ?_⟩
    · exact fun round member => kept.ready round (List.mem_cons_of_mem _ member)
    · exact (List.pairwise_cons.mp kept.nested).2
  | cons message rest inductionHypothesis =>
    have first := accounts message mapping.state ledger rest stack kept
    unfold Mapping.replayLog Mapping.replayAll
    rw [List.foldlM_cons, bind_assoc]
    refine Accounts.bind first (fun replayed middle _ later => ?_)
    exact inductionHypothesis later

variable {tables : Tables}

/-- When the lines that wait for a tool call that has been seen are taken, they are ready. -/
theorem Kept.takes {waiting : OrderedMap String (List Json)}
    {rounds : List (Round Json)} {lost : List Json} (kept : Kept tables ⟨waiting, rounds, lost⟩ stack)
    (known : Registered tables provider) :
    Kept { tables with waiting := tables.waiting.delete provider }
      ⟨waiting.delete provider, ⟨(waiting.get? provider).getD [], false⟩ :: rounds, lost⟩
      ((tables.waiting.get? provider).getD [] :: stack) := by
  obtain rfl : waiting = tables.waiting := kept.waiting
  have remaining : ∀ tested, Tables.waitingFor { tables with waiting := tables.waiting.delete provider }
      tested = if tested = provider then [] else tables.waitingFor tested := by
    intro tested
    simp only [Tables.waitingFor, OrderedMap.get_delete]
    split
    · rfl
    · rfl
  have ready : Ready tables ((tables.waiting.get? provider).getD []) :=
    AllDescend.mono (kept.traced.anchored provider) (fun _ named => ⟨provider, named, known⟩)
      (fun _ none => none.elim)
  refine ⟨⟨fun uuid owner held => ?_, fun owner => ?_, kept.traced.prompted⟩, rfl, ?_, ?_, ?_⟩
  · rw [remaining]
    by_cases same : owner = provider
    · exact .inl (same ▸ known)
    · rw [if_neg same]
      exact kept.traced.inherited uuid owner held
  · rw [remaining]
    split
    · trivial
    · exact kept.traced.anchored owner
  · exact congrArg _ kept.left
  · intro round member
    obtain rfl | earlier := List.mem_cons.mp member
    · exact .inr ready
    · exact kept.ready round earlier
  · exact List.pairwise_cons.mpr ⟨by rintro _ _ ⟨⟩, kept.nested⟩

/-- The lines that wait for a tool call are replayed. -/
theorem flush_accounts
    (accounts : AccountsFor log replay) (kept : Kept mapping.state.tables ledger stack)
    (known : Registered mapping.state.tables provider) :
    Accounts ledger stack (mapping.flushLog log replay provider) (mapping.flush replay provider) := by
  obtain ⟨waiting, rounds, lost⟩ := ledger
  have taken := Ledger.Step.replays waiting rounds lost provider
  have ready := kept.takes known
  obtain rfl : waiting = mapping.state.tables.waiting := kept.waiting
  exact Accounts.after taken.follows (replay_accounts accounts ready)

/-- A tool call is accounted for. -/
theorem tool_use_accounts (accounts : AccountsFor log replay)
    (kept : Kept mapping.state.tables ledger stack) (turnId : String) (subagent : Option String)
    (block : Json) :
    Accounts ledger stack (mapping.toolUseLog minting log replay turnId subagent block)
      (mapping.mapToolUse minting replay turnId subagent block) := by
  have grows := prepare_grows minting turnId subagent mapping block
  rw [Mapping.tool_use_prepared]
  unfold Mapping.toolUseLog
  cases prepared : mapping.prepareToolUse minting turnId subagent block with
  | ok result =>
    rw [prepared] at grows
    exact flush_accounts accounts (kept.grows grows.1) grows.2
  | error failure =>
    rw [prepared] at grows
    cases failure with
    | thrown state => exact (kept.grows grows).throws
    | exhausted => trivial

/-- A block is accounted for. -/
theorem block_accounts
    (accounts : AccountsFor log replay) (kept : Kept mapping.state.tables ledger stack)
    (turnId : String) (subagent : Option String) (block : Json) :
    Accounts ledger stack (mapping.blockLog minting log replay turnId subagent block)
      (mapping.mapAssistantBlock minting replay turnId subagent block) := by
  unfold Mapping.blockLog
  by_cases tool : typeOf block = some "tool_use"
  · rw [if_pos tool]
    unfold Mapping.mapAssistantBlock
    split
    · contradiction
    · split
      · rename_i text _
        exact absurd (tool.symm.trans text) (by decide)
      · rename_i thinking _
        exact absurd (tool.symm.trans thinking) (by decide)
      · exact tool_use_accounts accounts kept turnId subagent _
      · exact absurd tool ‹typeOf block = some "tool_use" → False›
  · rw [if_neg tool]
    unfold Mapping.mapAssistantBlock
    split
    · exact kept.throws
    · split
      · exact kept.accounts
      · exact kept.accounts
      · contradiction
      · exact kept.accounts

/-- So are the blocks of a line. -/
theorem blocks_account
    (accounts : AccountsFor log replay) (kept : Kept mapping.state.tables ledger stack)
    (turnId : String) (subagent : Option String) (blocks : List Json) :
    Accounts ledger stack (Mapping.blocksLog minting log replay turnId subagent blocks mapping)
      (blocks.foldlM (fun mapping block => mapping.mapAssistantBlock minting replay turnId subagent block)
        mapping) := by
  induction blocks generalizing mapping ledger with
  | nil => exact kept.accounts
  | cons block rest inductionHypothesis =>
    rw [List.foldlM_cons]
    exact Accounts.bind (block_accounts accounts kept turnId subagent block)
      (fun next middle _ later => inductionHypothesis later)

/-- A result is accounted for after a change that keeps the tables. -/
theorem Accounts.returns {handled : List (Handling String Json)} {first : Result}
    (start : Accounts ledger stack handled first) {change : Mapping → Mapping}
    (same : ∀ mapping, (change mapping).state.tables = mapping.state.tables) :
    Accounts ledger stack handled (first >>= fun mapping => pure (change mapping)) := by
  cases first with
  | ok mapping =>
    obtain ⟨later, follows, kept⟩ := start
    exact ⟨later, follows, kept.grows (Registers.of_eq (same mapping))⟩
  | error failure => exact start

/-- An assistant line is accounted for. -/
theorem assistant_accounts (accounts : AccountsFor log replay)
    (kept : Kept mapping.state.tables ledger stack) (message : Json) (subagent : Option String) :
    Accounts ledger stack
      (Mapping.blocksLog minting log replay (mapping.ensureTurn minting).1 subagent
        (pickContentBlocks message) ((mapping.ensureTurn minting).2.maybeEmitSubagentStart minting
          (mapping.ensureTurn minting).1 subagent))
      (mapping.mapAssistant minting replay message subagent) := by
  have started : Kept ((mapping.ensureTurn minting).2.maybeEmitSubagentStart minting
      (mapping.ensureTurn minting).1 subagent).state.tables ledger stack :=
    kept.grows (Registers.of_eq ((subagent_start_tables minting _ _ _).trans (ensure_turn_tables minting _)))
  refine (blocks_account accounts started _ subagent _).returns (fun during => ?_)
  cases pickUsage message with
  | none => rfl
  | some usage => rfl

/-- Prompts of the user's own touch no table. -/
theorem prompt_blocks_tables (minting : Minting) (mapping : Mapping) (blocks : List Json) :
    (blocks.foldl (Mapping.mapPromptBlock minting) mapping).state.tables = mapping.state.tables := by
  induction blocks generalizing mapping with
  | nil => rfl
  | cons block rest inductionHypothesis =>
    refine (inductionHypothesis (mapping.mapPromptBlock minting block)).trans ?_
    unfold Mapping.mapPromptBlock
    split
    · split
      · rfl
      · rfl
    · cases imageEvent block with
      | none => rfl
      | some ev => rfl
    · rfl

/-- A prompt of the user's own closes the turn. -/
theorem user_text_accounts (kept : Kept mapping.state.tables ledger stack) (message : Json)
    (subagent : Option String) {content : String} (user : typeOf message = some "user")
    (shown : isMetaMessage message = false)
    (text : Schema.string (pickMessageContent message) = some content) :
    Accounts ledger stack (if closesTurn message then mapping.closeLog else [])
      (.ok (mapping.mapUserText minting message subagent content)) := by
  have closes : closesTurn message = (!isSidechainMessage message &&
      ((extractLocalCommandStdout content).isNone && !isLocalCommandInvocation content)) := by
    simp [closesTurn, user, shown, text]
  rw [closes]
  unfold Mapping.mapUserText
  cases stdout : extractLocalCommandStdout content with
  | some output =>
    simp only [Option.isNone_some, Bool.false_and, Bool.and_false, Bool.false_eq_true, ↓reduceIte]
    exact kept.accounts
  | none =>
    by_cases invocation : isLocalCommandInvocation content = true
    · simp only [invocation, Bool.not_true, Bool.and_false, Bool.false_eq_true, ↓reduceIte]
      exact kept.accounts
    · by_cases sidechain : isSidechainMessage message = true
      · simp only [sidechain, invocation, Bool.not_true, Bool.false_and, Bool.false_eq_true, ↓reduceIte]
        exact ⟨ledger, .nil ledger, kept.grows (Registers.of_eq
          ((subagent_start_tables minting _ _ _).trans (ensure_turn_tables minting mapping)))⟩
      · simp only [sidechain, invocation, Option.isNone_none, Bool.not_false, Bool.and_self, ↓reduceIte,
          Bool.false_eq_true]
        have closed : Accounts ledger stack mapping.closeLog (.ok (mapping.closeTurn minting .completed)) :=
          kept.close_turn .completed
        exact closed

/-- The mapping has these tables. -/
def HasTables (tables : Tables) (mapping : Mapping) : Prop := mapping.state.tables = tables

/-- A mapping that throws has these tables. -/
def ThrowsWith (tables : Tables) : Failure → Prop
  | .thrown state => state.tables = tables
  | .exhausted => True

/-- What keeps the tables is accounted for. -/
theorem Kept.unchanged (kept : Kept tables ledger stack) {result : Result}
    (keeps : Ensures (HasTables tables) (ThrowsWith tables) result) : Accounts ledger stack [] result := by
  cases result with
  | ok mapping =>
    have same : mapping.state.tables = tables := keeps
    exact (kept.grows (Registers.of_eq same)).accounts
  | error failure =>
    cases failure with
    | exhausted => trivial
    | thrown state =>
      have same : state.tables = tables := keeps
      exact (kept.grows (Registers.of_eq same)).throws

/-- An image keeps the tables. -/
theorem image_tables (has : HasTables tables mapping) (turnId : String)
    (subagent : Option String) (block : Json) :
    HasTables tables ((imageEvent block).elim mapping (mapping.emitIn minting turnId subagent)) := by
  cases imageEvent block with
  | none => exact has
  | some ev => exact has

/-- A tool's result keeps the tables. -/
theorem tool_result_tables (has : HasTables tables mapping) (turnId : String)
    (subagent : Option String) (block : Json) :
    Ensures (HasTables tables) (ThrowsWith tables)
      (mapping.mapToolResult minting turnId subagent block) := by
  unfold Mapping.mapToolResult
  split
  · exact has
  · rename_i providerCallId _
    have stopped : HasTables tables ((mapping.state.lookupSubagentId providerCallId).elim mapping
        (mapping.maybeEmitSubagentStop minting turnId)) := by
      cases mapping.state.lookupSubagentId providerCallId with
      | none => exact has
      | some subagent => exact (subagent_stop_tables minting mapping turnId subagent).trans has
    simp only
    split
    · exact stopped
    · have ended := (minted_call_tables minting _ providerCallId).trans stopped
      split
      · apply Ensures.fold (HasTables tables)
        · exact ended
        · intro item _ during held
          unfold Mapping.mapNestedImage
          split
          · exact held
          · simp only [Ensures.ok]
            split
            · exact image_tables held turnId subagent item
            · exact held
      · exact ended

/-- A block that reports to the agent keeps the tables. -/
theorem result_block_tables (has : HasTables tables mapping) (turnId : String)
    (subagent : Option String) (block : Json) :
    Ensures (HasTables tables) (ThrowsWith tables)
      (mapping.mapResultBlock minting turnId subagent block) := by
  unfold Mapping.mapResultBlock
  split
  · exact has
  · split
    · exact tool_result_tables has turnId subagent _
    · simp only [Ensures.ok]
      split
      · exact has
      · exact has
    · exact image_tables has turnId subagent _
    · exact has

/-- Prompts in blocks close the turn too. -/
theorem user_blocks_account (kept : Kept mapping.state.tables ledger stack) (message : Json)
    (subagent : Option String) (user : typeOf message = some "user")
    (shown : isMetaMessage message = false) (noText : Schema.string (pickMessageContent message) = none) :
    Accounts ledger stack (if closesTurn message then mapping.closeLog else [])
      (mapping.mapUserBlocks minting message subagent (pickContentBlocks message)) := by
  have closes : closesTurn message = (!isSidechainMessage message &&
      (!(pickContentBlocks message).isEmpty &&
        decide (someToolResult (pickContentBlocks message) = some false))) := by
    simp [closesTurn, user, shown, noText]
  rw [closes]
  unfold Mapping.mapUserBlocks
  by_cases empty : (pickContentBlocks message).isEmpty = true
  · simp only [empty, Bool.not_true, Bool.false_and, Bool.and_false, Bool.false_eq_true, ↓reduceIte]
    exact kept.accounts
  · simp only [empty, Bool.not_false, Bool.true_and, Bool.false_eq_true, ↓reduceIte]
    cases found : someToolResult (pickContentBlocks message) with
    | none =>
      simp only [reduceCtorEq, decide_false, Bool.and_false, Bool.false_eq_true, ↓reduceIte]
      exact kept.throws
    | some hasToolResult =>
      by_cases prompt : (!isSidechainMessage message && !hasToolResult) = true
      · have closing : (!isSidechainMessage message && decide (some hasToolResult = some false)) = true := by
          simpa using prompt
        simp only [prompt, closing, ↓reduceIte]
        obtain ⟨later, follows, closed⟩ :
          Accounts ledger stack mapping.closeLog (.ok (mapping.closeTurn minting .completed)) :=
            kept.close_turn .completed
        exact ⟨later, follows, closed.grows (Registers.of_eq (prompt_blocks_tables minting _ _))⟩
      · have closing : (!isSidechainMessage message && decide (some hasToolResult = some false)) = false := by
          simpa using prompt
        simp only [prompt, closing, Bool.false_eq_true, ↓reduceIte]
        refine kept.unchanged (Ensures.fold (HasTables mapping.state.tables) ?_ ?_)
        · split
          · exact (subagent_start_tables minting _ _ _).trans (ensure_turn_tables minting mapping)
          · exact ensure_turn_tables minting mapping
        · exact fun block _ during has => result_block_tables has _ subagent block

/-- A line that does not wait is accounted for. -/
theorem resolved_accounts
    (accounts : AccountsFor log replay) (kept : Kept mapping.state.tables ledger stack)
    (message : Json) (subagent : Option String) :
    Accounts ledger stack (Mapping.resolvedLog minting log replay message subagent mapping)
      (mapping.mapResolved minting replay message subagent) := by
  unfold Mapping.resolvedLog
  by_cases assistant : typeOf message = some "assistant"
  · unfold Mapping.mapResolved
    simp only [assistant, ↓reduceIte]
    split
    · exact kept.accounts
    · exact assistant_accounts accounts kept message subagent
  · rw [if_neg assistant]
    by_cases user : typeOf message = some "user"
    · unfold Mapping.mapResolved
      simp only [user]
      by_cases hidden : isMetaMessage message = true
      · have plain : closesTurn message = false := by simp [closesTurn, hidden]
        simp only [plain, hidden, Bool.false_eq_true, ↓reduceIte]
        exact kept.accounts
      · have shown : isMetaMessage message = false := by simpa using hidden
        rw [if_neg hidden]
        cases text : Schema.string (pickMessageContent message) with
        | some content => exact user_text_accounts kept message subagent user shown text
        | none => exact user_blocks_account kept message subagent user shown text
    · have plain : closesTurn message = false := by simp [closesTurn, user]
      have skipped : mapping.mapResolved minting replay message subagent = .ok mapping := by
        unfold Mapping.mapResolved
        split
        · contradiction
        · contradiction
        · rfl
      simp only [plain, skipped, Bool.false_eq_true, ↓reduceIte]
      exact kept.accounts

/-! ## Lines -/

/-- The tables once a line is known to belong to a tool call. -/
def Tables.remember (tables : Tables) (message : Json) (provider : String) : Tables :=
  { tables with uuids := match pickUuid message with
      | some uuid => tables.uuids.set uuid provider
      | none => tables.uuids }

/-- The tool call of a line is that of the last line with its identifier. -/
theorem remember_get (tables : Tables) (message : Json) (provider uuid : String) :
    (tables.remember message provider).uuids.get? uuid =
      if pickUuid message = some uuid then some provider else tables.uuids.get? uuid := by
  unfold Tables.remember
  cases pickUuid message with
  | none => rfl
  | some own =>
    simp only [OrderedMap.get_set, Option.some.injEq]
    by_cases same : uuid = own
    · rw [if_pos same, if_pos same.symm]
    · rw [if_neg same, if_neg (Ne.symm same)]

variable {tables : Tables} {waiting : OrderedMap String (List Json)} {message : Json} {left : List Json}
  {mayWait : Bool} {outer : List (Round Json)} {lost : List Json}

/-- A line that belongs to no tool call is mapped; it was not taken from a queue that is ready. -/
theorem Kept.maps_free
    (kept : Kept tables ⟨waiting, ⟨message :: left, mayWait⟩ :: outer, lost⟩ ((message :: left) :: stack))
    (free : mayWait = true) :
    Kept tables ⟨waiting, ⟨left, mayWait⟩ :: outer, lost⟩ (left :: stack) where
  traced := kept.traced
  waiting := kept.waiting
  left := congrArg (left :: ·) (List.cons.inj kept.left).2
  ready round member := by
    obtain rfl | later := List.mem_cons.mp member
    · exact .inl free
    · exact kept.ready round (List.mem_cons_of_mem _ later)
  nested := List.pairwise_cons.mpr (List.pairwise_cons.mp kept.nested)

/-- A line whose tool call has been seen is mapped, and those that name it as their parent will be. -/
theorem Kept.maps
    (kept : Kept tables ⟨waiting, ⟨message :: left, mayWait⟩ :: outer, lost⟩ ((message :: left) :: stack))
    (named : provider ≠ "") (known : Registered tables provider) :
    Kept (tables.remember message provider) ⟨waiting, ⟨left, mayWait⟩ :: outer, lost⟩
      (left :: stack) := by
  have own : ∀ uuid, pickUuid message = some uuid → Placed (tables.remember message provider) uuid :=
    fun uuid same => ⟨provider, by rw [remember_get, if_pos same], named, known⟩
  have placed : ∀ uuid, Placed tables uuid → Placed (tables.remember message provider) uuid := by
    rintro uuid ⟨owner, held, nonEmpty, seen⟩
    by_cases same : pickUuid message = some uuid
    · exact own uuid same
    · exact ⟨owner, by rw [remember_get, if_neg same, held], nonEmpty, seen⟩
  refine ⟨⟨fun uuid owner held => ?_, kept.traced.anchored, kept.traced.prompted⟩, kept.waiting,
    congrArg (left :: ·) (List.cons.inj kept.left).2, fun round member => ?_,
    List.pairwise_cons.mpr (List.pairwise_cons.mp kept.nested)⟩
  · rw [remember_get] at held
    split at held
    · exact .inl (Option.some.inj held ▸ known)
    · exact kept.traced.inherited uuid owner held
  · obtain rfl | later := List.mem_cons.mp member
    · refine (kept.ready _ List.mem_cons_self).imp_right (fun ready => ?_)
      exact AllDescend.mono ready.2 (fun _ explicit => explicit)
        (fun uuid accepted => accepted.elim (placed uuid) (own uuid))
    · exact (kept.ready round (List.mem_cons_of_mem _ later)).imp_right
        (fun ready => ready.mono (fun _ seen => seen) placed)

/-- A line whose tool call has not been seen waits for it, behind those that it may name as its parent. -/
theorem Kept.waits
    (kept : Kept tables ⟨waiting, ⟨message :: left, true⟩ :: outer, lost⟩ ((message :: left) :: stack))
    (unknown : ¬ Registered tables provider)
    (source : Descends (fun message => pickExplicitProviderSubagent message = some provider)
      (fun uuid => tables.uuids.get? uuid = some provider) message) :
    Kept { tables.remember message provider with
        waiting := tables.waiting.set provider (tables.waitingFor provider ++ [message]) }
      ⟨waiting.set provider ((waiting.get? provider).getD [] ++ [message]), ⟨left, true⟩ :: outer, lost⟩
      (left :: stack) := by
  obtain rfl : waiting = tables.waiting := kept.waiting
  have queues : ∀ tested, Tables.waitingFor { tables.remember message provider with
      waiting := tables.waiting.set provider (tables.waitingFor provider ++ [message]) } tested =
        if tested = provider then tables.waitingFor provider ++ [message]
        else tables.waitingFor tested := by
    intro tested
    simp only [Tables.waitingFor, OrderedMap.get_set]
    split
    · rfl
    · rfl
  have last : Descends (fun message => pickExplicitProviderSubagent message = some provider)
      (fun uuid => False ∨ ∃ earlier ∈ tables.waitingFor provider, pickUuid earlier = some uuid)
      message := by
    obtain explicit | ⟨implicit, uuid, parent, held⟩ := source
    · exact .inl explicit
    · exact .inr ⟨implicit, uuid, parent,
        .inr ((kept.traced.inherited uuid provider held).resolve_left unknown)⟩
  obtain ⟨free, rest⟩ := List.pairwise_cons.mp kept.nested
  refine ⟨⟨fun uuid owner held => ?_, fun owner => ?_, kept.traced.prompted⟩, rfl,
    congrArg (left :: ·) (List.cons.inj kept.left).2, fun round member => ?_,
    List.pairwise_cons.mpr ⟨free, rest⟩⟩
  · rw [queues]
    have found := (remember_get tables message provider uuid).symm.trans held
    split at found
    · rename_i own
      cases found
      rw [if_pos rfl]
      exact .inr ⟨message, List.mem_append_right _ (List.mem_singleton.mpr rfl), own⟩
    · refine (kept.traced.inherited uuid owner found).imp_right ?_
      rintro ⟨earlier, queued, own⟩
      refine ⟨earlier, ?_, own⟩
      split
      · rename_i same
        exact List.mem_append_left _ (same ▸ queued)
      · exact queued
  · rw [queues]
    split
    · rename_i same
      subst same
      exact AllDescend.append (kept.traced.anchored owner) last
    · exact kept.traced.anchored owner
  · obtain rfl | later := List.mem_cons.mp member
    · exact .inl rfl
    · exact .inl (free round later rfl)

/-- Remembering the tool call of a line. -/
theorem remembered_tables (state : MapperState) (message : Json) (provider : String) :
    (state.rememberSubagentForMessage message (some provider)).tables =
      state.tables.remember message provider := by
  unfold MapperState.rememberSubagentForMessage Tables.remember
  cases pickUuid message with
  | none => rfl
  | some uuid => rfl

/-- Remembering the tool call of a line, which then waits for it. -/
theorem buffered_tables (state : MapperState) (message : Json) (provider : String) :
    ((state.rememberSubagentForMessage message (some provider)).bufferForSubagent provider
      message).tables = { state.tables.remember message provider with
        waiting := state.tables.waiting.set provider (state.tables.waitingFor provider ++ [message]) } := by
  unfold MapperState.rememberSubagentForMessage Tables.remember
  cases pickUuid message with
  | none => rfl
  | some uuid => rfl

/-- Every line is accounted for, to any depth of replays. -/
theorem line_accounts (minting : Minting) (fuel : Nat) :
    AccountsFor (lineLog minting fuel) (mapLine minting fuel) := by
  induction fuel with
  | zero => exact fun _ _ _ _ _ _ => trivial
  | succ fuel inductionHypothesis =>
    rintro message state ⟨waiting, rounds, lost⟩ left stack kept
    obtain ⟨⟨found, mayWait⟩, outer, rfl, first, -⟩ := List.map_eq_cons_iff.mp kept.left
    obtain rfl : found = message :: left := first
    obtain ⟨prompted, source⟩ := resolve_traced kept.traced message
    obtain ⟨prompts, resolved⟩ := resolve_state state message
    have placing := kept.ready _ List.mem_cons_self
    have placed : mayWait = true ∨ ∃ provider, state.resolveProviderSubagent message =
        (some provider, state) ∧ provider ≠ "" ∧ Registered state.tables provider :=
      placing.imp_right (fun ready => resolve_ready ready.1)
    have grows : Registers state.tables (state.resolveProviderSubagent message).2.tables := by
      refine ⟨by rw [resolved]; rfl, by rw [resolved]; rfl, ?_, fun _ => prompted⟩
      rw [resolved]
      exact fun _ known => known
    have kept := kept.grows grows
    unfold lineLog mapLine
    simp only
    cases owner : (state.resolveProviderSubagent message).1 with
    | none =>
      have free : mayWait = true := by
        obtain free | ⟨provider, ready, -⟩ := placed
        · exact free
        · rw [ready] at owner
          contradiction
      refine Accounts.after (Ledger.Step.maps waiting lost message left mayWait outer).follows ?_
      exact resolved_accounts inductionHypothesis (kept.maps_free free) message none
    | some provider =>
      obtain ⟨named, origin⟩ := source provider owner
      simp only [Option.bind_some]
      cases seen : (state.resolveProviderSubagent message).2.lookupSubagentId provider with
      | some subagent =>
        refine Accounts.after (Ledger.Step.maps waiting lost message left mayWait outer).follows ?_
        refine resolved_accounts inductionHypothesis ?_ message (some subagent)
        rw [remembered_tables]
        exact kept.maps named ⟨subagent, seen⟩
      | none =>
        have unknown : ¬ Registered (state.resolveProviderSubagent message).2.tables provider := by
          rintro ⟨subagent, found⟩
          exact absurd (seen.symm.trans found) (by simp)
        obtain rfl : mayWait = true := by
          obtain free | ⟨other, ready, -, known⟩ := placed
          · exact free
          · rw [ready] at owner unknown
            exact absurd (Option.some.inj owner ▸ known) unknown
        have origin : Descends (fun message => pickExplicitProviderSubagent message = some provider)
            (fun uuid => (state.resolveProviderSubagent message).2.tables.uuids.get? uuid = some provider)
            message := by
          rw [grows.uuids]
          exact origin.resolve_right (fun known => unknown (grows.known provider known))
        refine ⟨_, (Ledger.Step.waits waiting lost provider message left outer).follows, ?_⟩
        rw [buffered_tables]
        exact kept.waits unknown origin

/-! ## Sessions -/

/-- Between two calls no queue is being handled. -/
def AtRest (tables : Tables) (ledger : Ledger String Json) : Prop :=
  Traced tables ∧ ledger.waiting = tables.waiting ∧ ledger.rounds = []

/-- A call that begins at rest ends at rest. -/
theorem call_accounts {mapped next : Mapped} {ledger : Ledger String Json} {call : MapperCall}
    (rest : AtRest mapped.state.tables ledger) (taken : Mapped.step minting mapped call = some next) :
    ∃ later, Ledger.Follows ledger (callLog minting mapped.state call) later ∧
      AtRest next.state.tables later := by
  obtain ⟨waiting, rounds, lost⟩ := ledger
  obtain ⟨traced, same, none⟩ := rest
  obtain rfl : rounds = [] := none
  cases call with
  | close status =>
    cases taken
    have kept : Kept mapped.state.tables ⟨waiting, [], lost⟩ [] :=
      ⟨traced, same, rfl, by rintro _ ⟨⟩, List.Pairwise.nil⟩
    obtain ⟨later, follows, closed⟩ : Accounts ⟨waiting, [], lost⟩ []
        (Mapping.closeLog ⟨mapped.state, []⟩)
        (.ok (Mapping.closeTurn minting ⟨mapped.state, []⟩ status)) := kept.close_turn status
    exact ⟨later, follows, closed.traced, closed.waiting, List.map_eq_nil_iff.mp closed.left⟩
  | line message =>
    have kept : Kept mapped.state.tables ⟨waiting, [⟨[message], true⟩], lost⟩ [[message]] := by
      refine ⟨traced, same, rfl, ?_, List.pairwise_singleton _ _⟩
      intro round member
      obtain rfl := List.mem_singleton.mp member
      exact .inl rfl
    have handled := line_accounts minting (mapped.state.buffered.length + 1) message mapped.state _ _ _ kept
    have ends := mapper_ends minting message mapped.state
    have arrival := (Ledger.Step.arrives waiting lost message).follows
    simp only [Mapped.step] at taken
    simp only [callLog]
    cases answer : mapClaudeToEnvelopes minting message mapped.state with
    | ok mapping =>
      rw [answer] at taken
      cases taken
      rw [mapClaudeToEnvelopes] at answer
      rw [answer] at handled
      obtain ⟨⟨waiting, rounds, lost⟩, follows, during⟩ := handled
      obtain ⟨⟨left, mayWait⟩, outer, rfl, empty, nothing⟩ := List.map_eq_cons_iff.mp during.left
      obtain rfl : left = [] := empty
      obtain rfl : outer = [] := List.map_eq_nil_iff.mp nothing
      exact ⟨_, arrival.append (follows.append (Ledger.Step.ends waiting mayWait [] lost).follows),
        during.traced, during.waiting, rfl⟩
    | error failure =>
      rw [answer] at taken
      rw [mapClaudeToEnvelopes] at answer
      rw [answer] at handled
      cases failure with
      | exhausted => contradiction
      | thrown state =>
        cases taken
        obtain ⟨⟨waiting, rounds, lost⟩, follows, traced, same⟩ := handled
        exact ⟨_, arrival.append (follows.append (Ledger.Step.throws waiting rounds lost).follows), traced,
          same, rfl⟩

/-- A session of calls is accounted for. -/
theorem calls_account (minting : Minting) (calls : List MapperCall) (mapped : Mapped)
    (ledger : Ledger String Json) (rest : AtRest mapped.state.tables ledger) :
    ∃ final later, Runs.run (Mapped.step minting) mapped calls = some final ∧
      Ledger.Follows ledger (handlings minting mapped calls) later ∧ AtRest final.state.tables later := by
  induction calls generalizing mapped ledger with
  | nil => exact ⟨mapped, ledger, rfl, .nil ledger, rest⟩
  | cons call calls inductionHypothesis =>
    obtain ⟨next, taken⟩ := step_answers minting mapped call
    obtain ⟨middle, follows, atRest⟩ := call_accounts rest taken
    obtain ⟨final, later, ran, after, ends⟩ := inductionHypothesis next middle atRest
    refine ⟨final, later, ?_, ?_, ends⟩
    · rw [Runs.run, taken]
      exact ran
    · simp only [handlings, taken]
      exact follows.append after

/-- Whether an assistant line holds the tool call. -/
def callsTool (parent : String) (line : Json) : Bool :=
  decide (typeOf line = some "assistant") && (pickContentBlocks line).any (fun block =>
    decide (typeOf block = some "tool_use" ∧ nonEmptyString (block.field? "id") = some parent))

/-- The tool call that a sidechain line waits for, and the line's identifier. -/
def waitingUuid : Handling String Json → Option (String × Option String)
  | .waits parent message => if isSidechainMessage message then some (parent, pickUuid message) else none
  | _ => none

/-- The identifier of a line that is mapped. -/
def mappedUuid : Handling String Json → Option String
  | .maps message => pickUuid message
  | _ => none

/-- A line of a subagent, the agent's text and the user's prompt, before the subagent's tool call. -/
def orphanedLines : List Json := [
  transcriptLine "assistant" "o1" (.arr [.obj [("type", .str "text"), ("text", .str "working")]])
    [("isSidechain", .bool true), ("parent_tool_use_id", .str "toolu_1")],
  transcriptLine "assistant" "a0" (.arr [.obj [("type", .str "text"), ("text", .str "hello")]]) [],
  transcriptLine "user" "u1" (.str "go on") []]

end Kvy.Cli.Claude
