import Kvy.Cli.Claude.SubagentIds
import Kvy.Web.Sync.Reducer.Refetch
import Kvy.Web.Sync.Reducer.SubagentOrder

/-!
# Subagents of the transcript mapper in the reducer

The reducer gives a tool the items of the scope whose subagent is the tool's call. The mapper never
tags an envelope with a call, so whatever it maps, no tool holds a subagent and every tagged envelope
is shown in a group that stands alone.
-/

namespace Kvy.Cli.Claude

open General Wire Web.Sync

/-- An envelope shows below the tool of a call. -/
def ShowsBelow (tree : List RenderItem) (call : String) (env : SessionEnvelope) : Prop :=
  ∃ base started permission items, .tool base started permission (some items) ∈ nodesOf tree ∧
    started.call = call ∧ ∃ item ∈ nodesOf items, item.base = baseOf env

/-- Without a tool whose call tags an envelope nothing is linked. -/
theorem links_nothing {sorted : List SessionEnvelope}
    (apart : ∀ start ∈ sorted, ∀ call, startedCall? start = some call →
      ∀ env ∈ sorted, env.subagent ≠ some call) :
    links (reduceSorted sorted) = [] ∧ ∀ env ∈ sorted, ∀ subagent, env.subagent = some subagent →
      (subagent, reduceScope (scopeOf (some subagent) sorted)) ∈ groups (reduceSorted sorted) := by
  have whole := reduce_sorted_whole sorted
  have grouped {subagent : String} (occurs : ∃ env ∈ sorted, env.subagent = some subagent) :
      subagent ∈ (groups (reduceSorted sorted)).map Prod.fst := by
    rw [stands_alone_iff occurs]
    rintro ⟨start, member, starts, _⟩
    obtain ⟨env, tagged, same⟩ := occurs
    exact apart start member subagent starts env tagged same
  have placedKeys := whole.placed.map Prod.fst
  rw [List.map_append, List.map_map] at placedKeys
  have distinct := placedKeys.nodup_iff.mpr (subagentScopes sorted).distinct
  have occurs {entry : String × List RenderItem}
      (placed : entry ∈ links (reduceSorted sorted) ++ groups (reduceSorted sorted)) :
      ∃ env ∈ sorted, env.subagent = some entry.1 := by
    rw [← subagent_scopes_keys, OrderedMap.keys]
    obtain ⟨scope, member, rfl⟩ := List.mem_map.mp (whole.placed.mem_iff.mp placed)
    exact List.mem_map_of_mem member
  have none : links (reduceSorted sorted) = [] := by
    rw [List.eq_nil_iff_forall_not_mem]
    intro entry linked
    have alone := grouped (occurs (List.mem_append_left _ linked))
    exact (List.nodup_append.mp distinct).2.2 entry.1 (List.mem_map_of_mem linked) entry.1 alone rfl
  refine ⟨none, ?_⟩
  intro env member subagent tagged
  have key := (subagent_scopes_keys sorted subagent).mpr ⟨env, member, tagged⟩
  obtain ⟨entry, listed, rfl⟩ := List.mem_map.mp key
  have placed : (entry.1, reduceScope (scopeOf (some entry.1) sorted)) ∈
      links (reduceSorted sorted) ++ groups (reduceSorted sorted) := by
    rw [whole.placed.mem_iff, List.mem_map]
    exact ⟨entry, listed, by rw [(subagent_scopes_entry listed).1]⟩
  rwa [none, List.nil_append] at placed

/-- Envelopes that are mapped under tools show below them only when there are none: whichever
envelopes `under` says belong to the messages below the tool of a start. Every tagged envelope shows in
a group that stands alone. -/
theorem mapped_subagents_iff (minting : Minting) (requests : List MapperCall) (mapped : Mapped)
    (ran : Runs.run (Mapped.step minting) Mapped.fresh requests = some mapped)
    (under : SessionEnvelope → SessionEnvelope → Prop) :
    ((∀ start ∈ mapped.output, ∀ call, startedCall? start = some call →
        ∀ env ∈ mapped.output, under start env →
          ShowsBelow (reduceEnvelopes mapped.output) call env) ↔
      ∀ start ∈ mapped.output, (startedCall? start).isSome → ∀ env ∈ mapped.output, ¬ under start env) ∧
    ∀ env ∈ stableSortByTime SessionEnvelope.time (dedupeById mapped.output), ∀ subagent,
      env.subagent = some subagent →
        (subagent, reduceScope (scopeOf (some subagent)
          (stableSortByTime SessionEnvelope.time (dedupeById mapped.output)))) ∈
            groups (reduceEnvelopes mapped.output) := by
  have kept : ∀ env ∈ stableSortByTime SessionEnvelope.time (dedupeById mapped.output),
      env ∈ mapped.output := by
    intro env member
    rw [stableSortByTime, sort_indexed, (sort_perm _ _).mem_iff, dedupe_keepFirst] at member
    exact mem_of_mem_keepFirst member
  obtain ⟨nothing, alone⟩ := links_nothing (fun start member call starts env tagged => by
    obtain ⟨name, title, args, risk, kind⟩ :
        ∃ name title args risk, start.ev = .toolStart call name title args risk := by
      unfold startedCall? at starts
      grind
    exact calls_tag_nothing ran (kept start member) kind (kept env tagged))
  refine ⟨⟨?_, ?_⟩, alone⟩
  · intro shows start member starts env tagged attributed
    obtain ⟨call, starts⟩ := Option.isSome_iff_exists.mp starts
    obtain ⟨base, started, permission, items, below, _⟩ := shows start member call starts env tagged attributed
    have linked : (started.call, items.map RenderItem.alone) ∈ links (reduceEnvelopes mapped.output) :=
      List.mem_filterMap.mpr ⟨_, below, rfl⟩
    rw [reduceEnvelopes, nothing] at linked
    exact absurd linked List.not_mem_nil
  · intro none start member call starts env tagged attributed
    exact absurd attributed (none start member (by simp [starts]) env tagged)

/-- An agent is spawned, and answers. -/
def agentLines : List Json :=
  [transcriptLine "assistant" "a1" (.arr [
    .obj [("type", .str "tool_use"), ("id", .str "toolu_1"), ("name", .str "Agent")]]) [],
  transcriptLine "assistant" "a2" (.arr [.obj [("type", .str "text"), ("text", .str "hello")]])
    [("isSidechain", .bool true), ("parent_tool_use_id", .str "toolu_1")]]

/-- The subagent's identifier is not the call's: its text stands alone although the tool is shown. -/
theorem agent_stands_alone :
    ∃ mapped call subagent, Runs.run (Mapped.step unaryMinting) Mapped.fresh (agentLines.map .line) =
        some mapped ∧
      mapped.state.providerCallIds.get? "toolu_1" = some call ∧
      mapped.state.providerSubagentIds.get? "toolu_1" = some subagent ∧
      (∃ start ∈ mapped.output, startedCall? start = some call) ∧
      (∃ env ∈ mapped.output, env.subagent = some subagent ∧
        ¬ ShowsBelow (reduceEnvelopes mapped.output) call env) ∧
      subagent ∈ (groups (reduceEnvelopes mapped.output)).map Prod.fst := by
  have trace : (Runs.run (Mapped.step unaryMinting) Mapped.fresh (agentLines.map .line)).map
      (fun mapped => [(mapped.state.providerCallIds.get? "toolu_1").toList,
        (mapped.state.providerSubagentIds.get? "toolu_1").toList, mapped.output.filterMap startedCall?,
        mapped.output.filterMap SessionEnvelope.subagent,
        (groups (reduceEnvelopes mapped.output)).map Prod.fst,
        (links (reduceEnvelopes mapped.output)).map Prod.fst]) =
      some [["xxxx"], ["xxx"], ["xxxx"], ["xxx", "xxx"], ["xxx"], []] := by
    decide +kernel
  obtain ⟨mapped, ran, shown⟩ := Option.map_eq_some_iff.mp trace
  simp only [List.cons.injEq, Option.toList_eq_singleton_iff, List.map_eq_nil_iff, and_true] at shown
  obtain ⟨call, subagent, starts, tags, alone, nothing⟩ := shown
  refine ⟨mapped, "xxxx", "xxx", ran, call, subagent, ?_, ?_, by simp [alone]⟩
  · have started : "xxxx" ∈ mapped.output.filterMap startedCall? := by simp [starts]
    exact List.mem_filterMap.mp started
  · have tagged : "xxx" ∈ mapped.output.filterMap SessionEnvelope.subagent := by simp [tags]
    obtain ⟨env, member, same⟩ := List.mem_filterMap.mp tagged
    refine ⟨env, member, same, ?_⟩
    rintro ⟨base, started, permission, items, below, _⟩
    have linked : (started.call, items.map RenderItem.alone) ∈ links (reduceEnvelopes mapped.output) :=
      List.mem_filterMap.mpr ⟨_, below, rfl⟩
    rw [nothing] at linked
    exact absurd linked List.not_mem_nil

/-- The rendering of that session. -/
theorem agent_subagents :
    ∃ mapped, Runs.run (Mapped.step unaryMinting) Mapped.fresh (agentLines.map .line) = some mapped ∧
      ∀ env ∈ stableSortByTime SessionEnvelope.time (dedupeById mapped.output), ∀ subagent,
        env.subagent = some subagent →
          (subagent, reduceScope (scopeOf (some subagent)
            (stableSortByTime SessionEnvelope.time (dedupeById mapped.output)))) ∈
              groups (reduceEnvelopes mapped.output) := by
  have answers : (Runs.run (Mapped.step unaryMinting) Mapped.fresh (agentLines.map .line)).isSome = true := by
    decide +kernel
  obtain ⟨mapped, ran⟩ := Option.isSome_iff_exists.mp answers
  exact ⟨mapped, ran, (mapped_subagents_iff unaryMinting _ mapped ran (fun _ _ => True)).2⟩

end Kvy.Cli.Claude
