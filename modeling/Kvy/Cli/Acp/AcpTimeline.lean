import Kvy.Cli.Acp.AcpSession

/-!
# What a permission handler puts onto the timeline

A permission handler writes requests and their resolutions and nothing else. Its envelopes belong
to no turn and to no subagent.
-/

namespace Kvy.Cli.Acp

open General Wire Permissions
open Claude (Minting)

/-- A request or its resolution. -/
def IsPermission : SessionEvent → Prop
  | .permRequest _ _ _ _ _ _ | .permResolve _ _ => True
  | _ => False

/-- Only requests and their resolutions have been written. -/
structure PermissionsOnly (ledger : PermissionLedger PermissionOutcome) : Prop where
  events : ∀ ev, .emitEnvelope ev ∈ ledger.calls → IsPermission ev

namespace PermissionsOnly
variable {ledger : PermissionLedger PermissionOutcome}

theorem call (only : PermissionsOnly ledger) {called : PermissionCall PermissionOutcome}
    (allowed : ∀ ev, called = .emitEnvelope ev → IsPermission ev) :
    PermissionsOnly (ledger.call called) where
  events := by
    intro ev member
    rcases List.mem_append.mp member with before | now
    · exact only.events ev before
    · exact allowed ev (List.mem_singleton.mp now).symm

/-- A call that is no envelope writes nothing. -/
theorem quiet (only : PermissionsOnly ledger) {called : PermissionCall PermissionOutcome}
    (silent : ∀ ev, called ≠ .emitEnvelope ev) : PermissionsOnly (ledger.call called) :=
  only.call (fun ev same => absurd same (silent ev))

theorem publish (only : PermissionsOnly ledger) : PermissionsOnly ledger.publishAgentState :=
  only.quiet (by rintro _ ⟨⟩)

theorem open_request (only : PermissionsOnly ledger) (reqId : String) (request : AgentStateRequest)
    (modes : List PermissionMode) (answerable : Bool) :
    PermissionsOnly (ledger.openRequest reqId request modes answerable) := by
  have recorded : PermissionsOnly { ledger with requests := ledger.requests.set reqId request } :=
    ⟨only.events⟩
  refine recorded.publish.call ?_
  rintro _ ⟨⟩
  trivial

theorem finish_request (only : PermissionsOnly ledger) (reqId : String) (decision : PermDecision)
    (status : CompletedStatus) (now : Decimal) :
    PermissionsOnly (ledger.finishRequest reqId decision status now) := by
  have resolution : ∀ ev, PermissionCall.emitEnvelope (.permResolve reqId decision) =
      (.emitEnvelope ev : PermissionCall PermissionOutcome) → IsPermission ev := by
    rintro _ ⟨⟩
    trivial
  unfold PermissionLedger.finishRequest
  cases ledger.requests.get? reqId with
  | none => exact only.call resolution
  | some request =>
    have moved : PermissionsOnly { ledger with
        requests := ledger.requests.delete reqId
        completedRequests := ledger.completedRequests.set reqId
          { toAgentStateRequest := request, completedAt := now, status, decision } } :=
      ⟨only.events⟩
    exact moved.publish.call resolution

end PermissionsOnly

namespace AcpPermissionHandler
variable {handler : AcpPermissionHandler}

theorem only_report (only : PermissionsOnly handler.ledger) (kind : SessionAttentionKind) :
    PermissionsOnly (handler.reportAttention kind).ledger := by
  unfold reportAttention
  split
  · exact only.quiet (by rintro _ ⟨⟩)
  · exact only

theorem only_conclude (only : PermissionsOnly handler.ledger) (reqId : String)
    (decision : PermDecision) (status : CompletedStatus) (now : Decimal)
    (outcome : PermissionOutcome) :
    PermissionsOnly (handler.conclude reqId decision status now outcome).ledger :=
  (only.finish_request reqId decision status now).quiet (by rintro _ ⟨⟩)

theorem only_mode (only : PermissionsOnly handler.ledger) (decision : PermDecision) :
    PermissionsOnly (handler.modeChange decision).ledger := by
  cases decision with
  | mode mode => exact only.quiet (by rintro _ ⟨⟩)
  | allow | deny => exact only

/-- A handler writes requests and resolutions only. -/
theorem only_step (only : PermissionsOnly handler.ledger) (event : Event) :
    PermissionsOnly (handler.step event).ledger := by
  cases event with
  | request reqId toolCall options aborted now =>
    simp only [step, handleRequest]
    split
    · exact (only_report only _).quiet (by rintro _ ⟨⟩)
    · exact (only_report only _).open_request ..
  | resolve reqId decision now =>
    simp only [step, resolve]
    split
    · exact only
    · rename_i pending _
      have removed : PermissionsOnly (handler.remove reqId).ledger := only
      exact only_conclude (only_mode removed decision) ..
  | abort reqId now =>
    simp only [step, abort]
    split
    · split
      · exact only
      · exact only_conclude ⟨only.events⟩ ..
    · exact only
  | reset reason clock =>
    have closed (entries : List (String × PendingAcpRequest)) (closing : AcpPermissionHandler)
        (held : PermissionsOnly closing.ledger) :
        PermissionsOnly (entries.foldl (fun closing entry => closing.conclude entry.1
          (.deny (some (reason.getD "Session switched to local mode"))) .canceled (clock entry.1)
          .cancelled) closing).ledger := by
      induction entries generalizing closing with
      | nil => exact held
      | cons entry rest inductionHypothesis =>
        exact inductionHypothesis _ (only_conclude held ..)
    exact closed handler.pending.entries handler only
  | reportTurnEnd => exact only_report only _

end AcpPermissionHandler

/-- The envelopes of a permission event are requests and resolutions outside of turns. -/
theorem handled_envelopes (minting : Minting) {session : AcpSession}
    (only : PermissionsOnly session.handler.ledger) (event : AcpPermissionHandler.Event) :
    ∀ env ∈ (session.handled minting event).envelopes,
      env.turn = none ∧ env.subagent = none ∧ IsPermission env.ev := by
  intro env member
  obtain ⟨index, bound, rfl⟩ := List.mem_mapIdx.mp member
  refine ⟨rfl, rfl, ?_⟩
  have picked := List.getElem_mem bound
  obtain ⟨called, listed, isEvent⟩ := List.mem_filterMap.mp picked
  have recorded := List.mem_of_mem_drop listed
  cases called with
  | emitEnvelope ev =>
    have same := Option.some.inj isEvent
    rw [← same]
    exact (AcpPermissionHandler.only_step only event).events ev recorded
  | onAgentStateChange | onModeChange | attention | onPromptLikely | modeEcho | settle =>
    contradiction

end Kvy.Cli.Acp
