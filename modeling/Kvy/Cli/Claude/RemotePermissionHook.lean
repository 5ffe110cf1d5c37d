import Kvy.Cli.Claude.PreToolPermissionStages

/-!
# The web-turn flag

The flag is set when a web message is injected, and cleared by the end of a turn, by a submit at the
keyboard, and by a watchdog that is asked whenever the flag is. A hook that finds it set waits for the
web.
-/

namespace Kvy.Cli.Claude

open General Wire Permissions

/-- `AttentionKind`. -/
inductive AttentionKind where
  | perm
  | question
  | done
deriving DecidableEq

/-- The flag of `installRemotePermissionHook`. -/
structure WebTurnFlag where
  webTurnStartedAt : Option Nat
  webTurnLastActivityAt : Nat
deriving DecidableEq

namespace WebTurnFlag

/-- No web turn is active. -/
def create : WebTurnFlag := ⟨none, 0⟩

/-- `isWebTurnActive`. -/
def isWebTurnActive (flag : WebTurnFlag) (webTurnMaxMs now : Nat) : Bool × WebTurnFlag :=
  if flag.webTurnStartedAt = none then (false, flag)
  else if webTurnMaxMs < now - flag.webTurnLastActivityAt then
    (false, { flag with webTurnStartedAt := none })
  else (true, { flag with webTurnLastActivityAt := now })

/-- `markWebTurnStart`. -/
def markWebTurnStart (now : Nat) : WebTurnFlag := ⟨some now, now⟩

/-- `markTurnEnd`. -/
def markTurnEnd (flag : WebTurnFlag) : WebTurnFlag := { flag with webTurnStartedAt := none }

/-- `markLocalActivity`. -/
def markLocalActivity (flag : WebTurnFlag) : WebTurnFlag := { flag with webTurnStartedAt := none }

/-- The flag is set, and was last set or asked for at this moment. -/
def SetAt (flag : WebTurnFlag) (now : Nat) : Prop :=
  flag.webTurnStartedAt ≠ none → flag.webTurnLastActivityAt = now

/-- Within the time of the watchdog, the answer is the flag itself, which is kept. -/
theorem isWebTurnActive_kept {flag : WebTurnFlag} {now : Nat} (set : flag.SetAt now)
    {webTurnMaxMs gap : Nat} (short : gap ≤ webTurnMaxMs) :
    (flag.isWebTurnActive webTurnMaxMs (now + gap)).1 = flag.webTurnStartedAt.isSome ∧
      (flag.isWebTurnActive webTurnMaxMs (now + gap)).2.webTurnStartedAt = flag.webTurnStartedAt ∧
      (flag.isWebTurnActive webTurnMaxMs (now + gap)).2.SetAt (now + gap) := by
  unfold isWebTurnActive
  by_cases none : flag.webTurnStartedAt = none
  · simp only [none, ↓reduceIte]
    exact ⟨rfl, trivial, fun set => absurd none set⟩
  · have asked : flag.webTurnLastActivityAt = now := set none
    have awake : ¬ webTurnMaxMs < now + gap - flag.webTurnLastActivityAt := by omega
    simp only [none, awake, ↓reduceIte]
    exact ⟨(Option.isSome_iff_ne_none.mpr none).symm, trivial, fun _ => rfl⟩

end WebTurnFlag

/-! ## Where a request goes -/

namespace PreToolPermissionBridge

/-- A request waits for the web. -/
def WaitsForWeb (bridge : PreToolPermissionBridge) (reqId : String) : Prop :=
  (bridge.pending.get? reqId).isSome ∨ (bridge.permRequestPending.get? reqId).isSome

variable {bridge : PreToolPermissionBridge} {oks : List String} {reqId : String}

/-- A request that waits for the web stands at a question or at a permission. -/
theorem waits_iff_stage {stage : Stage} (shows : Shows stage (bridge.view oks reqId)) :
    bridge.WaitsForWeb reqId ↔ stage = .question ∨ stage = .permission := by
  have views : bridge.WaitsForWeb reqId ↔ (bridge.view oks reqId).question.isSome ∨
      (bridge.view oks reqId).permission.isSome := Iff.rfl
  rw [views]
  generalize bridge.view oks reqId = view at shows
  cases shows <;> simp

/-- A permission request waits for the web exactly where the flag is set. -/
theorem permission_waits_iff (unused : Shows .blank (bridge.view oks reqId)) (input : HookInput)
    (plain : isAskUserQuestion input.toolName = false) (isWebTurnActive : Bool) (now : Decimal) :
    (bridge.handlePermissionRequest reqId input isWebTurnActive now).WaitsForWeb reqId ↔
      isWebTurnActive = true := by
  rw [waits_iff_stage (shows_permissionRequest unused input isWebTurnActive now)]
  cases isWebTurnActive <;> simp [Event.opened, plain]

/-- A question waits for the web exactly where the flag is set. -/
theorem question_waits_iff (unused : Shows .blank (bridge.view oks reqId)) (input : HookInput)
    (asks : isAskUserQuestion input.toolName = true) (isWebTurnActive : Bool) (now : Decimal) :
    (bridge.handlePreToolUse reqId input isWebTurnActive now).WaitsForWeb reqId ↔
      isWebTurnActive = true := by
  rw [waits_iff_stage (shows_preToolUse unused input isWebTurnActive now)]
  cases isWebTurnActive <;> simp [Event.opened, asks]

end PreToolPermissionBridge

end Kvy.Cli.Claude
