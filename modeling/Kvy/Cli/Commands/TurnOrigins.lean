import Kvy.Cli.Claude.PreToolPermissionRuns
import Kvy.Cli.Claude.RemotePermissionHook

/-!
# Who started a turn

Permission requests go to the web while the web-turn flag is set. The signals that set and clear it name
no turn: an injected command sets it during a turn that it does not start, and the hook at the end of a
turn may clear it during the next one. A request goes to whoever started its turn exactly where the last
signal since the start of the turn left the flag as that turn needs it.
-/

namespace Kvy.Cli.Commands

open General General.Runs Wire Permissions Claude Claude.PreToolPermissionBridge

/-! ## The system -/

/-- A signal that reaches the flag. -/
inductive Signal where
  | injection
  | localSubmit
  | stop
deriving DecidableEq

/-- A turn: its number, whether an injection started it, and the signals since, latest first. -/
structure Turn where
  number : Nat
  web : Bool
  signals : List Signal
deriving DecidableEq

/-- A web injection started the turn and nothing was submitted at the keyboard since. -/
def Turn.Remote (turn : Turn) : Prop := turn.web = true ∧ Signal.localSubmit ∉ turn.signals

/-- Whether the last signal since the start of the turn leaves the flag as the turn needs it: the end of
another turn only where the web does not own the turn, an injection only where it does. -/
def Turn.Undisturbed (turn : Turn) : Prop :=
  (turn.signals.head? = some .stop → ¬ turn.Remote) ∧
    (turn.signals.head? = some .injection → turn.Remote)

/-- One more signal. -/
def Turn.note (turn : Turn) (signal : Signal) : Turn :=
  { turn with signals := signal :: turn.signals }

/-- The flag and the bridge of a session, when the flag was last set, cleared or asked for, how many
turns have started, the one that runs, and those whose `Stop` hook is still to come. -/
structure TurnOrigins where
  flag : WebTurnFlag
  observed : PreToolPermissionRuns.Observed
  now : Nat
  started : Nat
  running : Option Turn
  awaited : List Nat

/-- What can happen: an injection or a submit at the keyboard, which may start a turn; the end of the
running turn and, later, its `Stop` hook; a notification; a hook of the running turn; anything else at
the bridge. A gap is the time since the flag was last set, cleared or asked for. -/
inductive TurnEvent where
  | injected (gap : Nat) (starts : Bool)
  | localSubmit (gap : Nat) (starts : Bool)
  | turnEnds
  | stop (gap turn : Nat)
  | attention (gap : Nat)
  | preToolUse (gap : Nat) (reqId : String) (input : HookInput) (clock : Decimal)
  | permissionRequest (gap : Nat) (reqId : String) (input : HookInput) (clock : Decimal)
  | bridge (event : Event)

/-- The request that an event raises. -/
def TurnEvent.raises : TurnEvent → Option String
  | .preToolUse _ reqId input _ => if isAskUserQuestion input.toolName then some reqId else none
  | .permissionRequest _ reqId input _ => if isAskUserQuestion input.toolName then none else some reqId
  | _ => none

namespace TurnOrigins

/-- Before anything happens. -/
def start (deps : BridgeDeps) : TurnOrigins := ⟨.create, .start deps, 0, 0, none, []⟩

/-- A turn starts, where none runs. -/
def startTurn (origins : TurnOrigins) (web : Bool) : Option TurnOrigins :=
  match origins.running with
  | some _ => none
  | none =>
    some { origins with running := some ⟨origins.started, web, []⟩, started := origins.started + 1 }

/-- The running turn sees a signal. -/
def note (origins : TurnOrigins) (signal : Signal) : TurnOrigins :=
  { origins with running := origins.running.map (Turn.note · signal) }

/-- A signal that may start a turn. -/
def receive (origins : TurnOrigins) (signal : Signal) (starts : Bool) : Option TurnOrigins :=
  if starts then origins.startTurn (decide (signal = .injection)) else some (origins.note signal)

/-- A hook that asks for the flag. -/
def hook (origins : TurnOrigins) (webTurnMaxMs gap : Nat) (call : Bool → Event) :
    Option TurnOrigins :=
  let asked := origins.flag.isWebTurnActive webTurnMaxMs (origins.now + gap)
  (PreToolPermissionRuns.observe origins.observed (call asked.1)).map (fun observed =>
    { origins with observed, flag := asked.2, now := origins.now + gap })

/-- A step. No gap is longer than the watchdog. -/
def step (webTurnMaxMs : Nat) (origins : TurnOrigins) : TurnEvent → Option TurnOrigins
  | .injected gap starts =>
    if webTurnMaxMs < gap then none
    else (origins.receive .injection starts).map (fun next =>
      { next with flag := .markWebTurnStart (origins.now + gap), now := origins.now + gap })
  | .localSubmit gap starts =>
    if webTurnMaxMs < gap then none
    else (origins.receive .localSubmit starts).map (fun next =>
      { next with flag := origins.flag.markLocalActivity, now := origins.now + gap })
  | .turnEnds =>
    origins.running.map (fun turn =>
      { origins with running := none, awaited := origins.awaited ++ [turn.number] })
  | .stop gap turn =>
    if webTurnMaxMs < gap ∨ turn ∉ origins.awaited then none
    else some { origins.note .stop with
      flag := origins.flag.markTurnEnd, now := origins.now + gap, awaited := origins.awaited.erase turn }
  | .attention gap =>
    if webTurnMaxMs < gap then none
    else some { origins with
      flag := (origins.flag.isWebTurnActive webTurnMaxMs (origins.now + gap)).2
      now := origins.now + gap }
  | .preToolUse gap reqId input clock =>
    if webTurnMaxMs < gap ∨ origins.running = none then none
    else origins.hook webTurnMaxMs gap (.preToolUse reqId input · clock)
  | .permissionRequest gap reqId input clock =>
    if webTurnMaxMs < gap ∨ origins.running = none then none
    else if isAskUserQuestion input.toolName then
      (PreToolPermissionRuns.observe origins.observed (.permissionRequest reqId input false clock)).map
        (fun observed => { origins with observed })
    else origins.hook webTurnMaxMs gap (.permissionRequest reqId input · clock)
  | .bridge event =>
    if event.call?.isSome then none
    else (PreToolPermissionRuns.observe origins.observed event).map
      (fun observed => { origins with observed })

/-- A request that is raised goes to the web exactly where the web owns the running turn. -/
def Routed (origins : TurnOrigins) (event : TurnEvent) (next : TurnOrigins) : Prop :=
  ∀ turn ∈ origins.running, ∀ reqId ∈ event.raises,
    (next.observed.bridge.WaitsForWeb reqId ↔ turn.Remote)

/-- A request is raised only where the running turn is undisturbed. -/
def Undisturbed (origins : TurnOrigins) (event : TurnEvent) : Prop :=
  ∀ turn ∈ origins.running, event.raises.isSome → turn.Undisturbed

end TurnOrigins

/-! ## What the flag says -/

/-- What the last signal since the start of a turn leaves in the flag. -/
def Turn.flagged (turn : Turn) : Bool :=
  match turn.signals.head? with
  | none => turn.web
  | some signal => decide (signal = .injection)

/-- A flag is as its turn needs it exactly where the turn is undisturbed. -/
theorem Turn.flagged_iff
    (turn : Turn) : (turn.flagged = true ↔ turn.Remote) ↔ turn.Undisturbed := by
  obtain ⟨number, web, signals⟩ := turn
  cases signals with
  | nil => simp [flagged, Remote, Undisturbed]
  | cons signal rest => cases signal <;> simp [flagged, Remote, Undisturbed]

namespace TurnOrigins

/-- What holds in every run: the bridge is sound, the flag was set or asked for when the clock says, and
it is what the running turn saw last. -/
structure Sound (origins : TurnOrigins) : Prop where
  bridge : PreToolPermissionRuns.Sound origins.observed
  asked : origins.flag.SetAt origins.now
  flagged : ∀ turn ∈ origins.running, origins.flag.webTurnStartedAt.isSome = turn.flagged

theorem sound_start (deps : BridgeDeps) : Sound (.start deps) where
  bridge := PreToolPermissionRuns.sound_start deps
  asked := fun set => absurd rfl set
  flagged := by simp [start]

variable {next origins : TurnOrigins}

/-- A signal is the last one that the running turn has seen. -/
theorem receive_seen {signal : Signal} {starts : Bool}
    (taken : origins.receive signal starts = some next) :
    next.observed = origins.observed ∧
      ∀ turn ∈ next.running, turn.flagged = decide (signal = .injection) := by
  unfold receive at taken
  cases starts with
  | true =>
    unfold startTurn at taken
    cases running : origins.running with
    | some turn => simp [running] at taken
    | none =>
      simp only [running, ↓reduceIte, Option.some.injEq] at taken
      subst taken
      refine ⟨rfl, ?_⟩
      rintro turn ⟨⟩
      rfl
  | false =>
    cases taken
    refine ⟨rfl, ?_⟩
    intro turn held
    obtain ⟨earlier, _, rfl⟩ := Option.map_eq_some_iff.mp held
    rfl

/-- A hook asks for the flag of its turn, and leaves it. -/
theorem Sound.hook (sound : Sound origins) {webTurnMaxMs gap : Nat}
    (short : gap ≤ webTurnMaxMs) {call : Bool → Event}
    (taken : origins.hook webTurnMaxMs gap call = some next) : Sound next ∧
      PreToolPermissionRuns.observe origins.observed (call origins.flag.webTurnStartedAt.isSome) =
        some next.observed := by
  obtain ⟨answer, kept, asked⟩ := WebTurnFlag.isWebTurnActive_kept sound.asked short
  unfold TurnOrigins.hook at taken
  simp only [answer] at taken
  obtain ⟨observed, called, rfl⟩ := Option.map_eq_some_iff.mp taken
  refine ⟨⟨sound.bridge.step called, asked, ?_⟩, called⟩
  intro turn held
  simp only [kept]
  exact sound.flagged turn held

theorem Sound.step {webTurnMaxMs : Nat} {event : TurnEvent}
    (sound : Sound origins) (taken : step webTurnMaxMs origins event = some next) : Sound next := by
  cases event with
  | injected gap starts =>
    obtain ⟨-, taken⟩ := Option.ite_none_left_eq_some.mp taken
    obtain ⟨received, seen, rfl⟩ := Option.map_eq_some_iff.mp taken
    obtain ⟨same, last⟩ := receive_seen seen
    refine ⟨?_, fun _ => rfl, fun turn held => (last turn held).symm⟩
    simp only [same]
    exact sound.bridge
  | localSubmit gap starts =>
    obtain ⟨-, taken⟩ := Option.ite_none_left_eq_some.mp taken
    obtain ⟨received, seen, rfl⟩ := Option.map_eq_some_iff.mp taken
    obtain ⟨same, last⟩ := receive_seen seen
    refine ⟨?_, fun set => absurd rfl set, fun turn held => (last turn held).symm⟩
    simp only [same]
    exact sound.bridge
  | turnEnds =>
    obtain ⟨turn, _, rfl⟩ := Option.map_eq_some_iff.mp taken
    exact ⟨sound.bridge, sound.asked, by simp⟩
  | stop gap turn =>
    obtain ⟨-, taken⟩ := Option.ite_none_left_eq_some.mp taken
    cases taken
    refine ⟨sound.bridge, fun set => absurd rfl set, ?_⟩
    intro turn held
    obtain ⟨earlier, _, rfl⟩ := Option.map_eq_some_iff.mp held
    rfl
  | attention gap =>
    obtain ⟨short, taken⟩ := Option.ite_none_left_eq_some.mp taken
    cases taken
    obtain ⟨-, kept, asked⟩ := WebTurnFlag.isWebTurnActive_kept sound.asked (Nat.not_lt.mp short)
    refine ⟨sound.bridge, asked, ?_⟩
    intro turn held
    simp only [kept]
    exact sound.flagged turn held
  | preToolUse gap reqId input clock =>
    obtain ⟨guard, taken⟩ := Option.ite_none_left_eq_some.mp taken
    exact (sound.hook (by omega) taken).1
  | permissionRequest gap reqId input clock =>
    obtain ⟨guard, taken⟩ := Option.ite_none_left_eq_some.mp taken
    cases question : isAskUserQuestion input.toolName with
    | true =>
      rw [question, if_pos rfl] at taken
      obtain ⟨observed, called, rfl⟩ := Option.map_eq_some_iff.mp taken
      exact ⟨sound.bridge.step called, sound.asked, sound.flagged⟩
    | false =>
      rw [question, if_neg Bool.false_ne_true] at taken
      exact (sound.hook (by omega) taken).1
  | bridge event =>
    obtain ⟨-, taken⟩ := Option.ite_none_left_eq_some.mp taken
    obtain ⟨observed, called, rfl⟩ := Option.map_eq_some_iff.mp taken
    exact ⟨sound.bridge.step called, sound.asked, sound.flagged⟩

/-! ## Where requests go -/

/-- A new name is not known to the bridge. -/
theorem unused_of_new {observed next : PreToolPermissionRuns.Observed} {event : Event}
    {call : HookCall} (sound : PreToolPermissionRuns.Sound observed) (made : event.call? = some call)
    (taken : PreToolPermissionRuns.observe observed event = some next) :
    Shows .blank (observed.bridge.view observed.oks call.reqId) ∧
      observed.bridge.step event = some next.bridge := by
  obtain ⟨fresh, bridge, stepped, rfl⟩ := PreToolPermissionRuns.observe_cases taken
  obtain ⟨stage, shows, follows⟩ := sound.stage call.reqId
  obtain rfl := PreToolPermissionRuns.blank_of_fresh (fresh call made) follows
  exact ⟨shows, stepped⟩

/-- A request that is raised waits for the web exactly where the flag is set. -/
theorem raised_waits {webTurnMaxMs : Nat} {event : TurnEvent}
    (sound : Sound origins) (taken : step webTurnMaxMs origins event = some next) {reqId : String}
    (raised : event.raises = some reqId) :
    next.observed.bridge.WaitsForWeb reqId ↔ origins.flag.webTurnStartedAt.isSome = true := by
  cases event with
  | preToolUse gap made input clock =>
    cases question : isAskUserQuestion input.toolName with
    | false => simp [TurnEvent.raises, question] at raised
    | true =>
      simp only [TurnEvent.raises, question, ↓reduceIte] at raised
      cases raised
      obtain ⟨guard, taken⟩ := Option.ite_none_left_eq_some.mp taken
      obtain ⟨-, called⟩ := sound.hook (by omega) taken
      obtain ⟨unused, stepped⟩ := unused_of_new sound.bridge rfl called
      rw [← Option.some.inj stepped]
      exact question_waits_iff unused input question _ _
  | permissionRequest gap made input clock =>
    cases question : isAskUserQuestion input.toolName with
    | true => simp [TurnEvent.raises, question] at raised
    | false =>
      simp only [TurnEvent.raises, question, Bool.false_eq_true, ↓reduceIte] at raised
      cases raised
      obtain ⟨guard, taken⟩ := Option.ite_none_left_eq_some.mp taken
      rw [question, if_neg Bool.false_ne_true] at taken
      obtain ⟨-, called⟩ := sound.hook (by omega) taken
      obtain ⟨unused, stepped⟩ := unused_of_new sound.bridge rfl called
      rw [← Option.some.inj stepped]
      exact permission_waits_iff unused input question _ _
  | injected _ _ => cases raised
  | localSubmit _ _ => cases raised
  | turnEnds => cases raised
  | stop _ _ => cases raised
  | attention _ => cases raised
  | bridge _ => cases raised

/-- In a run, every request goes to whoever started its turn exactly where each is raised by an
undisturbed turn. -/
theorem requests_routed_iff (webTurnMaxMs : Nat) (deps : BridgeDeps) (events : List TurnEvent) :
    Always (step webTurnMaxMs) Routed (.start deps) events ↔
      Always (step webTurnMaxMs) (fun origins event _ => Undisturbed origins event) (.start deps)
        events := by
  apply always_congr Sound Routed
  · intro origins event next sound taken
    exact sound.step taken
  · intro origins event next sound taken
    cases raised : event.raises with
    | none => simp [Routed, Undisturbed, raised]
    | some reqId =>
      have waits := raised_waits sound taken raised
      constructor
      · intro routed turn held _
        have same := routed turn held reqId raised
        rw [waits, sound.flagged turn held] at same
        exact turn.flagged_iff.mp same
      · intro undisturbed turn held other asks
        obtain rfl := Option.some.inj (raised.symm.trans asks)
        rw [waits, sound.flagged turn held]
        exact turn.flagged_iff.mpr (undisturbed turn held (by rw [raised]; rfl))
  · exact sound_start deps

/-- The `Stop` hook of a web turn that is delivered during the next one sends a request of that turn to
the terminal. -/
theorem late_stop_misroutes : ¬ Always (step 1800000) Routed (.start ⟨true, true, 0, none⟩)
    [.injected 0 true, .turnEnds, .injected 0 true, .stop 0 0,
      .permissionRequest 0 "r" ⟨"Bash", none, none⟩ (Decimal.ofInt 0)] := by
  intro always
  have routed := (((((always _ rfl).2 _ rfl).2 _ rfl).2 _ rfl).2 _ rfl).1
  have remote := (routed ⟨1, true, [.stop]⟩ rfl "r" rfl).mpr ⟨rfl, by decide⟩
  rcases remote with question | permission
  · cases question
  · cases permission

end TurnOrigins

end Kvy.Cli.Commands
