import Kvy.Cli.Acp.AcpConnection

/-!
# A connection leaves nothing behind

Where no step is disturbed, the only child that runs without a signal is the process of the
connection, which has one only while it is ready or while the call of `connect` that no disconnect
has overtaken initializes it. So nothing is left behind once the connection is closed.
-/

namespace Kvy.Cli.Acp.AcpConnection

open General Runs

/-- Where a change makes an item count no more than before, the count does not grow. -/
theorem countP_modify_le {α : Type} (test : α → Bool) (change : α → α)
    (lowers : ∀ item, test (change item) = true → test item = true) (items : List α) (index : Nat) :
    (items.modify index change).countP test ≤ items.countP test := by
  induction items generalizing index with
  | nil => simp
  | cons item rest inductionHypothesis =>
    cases index with
    | zero =>
      rw [List.modify_zero_cons, List.countP_cons, List.countP_cons]
      have := lowers item
      split <;> split <;> grind
    | succ index =>
      rw [List.modify_succ_cons, List.countP_cons, List.countP_cons]
      exact Nat.add_le_add_right (inductionHypothesis index) _

/-- What undisturbed steps keep. -/
structure Kept (held : AcpConnection) : Prop where
  current : ∀ call, held.current = some call → held.state = .connecting ∧
    ∃ phase, held.connects[call]? = some phase ∧ isSuspended phase = true
  initializing : ∀ call child, held.current = some call →
    held.connects[call]? = some (.initializing child) → held.process = some child
  process : ∀ child, held.process = some child → held.state = .ready ∨
    ∃ call, held.current = some call ∧ held.connects[call]? = some (.initializing child)
  strays : ∀ (child : Nat) process, held.children[child]? = some process → process.alive = true →
    process.killed = false → held.process = some child
  ended : held.ended = true → held.state = .closed
  one_child : held.children.countP AdapterChild.alive ≤ 1
  one_prompt : ∀ sessionId, held.inFlight sessionId ≤ 1

variable {held next : AcpConnection}

/-- What is kept leaves nothing behind. -/
theorem Kept.tidy (kept : held.Kept) : held.Tidy where
  never_ready := fun ended ready => by simp [kept.ended ended] at ready
  closed := by
    intro ended _
    have closed := kept.ended ended
    refine ⟨closed, fun process member alive => ?_⟩
    by_contra unkilled
    obtain ⟨child, stands⟩ := List.mem_iff_getElem?.mp member
    rcases kept.process child (kept.strays child process stands alive (by simpa using unkilled)) with
      ready | ⟨call, current, _⟩
    · simp [closed] at ready
    · have connecting := (kept.current call current).1
      simp [closed] at connecting
  one_child := kept.one_child
  one_prompt := kept.one_prompt

/-- A connection that is closed and has no process, and whose children were all sent a signal. -/
theorem kept_closed (current : held.current = none) (process : held.process = none)
    (state : held.state = .closed)
    (killed : ∀ (child : Nat) process, held.children[child]? = some process →
      process.alive = true → process.killed = true)
    (one_child : held.children.countP AdapterChild.alive ≤ 1)
    (one_prompt : ∀ sessionId, held.inFlight sessionId ≤ 1) : held.Kept where
  current := by simp [current]
  initializing := by simp [current]
  process := by simp [process]
  strays := fun child process stands alive unkilled => by
    simp [killed child process stands alive] at unkilled
  ended := fun _ => state
  one_child := one_child
  one_prompt := one_prompt

/-- A connection has no process while no child is being initialized. -/
theorem Kept.no_process (kept : held.Kept) (unready : held.state ≠ .ready)
    (idle : ∀ call child, held.current = some call →
      held.connects[call]? ≠ some (.initializing child)) : held.process = none := by
  by_contra some'
  obtain ⟨child, process⟩ := Option.ne_none_iff_exists'.mp some'
  rcases kept.process child process with ready | ⟨call, current, phase⟩
  · exact unready ready
  · exact idle call child current phase

/-- Without a process, all children that run were sent a signal. -/
theorem Kept.all_killed (kept : held.Kept) (process : held.process = none) :
    ∀ (child : Nat) process, held.children[child]? = some process →
      process.alive = true → process.killed = true := by
  intro child running stands alive
  by_contra unkilled
  have stray := kept.strays child running stands alive (by simpa using unkilled)
  simp [process] at stray

/-- Without a process, no child runs once those that were sent a signal have ended. -/
theorem Kept.alone (kept : held.Kept) (process : held.process = none) (reaped : held.Reaped) :
    held.children.countP AdapterChild.alive = 0 := by
  rw [List.countP_eq_zero]
  intro running member alive
  obtain ⟨child, stands⟩ := List.mem_iff_getElem?.mp member
  have killed := kept.all_killed process child running stands alive
  simp [reaped running member killed] at alive

/-! ## Calls of `connect` -/

/-- A phase of another call does not matter, nor does one of the current call that has no child. -/
theorem Kept.go_on (kept : held.Kept) {call : Nat} {before phase : ConnectPhase}
    (stands : held.connects[call]? = some before) (childless : ∀ child, before ≠ .initializing child)
    (waits : isSuspended phase = true) (still : ∀ child, phase ≠ .initializing child) :
    (held.goOn call phase).Kept := by
  have bound := (List.getElem?_eq_some_iff.mp stands).1
  refine { kept with current := ?_, initializing := ?_, process := ?_ }
  · intro other current
    obtain ⟨connecting, held', found, suspended⟩ := kept.current other current
    refine ⟨connecting, ?_⟩
    by_cases same : call = other
    · subst same
      exact ⟨phase, by simp [goOn, bound], waits⟩
    · exact ⟨held', by simp [goOn, List.getElem?_set_ne same, found], suspended⟩
  · intro other child current found
    by_cases same : call = other
    · subst same
      simp only [goOn, List.getElem?_set_self bound, Option.some.injEq] at found
      exact absurd found (still child)
    · rw [goOn, List.getElem?_set_ne same] at found
      exact kept.initializing other child current found
  · intro child process
    rcases kept.process child process with ready | ⟨other, current, found⟩
    · exact Or.inl ready
    · refine Or.inr ⟨other, current, ?_⟩
      by_cases same : call = other
      · subst same
        exact absurd (Option.some.inj (stands.symm.trans found)) (childless child)
      · rw [goOn, List.getElem?_set_ne same, found]

/-- A call ends that initializes no child of the connection. -/
theorem Kept.settle (kept : held.Kept) {call : Nat}
    (childless : ∀ child, held.current = some call →
      held.connects[call]? ≠ some (.initializing child)) (error : Option String) :
    (held.settle call error).Kept := by
  have other : ∀ tested, (held.settle call error).current = some tested →
      held.current = some tested ∧ call ≠ tested := by
    intro tested current
    simp only [AcpConnection.settle] at current
    split at current
    · contradiction
    · rename_i different
      exact ⟨current, fun same => different (same ▸ current)⟩
  refine { kept with current := ?_, initializing := ?_, process := ?_ }
  · intro tested current
    obtain ⟨before, different⟩ := other tested current
    obtain ⟨connecting, phase, found, suspended⟩ := kept.current tested before
    exact ⟨connecting, phase, by simp [AcpConnection.settle, goOn, List.getElem?_set_ne different, found],
      suspended⟩
  · intro tested child current found
    obtain ⟨before, different⟩ := other tested current
    rw [AcpConnection.settle, goOn, List.getElem?_set_ne different] at found
    exact kept.initializing tested child before found
  · intro child process
    rcases kept.process child process with ready | ⟨tested, current, found⟩
    · exact Or.inl ready
    · have different : call ≠ tested := by
        rintro rfl
        exact childless child current found
      refine Or.inr ⟨tested, ?_, ?_⟩
      · simp [AcpConnection.settle, current, Ne.symm different]
      · simp [AcpConnection.settle, goOn, List.getElem?_set_ne different, found]

/-- A call that may close the connection does so. -/
theorem Kept.refuse (kept : held.Kept) {call : Nat} (may : held.MayClose call)
    (process : held.process = none) (error : String) : (held.refuse call error).Kept := by
  refine kept_closed ?_ process rfl (kept.all_killed process) kept.one_child kept.one_prompt
  rcases may with current | ⟨current, _⟩
  · simp [AcpConnection.refuse, AcpConnection.settle, current]
  · simp [AcpConnection.refuse, AcpConnection.settle, current]

/-- A call that may close the connection has left it without a process, unless it initializes its
child. -/
theorem Kept.may_close_process (kept : held.Kept) {call : Nat} (may : held.MayClose call)
    (childless : ∀ child, held.connects[call]? ≠ some (.initializing child)) :
    held.process = none := by
  rcases may with current | ⟨current, unready⟩
  · apply kept.no_process
    · simp [(kept.current call current).1]
    · intro other child same
      obtain rfl := Option.some.inj (current.symm.trans same)
      exact childless child
  · exact kept.no_process unready (by simp [current])

/-- A child without pipes is killed at once. -/
theorem Kept.spawn_unpiped (kept : held.Kept) {call : Nat} {spec : AdapterSpawnSpec}
    (may : held.MayClose call) (reaped : held.Reaped) (process : held.process = none) :
    (held.spawn call spec .unpiped).Kept := by
  have alone := kept.alone process reaped
  have grown : Kept { held with children := held.children ++ [AdapterChild.mk spec true true] } := by
    refine { kept with strays := ?_, one_child := ?_ }
    · intro child running stands alive unkilled
      rw [List.getElem?_append] at stands
      split at stands
      · exact kept.strays child running stands alive unkilled
      · obtain rfl := List.mem_singleton.mp (List.mem_of_getElem? stands)
        contradiction
    · simp [List.countP_append, alone]
  exact grown.refuse may process _

/-- A child with pipes is the process of the connection. -/
theorem Kept.spawn_piped (kept : held.Kept) {call : Nat} {spec : AdapterSpawnSpec}
    (current : held.current = some call) (reaped : held.Reaped) (process : held.process = none) :
    (held.spawn call spec .piped).Kept := by
  have alone := kept.alone process reaped
  obtain ⟨connecting, phase, found, _⟩ := kept.current call current
  have bound := (List.getElem?_eq_some_iff.mp found).1
  have now : (held.spawn call spec .piped).connects[call]? =
      some (.initializing held.children.length) := by
    simp [AcpConnection.spawn, goOn, bound]
  refine ⟨?_, ?_, ?_, ?_, kept.ended, ?_, kept.one_prompt⟩
  · intro tested same
    obtain rfl := Option.some.inj (current.symm.trans same)
    exact ⟨connecting, _, now, rfl⟩
  · intro tested child same initializes
    obtain rfl := Option.some.inj (current.symm.trans same)
    obtain ⟨rfl⟩ := ConnectPhase.initializing.inj (Option.some.inj (now.symm.trans initializes))
    rfl
  · intro child same
    cases same
    exact Or.inr ⟨call, current, now⟩
  · intro child running stands alive unkilled
    simp only [AcpConnection.spawn, goOn] at stands
    rw [List.getElem?_append] at stands
    split at stands
    · have stray := kept.strays child running stands alive unkilled
      simp [process] at stray
    · have inside := (List.getElem?_eq_some_iff.mp stands).1
      have last : child = held.children.length := by
        rw [List.length_singleton] at inside
        omega
      rw [last]
      rfl
  · simp [AcpConnection.spawn, goOn, List.countP_append, alone]

/-- A call that initializes its child connects. -/
theorem Kept.connected (kept : held.Kept) {call child : Nat} (current : held.current = some call)
    (phase : held.connects[call]? = some (.initializing child)) :
    (held.afterInitialize call child (.ok ())).Kept := by
  have process := kept.initializing call child current phase
  have connecting := (kept.current call current).1
  have idle : (held.afterInitialize call child (.ok ())).current = none := by
    simp [afterInitialize, AcpConnection.settle, goOn, current]
  refine { kept with current := ?_, initializing := ?_, process := ?_, ended := ?_ }
  · simp [idle]
  · simp [idle]
  · exact fun _ _ => Or.inl rfl
  · intro ended
    have closed := kept.ended ended
    simp [connecting] at closed

/-- Sending a signal to a child. -/
theorem kill_children (held : AcpConnection) (child index : Nat) :
    (held.kill child).children[index]? = if index = child then
      (held.children[index]?).map (fun process =>
        if process.alive then { process with killed := true } else process)
    else held.children[index]? := by
  rw [AcpConnection.kill]
  simp only [List.getElem?_modify]
  by_cases same : index = child
  · simp [same]
  · have other : child ≠ index := fun equal => same equal.symm
    cases held.children[index]? <;> simp [same, other]

/-- A signal changes no child's life. -/
theorem kill_alive (held : AcpConnection) (child : Nat) :
    (held.kill child).children.countP AdapterChild.alive ≤
      held.children.countP AdapterChild.alive := by
  apply countP_modify_le
  intro process
  split <;> simp

/-- A child that is its connection's only one without a signal is killed. -/
theorem kill_last (held : AcpConnection) {child : Nat} (strays : ∀ (index : Nat) process,
      held.children[index]? = some process → process.alive = true → process.killed = false →
        index = child) :
    ∀ (index : Nat) process, (held.kill child).children[index]? = some process →
      process.alive = true → process.killed = true := by
  intro index process stands alive
  rw [kill_children] at stands
  split at stands
  · obtain ⟨before, _, rfl⟩ := Option.map_eq_some_iff.mp stands
    by_cases running : before.alive = true
    · rw [if_pos running]
    · rw [if_neg running] at alive
      exact absurd alive running
  · rename_i different
    by_contra unkilled
    exact different (strays index process stands alive (by simpa using unkilled))

/-- A child that could not be initialized is killed. -/
theorem Kept.not_initialized (kept : held.Kept) {call child : Nat} (may : held.MayClose call)
    (phase : held.connects[call]? = some (.initializing child)) (message : String) :
    (held.afterInitialize call child (.error message)).Kept := by
  have only : held.process = none ∨ held.process = some child := by
    rcases may with current | ⟨current, unready⟩
    · exact Or.inr (kept.initializing call child current phase)
    · exact Or.inl (kept.no_process unready (by simp [current]))
  have left : (if held.process = some child then none else held.process) = none := by
    rcases only with process | process <;> simp [process]
  refine kept_closed ?_ left rfl ?_ ?_ kept.one_prompt
  · rcases may with current | ⟨current, _⟩ <;>
      simp [afterInitialize, AcpConnection.refuse, AcpConnection.settle, goOn, AcpConnection.kill, current]
  · refine kill_last { held with
      connection := none
      process := if held.process = some child then none else held.process } ?_
    intro index process stands alive unkilled
    have stray := kept.strays index process stands alive unkilled
    rcases only with process | process
    · simp [process] at stray
    · exact Option.some.inj (stray.symm.trans process)
  · exact Nat.le_trans (kill_alive _ child) kept.one_child

/-- `connect` begins where nothing is connected or about to be. -/
theorem Kept.connect (kept : held.Kept) : held.connect.Kept := by
  unfold AcpConnection.connect
  split
  · exact { kept with ended := fun ended => by simp at ended }
  · rename_i neither
    obtain ⟨unconnected, unready⟩ := not_or.mp neither
    have idle : held.current = none := by
      by_contra some'
      obtain ⟨call, current⟩ := Option.ne_none_iff_exists'.mp some'
      exact unconnected (kept.current call current).1
    have process := kept.no_process unready (by simp [idle])
    refine ⟨?_, ?_, ?_, ?_, ?_, kept.one_child, kept.one_prompt⟩
    · intro call current
      cases current
      exact ⟨rfl, .resolving false, by simp, rfl⟩
    · intro call child current found
      cases current
      simp at found
    · simp [process]
    · exact kept.strays
    · simp

/-! ## Disconnecting -/

/-- Aborting prompts leaves them in flight. -/
theorem abort_in_flight (held : AcpConnection) (sessionId : String) :
    held.abortPrompts.inFlight sessionId ≤ held.inFlight sessionId := by
  have walk (entries : List (String × Nat)) (prompts : List PromptCall) :
      (entries.foldl (fun prompts entry => prompts.modify entry.2
        (fun call => { call with aborted := true })) prompts).countP
          (fun call => call.sessionId = sessionId && !call.settled) ≤
        prompts.countP (fun call => call.sessionId = sessionId && !call.settled) := by
    induction entries generalizing prompts with
    | nil => exact Nat.le_refl _
    | cons entry rest inductionHypothesis =>
      exact Nat.le_trans (inductionHypothesis _)
        (countP_modify_le _ _ (fun call => by simp) prompts entry.2)
  exact walk held.promptControllers.entries held.prompts

theorem Kept.disconnect (kept : held.Kept) : held.disconnect.Kept := by
  have prompts := fun sessionId =>
    Nat.le_trans (abort_in_flight held sessionId) (kept.one_prompt sessionId)
  unfold AcpConnection.disconnect
  dsimp only
  split
  · rename_i already
    obtain ⟨closed, process⟩ := already
    exact kept_closed rfl process closed (kept.all_killed process) kept.one_child kept.one_prompt
  · cases process : held.process with
    | none => exact kept_closed rfl rfl rfl (kept.all_killed process) kept.one_child prompts
    | some child =>
      refine kept_closed rfl rfl rfl ?_ ?_ prompts
      · refine kill_last _ (fun index running stands alive unkilled => ?_)
        exact Option.some.inj ((kept.strays index running stands alive unkilled).symm.trans process)
      · exact Nat.le_trans (kill_alive _ child) kept.one_child

/-- A child that has ended closes its connection. -/
theorem Kept.unexpected_close (kept : held.Kept) {child : Nat} (detail : String)
    (gone : ∀ running, held.children[child]? = some running → running.alive = true →
      held.process ≠ some child ∨ held.disconnecting = true ∨ held.state ≠ .ready) :
    (held.handleUnexpectedClose child detail).Kept := by
  unfold handleUnexpectedClose
  split
  · exact kept
  · rename_i passes
    obtain ⟨process, enabled, ready⟩ : held.process = some child ∧ held.disconnecting = false ∧
        held.state = .ready := by simpa [not_or] using passes
    refine kept_closed ?_ rfl rfl ?_ kept.one_child
      (fun sessionId => Nat.le_trans (abort_in_flight held sessionId) (kept.one_prompt sessionId))
    · by_contra some'
      obtain ⟨call, current⟩ := Option.ne_none_iff_exists'.mp some'
      have connecting := (kept.current call current).1
      simp [ready] at connecting
    · intro index running stands alive
      by_contra unkilled
      have stray := kept.strays index running stands alive (by simpa using unkilled)
      obtain rfl := Option.some.inj (process.symm.trans stray)
      have open' := gone running stands alive
      simp [process, enabled, ready] at open'

/-- A child ends. -/
theorem Kept.die (kept : held.Kept) (child : Nat) : Kept { held with
    children := held.children.modify child (fun process => { process with alive := false }) } := by
  refine { kept with strays := ?_, one_child := ?_ }
  · intro index running stands alive unkilled
    simp only [List.getElem?_modify] at stands
    obtain ⟨before, found, changed⟩ := Option.map_eq_some_iff.mp stands
    split at changed
    · subst changed
      contradiction
    · subst changed
      exact kept.strays index _ found alive unkilled
  · exact Nat.le_trans (countP_modify_le _ _ (fun process => by simp) held.children child)
      kept.one_child

/-! ## Prompts -/

/-- A prompt is sent where none of its session is in flight. -/
theorem Kept.prompt (kept : held.Kept) {sessionId : String}
    (undisturbed : held.promptControllers.has sessionId = true ∨
      ∀ call ∈ held.prompts, call.sessionId = sessionId → call.settled = true) :
    (held.prompt sessionId).Kept := by
  unfold AcpConnection.prompt
  split
  · exact kept
  · split
    · exact kept
    · rename_i absent
      have settled := undisturbed.resolve_left absent
      refine { kept with one_prompt := fun tested => ?_ }
      simp only [inFlight, List.countP_append, List.countP_singleton]
      by_cases same : sessionId = tested
      · subst same
        have none' : held.prompts.countP
            (fun call => call.sessionId = sessionId && !call.settled) = 0 := by
          rw [List.countP_eq_zero]
          intro call member
          simpa using settled call member
        simp [none']
      · have before := kept.one_prompt tested
        simpa [same, inFlight] using before

theorem Kept.settle_prompt (kept : held.Kept) (index : Nat) (sessionId : String) :
    (held.settlePrompt index sessionId).Kept := by
  refine { kept with one_prompt := fun tested => ?_ }
  have fewer := countP_modify_le (fun call : PromptCall => call.sessionId = tested && !call.settled)
    (fun call => { call with settled := true }) (fun call => by simp) held.prompts index
  exact Nat.le_trans fewer (kept.one_prompt tested)

theorem Kept.cancel (kept : held.Kept) (sessionId : String) : (held.cancel sessionId).Kept := by
  unfold AcpConnection.cancel
  split
  · rename_i index _ _
    refine { kept with one_prompt := fun tested => ?_ }
    have fewer := countP_modify_le (fun call : PromptCall => call.sessionId = tested && !call.settled)
      (fun call => { call with aborted := true }) (fun call => by simp) held.prompts index
    exact Nat.le_trans fewer (kept.one_prompt tested)
  · exact kept

/-! ## Every step -/

/-- An undisturbed answer of the adapter's resolution. -/
theorem Kept.after_resolve (kept : held.Kept) {call : Nat} {again : Bool}
    {result : Except String ResolveAdapterSpawnResult} {spawned : Spawned}
    (phase : held.connects[call]? = some (.resolving again))
    (undisturbed : held.Undisturbed (.resolved call result spawned)) :
    (held.afterResolve call again spawned result).Kept := by
  have childless : ∀ child, held.connects[call]? ≠ some (.initializing child) := by simp [phase]
  cases result with
  | error message => exact kept.settle (fun child _ => childless child) _
  | ok result =>
    cases result with
    | ok spec =>
      cases spawned with
      | throws message => exact kept.settle (fun child _ => childless child) _
      | unpiped =>
        obtain ⟨may, reaped⟩ := undisturbed
        exact kept.spawn_unpiped may reaped (kept.may_close_process may childless)
      | piped =>
        obtain ⟨current, reaped⟩ := undisturbed
        exact kept.spawn_piped current reaped (kept.may_close_process (Or.inl current) childless)
    | failed reason detail =>
      unfold afterResolve
      dsimp only
      split
      · exact kept.go_on phase (by simp) rfl (by simp)
      · rename_i refused
        have may : held.MayClose call := by
          rcases undisturbed with may | ⟨missing, first⟩
          · exact may
          · obtain ⟨rfl⟩ := ConnectPhase.resolving.inj (Option.some.inj (phase.symm.trans first))
            simp [missing] at refused
        exact kept.refuse may (kept.may_close_process may childless) _

/-- An undisturbed step keeps the connection tidy. -/
theorem Kept.step (kept : held.Kept) {event : ConnectionEvent} (undisturbed : held.Undisturbed event)
    (taken : held.step event = some next) : next.Kept := by
  cases event with
  | connect =>
    cases taken
    exact kept.connect
  | resolved call result spawned =>
    simp only [AcpConnection.step] at taken
    split at taken
    · rename_i again phase
      cases taken
      exact kept.after_resolve phase undisturbed
    · contradiction
  | installed call result =>
    simp only [AcpConnection.step] at taken
    split at taken
    · rename_i phase
      cases taken
      have childless : ∀ child, held.connects[call]? ≠ some (.initializing child) := by simp [phase]
      cases result with
      | error message => exact kept.settle (fun child _ => childless child) _
      | ok outcome =>
        cases outcome with
        | ok => exact kept.go_on phase (by simp) rfl (by simp)
        | failed error =>
          exact kept.refuse undisturbed (kept.may_close_process undisturbed childless) _
    · contradiction
  | initialized call result =>
    simp only [AcpConnection.step] at taken
    split at taken
    · rename_i child phase
      cases taken
      cases result with
      | ok _ => exact kept.connected undisturbed phase
      | error message => exact kept.not_initialized undisturbed phase message
    · contradiction
  | disconnect =>
    cases taken
    exact kept.disconnect
  | die child =>
    cases taken
    exact kept.die child
  | exit child detail =>
    simp only [AcpConnection.step] at taken
    split at taken
    · rename_i process stands
      obtain ⟨ended, ⟨⟩⟩ := Option.ite_none_left_eq_some.mp taken
      refine kept.unexpected_close detail (fun running same alive => ?_)
      obtain rfl := Option.some.inj (stands.symm.trans same)
      exact absurd alive ended
    · contradiction
  | fail child detail =>
    obtain ⟨_, ⟨⟩⟩ := Option.ite_none_right_eq_some.mp taken
    exact kept.unexpected_close detail undisturbed
  | prompt sessionId =>
    cases taken
    exact kept.prompt undisturbed
  | settlePrompt index =>
    simp only [AcpConnection.step] at taken
    split at taken
    · obtain ⟨_, ⟨⟩⟩ := Option.ite_none_left_eq_some.mp taken
      exact kept.settle_prompt index _
    · contradiction
  | cancel sessionId =>
    cases taken
    exact kept.cancel sessionId

/-- Nothing has happened to a new connection. -/
theorem create_kept (adapterId : String) : (create adapterId).Kept :=
  ⟨by simp [create], by simp [create], by simp [create], by simp [create], by simp [create],
    by simp [create], by simp [create, inFlight]⟩

/-- In every run whose steps are undisturbed, the connection leaves no adapter behind, runs no two
of them together, and sends no two prompts of a session together. -/
theorem undisturbed_connection_tidy (adapterId : String) (events : List ConnectionEvent)
    (undisturbed : Always AcpConnection.step (fun held event _ => held.Undisturbed event)
      (create adapterId) events) :
    Always AcpConnection.step (fun _ _ next => next.Tidy) (create adapterId) events := by
  refine always_under Kept Undisturbed _ ?_ (create_kept adapterId) undisturbed
  intro held event next kept now taken
  have after := kept.step now taken
  exact ⟨after, after.tidy⟩

instance (held : AcpConnection) : Decidable held.Reaped :=
  inferInstanceAs (Decidable (∀ child ∈ held.children, child.killed = true → child.alive = false))

instance (held : AcpConnection) (call : Nat) : Decidable (held.MayClose call) :=
  inferInstanceAs (Decidable (_ ∨ _))

instance (held : AcpConnection) : (event : ConnectionEvent) → Decidable (held.Undisturbed event)
  | .resolved _ (.ok (.ok _)) .piped => inferInstanceAs (Decidable (_ ∧ _))
  | .resolved _ (.ok (.ok _)) .unpiped => inferInstanceAs (Decidable (_ ∧ _))
  | .resolved _ (.ok (.failed _ _)) _ => inferInstanceAs (Decidable (_ ∨ _))
  | .installed call (.ok (.failed _)) => inferInstanceAs (Decidable (held.MayClose call))
  | .initialized call (.ok ()) => inferInstanceAs (Decidable (held.current = some call))
  | .initialized call (.error _) => inferInstanceAs (Decidable (held.MayClose call))
  | .fail child _ =>
    inferInstanceAs (Decidable (∀ process ∈ held.children[child]?, process.alive = true →
      held.process ≠ some child ∨ held.disconnecting = true ∨ held.state ≠ .ready))
  | .prompt sessionId =>
    inferInstanceAs (Decidable (held.promptControllers.has sessionId = true ∨
      ∀ call ∈ held.prompts, call.sessionId = sessionId → call.settled = true))
  | .connect | .disconnect | .die _ | .exit _ _ | .settlePrompt _ | .cancel _
  | .resolved _ (.error _) _ | .resolved _ (.ok (.ok _)) (.throws _) | .installed _ (.error _)
  | .installed _ (.ok .ok) => Decidable.isTrue trivial

/-- The adapter is there, and is spawned with pipes. -/
def resolvedOk (call : Nat) : ConnectionEvent := .resolved call (.ok (.ok ⟨"node", []⟩)) .piped

/-- The adapter is installed first; a prompt is under way when the connection is closed, and it
connects again once the child and the prompt have ended. -/
def reconnectingRun : List ConnectionEvent :=
  [.connect, .resolved 0 (.ok (.failed .notInstalled none)) .piped, .installed 0 (.ok .ok),
    resolvedOk 0, .initialized 0 (.ok ()), .prompt "s", .disconnect, .settlePrompt 0, .die 0,
    .exit 0 "ACP adapter process received signal SIGTERM", .connect, resolvedOk 1,
    .initialized 1 (.ok ()), .prompt "s", .disconnect]

/-- Its connection is tidy throughout. -/
theorem reconnecting_run_tidy :
    Always AcpConnection.step (fun held event _ => held.Undisturbed event)
        (create "a") reconnectingRun ∧
      Always AcpConnection.step (fun _ _ next => next.Tidy) (create "a") reconnectingRun ∧
      (run AcpConnection.step (create "a") reconnectingRun).map AcpConnection.state =
        some .closed := by
  have undisturbed : Always AcpConnection.step (fun held event _ => held.Undisturbed event)
      (create "a") reconnectingRun := by decide
  exact ⟨undisturbed, undisturbed_connection_tidy "a" reconnectingRun undisturbed, by decide⟩

/-- A call of `connect` that a disconnect has overtaken connects nevertheless. -/
theorem overtaken_call_connects : ¬ ∀ (adapterId : String) (events : List ConnectionEvent),
    Always AcpConnection.step (fun _ _ next => next.Tidy) (create adapterId) events := by
  intro holds
  have connects : (run AcpConnection.step (create "a")
      [.connect, .disconnect, resolvedOk 0, .initialized 0 (.ok ())]).map
        (fun final => (final.ended, final.state)) = some (true, .ready) := by decide
  obtain ⟨final, ran, ends⟩ := Option.map_eq_some_iff.mp connects
  have tidy := @always_run _ _ _ Tidy _ _ _ (holds "a" _) (create_kept "a").tidy ran
  exact tidy.never_ready (congrArg Prod.fst ends) (congrArg Prod.snd ends)

end Kvy.Cli.Acp.AcpConnection
