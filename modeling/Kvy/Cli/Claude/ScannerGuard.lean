import Kvy.Cli.Claude.Scanner
import Mathlib.Data.Prod.Lex

/-!
# The guard of the transcript scanner

While the scanner is not stopped, `running` is set exactly as long as a pass of
`runSyncCoalesced` is suspended, and what is suspended comes to an end. A flush that is still in
its loop when `cleanup` sets `stopped` leaves the loop later: it sets `running`, and
`runSyncCoalesced` returns without a pass and without clearing the flag.
-/

namespace Kvy.Cli.Claude.Scanner

open General

/-- A pass of `runSyncCoalesced`. -/
def isCall (pass : Pass) : Bool :=
  match pass.owner with
  | .call _ => true
  | _ => false

/-- The suspended passes of `runSyncCoalesced`. -/
def callPasses (scanner : Scanner) : List Pass := scanner.passes.filter isCall

/-- `running` is set only while a pass that clears it is in progress. -/
def FlagHeld (scanner : Scanner) : Prop := scanner.running = true → scanner.callPasses ≠ []

/-- No flush waits for the pass of another call. -/
def NoneWaits (scanner : Scanner) : Prop := ∀ flush ∈ scanner.flushes, flush.phase = .syncing

/-- Something suspended takes a step. -/
def Moves (transcripts : String → List UInt8) (scanner next : Scanner) : Prop :=
  ∃ event, scanner.resume transcripts event = some next

/-- Steps of what is suspended lead from one state to the other. -/
def Leads (transcripts : String → List UInt8) : Scanner → Scanner → Prop :=
  Relation.ReflTransGen (Moves transcripts)

/-- Whatever the suspended work does, the flag is held only by a pass in progress, nothing gets
stuck before every flush has left its loop, and the work comes to an end. -/
structure Healthy (transcripts : String → List UInt8) (scanner : Scanner) : Prop where
  held : ∀ later, Leads transcripts scanner later → later.FlagHeld
  moves : ∀ later, Leads transcripts scanner later → ¬ later.NoneWaits →
    ∃ next, Moves transcripts later next
  ends : Acc (fun next state => Moves transcripts state next) scanner

/-- No pass of a call is suspended, or just one: the pass of the current call, with the flag
set. -/
def Guarded (scanner : Scanner) : Prop :=
  scanner.callPasses = [] ∨ ∃ pass promise, scanner.callPasses = [pass] ∧
    pass.owner = .call promise ∧ scanner.currentSyncPromise = some promise ∧ scanner.running = true

/-- The flag is set exactly while the pass of a call is suspended. -/
structure Steady (scanner : Scanner) : Prop where
  guarded : scanner.Guarded
  held : scanner.FlagHeld

/-- The flag is held by a pass, and no flush waits in a scanner that is stopped. -/
structure Good (scanner : Scanner) : Prop extends scanner.Steady where
  returned : scanner.stopped = true → scanner.NoneWaits

/-! ## What the operations leave alone -/

/-- Everything that the guard is about. -/
structure SameGuard (scanner other : Scanner) : Prop where
  running : other.running = scanner.running
  rerunRequested : other.rerunRequested = scanner.rerunRequested
  stopped : other.stopped = scanner.stopped
  currentSyncPromise : other.currentSyncPromise = scanner.currentSyncPromise
  passes : other.passes = scanner.passes
  flushes : other.flushes = scanner.flushes
  cleanups : other.cleanups = scanner.cleanups
  announces : other.announces = scanner.announces

theorem SameGuard.refl (scanner : Scanner) : SameGuard scanner scanner :=
  ⟨rfl, rfl, rfl, rfl, rfl, rfl, rfl, rfl⟩

theorem SameGuard.trans {first second third : Scanner} (one : SameGuard first second)
    (two : SameGuard second third) : SameGuard first third :=
  ⟨two.running.trans one.running, two.rerunRequested.trans one.rerunRequested,
    two.stopped.trans one.stopped, two.currentSyncPromise.trans one.currentSyncPromise,
    two.passes.trans one.passes, two.flushes.trans one.flushes, two.cleanups.trans one.cleanups,
    two.announces.trans one.announces⟩

theorem go_through_guard (scanner : Scanner) (reading : Reading) :
    SameGuard scanner (scanner.goThrough reading) := by
  unfold goThrough
  cases reading.line.entry? with
  | none => exact ⟨rfl, rfl, rfl, rfl, rfl, rfl, rfl, rfl⟩
  | some entry =>
    simp only [deliver, markProcessed]
    split_ifs <;> exact ⟨rfl, rfl, rfl, rfl, rfl, rfl, rfl, rfl⟩

theorem mark_existing_guard (scanner : Scanner) (session : String) (contents : List UInt8) :
    SameGuard scanner (scanner.markExisting session contents) := by
  unfold markExisting
  induction (linesOf session contents).map (fun line => (⟨line, false⟩ : Reading))
    generalizing scanner with
  | nil => exact .refl scanner
  | cons reading rest inductionHypothesis =>
    exact (go_through_guard scanner reading).trans (inductionHypothesis _)

theorem finish_sync_guard (scanner : Scanner) (sessions : List String) :
    SameGuard scanner (scanner.finishSync sessions) :=
  ⟨rfl, rfl, rfl, rfl, rfl, rfl, rfl, rfl⟩

variable {other scanner : Scanner}

/-- The guard is the same where the calls and the flag are. -/
theorem Steady.same (steady : scanner.Steady)
    (calls : other.callPasses = scanner.callPasses) (running : other.running = scanner.running)
    (current : other.currentSyncPromise = scanner.currentSyncPromise) : other.Steady := by
  constructor
  · unfold Guarded
    rw [calls, current, running]
    exact steady.guarded
  · unfold FlagHeld
    rw [calls, running]
    exact steady.held

/-- The flushes of a state that differs elsewhere. -/
theorem Good.of_steady (good : scanner.Good) (steady : other.Steady)
    (stopped : other.stopped = scanner.stopped) (flushes : other.flushes = scanner.flushes) :
    other.Good := by
  refine ⟨steady, ?_⟩
  unfold NoneWaits
  rw [stopped, flushes]
  exact good.returned

theorem SameGuard.calls (same : SameGuard scanner other) :
    other.callPasses = scanner.callPasses := by
  rw [callPasses, same.passes]
  rfl

theorem SameGuard.steady (same : SameGuard scanner other)
    (steady : scanner.Steady) : other.Steady :=
  steady.same same.calls same.running same.currentSyncPromise

theorem SameGuard.good (same : SameGuard scanner other) (good : scanner.Good) : other.Good :=
  good.of_steady (same.steady good.toSteady) same.stopped same.flushes

/-! ## What the operations keep -/

/-- A flag that is not set leaves no pass of a call. -/
theorem Guarded.idle (guarded : scanner.Guarded)
    (idle : scanner.running = false) : scanner.callPasses = [] := by
  rcases guarded with none | ⟨pass, promise, _, _, _, running⟩
  · exact none
  · exact absurd (idle.symm.trans running) Bool.false_ne_true

/-- A pass that is no call's does not count. -/
theorem call_passes_run (scanner : Scanner) {owner : PassOwner}
    (other : ∀ promise, owner ≠ .call promise) :
    (scanner.runSync owner).callPasses = scanner.callPasses := by
  have apart (sessions : List String) : isCall ⟨owner, sessions, sessions, [], []⟩ = false := by
    cases owner with
    | call promise => exact absurd rfl (other promise)
    | creation => rfl
    | cleanup => rfl
  simp [callPasses, runSync, List.filter_append, apart]

/-- What a call that is not stopped starts. -/
theorem start_sync_alive (alive : scanner.stopped = false) :
    scanner.startSync =
      { scanner with
        running := true
        currentSyncPromise := some scanner.promises
        promises := scanner.promises + 1
        passes := scanner.passes ++
          [⟨.call scanner.promises, scanner.sessionsToScan, scanner.sessionsToScan, [], []⟩] } := by
  simp only [startSync, runSyncCoalesced, alive, Bool.false_eq_true, ↓reduceIte]
  rfl

/-- Only one pass runs under the flag. -/
theorem steady_start (guarded : scanner.Guarded)
    (alive : scanner.stopped = false) (idle : scanner.running = false) :
    scanner.startSync.Steady := by
  have none : scanner.passes.filter isCall = [] := guarded.idle idle
  have calls : scanner.startSync.callPasses =
      [⟨.call scanner.promises, scanner.sessionsToScan, scanner.sessionsToScan, [], []⟩] := by
    rw [start_sync_alive alive, callPasses, List.filter_append, none]
    rfl
  refine ⟨.inr ⟨_, scanner.promises, calls, rfl, ?_, ?_⟩, ?_⟩
  · rw [start_sync_alive alive]
  · rw [start_sync_alive alive]
  · intro _
    rw [calls]
    exact List.cons_ne_nil _ _

theorem good_invalidate (good : scanner.Good) : scanner.invalidate.Good := by
  unfold invalidate
  split_ifs with stopped running
  · exact good
  · exact good.of_steady (good.toSteady.same rfl rfl rfl) rfl rfl
  · have alive : scanner.stopped = false := Bool.eq_false_iff.mpr stopped
    refine good.of_steady (steady_start good.guarded alive (Bool.eq_false_iff.mpr running)) ?_ ?_
    all_goals rw [start_sync_alive alive]

/-- The loop of a flush that is not stopped. -/
theorem good_flush_loop (steady : scanner.Steady)
    (alive : scanner.stopped = false) : scanner.flushLoop.Good := by
  have still : scanner.flushLoop.stopped = false := by
    unfold flushLoop
    rw [start_sync_alive alive]
    split_ifs
    all_goals exact alive
  refine ⟨?_, fun stopped => absurd (still.symm.trans stopped) Bool.false_ne_true⟩
  unfold flushLoop
  split_ifs with running
  · exact steady.same rfl rfl rfl
  · exact (steady_start steady.guarded alive (Bool.eq_false_iff.mpr running)).same rfl rfl rfl

theorem good_flush (good : scanner.Good) : scanner.flush.Good := by
  unfold flush
  split_ifs with stopped
  · exact good
  · exact good_flush_loop good.toSteady (Bool.eq_false_iff.mpr stopped)

/-- A flush that is resumed. It can only wait in a scanner that is not stopped. -/
theorem good_resume_flush (good : scanner.Good) {flush : Flush}
    (member : flush ∈ scanner.flushes) : (scanner.resumeFlush flush).Good := by
  have left : ({ scanner with flushes := scanner.flushes.erase flush } : Scanner).Steady :=
    good.toSteady.same rfl rfl rfl
  unfold resumeFlush
  cases phase : flush.phase with
  | syncing =>
    exact ⟨left, fun stopped other held => good.returned stopped other (List.mem_of_mem_erase held)⟩
  | waiting =>
    refine good_flush_loop left (Bool.eq_false_iff.mpr ?_)
    intro stopped
    have syncing := good.returned stopped flush member
    rw [phase] at syncing
    contradiction

theorem good_switch (good : scanner.Good) (session : String) :
    (scanner.switchTo session).Good :=
  good_invalidate (good.of_steady (good.toSteady.same rfl rfl rfl) rfl rfl)

theorem good_announce (good : scanner.Good) (session : String)
    (treatExistingAsProcessed hook : Bool) :
    (scanner.announceNewSession session treatExistingAsProcessed hook).Good := by
  have revived (held : List String) : ({ scanner with deadSessions := held } : Scanner).Good :=
    good.of_steady (good.toSteady.same rfl rfl rfl) rfl rfl
  unfold announceNewSession
  cases hook <;> dsimp only
  all_goals split_ifs
  all_goals first
    | exact good
    | exact revived _
    | exact good_switch good session
    | exact good_switch (revived _) session
    | exact good.of_steady (good.toSteady.same rfl rfl rfl) rfl rfl

/-- A pass of the scanner, taken out. -/
theorem call_passes_erase (scanner : Scanner) (pass : Pass) :
    (scanner.passes.erase pass).filter isCall = scanner.callPasses.erase pass :=
  List.erase_filter.symm

variable {pass : Pass}

/-- A pass that is no call's can be taken out. -/
theorem call_passes_other (scanner : Scanner) (other : isCall pass = false) :
    (scanner.passes.erase pass).filter isCall = scanner.callPasses := by
  rw [call_passes_erase]
  refine List.erase_of_not_mem (fun counted => ?_)
  exact Bool.false_ne_true (other.symm.trans (List.mem_filter.mp counted).2)

/-- A suspended pass of a call is the only one. -/
theorem Guarded.only (guarded : scanner.Guarded) {promise : Nat}
    (member : pass ∈ scanner.passes) (owner : pass.owner = .call promise) :
    scanner.callPasses = [pass] ∧ scanner.currentSyncPromise = some promise ∧
      scanner.running = true := by
  have counted : pass ∈ scanner.callPasses :=
    List.mem_filter.mpr ⟨member, by rw [isCall, owner]⟩
  rcases guarded with none | ⟨only, held, shape, onlyOwner, current, running⟩
  · rw [none] at counted
    exact absurd counted List.not_mem_nil
  · obtain rfl : pass = only := by simpa [shape] using counted
    obtain rfl : promise = held := by simpa [owner] using onlyOwner
    exact ⟨shape, current, running⟩

theorem call_passes_keep (scanner : Scanner) {left : Pass} (other : isCall pass = false)
    (same : left.owner = pass.owner) :
    (scanner.keepPass pass left).callPasses = scanner.callPasses := by
  have stays : isCall left = false := by rw [isCall, same]; exact other
  rw [callPasses, keepPass, List.filter_append, call_passes_other scanner other]
  simp [stays]

/-- A pass that goes on. -/
theorem steady_keep (steady : scanner.Steady) {left : Pass}
    (member : pass ∈ scanner.passes) (same : left.owner = pass.owner) :
    (scanner.keepPass pass left).Steady := by
  cases call : isCall pass with
  | false => exact steady.same (call_passes_keep scanner call same) rfl rfl
  | true =>
    cases owner : pass.owner with
    | creation => simp [isCall, owner] at call
    | cleanup => simp [isCall, owner] at call
    | call promise =>
      obtain ⟨shape, current, running⟩ := steady.guarded.only member owner
      have stays : isCall left = true := by rw [isCall, same, owner]
      have now : (scanner.keepPass pass left).callPasses = [left] := by
        rw [callPasses, keepPass, List.filter_append, call_passes_erase, shape,
          List.erase_cons_head]
        simp [stays]
      refine ⟨.inr ⟨left, promise, now, same.trans owner, current, running⟩, ?_⟩
      intro _
      rw [now]
      exact List.cons_ne_nil _ _

/-- What a call does where its pass is over. -/
theorem after_call (scanner : Scanner) (promise : Nat) :
    (scanner.rerunRequested = true ∧ scanner.stopped = false ∧
      scanner.afterSync (.call promise) =
        { scanner with
          rerunRequested := false
          passes := scanner.passes ++
            [⟨.call promise, scanner.sessionsToScan, scanner.sessionsToScan, [], []⟩] }) ∨
      scanner.afterSync (.call promise) = { scanner with running := false } := by
  by_cases again : (scanner.rerunRequested && !scanner.stopped) = true
  · have both := again
    simp only [Bool.and_eq_true, Bool.not_eq_true'] at both
    refine .inl ⟨both.1, both.2, ?_⟩
    rw [afterSync, if_pos again, runSyncCoalesced, if_neg (by simp [both.2])]
    rfl
  · exact .inr (by rw [afterSync, if_neg again])

/-- The end of a pass. The pass of a call starts another one or clears the flag. -/
theorem steady_end (steady : scanner.Steady)
    (member : pass ∈ scanner.passes) : (scanner.endPass pass).Steady := by
  unfold endPass
  cases owner : pass.owner with
  | creation => exact steady.same (call_passes_other scanner (by rw [isCall, owner])) rfl rfl
  | cleanup => exact steady.same (call_passes_other scanner (by rw [isCall, owner])) rfl rfl
  | call promise =>
    obtain ⟨shape, current, running⟩ := steady.guarded.only member owner
    have calls := call_passes_erase scanner pass
    rw [shape, List.erase_cons_head] at calls
    rcases after_call { scanner with passes := scanner.passes.erase pass } promise with
      ⟨_, _, again⟩ | done
    · rw [again]
      have now : List.filter isCall (scanner.passes.erase pass ++
          [⟨.call promise, scanner.sessionsToScan, scanner.sessionsToScan, [], []⟩]) =
          [⟨.call promise, scanner.sessionsToScan, scanner.sessionsToScan, [], []⟩] := by
        rw [List.filter_append, calls]
        rfl
      refine ⟨.inr ⟨_, promise, now, rfl, current, running⟩, ?_⟩
      intro _ none
      exact List.cons_ne_nil _ _ (now.symm.trans none)
    · rw [done]
      exact ⟨.inl calls, fun set => absurd set Bool.false_ne_true⟩

/-- The end of a pass leaves the flushes alone. -/
theorem end_pass_flushes (scanner : Scanner) (pass : Pass) :
    (scanner.endPass pass).stopped = scanner.stopped ∧
      (scanner.endPass pass).flushes = scanner.flushes := by
  unfold endPass
  cases pass.owner with
  | creation => exact ⟨rfl, rfl⟩
  | cleanup => exact ⟨rfl, rfl⟩
  | call promise =>
    rcases after_call { scanner with passes := scanner.passes.erase pass } promise with
      ⟨_, _, again⟩ | done
    · rw [again]
      exact ⟨rfl, rfl⟩
    · rw [done]
      exact ⟨rfl, rfl⟩

end Kvy.Cli.Claude.Scanner
