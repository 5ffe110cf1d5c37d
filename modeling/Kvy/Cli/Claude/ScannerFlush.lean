import Kvy.Cli.Claude.ScannerGuard

/-!
# Flushes of the transcript scanner

What is suspended comes to an end: announcements and cleanups first, then the flushes that wait,
then the passes, each line and each file once. A flush that waits when the scanner is stopped
leads to a flag that no pass holds. So the scanner stays healthy exactly as long as `cleanup` is
not called while a flush waits for the pass of another call.
-/

namespace Kvy.Cli.Claude.Scanner

open General

/-! ## The suspended work ends -/

/-- A flush that waits for the pass of another call. -/
def waits (flush : Flush) : Bool := flush.phase = .waiting

/-- A flush that waits for a call other than the current one. -/
def isStale (current : Option ℕ) (flush : Flush) : Bool := waits flush && flush.promise ≠ current

/-- What is suspended, by what takes precedence. -/
def work (scanner : Scanner) : ℕ × ℕ × ℕ × ℕ × ℕ × ℕ × ℕ × ℕ :=
  (scanner.announces.length + scanner.cleanups.length,
    scanner.flushes.countP waits,
    scanner.running.toNat,
    scanner.flushes.countP (isStale scanner.currentSyncPromise),
    scanner.rerunRequested.toNat,
    scanner.flushes.length,
    (scanner.passes.map (fun pass => pass.unread.length + 1)).sum,
    (scanner.passes.map (fun pass => pass.lines.length)).sum)

/-- The order of the precedence. -/
def Less : ℕ × ℕ × ℕ × ℕ × ℕ × ℕ × ℕ × ℕ → ℕ × ℕ × ℕ × ℕ × ℕ × ℕ × ℕ × ℕ → Prop :=
  Prod.Lex (· < ·) (Prod.Lex (· < ·) (Prod.Lex (· < ·) (Prod.Lex (· < ·) (Prod.Lex (· < ·)
    (Prod.Lex (· < ·) (Prod.Lex (· < ·) (· < ·)))))))

theorem less_founded : WellFounded Less := by
  have number : WellFounded (fun first second : ℕ => first < second) := Nat.lt_wfRel.wf
  exact number.prod_lex (number.prod_lex (number.prod_lex (number.prod_lex (number.prod_lex
    (number.prod_lex (number.prod_lex number))))))

/-- What a member counts for when it is taken out of a list. -/
theorem count_erase {α : Type} [DecidableEq α] {items : List α} {item : α} (member : item ∈ items)
    (test : α → Bool) :
    items.countP test = (items.erase item).countP test + if test item then 1 else 0 := by
  rw [(List.perm_cons_erase member).countP_eq test, List.countP_cons]

theorem sum_erase {α : Type} [DecidableEq α] {items : List α} {item : α} (member : item ∈ items)
    (weight : α → ℕ) :
    (items.map weight).sum = weight item + ((items.erase item).map weight).sum := by
  rw [((List.perm_cons_erase member).map weight).sum_nat, List.map_cons, List.sum_cons]

variable {scanner : Scanner}

/-- The work is the same where only other fields differ. -/
theorem SameGuard.work {other : Scanner} (same : SameGuard scanner other) :
    other.work = scanner.work := by
  unfold Scanner.work
  rw [same.announces, same.cleanups, same.flushes, same.running, same.currentSyncPromise,
    same.rerunRequested, same.passes]

variable {pass : Pass}

/-- A pass that goes on has less to read, or reads no more and has fewer lines. -/
theorem less_keep {left : Pass} (member : pass ∈ scanner.passes)
    (less : left.unread.length < pass.unread.length ∨
      left.unread.length = pass.unread.length ∧ left.lines.length < pass.lines.length) :
    Less (scanner.keepPass pass left).work scanner.work := by
  have unread := sum_erase member (fun pass => pass.unread.length + 1)
  have lines := sum_erase member (fun pass => pass.lines.length)
  simp only [Less, Prod.lex_def, work, true_and, keepPass, List.map_append, List.sum_append, List.map_cons,
    List.map_nil, List.sum_cons, List.sum_nil]
  omega

/-- A pass that ends starts another one, clears the flag, or is just gone. -/
theorem less_end (steady : scanner.Steady)
    (member : pass ∈ scanner.passes) : Less (scanner.endPass pass).work scanner.work := by
  have unread := sum_erase member (fun pass => pass.unread.length + 1)
  unfold endPass
  cases owner : pass.owner with
  | creation =>
    simp only [Less, Prod.lex_def, work, true_and, afterSync]
    omega
  | cleanup =>
    simp only [Less, Prod.lex_def, work, true_and, afterSync]
    omega
  | call promise =>
    obtain ⟨_, _, running⟩ := steady.guarded.only member owner
    rcases after_call { scanner with passes := scanner.passes.erase pass } promise with
      ⟨asked, _, again⟩ | done
    · have once : scanner.rerunRequested = true := asked
      rw [again]
      simp [Less, Prod.lex_def, work, once]
    · rw [done]
      simp [Less, Prod.lex_def, work, running]

/-- A flush that is resumed is done, starts its pass, or waits for the current one. -/
theorem less_flush (good : scanner.Good) {flush : Flush}
    (member : flush ∈ scanner.flushes) (settled : scanner.Settled flush.promise) :
    Less (scanner.resumeFlush flush).work scanner.work := by
  have waiting := count_erase member waits
  have stale := count_erase member (isStale scanner.currentSyncPromise)
  have fewer : (scanner.flushes.erase flush).length + 1 = scanner.flushes.length := by
    rw [List.length_erase_of_mem member]
    have := List.length_pos_of_mem member
    omega
  unfold resumeFlush
  cases phase : flush.phase with
  | syncing =>
    have apart : waits flush = false := by simp [waits, phase]
    simp only [isStale, apart, Bool.false_and, Bool.false_eq_true, ↓reduceIte] at waiting stale
    simp only [Less, Prod.lex_def, work, true_and]
    omega
  | waiting =>
    have counted : waits flush = true := by simp [waits, phase]
    have alive : scanner.stopped = false := by
      refine Bool.eq_false_iff.mpr (fun stopped => ?_)
      have syncing := good.returned stopped flush member
      rw [phase] at syncing
      contradiction
    simp only [counted, ↓reduceIte] at waiting
    simp only [flushLoop]
    split_ifs with running
    · have apart : flush.promise ≠ scanner.currentSyncPromise := by
        intro same
        obtain ⟨pass, promise, shape, owner, current, _⟩ :=
          good.guarded.resolve_left (good.held running)
        have call : pass ∈ scanner.callPasses := shape ▸ List.mem_singleton_self pass
        rw [same, current] at settled
        exact settled pass (List.mem_filter.mp call).1 owner
      have old : isStale scanner.currentSyncPromise flush = true := by
        simp [isStale, counted, apart]
      have fresh : isStale scanner.currentSyncPromise ⟨.waiting, scanner.currentSyncPromise⟩ =
          false := by simp [isStale]
      have again : waits ⟨.waiting, scanner.currentSyncPromise⟩ = true := rfl
      rw [old] at stale
      simp only [Less, Prod.lex_def, work, true_and, List.countP_append, List.countP_singleton, fresh, again,
        Bool.false_eq_true, ↓reduceIte] at stale ⊢
      omega
    · have alive' : ({ scanner with flushes := scanner.flushes.erase flush } : Scanner).stopped =
          false := alive
      rw [start_sync_alive alive']
      have syncing (promise : Option ℕ) : waits ⟨.syncing, promise⟩ = false := rfl
      simp only [Less, Prod.lex_def, work, true_and, List.countP_append, List.countP_singleton, syncing,
        Bool.false_eq_true, ↓reduceIte]
      omega

/-- What calls `invalidate` leaves the announcements and the cleanups alone. -/
theorem switch_waiting (scanner : Scanner) (session : String) :
    (scanner.switchTo session).announces = scanner.announces ∧
      (scanner.switchTo session).cleanups = scanner.cleanups := by
  simp only [switchTo, invalidate, startSync, runSyncCoalesced]
  split_ifs
  all_goals exact ⟨rfl, rfl⟩

section Steps
variable {transcripts : String → List UInt8} {scanner next : Scanner}

/-- What is suspended keeps the flag in order. -/
theorem good_resumed (good : scanner.Good) (resumed : Resumed transcripts scanner next) :
    next.Good := by
  cases resumed with
  | flush member _ => exact good_resume_flush good member
  | cleanup _ _ =>
    refine good.of_steady (good.toSteady.same ?_ rfl rfl) rfl rfl
    exact call_passes_run { scanner with cleanups := _ } (by simp)
  | announce _ _ =>
    refine good_switch ((mark_existing_guard _ _ _).good ?_) _
    exact good.of_steady (good.toSteady.same rfl rfl rfl) rfl rfl
  | read member _ _ _ =>
    exact good.of_steady (steady_keep good.toSteady member rfl) rfl rfl
  | @goThrough pass line lines member _ =>
    have same := go_through_guard scanner ⟨line, true⟩
    have held : pass ∈ (scanner.goThrough ⟨line, true⟩).passes := same.passes ▸ member
    exact (same.good good).of_steady (steady_keep (same.steady good.toSteady) held rfl) rfl rfl
  | @finish pass member _ _ =>
    have same := finish_sync_guard scanner pass.sessions
    obtain ⟨stopped, flushes⟩ := end_pass_flushes (scanner.finishSync pass.sessions) pass
    exact (same.good good).of_steady (steady_end (same.steady good.toSteady) member) stopped flushes
  | @fail pass member _ =>
    obtain ⟨stopped, flushes⟩ := end_pass_flushes scanner pass
    exact good.of_steady (steady_end good.toSteady member) stopped flushes

/-- What is suspended gets less with every step. -/
theorem less_resumed (good : scanner.Good) (resumed : Resumed transcripts scanner next) :
    Less next.work scanner.work := by
  cases resumed with
  | flush member settled => exact less_flush good member settled
  | cleanup member _ =>
    have fewer := List.length_erase_of_mem member
    have some := List.length_pos_of_mem member
    simp only [Less, Prod.lex_def, work, runSync]
    omega
  | @announce session contents member _ =>
    have fewer := List.length_erase_of_mem member
    have some := List.length_pos_of_mem member
    have marked := mark_existing_guard
      { scanner with announces := scanner.announces.erase session } session contents
    obtain ⟨announces, cleanups⟩ := switch_waiting
      ({ scanner with announces := scanner.announces.erase session }.markExisting session contents)
      session
    rw [marked.announces] at announces
    rw [marked.cleanups] at cleanups
    refine Prod.lex_def.mpr (.inl ?_)
    simp only [work, announces, cleanups]
    omega
  | read member done upcoming _ =>
    refine less_keep member (.inl ?_)
    simp [upcoming, Pass.reads]
  | @goThrough pass line lines member upcoming =>
    have same := go_through_guard scanner ⟨line, true⟩
    have held : pass ∈ (scanner.goThrough ⟨line, true⟩).passes := same.passes ▸ member
    rw [← same.work]
    refine less_keep held (.inr ⟨rfl, ?_⟩)
    simp [upcoming]
  | @finish pass member _ _ =>
    have same := finish_sync_guard scanner pass.sessions
    rw [← same.work]
    exact less_end (same.steady good.toSteady) member
  | fail member _ => exact less_end good.toSteady member

/-- A suspended pass can go on, and leaves the flushes alone. -/
theorem pass_moves (steady : scanner.Steady) (member : pass ∈ scanner.passes) :
    ∃ next, Moves transcripts scanner next ∧ next.Steady ∧ next.stopped = scanner.stopped ∧
      next.flushes = scanner.flushes := by
  cases lines : pass.lines with
  | cons line rest =>
    have same := go_through_guard scanner ⟨line, true⟩
    have held : pass ∈ (scanner.goThrough ⟨line, true⟩).passes := same.passes ▸ member
    refine ⟨(scanner.goThrough ⟨line, true⟩).keepPass pass { pass with lines := rest },
      ⟨.goThrough pass, ?_⟩, steady_keep (same.steady steady) held rfl, same.stopped, same.flushes⟩
    simp only [resume, lines, if_pos member]
  | nil =>
    cases unread : pass.unread with
    | cons session rest =>
      have written : [] <+: transcripts session := List.nil_prefix
      refine ⟨scanner.keepPass pass (pass.reads session rest []),
        ⟨.read pass [], ?_⟩, steady_keep steady member rfl, rfl, rfl⟩
      simp only [resume, lines, unread, if_pos (And.intro member written)]
    | nil =>
      have same := finish_sync_guard scanner pass.sessions
      obtain ⟨stopped, flushes⟩ := end_pass_flushes (scanner.finishSync pass.sessions) pass
      refine ⟨_, ⟨.finish pass, ?_⟩, steady_end (same.steady steady) member, stopped, flushes⟩
      exact if_pos ⟨member, lines, unread⟩

/-- A flush that waits can be resumed where the flag is not set. -/
theorem flush_moves (steady : scanner.Steady) (idle : scanner.running = false) {flush : Flush}
    (member : flush ∈ scanner.flushes) :
    Moves transcripts scanner (scanner.resumeFlush flush) := by
  have settled : scanner.Settled flush.promise := by
    have none := steady.guarded.idle idle
    unfold Settled
    split
    · trivial
    · intro pass held owner
      have counted : pass ∈ scanner.callPasses :=
        List.mem_filter.mpr ⟨held, by rw [isCall, owner]⟩
      rw [none] at counted
      exact List.not_mem_nil counted
  exact ⟨.resumeFlush flush, if_pos ⟨member, settled⟩⟩

/-- Nothing gets stuck while a flush waits. -/
theorem waiting_moves (steady : scanner.Steady) (waiting : ¬ scanner.NoneWaits) :
    ∃ next, Moves transcripts scanner next := by
  cases running : scanner.running with
  | true =>
    obtain ⟨pass, rest, shape⟩ := List.exists_cons_of_ne_nil (steady.held running)
    have call : pass ∈ scanner.callPasses := shape ▸ List.mem_cons_self
    obtain ⟨next, moved, _⟩ := pass_moves steady (List.mem_filter.mp call).1
    exact ⟨next, moved⟩
  | false =>
    unfold NoneWaits at waiting
    push Not at waiting
    obtain ⟨flush, member, _⟩ := waiting
    exact ⟨_, flush_moves steady running member⟩

end Steps

/-! ## When the scanner stays healthy -/

section Health
variable {transcripts : String → List UInt8} {scanner next : Scanner}

theorem good_leads (good : scanner.Good) {later : Scanner}
    (leads : Leads transcripts scanner later) : later.Good := by
  induction leads with
  | refl => exact good
  | tail _ moved inductionHypothesis =>
    obtain ⟨event, taken⟩ := moved
    exact good_resumed inductionHypothesis (resumed_of_resume taken)

/-- Where the flag is in order and no flush waits in vain, all is well. -/
theorem good_healthy (good : scanner.Good) : scanner.Healthy transcripts where
  held later leads := (good_leads good leads).held
  moves later leads waiting := waiting_moves (good_leads good leads).toSteady waiting
  ends := by
    refine Runs.moves_end less_founded work Good (Moves transcripts) ?_ good
    rintro state next holds ⟨event, taken⟩
    have resumed := resumed_of_resume taken
    exact ⟨good_resumed holds resumed, less_resumed holds resumed⟩

/-- A flush that leaves its loop in a scanner that is stopped sets the flag for good. -/
theorem stopped_flush_leaks (steady : scanner.Steady) (stopped : scanner.stopped = true)
    (idle : scanner.running = false) {flush : Flush} (waiting : flush.phase = .waiting) :
    ¬ (scanner.resumeFlush flush).FlagHeld := by
  have none : scanner.passes.filter isCall = [] := steady.guarded.idle idle
  have resumed : (scanner.resumeFlush flush).running = true ∧
      (scanner.resumeFlush flush).passes = scanner.passes := by
    simp [resumeFlush, waiting, flushLoop, idle, startSync, runSyncCoalesced, stopped]
  intro held
  refine held resumed.1 ?_
  rw [callPasses, resumed.2, none]

/-- A flush that waits in a scanner that is stopped leads to a flag that no pass holds. -/
theorem stopped_wait_leaks (ends : Acc (fun next state => Moves transcripts state next) scanner)
    (steady : scanner.Steady) (stopped : scanner.stopped = true) (waiting : ¬ scanner.NoneWaits) :
    ∃ later, Leads transcripts scanner later ∧ ¬ later.FlagHeld := by
  induction ends with
  | intro scanner _ inductionHypothesis =>
    cases running : scanner.running with
    | true =>
      obtain ⟨pass, rest, shape⟩ := List.exists_cons_of_ne_nil (steady.held running)
      have call : pass ∈ scanner.callPasses := shape ▸ List.mem_cons_self
      obtain ⟨next, moved, nextSteady, sameStopped, sameFlushes⟩ :
          ∃ next, Moves transcripts scanner next ∧ next.Steady ∧ _ ∧ _ :=
        pass_moves steady (List.mem_filter.mp call).1
      have nextWaiting : ¬ next.NoneWaits := by
        unfold NoneWaits
        rwa [sameFlushes]
      obtain ⟨later, leads, leaks⟩ :=
        inductionHypothesis next moved nextSteady (sameStopped.trans stopped) nextWaiting
      exact ⟨later, .head moved leads, leaks⟩
    | false =>
      unfold NoneWaits at waiting
      push Not at waiting
      obtain ⟨flush, member, apart⟩ := waiting
      have waits : flush.phase = .waiting := by
        cases phase : flush.phase with
        | waiting => rfl
        | syncing => exact absurd phase apart
      exact ⟨_, .single (flush_moves steady running member),
        stopped_flush_leaks steady stopped running waits⟩

/-- `cleanup` is not called while a flush waits. -/
def LetsFlushesReturn (scanner : Scanner) : Event → Prop
  | .cleanup => scanner.NoneWaits
  | _ => True

/-- The start of a cleanup leaves the calls, the flag and the flushes alone. -/
theorem cleanup_steady (steady : scanner.Steady) :
    scanner.cleanup.Steady ∧ scanner.cleanup.stopped = true ∧
      scanner.cleanup.flushes = scanner.flushes := by
  unfold cleanup
  cases current : scanner.currentSyncPromise with
  | some promise => exact ⟨steady.same rfl rfl current.symm, rfl, rfl⟩
  | none =>
    refine ⟨steady.same ?_ rfl current.symm, rfl, rfl⟩
    exact call_passes_run { scanner with stopped := true } (by simp)

/-- Every call but a cleanup that comes too early keeps the scanner in order. -/
theorem good_called {event : Event} (good : scanner.Good)
    (returned : scanner.LetsFlushesReturn event) (taken : scanner.called event = some next) :
    next.Good := by
  cases event with
  | invalidate =>
    obtain ⟨_, ⟨⟩⟩ := Option.ite_none_right_eq_some.mp taken
    exact good_invalidate good
  | flush =>
    obtain ⟨_, ⟨⟩⟩ := Option.ite_none_right_eq_some.mp taken
    exact good_flush good
  | cleanup =>
    obtain ⟨_, ⟨⟩⟩ := Option.ite_none_right_eq_some.mp taken
    obtain ⟨steady, _, flushes⟩ := cleanup_steady good.toSteady
    refine ⟨steady, fun _ => ?_⟩
    unfold NoneWaits
    rw [flushes]
    exact returned
  | onNewSession session treatExistingAsProcessed =>
    obtain ⟨_, ⟨⟩⟩ := Option.ite_none_right_eq_some.mp taken
    unfold onNewSession
    refine good_announce ?_ _ _ _
    exact good.of_steady (good.toSteady.same rfl rfl rfl) rfl rfl
  | onNewFile session now =>
    obtain ⟨_, ⟨⟩⟩ := Option.ite_none_right_eq_some.mp taken
    unfold onNewFile
    split_ifs
    · exact good
    · exact good_announce good _ _ _
  | onGaveUp session armedUntil =>
    obtain ⟨_, ⟨⟩⟩ := Option.ite_none_right_eq_some.mp taken
    exact good.of_steady (good.toSteady.same rfl rfl rfl) rfl rfl
  | _ => exact absurd taken (Option.some_ne_none next).symm

theorem good_step {event : Event} (good : scanner.Good) (returned : scanner.LetsFlushesReturn event)
    (taken : scanner.step transcripts event = some next) : next.Good := by
  rcases step_cases taken with called | resumed
  · exact good_called good returned called
  · exact good_resumed good resumed

/-- A scanner that stays healthy has let its flushes return. -/
theorem healthy_step {event : Event} (good : scanner.Good)
    (taken : scanner.step transcripts event = some next) (healthy : next.Healthy transcripts) :
    scanner.LetsFlushesReturn event := by
  cases event with
  | cleanup =>
    have called : scanner.called .cleanup = some next := by
      rcases Option.or_eq_some_iff.mp taken with called | ⟨_, resumed⟩
      · exact called
      · exact absurd resumed (Option.some_ne_none next).symm
    obtain ⟨_, ⟨⟩⟩ := Option.ite_none_right_eq_some.mp called
    obtain ⟨steady, stopped, flushes⟩ := cleanup_steady good.toSteady
    by_contra waiting
    have still : ¬ scanner.cleanup.NoneWaits := by
      unfold NoneWaits
      rwa [flushes]
    obtain ⟨later, leads, leaks⟩ := stopped_wait_leaks healthy.ends steady stopped still
    exact leaks (healthy.held later leads)
  | _ => trivial

/-- A scanner that is being created is in order. -/
theorem create_good (sessionId : Option String) (armedUntil : Nat) (existing : List UInt8) :
    (create sessionId armedUntil existing).Good := by
  have start : (initial sessionId.isSome armedUntil).Good :=
    ⟨⟨.inl rfl, fun running => absurd running Bool.false_ne_true⟩,
      fun _ _ member => absurd member List.not_mem_nil⟩
  have run {scanner : Scanner} (good : scanner.Good) : (scanner.runSync .creation).Good :=
    good.of_steady (good.toSteady.same (call_passes_run scanner (by simp)) rfl rfl) rfl rfl
  unfold create
  cases sessionId.filter (· ≠ "") with
  | none => exact run start
  | some session =>
    refine run (Good.of_steady ((mark_existing_guard _ session existing).good start) ?_ rfl rfl)
    exact ((mark_existing_guard _ session existing).steady start.toSteady).same rfl rfl rfl

end Health

/-- From creation on, the flag is set only while a pass that clears it is in progress and every
flush leaves its loop, exactly in the runs in which no cleanup is called while a flush waits. -/
theorem flush_ends_iff (transcripts : String → List UInt8) (sessionId : Option String)
    (armedUntil : Nat) (existing : List UInt8) (events : List Event) :
    Runs.Always (step transcripts) (fun _ _ next => next.Healthy transcripts)
        (create sessionId armedUntil existing) events ↔
      Runs.Always (step transcripts) (fun scanner event _ => scanner.LetsFlushesReturn event)
        (create sessionId armedUntil existing) events := by
  have start := create_good sessionId armedUntil existing
  constructor
  · intro healthy
    refine Runs.always_along Good (fun _ _ next => next.Healthy transcripts) _ ?_ start healthy
    intro scanner event next good nextHealthy taken
    have returned := healthy_step good taken nextHealthy
    exact ⟨good_step good returned taken, returned⟩
  · intro returns
    refine Runs.always_along Good (fun scanner event _ => scanner.LetsFlushesReturn event) _ ?_ start
      returns
    intro scanner event next good returned taken
    have nextGood := good_step good returned taken
    exact ⟨nextGood, good_healthy nextGood⟩

/-- A flush that waits while the scanner is cleaned up leaves the flag set when nothing runs. -/
theorem flag_left_set : ¬ ∀ (transcripts : String → List UInt8) (sessionId : Option String)
    (armedUntil : Nat) (existing : List UInt8) (events : List Event) (final : Scanner),
    Runs.run (step transcripts) (create sessionId armedUntil existing) events = some final →
      final.running = true → final.passes ≠ [] := by
  intro holds
  let events : List Event := [.finish ⟨.creation, [], [], [], []⟩, .invalidate, .flush, .cleanup,
    .finish ⟨.call 0, [], [], [], []⟩, .resumeFlush ⟨.waiting, some 0⟩]
  have leaks : (Runs.run (step fun _ => []) (create none 0 []) events).any
      (fun final => final.running && final.passes.isEmpty) = true := by rfl
  obtain ⟨final, ran, both⟩ := (Option.any_eq_true _ _).mp leaks
  simp only [Bool.and_eq_true, List.isEmpty_iff] at both
  exact holds _ _ _ _ _ final ran both.1 both.2

end Kvy.Cli.Claude.Scanner
