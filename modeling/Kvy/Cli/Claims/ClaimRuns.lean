import Kvy.Cli.Claims.ClaimLock

/-!
# Runs of the claim store

While no lock file of a call inside its critical section is reclaimed, the calls take their
critical sections one after the other: the file a call renames into place is the answer of
its mutation to the file that is there. An envelope is then claimed once, as long as its
entry is not pruned.
-/

namespace Kvy.Cli.Claims

open General Function

universe u
variable {Caller : Type u}

/-- The contents and the answer of a request to the claims file, which prunes no entry of the
envelope. -/
def Planned (file : Option (List Char)) (request : Request) (envelopeId : String)
    (contents : Option (List Char)) (answer : Answer) : Prop :=
  ∃ now, respond file (request.called now) = (contents, answer) ∧
    live file now envelopeId = stored file envelopeId

/-- A call done with the claims file whose answer is `claimed` for the envelope. -/
def Wins (requests : Caller → Request) (machine : Machine Caller) (envelopeId : String)
    (caller : Caller) : Prop :=
  ∃ claimId claimed, requests caller = .claim envelopeId claimId ∧
    (machine.phase caller).settled = some (.outcome (.claimed claimed))

/-- What holds for an envelope between the steps. -/
structure Recorded (requests : Caller → Request) (envelopeId : String) (machine : Machine Caller) :
    Prop where
  guarded : LockFile.Guarded machine.owner machine.inside
  /-- What a call is about to write answers the claims file. -/
  planned : ∀ caller contents answer, machine.phase caller = .writing contents answer →
    Planned machine.disk.file (requests caller) envelopeId contents answer
  /-- What a call has written answers the claims file. -/
  written : ∀ caller answer, machine.phase caller = .replacing answer →
    Planned machine.disk.file (requests caller) envelopeId machine.disk.tmp answer
  /-- A claim that won is recorded. -/
  recorded : ∀ caller, Wins requests machine envelopeId caller →
    stored machine.disk.file envelopeId ≠ none
  once : ∀ first second, Wins requests machine envelopeId first →
    Wins requests machine envelopeId second → first = second

/-! ## One mutation -/

/-- A mutation that prunes no entry of an envelope keeps one. -/
theorem planned_keeps {file contents : Option (List Char)} {request : Request} {envelopeId : String}
    {answer : Answer} (planned : Planned file request envelopeId contents answer)
    (held : stored file envelopeId ≠ none) : stored contents envelopeId ≠ none := by
  obtain ⟨now, responds, unpruned⟩ := planned
  obtain ⟨entry, found⟩ := Option.ne_none_iff_exists'.mp held
  have isLive : live file now envelopeId = some entry := unpruned.trans found
  have next : contents = (respond file (request.called now)).1 := by rw [responds]
  rw [next]
  have unexpired : ¬ Prunes file (request.called now) envelopeId := by
    rintro ⟨_, result, completedAt, completed, expired⟩
    obtain rfl := Option.some.inj (found.symm.trans completed)
    have at_ : (request.called now).now = now := by cases request <;> rfl
    rw [at_] at expired
    have filtered := (Option.filter_eq_some_iff.mp isLive).2
    simp [ClaimEntry.expired, expired] at filtered
  obtain prunes | kept | ⟨_, _, _, _, _, _, recorded⟩ := entry_after file (request.called now) found
  · exact absurd prunes unexpired
  · simp [kept]
  · simp [recorded]

/-- A claim is won where nothing is recorded, and recorded by the mutation. -/
theorem planned_wins {file contents : Option (List Char)} {envelopeId claimId claimed : String}
    (planned : Planned file (.claim envelopeId claimId) envelopeId contents
      (.outcome (.claimed claimed))) :
    stored file envelopeId = none ∧ stored contents envelopeId ≠ none := by
  obtain ⟨now, responds, unpruned⟩ := planned
  have granted : (respond file (.claim envelopeId claimId now)).2 = .outcome (.claimed claimed) :=
    congrArg Prod.snd responds
  have absent : live file now envelopeId = none := granted_absent granted
  have next : contents = (claimMessageSend file envelopeId claimId now).1 :=
    (congrArg Prod.fst responds).symm
  refine ⟨unpruned.symm.trans absent, ?_⟩
  rw [next, (claim_absent claimId absent).1]
  simp

/-! ## One step -/

variable {requests : Caller → Request} {machine : Machine Caller} {caller : Caller}
  {envelopeId : String}

/-- While a call is inside, it is alone there. -/
theorem Recorded.alone (holds : Recorded requests envelopeId machine) (was : machine.inside caller)
    (other : Caller) (differs : other ≠ caller) : ¬ machine.inside other := by
  intro isInside
  exact differs (holds.guarded.exclusive other caller isInside was)

/-- A phase outside the critical section has nothing to write. -/
theorem outside_idle {phase : Phase} (out : phase.inside = false) (contents : Option (List Char))
    (answer : Answer) : phase ≠ .writing contents answer ∧ phase ≠ .replacing answer := by
  constructor
  · rintro rfl
    contradiction
  · rintro rfl
    contradiction

/-- A mutation throws, or its contents are written. -/
theorem mutate_cases (disk : Disk Caller) (request : Request) (now : Decimal) :
    readAndMutate disk request now = .closing .thrown ∨ ∃ contents answer,
      respond disk.file (request.called now) = (contents, answer) ∧
        readAndMutate disk request now = .writing contents answer := by
  rcases responds : respond disk.file (request.called now) with ⟨contents, answer⟩
  cases answer with
  | thrown => exact Or.inl (by simp only [readAndMutate, responds])
  | outcome outcome =>
    exact Or.inr ⟨contents, _, rfl, by simp only [readAndMutate, responds]⟩
  | done => exact Or.inr ⟨contents, _, rfl, by simp only [readAndMutate, responds]⟩
  | claims claims => exact Or.inr ⟨contents, _, rfl, by simp only [readAndMutate, responds]⟩

/-- A critical section that retains an envelope plans for it. -/
theorem retains_live {caller : Caller} {now : Decimal}
    (retains : Retains envelopeId machine (.step caller now))
    (was : machine.phase caller = .reading) :
    live machine.disk.file now envelopeId = stored machine.disk.file envelopeId := by
  have kept := retains (by rw [was]; rfl)
  cases held : stored machine.disk.file envelopeId with
  | none => rw [live, held, Option.filter_none]
  | some entry =>
    rw [live, held, Option.filter_some, kept entry held]
    rfl

/-- Before anyone has started, nobody is inside. -/
theorem initial_guarded (initial : machine.Initial) :
    LockFile.Guarded machine.owner machine.inside := by
  intro caller isInside
  obtain opening | crashed := initial caller
  · simp [Machine.inside, opening, Phase.inside] at isInside
  · simp [Machine.inside, crashed, Phase.inside] at isInside

/-- Before anyone has started, nothing is planned or won. -/
theorem initial_recorded (initial : machine.Initial) (envelopeId : String) :
    Recorded requests envelopeId machine where
  guarded := initial_guarded initial
  planned := by
    intro caller contents answer writes
    obtain opening | crashed := initial caller
    · exact absurd (opening.symm.trans writes) (by simp)
    · exact absurd (crashed.symm.trans writes) (by simp)
  written := by
    intro caller answer replaces
    obtain opening | crashed := initial caller
    · exact absurd (opening.symm.trans replaces) (by simp)
    · exact absurd (crashed.symm.trans replaces) (by simp)
  recorded := by
    rintro caller ⟨_, _, _, settles⟩
    obtain opening | crashed := initial caller
    · simp [opening, Phase.settled] at settles
    · simp [crashed, Phase.settled] at settles
  once := by
    rintro first second ⟨_, _, _, settles⟩
    obtain opening | crashed := initial first
    · simp [opening, Phase.settled] at settles
    · simp [crashed, Phase.settled] at settles

/-- A call that has returned `claimed` wins. -/
theorem granted_wins (granted : Granted requests machine envelopeId caller) :
    Wins requests machine envelopeId caller := by
  obtain ⟨claimId, claimed, asks, returned⟩ := granted
  exact ⟨claimId, claimed, asks, by rw [returned]; rfl⟩

variable [DecidableEq Caller]

/-- The phase of a caller after a move. -/
theorem phase_move (moved : Disk Caller × Phase) (other : Caller) :
    (machine.move caller moved).phase other = if other = caller then moved.2 else machine.phase other :=
  update_apply machine.phase caller moved.2 other

/-- A move whose caller wins only if it had won adds no winner. -/
theorem wins_move {moved : Disk Caller × Phase} {other : Caller}
    (same : moved.2.Vain ∨ moved.2.settled = (machine.phase caller).settled)
    (wins : Wins requests (machine.move caller moved) envelopeId other) :
    Wins requests machine envelopeId other := by
  obtain ⟨claimId, claimed, asks, settles⟩ := wins
  rw [phase_move] at settles
  split at settles
  · rename_i isCaller
    subst isCaller
    obtain vain | kept := same
    · exact absurd (vain _ settles) (by simp)
    · exact ⟨claimId, claimed, asks, kept ▸ settles⟩
  · exact ⟨claimId, claimed, asks, settles⟩

/-- A move that leaves the claims file, plans nothing and wins nothing. -/
theorem Recorded.quiet (holds : Recorded requests envelopeId machine) {moved : Disk Caller × Phase}
    (guarded : LockFile.Guarded (machine.move caller moved).owner (machine.move caller moved).inside)
    (file : moved.1.file = machine.disk.file)
    (tmp : moved.1.tmp = machine.disk.tmp ∨ ∀ other, other ≠ caller → ¬ machine.inside other)
    (planned : ∀ contents answer, moved.2 = .writing contents answer →
      Planned machine.disk.file (requests caller) envelopeId contents answer)
    (written : ∀ answer, moved.2 = .replacing answer →
      Planned machine.disk.file (requests caller) envelopeId moved.1.tmp answer)
    (same : moved.2.Vain ∨ moved.2.settled = (machine.phase caller).settled) :
    Recorded requests envelopeId (machine.move caller moved) where
  guarded := guarded
  planned := by
    intro other contents answer found
    have unchanged : (machine.move caller moved).disk.file = machine.disk.file := file
    rw [unchanged]
    rw [phase_move] at found
    split at found
    · rename_i isCaller
      exact isCaller ▸ planned contents answer found
    · exact holds.planned other contents answer found
  written := by
    intro other answer found
    have unchanged : (machine.move caller moved).disk.file = machine.disk.file := file
    rw [unchanged]
    rw [phase_move] at found
    split at found
    · rename_i isCaller
      exact isCaller ▸ written answer found
    · rename_i differs
      obtain kept | alone := tmp
      · have sameTmp : (machine.move caller moved).disk.tmp = machine.disk.tmp := kept
        rw [sameTmp]
        exact holds.written other answer found
      · exact absurd (by simp [Machine.inside, found, Phase.inside]) (alone other differs)
  recorded := by
    intro other wins
    have unchanged : (machine.move caller moved).disk.file = machine.disk.file := file
    rw [unchanged]
    exact holds.recorded other (wins_move same wins)
  once := by
    intro first second one two
    exact holds.once first second (wins_move same one) (wins_move same two)

/-- Renaming records what the call has written. -/
theorem Recorded.rename (holds : Recorded requests envelopeId machine) {answer : Answer}
    {text : List Char} (was : machine.phase caller = .replacing answer)
    (found : machine.disk.tmp = some text) (moved : Disk Caller × Phase)
    (isMoved : moved = ({ machine.disk with file := some text, tmp := none }, .closing answer))
    (guarded : LockFile.Guarded (machine.move caller moved).owner (machine.move caller moved).inside) :
    Recorded requests envelopeId (machine.move caller moved) := by
  subst isMoved
  have isInside : machine.inside caller := by simp [Machine.inside, was, Phase.inside]
  have alone := holds.alone isInside
  have plan := holds.written caller answer was
  rw [found] at plan
  -- a caller that wins now won before, or is the one that renames
  have winners : ∀ other, Wins requests (machine.move caller
      ({ machine.disk with file := some text, tmp := none }, .closing answer)) envelopeId other →
      Wins requests machine envelopeId other ∨ other = caller ∧
        stored machine.disk.file envelopeId = none ∧ stored (some text) envelopeId ≠ none := by
    rintro other ⟨claimId, claimed, asks, settles⟩
    rw [phase_move] at settles
    split at settles
    · rename_i isCaller
      subst isCaller
      cases settles
      rw [asks] at plan
      exact Or.inr ⟨rfl, planned_wins plan⟩
    · exact Or.inl ⟨claimId, claimed, asks, settles⟩
  refine ⟨guarded, ?_, ?_, ?_, ?_⟩
  · intro other contents answer writes
    rw [phase_move] at writes
    split at writes
    · contradiction
    · rename_i differs
      exact absurd (by simp [Machine.inside, writes, Phase.inside]) (alone other differs)
  · intro other answer replaces
    rw [phase_move] at replaces
    split at replaces
    · contradiction
    · rename_i differs
      exact absurd (by simp [Machine.inside, replaces, Phase.inside]) (alone other differs)
  · intro other wins
    obtain before | ⟨_, _, recorded⟩ := winners other wins
    · exact planned_keeps plan (holds.recorded other before)
    · exact recorded
  · intro first second one two
    obtain first_ | ⟨isFirst, vacant, _⟩ := winners first one
    · obtain second_ | ⟨_, vacant, _⟩ := winners second two
      · exact holds.once first second first_ second_
      · exact absurd vacant (holds.recorded first first_)
    · obtain second_ | ⟨isSecond, _, _⟩ := winners second two
      · exact absurd vacant (holds.recorded second second_)
      · rw [isFirst, isSecond]

/-- Every step that reclaims only dead locks and prunes no entry of the envelope keeps it
recorded. -/
theorem Recorded.step (holds : Recorded requests envelopeId machine) {next : Machine Caller}
    {event : Event Caller} (dead : ReclaimsDead machine event)
    (retains : Retains envelopeId machine event)
    (taken : advance requests machine event = some next) : Recorded requests envelopeId next := by
  obtain ⟨caller, moved, effect, rfl⟩ := advance_effect taken
  have guarded := holds.guarded.step (lock_step dead effect)
  cases effect with
  | wait out vain =>
    refine holds.quiet guarded rfl (Or.inl rfl) ?_ ?_ (Or.inl vain)
    · intro contents answer writes
      exact absurd writes (outside_idle out contents answer).1
    · intro answer replaces
      exact absurd replaces (outside_idle out none answer).2
  | enter vacant =>
    exact holds.quiet guarded rfl (Or.inl rfl) (by simp) (by simp)
      (Or.inl (by intro answer settles; contradiction))
  | reclaim was =>
    refine holds.quiet guarded rfl (Or.inl rfl) ?_ ?_ (Or.inl (retry_vain _))
    · intro contents answer writes
      exact absurd writes (outside_idle (retry_inside _) contents answer).1
    · intro answer replaces
      exact absurd replaces (outside_idle (retry_inside _) none answer).2
  | mutate was =>
    obtain throws | ⟨contents, answer, responds, writes⟩ :=
      mutate_cases machine.disk (requests caller) _
    · rw [throws] at guarded ⊢
      exact holds.quiet guarded rfl (Or.inl rfl) (by simp) (by simp) (Or.inl (thrown_vain rfl))
    · rw [writes] at guarded ⊢
      refine holds.quiet guarded rfl (Or.inl rfl) ?_ (by simp)
        (Or.inl (by intro answer settles; contradiction))
      rintro _ _ ⟨⟩
      exact ⟨_, responds, retains_live retains was⟩
  | write was =>
    have isInside : machine.inside caller := by simp [Machine.inside, was, Phase.inside]
    have alone := holds.alone isInside
    refine holds.quiet guarded rfl (Or.inr alone) (by simp) ?_
      (Or.inl (by intro answer settles; contradiction))
    rintro answer ⟨⟩
    exact holds.planned caller _ _ was
  | spoil was =>
    have isInside : machine.inside caller := by simp [Machine.inside, was, Phase.inside]
    have alone := holds.alone isInside
    exact holds.quiet guarded rfl (Or.inr alone) (by simp) (by simp) (Or.inl (thrown_vain rfl))
  | rename was found => exact holds.rename was found _ rfl guarded
  | abandon was =>
    exact holds.quiet guarded rfl (Or.inl rfl) (by simp) (by simp) (Or.inl (thrown_vain rfl))
  | close was | unlock was | leave was =>
    exact holds.quiet guarded rfl (Or.inl rfl) (by simp) (by simp) (Or.inr (by rw [was]; rfl))

/-! ## Runs -/

open Runs

/-- A lock file removed under a call inside lets the next opener in. -/
theorem reclaimed_lets_in {next : Machine Caller} {event : Event Caller}
    (live : ¬ ReclaimsDead machine event) (taken : advance requests machine event = some next)
    {opener : Caller} {attempt : Nat} (opens : next.phase opener = .opening attempt) (now : Decimal) :
    ∃ after, advance requests next (.step opener now) = some after ∧
      ¬ LockFile.Exclusive after.inside := by
  cases event with
  | fail | crash => exact absurd trivial live
  | step reclaimer clock =>
    obtain ⟨reclaims, someone⟩ := not_forall.mp live
    simp only [not_forall, not_not] at someone
    obtain ⟨owner, owns, wasInside⟩ := someone
    obtain ⟨round, isRound⟩ : ∃ round, machine.phase reclaimer = .reclaiming round := by
      cases found : machine.phase reclaimer <;> simp [found, Phase.reclaims] at reclaims ⊢
    have removed : next = machine.move reclaimer ({ machine.disk with lock := none }, retry round) := by
      rw [advance, isRound] at taken
      exact (Option.some.inj taken).symm
    have differs : owner ≠ reclaimer := by
      rintro rfl
      simp [Machine.inside, isRound, Phase.inside] at wasInside
    have isInside : next.inside owner := by
      rw [removed, inside_move, if_neg differs]
      exact wasInside
    have vacant : next.disk.lock = none := by rw [removed]; rfl
    have entered : advance requests next (.step opener now) = some (next.move opener
        ({ next.disk with lock := some ⟨opener, now⟩ }, .reading)) := by
      simp [advance, opens, operate, openLock, vacant]
    have other : owner ≠ opener := by
      rintro rfl
      simp [Machine.inside, opens, Phase.inside] at isInside
    refine ⟨_, entered, ?_⟩
    intro exclusive
    apply other
    apply exclusive
    · rw [inside_move, if_neg other]
      exact isInside
    · rw [inside_move, if_pos rfl]
      rfl

/-- In a run that reclaims no lock file of a call in its critical section, the calls exclude
each other, and an envelope whose entry is retained is claimed once. Once such a lock file
is reclaimed, whoever opens the lock next is inside together with its holder. -/
theorem locked_calls_exclude (requests : Caller → Request) (start : Machine Caller)
    (initial : start.Initial) (events : List (Event Caller))
    (dead : Always (advance requests) (fun machine event _ => ReclaimsDead machine event)
      start events) :
    Always (advance requests) (fun _ _ next => LockFile.Exclusive next.inside) start events ∧
    (∀ envelopeId, Always (advance requests) (fun machine event _ => Retains envelopeId machine event)
        start events →
      Always (advance requests) (fun _ _ next => ∀ first second,
        Granted requests next envelopeId first → Granted requests next envelopeId second →
        first = second) start events) ∧
    (∀ machine event next, ¬ ReclaimsDead machine event → advance requests machine event = some next →
      ∀ opener attempt now, next.phase opener = .opening attempt →
      ∃ after, advance requests next (.step opener now) = some after ∧
        ¬ LockFile.Exclusive after.inside) := by
  refine ⟨?_, ?_, ?_⟩
  · apply always_under (fun machine => LockFile.Guarded machine.owner machine.inside)
      (fun machine event => ReclaimsDead machine event) _ ?_ (initial_guarded initial) dead
    intro machine event next guarded reclaims taken
    obtain ⟨caller, moved, effect, rfl⟩ := advance_effect taken
    have kept := guarded.step (lock_step reclaims effect)
    exact ⟨kept, kept.exclusive⟩
  · intro envelopeId retains
    apply always_under (Recorded requests envelopeId)
      (fun machine event => ReclaimsDead machine event ∧ Retains envelopeId machine event) _ ?_
      (initial_recorded initial envelopeId) (always_and dead retains)
    rintro machine event next holds ⟨reclaims, retain⟩ taken
    have kept := holds.step reclaims retain taken
    refine ⟨kept, ?_⟩
    intro first second one two
    exact kept.once first second (granted_wins one) (granted_wins two)
  · intro machine event next live taken opener attempt now opens
    exact reclaimed_lets_in live taken opens now

instance (machine : Machine Caller) (caller : Caller) : Decidable (machine.inside caller) :=
  inferInstanceAs (Decidable ((machine.phase caller).inside = true))

instance (machine : Machine Caller) : (event : Event Caller) → Decidable (ReclaimsDead machine event)
  | .fail _ _ | .crash _ => isTrue trivial
  | .step _ _ => inferInstanceAs (Decidable (_ → ∀ owner ∈ machine.owner, ¬ machine.inside owner))

instance (envelopeId : String) (machine : Machine Caller) :
    (event : Event Caller) → Decidable (Retains envelopeId machine event)
  | .fail _ _ | .crash _ => isTrue trivial
  | .step _ now => inferInstanceAs (Decidable (_ → ∀ entry ∈ stored machine.disk.file envelopeId,
      entry.expired now = false))

/-- Nobody has started, and there are no files. -/
def untouched : Machine (Fin 2) := ⟨⟨none, none, none⟩, fun _ => .opening 0⟩

/-- Both calls claim the same envelope. -/
def sameEnvelope (caller : Fin 2) : Request := .claim "m" (if caller = 0 then "a" else "b")

/-- Steps of the calls at times in milliseconds. -/
def steps (moves : List (Fin 2 × Int)) : List (Event (Fin 2)) :=
  moves.map (fun move => .step move.1 (Decimal.ofInt move.2))

/-- The second call reclaims the lock of a call that crashed, and claims. -/
def succeeding : List (Event (Fin 2)) :=
  steps [(0, 0)] ++ .crash 0 :: steps [(1, 9990), (1, 10090), (1, 10091), (1, 10092), (1, 10093),
    (1, 10094), (1, 10095), (1, 10096), (1, 10097)]

/-- A run that reclaims the lock of a crashed call keeps the calls apart. -/
theorem crashed_holder_succeeded :
    Always (advance sameEnvelope) (fun _ _ next => LockFile.Exclusive next.inside) untouched succeeding ∧
    Always (advance sameEnvelope) (fun _ _ next => ∀ first second,
      Granted sameEnvelope next "m" first → Granted sameEnvelope next "m" second → first = second)
      untouched succeeding := by
  have excluded := locked_calls_exclude sameEnvelope untouched (fun _ => Or.inl rfl) succeeding
    (by decide +kernel)
  exact ⟨excluded.1, excluded.2.1 "m" (by decide +kernel)⟩

/-- The claim id a call has returned as `claimed`. -/
def Phase.claimed? : Phase → Option String
  | .returned (.outcome (.claimed claimId)) => some claimId
  | _ => none

theorem claimed_phase {phase : Phase} {claimId : String} (claimed : phase.claimed? = some claimId) :
    phase = .returned (.outcome (.claimed claimId)) := by
  unfold Phase.claimed? at claimed
  split at claimed
  · cases claimed
    rfl
  · contradiction

/-- The first call is delayed after its read for ten seconds, and the second enters. -/
def overtaking : List (Event (Fin 2)) :=
  steps [(0, 0), (0, 1), (1, 9990), (1, 10090), (1, 10091), (1, 10092)]

/-- The second call returns, and then the first. -/
def finishing : List (Event (Fin 2)) :=
  steps [(1, 10093), (1, 10094), (1, 10095), (1, 10096), (1, 10097),
    (0, 10098), (0, 10099), (0, 10100), (0, 10101)]

/-- A holder that is delayed for ten seconds is not alone, and both calls return `claimed`. -/
theorem delayed_holder_overtaken : untouched.Initial ∧
    (∃ middle, run (advance sameEnvelope) untouched overtaking = some middle ∧
      ¬ LockFile.Exclusive middle.inside) ∧
    ∃ final, run (advance sameEnvelope) untouched (overtaking ++ finishing) = some final ∧
      ∃ first second, first ≠ second ∧ Granted sameEnvelope final "m" first ∧
        Granted sameEnvelope final "m" second := by
  refine ⟨fun _ => Or.inl rfl, ?_, ?_⟩
  · have observed : (run (advance sameEnvelope) untouched overtaking).map (fun machine =>
        ((machine.phase 0).inside, (machine.phase 1).inside)) = some (true, true) := by decide +kernel
    obtain ⟨middle, ran, both⟩ := Option.map_eq_some_iff.mp observed
    refine ⟨middle, ran, ?_⟩
    intro exclusive
    exact absurd (exclusive 0 1 (Prod.mk.inj both).1 (Prod.mk.inj both).2) (by decide)
  · have observed : (run (advance sameEnvelope) untouched (overtaking ++ finishing)).map
        (fun machine => ((machine.phase 0).claimed?, (machine.phase 1).claimed?)) =
          some (some "a", some "b") := by decide +kernel
    obtain ⟨final, ran, both⟩ := Option.map_eq_some_iff.mp observed
    refine ⟨final, ran, 0, 1, by decide, ?_, ?_⟩
    · exact ⟨"a", "a", rfl, claimed_phase (Prod.mk.inj both).1⟩
    · exact ⟨"b", "b", rfl, claimed_phase (Prod.mk.inj both).2⟩

end Kvy.Cli.Claims
