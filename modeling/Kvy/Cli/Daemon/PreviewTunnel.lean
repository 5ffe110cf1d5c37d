import Kvy.General.OrderedMap
import Kvy.General.Text
import Kvy.General.Utf8
import Mathlib.Data.List.DropRight
import Mathlib.Data.List.SplitOn

/-!
# Opening a preview tunnel

A tunnel is a child process that reports its address somewhere in its error output. The daemon
keeps the last lines of that output and looks for an address after each chunk; it tracks the
tunnel while it waits, and writes a journal of the processes it started. An opening is settled by
an address, by the end of the process, by an error or by a timeout, whichever comes first.
-/

namespace Kvy.Cli.Daemon.PreviewTunnel

open General

/-! ## The address in the error output -/

/-- Take a lower-case literal from the head of a text, in any case. -/
def takeLiteral : List Char → List Char → Option (List Char × List Char)
  | [], text => some ([], text)
  | _ :: _, [] => none
  | expected :: literal, char :: text =>
    if char.toLower = expected then
      (takeLiteral literal text).map fun (taken, rest) => (char :: taken, rest)
    else none

/-- A character of the subdomain, `[a-z0-9-]` in any case. -/
def isSubdomainChar (char : Char) : Bool :=
  ('a' ≤ char.toLower && char.toLower ≤ 'z') || ('0' ≤ char && char ≤ '9') || char = '-'

/-- A match of `TRYCLOUDFLARE_URL_PATTERN` at the head of a text. The subdomain holds no dot, so
only its longest run can be followed by the domain. -/
def urlAt (text : List Char) : Option (List Char) :=
  (takeLiteral "https://".toList text).bind fun (scheme, text) =>
    let subdomain := text.takeWhile isSubdomainChar
    if subdomain.isEmpty then none
    else
      (takeLiteral ".trycloudflare.com".toList (text.dropWhile isSubdomainChar)).map
        fun (domain, _) => scheme ++ subdomain ++ domain

/-- The first match of `TRYCLOUDFLARE_URL_PATTERN`. -/
def firstUrl : List Char → Option (List Char)
  | [] => none
  | char :: rest => (urlAt (char :: rest)).or (firstUrl rest)

/-- `STDERR_RING_LIMIT`. -/
def stderrRingLimit : Nat := 20

/-- `pushStderrLines`. -/
def pushStderrLines (ring : List (List Char)) (chunk : List Char) : List (List Char) :=
  (chunk.splitOn '\n').foldl (fun ring line =>
    if Text.trim line = [] then ring
    else
      let ring := ring ++ [line]
      if stderrRingLimit < ring.length then ring.drop 1 else ring) ring

/-- `ring.join("\n")`. -/
def joinLines (ring : List (List Char)) : List Char := ['\n'].intercalate ring

/-- `stderrTailSuffix`. -/
def stderrTailSuffix (ring : List (List Char)) : String :=
  if 0 < ring.length then " (cloudflared stderr tail:\n" ++ String.ofList (joinLines ring) ++ ")"
  else ""

/-- The lines of a chunk that are kept. -/
def keptLines (chunk : List Char) : List (List Char) :=
  (chunk.splitOn '\n').filter fun line => Text.trim line ≠ []

/-- The first address that stands whole in one of the last twenty kept lines of a chunk. -/
def chunkUrl (chunk : List Char) : Option (List Char) :=
  ((keptLines chunk).rtake stderrRingLimit).findSome? firstUrl

/-- A literal without a newline is found in front of a newline or not at all. -/
theorem take_literal_line {literal : List Char} (inline : '\n' ∉ literal) (text rest : List Char) :
    takeLiteral literal (text ++ '\n' :: rest) =
      (takeLiteral literal text).map fun (taken, left) => (taken, left ++ '\n' :: rest) := by
  induction literal generalizing text with
  | nil => rfl
  | cons expected literal inductionHypothesis =>
    simp only [List.mem_cons, not_or] at inline
    cases text with
    | nil =>
      have differs : ¬ Char.toLower '\n' = expected := inline.1
      rw [List.nil_append, takeLiteral, takeLiteral, if_neg differs]
      rfl
    | cons char text =>
      rw [List.cons_append, takeLiteral, takeLiteral]
      split
      · rw [inductionHypothesis inline.2, Option.map_map, Option.map_map]
        rfl
      · rfl

/-- A run of characters ends in front of a newline. -/
theorem run_line (text rest : List Char) :
    (text ++ '\n' :: rest).takeWhile isSubdomainChar = text.takeWhile isSubdomainChar ∧
      (text ++ '\n' :: rest).dropWhile isSubdomainChar =
        text.dropWhile isSubdomainChar ++ '\n' :: rest := by
  induction text with
  | nil => exact ⟨rfl, rfl⟩
  | cons char text inductionHypothesis =>
    cases kept : isSubdomainChar char with
    | true => simp [kept, inductionHypothesis]
    | false => simp [kept]

/-- An address ends in front of a newline. -/
theorem url_at_line (text rest : List Char) : urlAt (text ++ '\n' :: rest) = urlAt text := by
  unfold urlAt
  rw [take_literal_line (by decide)]
  cases takeLiteral "https://".toList text with
  | none => rfl
  | some found =>
    obtain ⟨scheme, left⟩ := found
    simp only [Option.map_some, Option.bind_some]
    rw [(run_line left rest).1, (run_line left rest).2, take_literal_line (by decide)]
    split
    · rfl
    · rw [Option.map_map]
      rfl

/-- Addresses are found line by line. -/
theorem first_url_line (text rest : List Char) :
    firstUrl (text ++ '\n' :: rest) = (firstUrl text).or (firstUrl rest) := by
  induction text with
  | nil =>
    have nothing : urlAt ('\n' :: rest) = none := rfl
    simp only [List.nil_append, firstUrl, nothing]
  | cons char text inductionHypothesis =>
    rw [List.cons_append, firstUrl, firstUrl, inductionHypothesis, ← List.cons_append, url_at_line,
      Option.or_assoc]

/-- The first address of joined lines is the first one in a line. -/
theorem first_url_join (ring : List (List Char)) :
    firstUrl (joinLines ring) = ring.findSome? firstUrl := by
  induction ring with
  | nil => rfl
  | cons line rest inductionHypothesis =>
    cases rest with
    | nil => simp [joinLines, List.intercalate]
    | cons next rest =>
      have joined : joinLines (line :: next :: rest) = line ++ '\n' :: joinLines (next :: rest) := by
        simp [joinLines, List.intercalate]
      rw [joined, first_url_line, inductionHypothesis]
      cases found : firstUrl line <;> simp [List.findSome?_cons, found]

/-- Dropping the oldest of more than the limit drops nothing of the last ones. -/
theorem rtake_drop_one {lines : List (List Char)} {limit : Nat} (long : limit < lines.length) :
    (lines.drop 1).rtake limit = lines.rtake limit := by
  unfold List.rtake
  rw [List.drop_drop, List.length_drop]
  congr 1
  omega

/-- The ring holds the last twenty lines. -/
theorem push_lines (lines ring : List (List Char)) (short : ring.length ≤ stderrRingLimit) :
    lines.foldl (fun ring line =>
      if Text.trim line = [] then ring
      else
        let ring := ring ++ [line]
        if stderrRingLimit < ring.length then ring.drop 1 else ring) ring =
      (ring ++ lines.filter fun line => Text.trim line ≠ []).rtake stderrRingLimit := by
  induction lines generalizing ring with
  | nil =>
    have whole : ring.length - stderrRingLimit = 0 := by omega
    simp [List.rtake, whole]
  | cons line lines inductionHypothesis =>
    rw [List.foldl_cons]
    by_cases blank : Text.trim line = []
    · rw [if_pos blank, inductionHypothesis ring short]
      simp [blank]
    · rw [if_neg blank]
      simp only
      have pushed : (ring ++ [line]).length = ring.length + 1 := by simp
      have kept : (line :: lines).filter (fun line => Text.trim line ≠ []) =
          line :: lines.filter (fun line => Text.trim line ≠ []) := by simp [blank]
      split
      · have room : ((ring ++ [line]).drop 1).length ≤ stderrRingLimit := by
          rw [List.length_drop, pushed]
          omega
        have first : 1 ≤ (ring ++ [line]).length := by omega
        rw [inductionHypothesis _ room, kept, List.append_cons ring line (List.filter _ lines),
          ← List.drop_append_of_le_length first, rtake_drop_one]
        rw [List.length_append]
        omega
      · rw [inductionHypothesis _ (by omega), kept, List.append_cons ring line (List.filter _ lines)]

theorem push_stderr_lines (ring : List (List Char)) (chunk : List Char)
    (short : ring.length ≤ stderrRingLimit) :
    pushStderrLines ring chunk = (ring ++ keptLines chunk).rtake stderrRingLimit :=
  push_lines (chunk.splitOn '\n') ring short

/-- After a ring without an address, what the next chunk shows is its own address. -/
theorem first_url_pushed {ring : List (List Char)} (nothing : ring.findSome? firstUrl = none)
    (short : ring.length ≤ stderrRingLimit) (chunk : List Char) :
    firstUrl (joinLines (pushStderrLines ring chunk)) = chunkUrl chunk := by
  rw [first_url_join, push_stderr_lines ring chunk short, chunkUrl]
  unfold List.rtake
  by_cases long : stderrRingLimit ≤ (keptLines chunk).length
  · have behind : ring.length ≤ (ring ++ keptLines chunk).length - stderrRingLimit := by
      simp only [List.length_append]
      omega
    rw [List.drop_append, List.drop_of_length_le behind, List.nil_append]
    congr 2
    simp only [List.length_append]
    omega
  · have within : (ring ++ keptLines chunk).length - stderrRingLimit ≤ ring.length := by
      simp only [List.length_append]
      omega
    have whole : (keptLines chunk).length - stderrRingLimit = 0 := by omega
    rw [List.drop_append_of_le_length within, List.findSome?_append, whole, List.drop_zero]
    have dropped : (ring.drop ((ring ++ keptLines chunk).length - stderrRingLimit)).findSome? firstUrl =
        none := by
      rw [List.findSome?_eq_none_iff] at nothing ⊢
      exact fun line member => nothing line (List.mem_of_mem_drop member)
    rw [dropped]
    rfl

/-! ## The registry and the journal -/

/-- The status of a tracked tunnel. -/
inductive TunnelStatus where
  | starting
  | active
deriving DecidableEq

/-- `TrackedTunnel`, without the handle of its process. -/
structure TrackedTunnel where
  tunnelId : String
  port : Nat
  url : List Char
  pid : Nat
  startedAt : Int
  status : TunnelStatus

/-- `TunnelJournalEntry`. -/
structure TunnelJournalEntry where
  pid : Nat
  port : Nat
  startedAt : Int
deriving DecidableEq

/-- A write to the journal. The writes of one home directory run one after the other. -/
inductive JournalWrite where
  | append (entry : TunnelJournalEntry)
  | remove (pid : Nat)

/-- How a write ends. A journal that cannot be read counts as empty. -/
inductive WriteResult where
  | done
  | unreadable
  | failed
deriving DecidableEq

/-- `appendJournalEntry` and `removeJournalEntry` on the file. -/
def JournalWrite.apply (write : JournalWrite) (result : WriteResult)
    (journal : List TunnelJournalEntry) : List TunnelJournalEntry :=
  match write, result with
  | .append entry, .done => journal ++ [entry]
  | .append entry, .unreadable => [entry]
  | .remove pid, .done => journal.filter fun entry => entry.pid ≠ pid
  | .remove _, .unreadable => journal
  | _, .failed => journal

/-- The process a write is about. -/
def JournalWrite.pid : JournalWrite → Nat
  | .append entry => entry.pid
  | .remove pid => pid

/-- What awaits a queued write: the success of an opening, its failure, or nothing. -/
inductive Waiter where
  | success
  | failure
  | nothing
deriving DecidableEq

/-! ## An opening -/

/-- What `handlePreviewOpen` returns or throws. -/
inductive Outcome where
  | resolved (tunnelId : String) (url : List Char) (port : Nat)
  | rejected (message : String)
deriving DecidableEq

/-- The process of an opening. -/
structure OpenCall where
  tunnelId : String
  port : Nat
  pid : Nat
  startedAt : Int

/-- The daemon during an opening. `success` and `failure` are the continuations that await the
journal; `removed` tells how the awaited removal ended. -/
structure Opening where
  registry : OrderedMap String TrackedTunnel
  journal : List TunnelJournalEntry
  writes : List (JournalWrite × Waiter)
  stderrRing : List (List Char)
  settled : Bool
  timer : Bool
  exitListener : Bool
  errorListener : Bool
  killed : Bool
  journalWritten : Bool
  success : Option (List Char)
  failure : Option String
  removed : Option WriteResult
  outcomes : List Outcome

/-- The entry of an opening in the journal. -/
def OpenCall.entry (call : OpenCall) : TunnelJournalEntry := ⟨call.pid, call.port, call.startedAt⟩

/-- The tunnel of an opening before its address is known. -/
def OpenCall.tunnel (call : OpenCall) : TrackedTunnel where
  tunnelId := call.tunnelId
  port := call.port
  url := []
  pid := call.pid
  startedAt := call.startedAt
  status := .starting

/-- The daemon when the listeners are attached. -/
def start (call : OpenCall) (registry : OrderedMap String TrackedTunnel)
    (journal : List TunnelJournalEntry) (pending : List JournalWrite) : Opening where
  registry := registry.set call.tunnelId call.tunnel
  journal := journal
  writes := pending.map (·, .nothing) ++ [(.append call.entry, .success)]
  stderrRing := []
  settled := false
  timer := true
  exitListener := true
  errorListener := true
  killed := false
  journalWritten := false
  success := none
  failure := none
  removed := none
  outcomes := []

/-- `DEFAULT_MAX_TUNNELS`. -/
def defaultMaxTunnels : Nat := 5

/-- What `handlePreviewOpen` does up to the promise it returns: an answer at once, or an opening. -/
def handlePreviewOpen (registry : OrderedMap String TrackedTunnel) (journal : List TunnelJournalEntry)
    (pending : List JournalWrite) (port : Nat) (installed : Bool) (maxTunnels : Option Nat)
    (spawned : Option Nat) (tunnelId : String) (startedAt : Int) : Outcome ⊕ OpenCall × Opening :=
  if !installed then .inl (.rejected "cloudflared-not-installed")
  else
    match registry.entries.find? (fun entry => entry.2.port = port) with
    | some (_, existing) => .inl (.resolved existing.tunnelId existing.url existing.port)
    | none =>
      if maxTunnels.getD defaultMaxTunnels ≤ registry.entries.length then
        .inl (.rejected "max-tunnels-reached")
      else
        match spawned with
        | none => .inl (.rejected "failed to spawn cloudflared: no pid was assigned")
        | some pid =>
          let call := ⟨tunnelId, port, pid, startedAt⟩
          .inr (call, start call registry journal pending)

/-- What can happen while an opening is under way. Other openings have other ids, and the processes
they write about are others. -/
inductive Event (call : OpenCall) where
  | data (chunk : List UInt8)
  | exit (code : Option Int)
  | error (message : String)
  | timeout
  | written (result : WriteResult)
  | resume
  | close
  | otherWrite (write : JournalWrite) (apart : write.pid ≠ call.pid)
  | otherOpened (tunnel : TrackedTunnel) (apart : tunnel.tunnelId ≠ call.tunnelId)
  | otherClosed (tunnelId : String) (apart : tunnelId ≠ call.tunnelId)

variable {call : OpenCall}

/-- `finalizeFailure` up to the removal it awaits. -/
def finalizeFailure (call : OpenCall) (state : Opening) (message : String) : Opening :=
  { state with
    settled := true
    timer := false
    registry := state.registry.delete call.tunnelId
    writes := state.writes ++ [(.remove call.pid, .failure)]
    failure := some message }

/-- The handler of a chunk of the error output. -/
def onStderr (state : Opening) (chunk : List UInt8) : Opening :=
  let state := { state with stderrRing := pushStderrLines state.stderrRing (Utf8.decode chunk) }
  if state.settled then state
  else
    match firstUrl (joinLines state.stderrRing) with
    | none => state
    | some url => { state with settled := true, timer := false, success := some url }

/-- An exit code as the message shows it. -/
def exitCode (code : Option Int) : String := (code.map toString).getD "unknown"

/-- The handler of the end of the process. -/
def onExit (call : OpenCall) (state : Opening) (code : Option Int) : Opening :=
  if state.exitListener then
    let state := { state with exitListener := false }
    if state.settled then
      { state with
        registry := state.registry.delete call.tunnelId
        writes := state.writes ++ [(.remove call.pid, .nothing)] }
    else
      finalizeFailure call state ("cloudflared exited (code " ++ exitCode code ++
        ") before a tunnel URL appeared" ++ stderrTailSuffix state.stderrRing)
  else state

/-- The handler of an error of the process. -/
def onError (call : OpenCall) (state : Opening) (message : String) : Opening :=
  if state.errorListener then
    let state := { state with errorListener := false }
    if state.settled then state
    else finalizeFailure call state ("failed to spawn cloudflared: " ++ message)
  else state

/-- The handler of the timeout. -/
def onTimeout (call : OpenCall) (state : Opening) : Opening :=
  if state.timer then
    let state := { state with timer := false }
    if state.settled then state
    else
      finalizeFailure call { state with killed := true }
        ("timed out waiting for cloudflared to report a tunnel URL" ++
          stderrTailSuffix state.stderrRing)
  else state

/-- The first queued write ends. -/
def onWritten (state : Opening) (result : WriteResult) : Opening :=
  match state.writes with
  | [] => state
  | (write, waiter) :: rest =>
    { state with
      journal := write.apply result state.journal
      writes := rest
      journalWritten := state.journalWritten || waiter = .success
      removed := if waiter = .failure then some result else state.removed }

/-- What `finalizeSuccess` and `finalizeFailure` do once the journal was written. -/
def onResume (call : OpenCall) (state : Opening) : Opening :=
  match state.success, state.journalWritten, state.failure, state.removed with
  | some url, true, _, _ =>
    { state with
      success := none
      registry := (state.registry.get? call.tunnelId).elim state.registry fun tracked =>
        state.registry.set call.tunnelId { tracked with url := url, status := .active }
      outcomes := state.outcomes ++ [.resolved call.tunnelId url call.port] }
  | _, _, some message, some _ =>
    { state with failure := none, outcomes := state.outcomes ++ [.rejected message] }
  | _, _, _, _ => state

/-- One event of an opening. -/
def step (state : Opening) : Event call → Opening
  | .data chunk => onStderr state chunk
  | .exit code => onExit call state code
  | .error message => onError call state message
  | .timeout => onTimeout call state
  | .written result => onWritten state result
  | .resume => onResume call state
  | .close =>
    { state with
      registry := state.registry.delete call.tunnelId
      writes := state.writes ++ [(.remove call.pid, .nothing)] }
  | .otherWrite write _ => { state with writes := state.writes ++ [(write, .nothing)] }
  | .otherOpened tunnel _ => { state with registry := state.registry.set tunnel.tunnelId tunnel }
  | .otherClosed tunnelId _ => { state with registry := state.registry.delete tunnelId }

/-- An opening after some events. -/
def run (state : Opening) (events : List (Event call)) : Opening := events.foldl step state

/-- Whether an event settles an opening that is not settled. -/
def Event.ends : Event call → Bool
  | .exit _ | .error _ | .timeout => true
  | _ => false

/-- The chunks of the error output before the process ended, failed or took too long. -/
def chunksBefore : List (Event call) → List (List UInt8)
  | [] => []
  | .data chunk :: rest => chunk :: chunksBefore rest
  | event :: rest => if event.ends then [] else chunksBefore rest

/-- The first address that stands whole among the last twenty kept lines of a chunk, chunk by chunk. -/
def caughtUrl (chunks : List (List UInt8)) : Option (List Char) :=
  chunks.findSome? fun chunk => chunkUrl (Utf8.decode chunk)

/-- The address of an outcome. -/
def Outcome.url : Outcome → Option (List Char)
  | .resolved _ url _ => some url
  | .rejected _ => none

/-- The address that an opening resolved with or is about to resolve with. -/
def Opening.found (state : Opening) : Option (List Char) :=
  state.success.or (state.outcomes.findSome? Outcome.url)

/-! ## What holds in every state -/

/-- The opening has failed: it is rejected, or about to be. -/
def Opening.Failing (state : Opening) : Prop :=
  state.failure.isSome = true ∨ ∃ message, Outcome.rejected message ∈ state.outcomes

/-- A queued write that adds an entry for the process. -/
def Adds (pid : Nat) (queued : JournalWrite × Waiter) : Prop :=
  ∃ entry, queued.1 = .append entry ∧ entry.pid = pid

/-- What holds of an opening after any events. -/
structure Sound (call : OpenCall) (state : Opening) : Prop where
  short : state.stderrRing.length ≤ stderrRingLimit
  unseen : state.settled = false → state.stderrRing.findSome? firstUrl = none
  once : state.outcomes.length + state.success.toList.length + state.failure.toList.length =
    if state.settled then 1 else 0
  listens : state.settled = false →
    state.timer = true ∧ state.exitListener = true ∧ state.errorListener = true
  writing : state.journalWritten = false → ∃ write, (write, .success) ∈ state.writes
  removing : state.failure.isSome = true → state.removed = none →
    ∃ write, (write, .failure) ∈ state.writes
  awaited : ∀ write, (write, .failure) ∈ state.writes → write = .remove call.pid ∧ state.Failing
  removed : state.removed.isSome = true → state.Failing
  rejected : ∀ message, .rejected message ∈ state.outcomes → state.removed.isSome = true
  untracked : state.Failing → state.registry.get? call.tunnelId = none
  order : state.writes.Pairwise fun earlier later => earlier.2 = .failure → ¬ Adds call.pid later
  cleared : state.removed = some .done →
    (∀ entry ∈ state.journal, entry.pid ≠ call.pid) ∧ ∀ queued ∈ state.writes, ¬ Adds call.pid queued

variable {state : Opening}

/-- A failing opening has settled and will not succeed. -/
theorem Sound.failing_settled (sound : Sound call state) (failing : state.Failing) :
    state.settled = true ∧ state.success = none := by
  have once := sound.once
  have some_failure : 1 ≤ state.outcomes.length + state.failure.toList.length := by
    rcases failing with pending | ⟨message, member⟩
    · obtain ⟨message, held⟩ := Option.isSome_iff_exists.mp pending
      simp [held]
    · have positive := List.length_pos_of_mem member
      omega
  cases settled : state.settled with
  | false =>
    rw [settled] at once
    simp only [Bool.false_eq_true, ↓reduceIte] at once
    omega
  | true =>
    rw [settled, if_pos rfl] at once
    refine ⟨rfl, ?_⟩
    cases held : state.success with
    | none => rfl
    | some url =>
      rw [held] at once
      simp only [Option.toList_some, List.length_singleton] at once
      omega

/-- One more write that adds no entry for the process and that nothing awaits. -/
theorem Sound.queue (sound : Sound call state) (write : JournalWrite)
    (apart : ¬ Adds call.pid (write, .nothing)) :
    Sound call { state with writes := state.writes ++ [(write, .nothing)] } where
  short := sound.short
  unseen := sound.unseen
  once := sound.once
  listens := sound.listens
  writing missing := by
    obtain ⟨held, member⟩ := sound.writing missing
    exact ⟨held, List.mem_append_left _ member⟩
  removing failing waits := by
    obtain ⟨held, member⟩ := sound.removing failing waits
    exact ⟨held, List.mem_append_left _ member⟩
  awaited held member := by
    rcases List.mem_append.mp member with old | new
    · exact sound.awaited held old
    · simp at new
  removed := sound.removed
  rejected := sound.rejected
  untracked := sound.untracked
  order := by
    rw [List.pairwise_append]
    refine ⟨sound.order, List.pairwise_singleton _ _, fun earlier _ later member _ => ?_⟩
    rw [List.mem_singleton.mp member]
    exact apart
  cleared done := by
    obtain ⟨journal, writes⟩ := sound.cleared done
    refine ⟨journal, fun queued member => ?_⟩
    rcases List.mem_append.mp member with old | new
    · exact writes queued old
    · rw [List.mem_singleton.mp new]
      exact apart

/-- A change of the registry that leaves a missing tunnel missing. -/
theorem Sound.registry (sound : Sound call state) (registry : OrderedMap String TrackedTunnel)
    (missing : state.registry.get? call.tunnelId = none → registry.get? call.tunnelId = none) :
    Sound call { state with registry := registry } :=
  { sound with untracked := fun failing => missing (sound.untracked failing) }

/-- The tunnel is no longer tracked. -/
theorem Sound.untrack (sound : Sound call state) :
    Sound call { state with registry := state.registry.delete call.tunnelId } :=
  sound.registry _ fun _ => (OrderedMap.get_delete _ _ _).trans (if_pos rfl)

/-- A removal adds nothing. -/
theorem remove_not_adds
    (pid removed : Nat) (waiter : Waiter) : ¬ Adds pid (.remove removed, waiter) := by
  rintro ⟨entry, same, -⟩
  exact absurd same (by simp)

/-- An opening that is not settled fails. -/
theorem Sound.fail (sound : Sound call state) (open_ : state.settled = false)
    (message : String) : Sound call (finalizeFailure call state message) where
  short := sound.short
  unseen settled := absurd settled (by simp [finalizeFailure])
  once := by
    have once := sound.once
    rw [open_] at once
    simp only [Bool.false_eq_true, ↓reduceIte] at once
    simp only [finalizeFailure, ↓reduceIte, Option.toList_some, List.length_singleton]
    omega
  listens settled := absurd settled (by simp [finalizeFailure])
  writing missing := by
    obtain ⟨held, member⟩ := sound.writing missing
    exact ⟨held, List.mem_append_left _ member⟩
  removing _ _ := ⟨.remove call.pid, List.mem_append_right _ List.mem_cons_self⟩
  awaited held member := by
    refine ⟨?_, .inl rfl⟩
    rcases List.mem_append.mp member with old | new
    · exact (sound.awaited held old).1
    · exact (Prod.mk.inj (List.mem_singleton.mp new)).1
  removed _ := .inl rfl
  rejected := sound.rejected
  untracked _ := by simp [finalizeFailure]
  order := by
    rw [finalizeFailure, List.pairwise_append]
    refine ⟨sound.order, List.pairwise_singleton _ _, fun earlier _ later member _ => ?_⟩
    rw [List.mem_singleton.mp member]
    exact remove_not_adds _ _ _
  cleared done := by
    obtain ⟨journal, writes⟩ := sound.cleared done
    refine ⟨journal, fun queued member => ?_⟩
    rcases List.mem_append.mp member with old | new
    · exact writes queued old
    · rw [List.mem_singleton.mp new]
      exact remove_not_adds _ _ _

/-- A chunk keeps what holds. -/
theorem Sound.data (sound : Sound call state) (chunk : List UInt8) :
    Sound call (onStderr state chunk) := by
  have short : (pushStderrLines state.stderrRing (Utf8.decode chunk)).length ≤ stderrRingLimit := by
    rw [push_stderr_lines _ _ sound.short, List.rtake, List.length_drop]
    omega
  unfold onStderr
  simp only
  split
  · rename_i held
    have settled : state.settled = true := held
    exact { sound with
      short := short
      unseen := fun unsettled => absurd (settled.symm.trans unsettled) (by simp) }
  · rename_i held
    have settled : state.settled = false := Bool.eq_false_iff.mpr held
    have once := sound.once
    rw [settled] at once
    simp only [Bool.false_eq_true, ↓reduceIte] at once
    split
    · rename_i nothing
      exact { sound with short := short, unseen := fun _ => (first_url_join _).symm.trans nothing }
    · exact { sound with
        short := short
        unseen := fun unsettled => absurd unsettled (by simp)
        once := by
          simp only [Option.toList_some, List.length_singleton, ↓reduceIte]
          omega
        listens := fun unsettled => absurd unsettled (by simp) }

/-- The end of the process keeps what holds. -/
theorem Sound.exit (sound : Sound call state) (code : Option Int) :
    Sound call (onExit call state code) := by
  unfold onExit
  split
  · simp only
    split
    · rename_i held
      have settled : state.settled = true := held
      have closed : Sound call { state with exitListener := false } :=
        { sound with listens := fun unsettled => absurd (settled.symm.trans unsettled) (by simp) }
      exact (closed.untrack).queue (.remove call.pid) (remove_not_adds _ _ _)
    · rename_i held
      exact { sound.fail (Bool.eq_false_iff.mpr held) _ with
        listens := fun unsettled => absurd unsettled (by simp [finalizeFailure]) }
  · exact sound

/-- An error of the process keeps what holds. -/
theorem Sound.error (sound : Sound call state) (message : String) :
    Sound call (onError call state message) := by
  unfold onError
  split
  · simp only
    split
    · rename_i held
      have settled : state.settled = true := held
      exact { sound with listens := fun unsettled => absurd (settled.symm.trans unsettled) (by simp) }
    · rename_i held
      exact { sound.fail (Bool.eq_false_iff.mpr held) _ with
        listens := fun unsettled => absurd unsettled (by simp [finalizeFailure]) }
  · exact sound

/-- The timeout keeps what holds. -/
theorem Sound.timeout (sound : Sound call state) :
    Sound call (onTimeout call state) := by
  unfold onTimeout
  split
  · simp only
    split
    · rename_i held
      have settled : state.settled = true := held
      exact { sound with listens := fun unsettled => absurd (settled.symm.trans unsettled) (by simp) }
    · rename_i held
      exact { sound.fail (Bool.eq_false_iff.mpr held) _ with
        listens := fun unsettled => absurd unsettled (by simp [finalizeFailure]) }
  · exact sound

/-- A write adds no entry for a process unless it appends one. -/
theorem not_adds_apply {pid : Nat} {write : JournalWrite} {waiter : Waiter} {result : WriteResult}
    {journal : List TunnelJournalEntry} (apart : ¬ Adds pid (write, waiter))
    (clean : ∀ entry ∈ journal, entry.pid ≠ pid) :
    ∀ entry ∈ write.apply result journal, entry.pid ≠ pid := by
  intro entry member same
  cases write with
  | append added =>
    have differs : added.pid ≠ pid := fun own => apart ⟨added, rfl, own⟩
    cases result with
    | done =>
      rcases List.mem_append.mp member with old | new
      · exact clean entry old same
      · exact differs (List.mem_singleton.mp new ▸ same)
    | unreadable => exact differs (List.mem_singleton.mp member ▸ same)
    | failed => exact clean entry member same
  | remove removed =>
    cases result with
    | done => exact clean entry (List.mem_of_mem_filter member) same
    | unreadable => exact clean entry member same
    | failed => exact clean entry member same

/-- The end of a write keeps what holds. -/
theorem Sound.written (sound : Sound call state) (result : WriteResult) :
    Sound call (onWritten state result) := by
  unfold onWritten
  split
  · exact sound
  · rename_i write waiter rest queue
    have order := sound.order
    rw [queue, List.pairwise_cons] at order
    have rest_member : ∀ queued, queued ∈ rest → queued ∈ state.writes := by
      intro queued member
      rw [queue]
      exact List.mem_cons_of_mem _ member
    have head_member : (write, waiter) ∈ state.writes := queue ▸ List.mem_cons_self
    exact {
      short := sound.short
      unseen := sound.unseen
      once := sound.once
      listens := sound.listens
      writing := by
        intro missing
        obtain ⟨unwritten, other⟩ := Bool.or_eq_false_iff.mp missing
        obtain ⟨held, member⟩ := sound.writing unwritten
        rw [queue] at member
        rcases List.mem_cons.mp member with head | later
        · exact absurd (Prod.mk.inj head).2.symm (by simpa using other)
        · exact ⟨held, later⟩
      removing := by
        intro failing waits
        simp only at waits
        split at waits
        · exact absurd waits (by simp)
        · rename_i other
          obtain ⟨held, member⟩ := sound.removing failing waits
          rw [queue] at member
          rcases List.mem_cons.mp member with head | later
          · exact absurd (Prod.mk.inj head).2.symm other
          · exact ⟨held, later⟩
      awaited := fun held member => sound.awaited held (rest_member _ member)
      removed := by
        intro some_result
        simp only at some_result
        split at some_result
        · rename_i own
          subst own
          exact (sound.awaited write head_member).2
        · exact sound.removed some_result
      rejected := by
        intro message member
        have done := sound.rejected message member
        simp only
        split
        · rfl
        · exact done
      untracked := sound.untracked
      order := order.2
      cleared := by
        intro done
        simp only at done
        split at done
        · rename_i own
          subst own
          have removal := (sound.awaited write head_member).1
          have carried : result = .done := Option.some.inj done
          subst removal carried
          refine ⟨?_, fun queued member => order.1 queued member rfl⟩
          intro entry member
          have kept := (List.mem_filter.mp member).2
          simpa using kept
        · obtain ⟨journal, writes⟩ := sound.cleared done
          exact ⟨not_adds_apply (writes _ head_member) journal,
            fun queued member => writes queued (rest_member queued member)⟩ }

/-- Something that is pending shows that the opening has settled. -/
theorem Sound.pending_settled (sound : Sound call state)
    (pending : 1 ≤ state.outcomes.length + state.success.toList.length +
      state.failure.toList.length) : state.settled = true := by
  have once := sound.once
  cases settled : state.settled with
  | true => rfl
  | false =>
    rw [settled] at once
    simp only [Bool.false_eq_true, ↓reduceIte] at once
    omega

/-- A success that continues keeps what holds. -/
theorem Sound.succeed (sound : Sound call state) {url : List Char}
    (success : state.success = some url) (registry : OrderedMap String TrackedTunnel) :
    Sound call { state with
      success := none
      registry := registry
      outcomes := state.outcomes ++ [.resolved call.tunnelId url call.port] } := by
  have not_failing : ¬ state.Failing := by
    intro failing
    have none_left := (sound.failing_settled failing).2
    rw [success] at none_left
    exact absurd none_left (by simp)
  have same : ∀ message, Outcome.rejected message ∈
      state.outcomes ++ [.resolved call.tunnelId url call.port] →
        Outcome.rejected message ∈ state.outcomes := by
    intro message member
    rcases List.mem_append.mp member with old | new
    · exact old
    · exact absurd (List.mem_singleton.mp new) (by simp)
  have once := sound.once
  have settled : state.settled = true := sound.pending_settled (by simp [success]; omega)
  rw [settled, success] at once
  simp only [Option.toList_some, List.length_singleton, ↓reduceIte] at once
  exact { sound with
    once := by
      rw [settled]
      simp only [Option.toList_none, List.length_nil, List.length_append, List.length_singleton,
        ↓reduceIte]
      omega
    awaited := fun write member => absurd (sound.awaited write member).2 not_failing
    removed := fun removed => absurd (sound.removed removed) not_failing
    rejected := fun message member => sound.rejected message (same message member)
    untracked := fun failing =>
      absurd (failing.imp id fun ⟨message, member⟩ => ⟨message, same message member⟩) not_failing }

/-- A failure that continues keeps what holds. -/
theorem Sound.refuse (sound : Sound call state) {message : String}
    (failure : state.failure = some message) (removed : state.removed.isSome = true) :
    Sound call { state with
      failure := none, outcomes := state.outcomes ++ [.rejected message] } := by
  have failing : state.Failing := .inl (by simp [failure])
  have still : Opening.Failing { state with
      failure := none, outcomes := state.outcomes ++ [.rejected message] } :=
    .inr ⟨message, List.mem_append_right _ List.mem_cons_self⟩
  have once := sound.once
  rw [(sound.failing_settled failing).1, failure] at once
  simp only [Option.toList_some, List.length_singleton, ↓reduceIte] at once
  exact { sound with
    once := by
      rw [(sound.failing_settled failing).1]
      simp only [Option.toList_none, List.length_nil, List.length_append, List.length_singleton,
        ↓reduceIte]
      omega
    removing := fun pending => absurd pending (by simp)
    awaited := fun write member => ⟨(sound.awaited write member).1, still⟩
    removed := fun _ => still
    rejected := fun _ _ => removed
    untracked := fun _ => sound.untracked failing }

/-- The continuations keep what holds. -/
theorem Sound.resume (sound : Sound call state) :
    Sound call (onResume call state) := by
  unfold onResume
  split
  · rename_i url success written
    exact sound.succeed success _
  · rename_i message result failure removed _
    exact sound.refuse failure (by simp [removed])
  · exact sound

/-- Every event keeps what holds. -/
theorem Sound.after_step (sound : Sound call state) (event : Event call) :
    Sound call (step state event) := by
  cases event with
  | data chunk => exact sound.data chunk
  | exit code => exact sound.exit code
  | error message => exact sound.error message
  | timeout => exact sound.timeout
  | written result => exact sound.written result
  | resume => exact sound.resume
  | close => exact sound.untrack.queue (.remove call.pid) (remove_not_adds _ _ _)
  | otherWrite write apart =>
    refine sound.queue write ?_
    rintro ⟨entry, same, own⟩
    obtain rfl : write = .append entry := same
    exact apart own
  | otherOpened tunnel apart =>
    exact sound.registry _ fun missing =>
      (OrderedMap.get_set _ _ _ _).trans ((if_neg (Ne.symm apart)).trans missing)
  | otherClosed tunnelId apart =>
    exact sound.registry _ fun missing =>
      (OrderedMap.get_delete _ _ _).trans ((if_neg (Ne.symm apart)).trans missing)

/-- An opening begins sound. -/
theorem sound_start (call : OpenCall) (registry : OrderedMap String TrackedTunnel)
    (journal : List TunnelJournalEntry) (pending : List JournalWrite) :
    Sound call (start call registry journal pending) where
  short := Nat.zero_le _
  unseen _ := rfl
  once := rfl
  listens _ := ⟨rfl, rfl, rfl⟩
  writing _ := ⟨.append call.entry, List.mem_append_right _ List.mem_cons_self⟩
  removing pending := absurd pending (by simp [start])
  awaited write member := by
    simp [start] at member
  removed some_result := absurd some_result (by simp [start])
  rejected message member := absurd member (by simp [start])
  untracked failing := by simp [Opening.Failing, start] at failing
  order := by
    refine List.pairwise_of_forall_mem_list fun earlier member later _ awaited => ?_
    rcases List.mem_append.mp member with queued | own
    · obtain ⟨write, -, rfl⟩ := List.mem_map.mp queued
      exact absurd awaited (by simp)
    · rw [List.mem_singleton.mp own] at awaited
      exact absurd awaited (by simp)
  cleared done := absurd done (by simp [start])

/-- Every run keeps what holds. -/
theorem Sound.after_run (sound : Sound call state) (events : List (Event call)) :
    Sound call (run state events) := by
  induction events generalizing state with
  | nil => exact sound
  | cons event events inductionHypothesis => exact inductionHypothesis (sound.after_step event)

/-! ## The address an opening resolves with -/

/-- An opening that has not settled has nothing to answer yet. -/
theorem Sound.nothing_yet (sound : Sound call state) (unsettled : state.settled = false) :
    state.outcomes = [] ∧ state.success = none ∧ state.failure = none := by
  have once := sound.once
  rw [unsettled] at once
  simp only [Bool.false_eq_true, ↓reduceIte, Nat.add_eq_zero_iff, List.length_eq_zero_iff] at once
  obtain ⟨⟨outcomes, success⟩, failure⟩ := once
  exact ⟨outcomes, Option.toList_eq_nil_iff.mp success, Option.toList_eq_nil_iff.mp failure⟩

/-- What an opening is about to answer is its first answer. -/
theorem Sound.first_answer (sound : Sound call state)
    (pending : state.success.isSome = true ∨ state.failure.isSome = true) : state.outcomes = [] := by
  have once := sound.once
  have waiting : 1 ≤ state.success.toList.length + state.failure.toList.length := by
    rcases pending with success | failure
    · obtain ⟨url, held⟩ := Option.isSome_iff_exists.mp success
      simp only [held, Option.toList_some, List.length_singleton]
      omega
    · obtain ⟨message, held⟩ := Option.isSome_iff_exists.mp failure
      simp only [held, Option.toList_some, List.length_singleton]
      omega
  have bound : state.outcomes.length + state.success.toList.length + state.failure.toList.length ≤ 1 := by
    rw [once]
    split <;> omega
  exact List.length_eq_zero_iff.mp (by omega)

/-- A continuation answers with what was found. -/
theorem Sound.resume_found (sound : Sound call state) :
    (onResume call state).found = state.found ∧ (onResume call state).settled = state.settled := by
  unfold onResume
  split
  · rename_i url success written
    have first := sound.first_answer (.inl (by simp [success]))
    simp [Opening.found, success, first, Outcome.url]
  · rename_i message result failure removed _
    have first := sound.first_answer (.inr (by simp [failure]))
    simp [Opening.found, first, Outcome.url]
  · exact ⟨rfl, rfl⟩

/-- Once settled, an opening stays settled with what it found. -/
theorem Sound.settled_keeps (sound : Sound call state)
    (settled : state.settled = true) (event : Event call) :
    (step state event).settled = true ∧ (step state event).found = state.found := by
  cases event with
  | data chunk => simp [step, onStderr, settled, Opening.found]
  | exit code =>
    simp only [step, onExit]
    split
    · simp [settled, Opening.found]
    · exact ⟨settled, rfl⟩
  | error message =>
    simp only [step, onError]
    split
    · simp [settled, Opening.found]
    · exact ⟨settled, rfl⟩
  | timeout =>
    simp only [step, onTimeout]
    split
    · simp [settled, Opening.found]
    · exact ⟨settled, rfl⟩
  | written result =>
    simp only [step, onWritten]
    split
    · exact ⟨settled, rfl⟩
    · exact ⟨settled, rfl⟩
  | resume =>
    obtain ⟨found, same⟩ := sound.resume_found
    exact ⟨same.trans settled, found⟩
  | close => exact ⟨settled, rfl⟩
  | otherWrite write apart => exact ⟨settled, rfl⟩
  | otherOpened tunnel apart => exact ⟨settled, rfl⟩
  | otherClosed tunnelId apart => exact ⟨settled, rfl⟩

/-- Whatever follows, what was found when the opening settled stays. -/
theorem Sound.run_settled (sound : Sound call state)
    (settled : state.settled = true) (events : List (Event call)) :
    (run state events).settled = true ∧
      (run state events).found = state.found := by
  induction events generalizing state with
  | nil => exact ⟨settled, rfl⟩
  | cons event events inductionHypothesis =>
    obtain ⟨still, same⟩ := sound.settled_keeps settled event
    obtain ⟨after, found⟩ := inductionHypothesis (sound.after_step event) still
    exact ⟨after, found.trans same⟩

/-- The end of the process, an error or the timeout settles an opening, with no address where it
was not settled. -/
theorem Sound.ends_settles (sound : Sound call state)
    (unsettled : state.settled = false) {event : Event call} (ends : event.ends = true) :
    (step state event).settled = true ∧ (step state event).found = none := by
  obtain ⟨outcomes, success, -⟩ := sound.nothing_yet unsettled
  obtain ⟨timer, exit, error⟩ := sound.listens unsettled
  cases event with
  | exit code => simp [step, onExit, exit, unsettled, finalizeFailure, Opening.found, outcomes, success]
  | error message =>
    simp [step, onError, error, unsettled, finalizeFailure, Opening.found, outcomes, success]
  | timeout => simp [step, onTimeout, timer, unsettled, finalizeFailure, Opening.found, outcomes, success]
  | data _ | written _ | resume | close | otherWrite _ _ | otherOpened _ _ | otherClosed _ _ =>
    exact absurd ends (by simp [Event.ends])

/-- A chunk settles an opening when it shows an address. -/
theorem Sound.data_settles (sound : Sound call state)
    (unsettled : state.settled = false) (chunk : List UInt8) :
    (onStderr state chunk).settled = (chunkUrl (Utf8.decode chunk)).isSome ∧
      (onStderr state chunk).found = chunkUrl (Utf8.decode chunk) := by
  obtain ⟨outcomes, success, -⟩ := sound.nothing_yet unsettled
  have shown := first_url_pushed (sound.unseen unsettled) sound.short (Utf8.decode chunk)
  simp only [onStderr, unsettled, Bool.false_eq_true, ↓reduceIte, shown]
  cases chunkUrl (Utf8.decode chunk) <;> simp [Opening.found, outcomes, success]

/-- Other events leave an opening unsettled. -/
theorem Sound.stays_unsettled (sound : Sound call state)
    (unsettled : state.settled = false) {event : Event call} (continues : event.ends = false)
    (silent : ∀ chunk, event ≠ .data chunk) : (step state event).settled = false := by
  cases event with
  | data chunk => exact absurd rfl (silent chunk)
  | exit _ | error _ | timeout => exact absurd continues (by simp [Event.ends])
  | written result =>
    simp only [step, onWritten]
    split
    · exact unsettled
    · exact unsettled
  | resume => exact sound.resume_found.2.trans unsettled
  | close | otherWrite _ _ | otherOpened _ _ | otherClosed _ _ => exact unsettled

/-- What an opening finds in a run is what its chunks show before the process ended, failed or took
too long. -/
theorem Sound.run_found (sound : Sound call state)
    (unsettled : state.settled = false) (events : List (Event call)) :
    (run state events).found = caughtUrl (chunksBefore events) := by
  induction events generalizing state with
  | nil =>
    obtain ⟨outcomes, success, -⟩ := sound.nothing_yet unsettled
    simp [run, Opening.found, outcomes, success, chunksBefore, caughtUrl]
  | cons event events inductionHypothesis =>
    have unfolds : run state (event :: events) =
        run (step state event) events := rfl
    rw [unfolds]
    by_cases data : ∃ chunk, event = .data chunk
    · obtain ⟨chunk, rfl⟩ := data
      obtain ⟨settles, found⟩ := sound.data_settles unsettled chunk
      simp only [chunksBefore, caughtUrl, List.findSome?_cons]
      cases shown : chunkUrl (Utf8.decode chunk) with
      | some url =>
        rw [shown] at settles found
        exact ((sound.data chunk).run_settled settles events).2.trans found
      | none =>
        rw [shown] at settles
        exact inductionHypothesis (sound.data chunk) settles
    · have silent : ∀ chunk, event ≠ .data chunk := fun chunk same => data ⟨chunk, same⟩
      cases ends : event.ends with
      | true =>
        obtain ⟨settled, found⟩ := sound.ends_settles unsettled ends
        have none_left : chunksBefore (event :: events) = [] := by
          cases event <;> simp_all [chunksBefore, Event.ends]
        rw [((sound.after_step event).run_settled settled events).2, found, none_left]
        rfl
      | false =>
        have same : chunksBefore (event :: events) = chunksBefore events := by
          cases event <;> simp_all [chunksBefore, Event.ends]
        rw [inductionHypothesis (sound.after_step event) (sound.stays_unsettled unsettled ends silent), same]

/-! ## How an opening ends -/

/-- Queued writes end in their order. -/
theorem run_written (state : Opening) (results : List WriteResult) :
    (run state (results.map (@Event.written call))).writes =
      state.writes.drop results.length := by
  induction results generalizing state with
  | nil => rfl
  | cons result results inductionHypothesis =>
    have unfolds : run state ((result :: results).map (@Event.written call)) =
        run (onWritten state result) (results.map (@Event.written call)) := rfl
    rw [unfolds, inductionHypothesis]
    cases queue : state.writes with
    | nil => simp [onWritten, queue]
    | cons head rest => simp [onWritten, queue]

/-- With no write left in the queue, a continuation leaves nothing pending. -/
theorem Sound.resume_quiet (sound : Sound call state) (empty : state.writes = []) :
    (onResume call state).success = none ∧ (onResume call state).failure = none := by
  have written : state.journalWritten = true := by
    cases held : state.journalWritten with
    | true => rfl
    | false =>
      obtain ⟨write, member⟩ := sound.writing held
      rw [empty] at member
      exact absurd member List.not_mem_nil
  cases success : state.success with
  | some url =>
    have failure : state.failure = none := by
      cases held : state.failure with
      | none => rfl
      | some message =>
        have failing : state.Failing := .inl (by simp [held])
        rw [(sound.failing_settled failing).2] at success
        exact absurd success (by simp)
    simp [onResume, success, written, failure]
  | none =>
    cases failure : state.failure with
    | none => simp [onResume, success, failure]
    | some message =>
      cases removed : state.removed with
      | none =>
        obtain ⟨write, member⟩ := sound.removing (by simp [failure]) removed
        rw [empty] at member
        exact absurd member List.not_mem_nil
      | some result => simp [onResume, success, failure, removed]

/-- The opening once the writes in the queue have ended and the continuations have run. -/
def workedOff (call : OpenCall) (state : Opening) (results : List WriteResult) : Opening :=
  onResume call (run state (results.map (@Event.written call)))

/-- The end of a write settles nothing. -/
theorem on_written_same (state : Opening) (result : WriteResult) :
    (onWritten state result).settled = state.settled ∧
      (onWritten state result).found = state.found := by
  unfold onWritten
  split
  · exact ⟨rfl, rfl⟩
  · exact ⟨rfl, rfl⟩

theorem run_written_same (call : OpenCall) (state : Opening) (results : List WriteResult) :
    (run state (results.map (@Event.written call))).settled = state.settled ∧
      (run state (results.map (@Event.written call))).found = state.found := by
  induction results generalizing state with
  | nil => exact ⟨rfl, rfl⟩
  | cons result results inductionHypothesis =>
    obtain ⟨settled, found⟩ := inductionHypothesis (onWritten state result)
    obtain ⟨sameSettled, sameFound⟩ := on_written_same state result
    exact ⟨settled.trans sameSettled, found.trans sameFound⟩

/-- Once the queue is worked off, a settled opening has answered once, with what it found. -/
theorem Sound.worked_off (sound : Sound call state) {results : List WriteResult}
    (enough : results.length = state.writes.length) :
    (workedOff call state results).outcomes.length = (if state.settled then 1 else 0) ∧
      (workedOff call state results).outcomes.findSome? Outcome.url = state.found := by
  have empty : (run state (results.map (@Event.written call))).writes = [] := by
    rw [run_written, enough, List.drop_length]
  have before := sound.after_run (results.map (@Event.written call))
  obtain ⟨success, failure⟩ := before.resume_quiet empty
  obtain ⟨settled, found⟩ := run_written_same call state results
  obtain ⟨resumedFound, resumedSettled⟩ := before.resume_found
  have once := before.resume.once
  rw [success, failure, resumedSettled, settled] at once
  refine ⟨once, ?_⟩
  rw [← found, ← resumedFound, Opening.found, success]
  rfl

/-- An event that ends the wait leaves the opening settled. -/
theorem Sound.run_ends (sound : Sound call state) {events : List (Event call)}
    (ends : ∃ event ∈ events, event.ends = true) : (run state events).settled = true := by
  obtain ⟨event, member, ends⟩ := ends
  obtain ⟨before, after, rfl⟩ := List.append_of_mem member
  have split : run state (before ++ event :: after) = run (step (run state before) event) after := by
    simp [run]
  have reached := sound.after_run before
  have settled : (step (run state before) event).settled = true := by
    cases held : (run state before).settled with
    | true => exact (reached.settled_keeps held event).1
    | false => exact (reached.ends_settles held ends).1
  rw [split]
  exact ((reached.after_step event).run_settled settled after).1

/-- An opening in any order of events. What it resolves with is the first address of its error
output exactly when the first address that stands whole among the last twenty kept lines of a chunk
is that one. It answers at most once; an end of the process, an error or the timeout settles
it, and when the queued writes have ended a settled opening has answered, with what it found. A
rejected one is not tracked, and not in the journal unless the removal it awaited went wrong. -/
theorem preview_open_runs (call : OpenCall) (registry : OrderedMap String TrackedTunnel)
    (journal : List TunnelJournalEntry) (pending : List JournalWrite) (events : List (Event call)) :
    let state := run (start call registry journal pending) events
    let chunks := chunksBefore events
    let text := Utf8.decode chunks.flatten
    (state.found = firstUrl text ↔ caughtUrl chunks = firstUrl text) ∧
    state.outcomes.length ≤ 1 ∧
    ((∃ event ∈ events, event.ends = true) → state.settled = true) ∧
    (∀ results, results.length = state.writes.length →
      (workedOff call state results).outcomes.length = (if state.settled then 1 else 0) ∧
        (workedOff call state results).outcomes.findSome? Outcome.url = state.found) ∧
    ∀ message, .rejected message ∈ state.outcomes →
      state.registry.get? call.tunnelId = none ∧
        (state.removed = some .done → ∀ entry ∈ state.journal, entry.pid ≠ call.pid) := by
  have begins := sound_start call registry journal pending
  have sound := begins.after_run events
  refine ⟨?_, ?_, begins.run_ends, fun results enough => sound.worked_off enough, ?_⟩
  · rw [begins.run_found rfl events]
  · have once := sound.once
    split at once <;> omega
  · intro message rejected
    exact ⟨sound.untracked (.inr ⟨message, rejected⟩), fun done => (sound.cleared done).1⟩

/-- The bytes of a plain text. -/
def plainBytes (text : String) : List UInt8 := text.toList.map fun char => UInt8.ofNat char.toNat

/-- A process that reports its address in two chunks, and the timeout. -/
def demoCall : OpenCall := ⟨"t1", 3000, 4242, 0⟩

/-- The opening of that process after its output. -/
def cutEvents : List (Event demoCall) :=
  [.data (plainBytes "INF https://demo.trycloud"), .data (plainBytes "flare.com ready"), .timeout]

/-- The address is in the text, and the opening fails. -/
theorem cut_address_missed :
    firstUrl (Utf8.decode (chunksBefore cutEvents).flatten) =
        some "https://demo.trycloudflare.com".toList ∧
      (run (start demoCall .empty [] []) cutEvents).found = none ∧
      (run (start demoCall .empty [] []) cutEvents).failure.isSome = true := by
  decide +kernel

end Kvy.Cli.Daemon.PreviewTunnel
