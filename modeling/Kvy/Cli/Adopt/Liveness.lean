import Kvy.General.PosixPath
import Kvy.General.Text
import Mathlib

/-!
# The process that owns a transcript

The scan lists the processes of the machine, asks each one that looks like a plain `claude` for its
directory, and takes the first in the directory of the workspace. That process is presumed to run on the
transcript of the directory that changed last. Processes end while the scan goes on.
-/

namespace Kvy.Cli.Adopt

open General

/-! ## Commands -/

/-- `ProcessEntry`. -/
structure ProcessEntry where
  pid : Nat
  ppid : Nat
  command : String
deriving DecidableEq

inductive KvyProcessKind where
  | daemon
  | session
  | other
deriving DecidableEq

/-- `KvyClassification`. -/
structure KvyClassification where
  kind : KvyProcessKind
  spawnedByDaemon : Bool
deriving DecidableEq

/-- `ADMIN_SUBCOMMANDS`. -/
def adminSubcommands : List String :=
  ["daemon", "kill", "doctor", "auth", "sessions", "resume", "workspace", "notify", "--help", "-h",
    "--version", "-v", "-V"]

/-- `tokenize`. -/
def tokenize (command : String) : List String :=
  (((Text.trim command.toList).splitOnP Text.isSpace).filter (fun token => token ≠ [])).map String.ofList

/-- What follows the last slash. -/
def base (token : String) : String :=
  String.ofList ((token.toList.splitOn '/').getLast?.getD token.toList)

/-- `isKvyEntrypointToken`. -/
def isKvyEntrypointToken (token : String) : Bool :=
  base token = "kvy" || base token = "kvy.mjs" ||
    ((base token = "index.mjs" || base token = "index.ts") &&
      (Text.after? "/cli/".toList token.toList).isSome)

/-- Whether the arguments have a flag that the word `daemon` follows. -/
def startedByDaemon : List String → Bool
  | flag :: value :: rest => (flag = "--started-by" && value = "daemon") || startedByDaemon (value :: rest)
  | _ => false

/-- `classifyKvyCommand`. -/
def classifyKvyCommand (command : String) : Option KvyClassification :=
  match (tokenize command).dropWhile (fun token => !isKvyEntrypointToken token) with
  | [] => none
  | _ :: args =>
    if args[0]? = some "daemon" ∧ (args[1]? = some "start-sync" ∨ args[1]? = some "start") then
      some ⟨.daemon, false⟩
    else if args[0]?.any (fun sub => sub ∈ adminSubcommands) then
      some ⟨.other, startedByDaemon args⟩
    else some ⟨.session, startedByDaemon args⟩

/-- `isPlainClaudeCommand`. -/
def isPlainClaudeCommand (command : String) : Bool :=
  (classifyKvyCommand command).isNone && (tokenize command).head?.any (fun first => base first = "claude")

/-! ## Processes -/

inductive KillSignal where
  | sigterm
  | sigkill
deriving DecidableEq

/-- A signal that was sent to a process. -/
structure SentSignal where
  pid : Nat
  signal : KillSignal
  time : Nat
deriving DecidableEq

/-- A process: the directory it runs in; where it is a `claude` process that Kvy has not launched, the
provider session whose transcript it runs on; the time at which it ends by itself; how long after SIGTERM
it ends, if it heeds it, and how long after SIGKILL. -/
structure Process where
  entry : ProcessEntry
  cwd : Option String
  session : Option String
  ends : Option Nat
  onTerm : Option Nat
  onKill : Nat
deriving DecidableEq

namespace Process

/-- Whether a signal has not ended the process by some time. -/
def survives (process : Process) (time : Nat) (sent : SentSignal) : Bool :=
  match sent.signal with
  | .sigterm => process.onTerm.all (fun delay => time < sent.time + delay)
  | .sigkill => decide (time ≤ sent.time + process.onKill)

/-- Whether a process runs at some time, after some signals have been sent. -/
def alive (process : Process) (sent : List SentSignal) (time : Nat) : Bool :=
  process.ends.all (fun last => time < last) &&
    (sent.filter (fun sent => sent.pid = process.entry.pid)).all (process.survives time)

/-- A process ends by itself by some time. -/
def EndsBy (process : Process) (time : Nat) : Prop := ∃ last ∈ process.ends, last ≤ time

/-- A process ends by some time, by itself or on a SIGTERM. -/
def EndsOnTerm (process : Process) (start time : Nat) : Prop :=
  process.EndsBy time ∨ ∃ delay ∈ process.onTerm, start + delay ≤ time

end Process

/-- The machine: its processes, each with a pid of its own, the transcripts of each directory, in the
order of `readdir` and with the time of their last change where `stat` tells it, and the directory that
relative paths start from. -/
structure Machine where
  processes : List Process
  distinct : (processes.map (fun process => process.entry.pid)).Nodup
  readdir : List Char → Option (List (String × Option Int))
  cwd : List Char

/-- When the scan does what: when the processes are listed, when the entries of the list are asked for
their directories, when the transcripts have been read, and how much later than asked for each pause
ends. -/
structure Timing where
  listed : Nat
  asked : Nat → Nat
  decided : Nat
  late : Nat → Nat
  inOrder : Monotone asked
  before : ∀ n, listed ≤ asked n ∧ asked n ≤ decided

namespace Machine

variable (machine : Machine) (timing : Timing)

/-- `isAlive`, after some signals have been sent. -/
def isAlive (sent : List SentSignal) (pid time : Nat) : Bool :=
  machine.processes.any (fun process => process.entry.pid = pid && process.alive sent time)

/-- `listProcesses`: the processes that run. -/
def listProcesses : List Process :=
  machine.processes.filter (fun process => process.alive [] timing.listed)

/-- `resolveProcessCwd`: a process that has ended has no directory. -/
def resolveProcessCwd (process : Process) (time : Nat) : Option String :=
  if process.alive [] time then process.cwd else none

/-- Whether a process that is asked at some time looks like a plain `claude` in a directory. -/
def rooted (workspace : List Char) (process : Process) (time : Nat) : Bool :=
  isPlainClaudeCommand process.entry.command &&
    (resolveProcessCwd process time).any (fun cwd =>
      cwd ≠ "" && PosixPath.resolve machine.cwd cwd.toList = workspace)

/-- The first process of the list that is in the directory; `n` entries come before the list. -/
def livePid (workspace : List Char) : Nat → List Process → Option Nat
  | _, [] => none
  | n, process :: rest =>
    if machine.rooted workspace process (timing.asked n) then some process.entry.pid
    else livePid workspace (n + 1) rest

end Machine

/-- `JSONL_EXT`. -/
def jsonlExt : List Char := ".jsonl".toList

/-- The session whose transcript has this name. -/
def transcriptId (name : String) : Option String :=
  if jsonlExt.isSuffixOf name.toList then
    some (String.ofList (name.toList.take (name.toList.length - jsonlExt.length)))
  else none

/-- The transcript that changed last, of those seen so far and the others. -/
def latestTranscript : Option (String × Int) → List (String × Option Int) → Option (String × Int)
  | latest, [] => latest
  | latest, (name, mtime) :: rest =>
    match transcriptId name, mtime with
    | some id, some mtime =>
      if latest.all (fun before => before.2 < mtime) then latestTranscript (some (id, mtime)) rest
      else latestTranscript latest rest
    | _, _ => latestTranscript latest rest

/-- `OwningProcess`. -/
structure OwningProcess where
  pid : Nat
  providerSessionId : String
deriving DecidableEq

/-- `findOwningClaudeProcess`. -/
def findOwningClaudeProcess (machine : Machine) (timing : Timing) (workspacePath : String)
    (projectDir : List Char) : Option OwningProcess :=
  match machine.livePid timing (PosixPath.resolve machine.cwd workspacePath.toList) 0
      (machine.listProcesses timing) with
  | none => none
  | some livePid =>
    ((machine.readdir projectDir).bind (latestTranscript none)).map
      (fun latest => ⟨livePid, latest.1⟩)

/-! ## What the scan finds -/

/-- A process is the first of the list that is found in a directory. -/
def Machine.First (machine : Machine) (timing : Timing) (workspace : List Char) (owner : Process) : Prop :=
  ∃ before after, machine.listProcesses timing = before ++ owner :: after ∧
    machine.rooted workspace owner (timing.asked before.length) = true ∧
    ∀ n earlier, before[n]? = some earlier →
      machine.rooted workspace earlier (timing.asked n) = false

/-- The transcripts among the entries of a directory whose time of change is known. -/
def transcripts (entries : List (String × Option Int)) : List (String × Int) :=
  entries.filterMap (fun entry =>
    (transcriptId entry.1).bind (fun id => entry.2.map (fun mtime => (id, mtime))))

/-- The transcript of a session is the first of those that changed last. -/
def Newest (entries : List (String × Option Int)) (id : String) : Prop :=
  ∃ mtime, (transcripts entries).argmax Prod.snd = some (id, mtime)

/-- The entries of a directory are gone through for the transcript that changed last. -/
theorem latestTranscript_eq (entries : List (String × Option Int)) :
    latestTranscript none entries = (transcripts entries).argmax Prod.snd := by
  have along : ∀ latest, latestTranscript latest entries = (transcripts entries).foldl
      (List.argAux fun next before => before.2 < next.2) latest := by
    induction entries with
    | nil => exact fun _ => rfl
    | cons entry entries inductionHypothesis =>
      obtain ⟨name, mtime⟩ := entry
      intro latest
      cases named : transcriptId name with
      | none =>
        simpa [latestTranscript, transcripts, named] using inductionHypothesis latest
      | some id =>
        cases mtime with
        | none => simpa [latestTranscript, transcripts, named] using inductionHypothesis latest
        | some mtime =>
          have tail := inductionHypothesis
            (List.argAux (fun next before => before.2 < next.2) latest (id, mtime))
          simp only [transcripts, List.filterMap_cons, named, Option.bind_some, Option.map_some,
            List.foldl_cons] at tail ⊢
          rw [← tail]
          cases latest with
          | none => simp [latestTranscript, named, List.argAux]
          | some before =>
            by_cases later : before.2 < mtime
            · simp [latestTranscript, named, List.argAux, later]
            · simp [latestTranscript, named, List.argAux, later]
  exact along none

namespace Machine

variable {machine : Machine} {timing : Timing} {workspace : List Char}

/-- The scan finds the first process in the directory. -/
theorem livePid_eq_some {n pid : Nat} {processes : List Process}
    (found : machine.livePid timing workspace n processes = some pid) :
    ∃ before owner after, processes = before ++ owner :: after ∧ owner.entry.pid = pid ∧
      machine.rooted workspace owner (timing.asked (n + before.length)) = true ∧
      ∀ k earlier, before[k]? = some earlier →
        machine.rooted workspace earlier (timing.asked (n + k)) = false := by
  induction processes generalizing n with
  | nil => cases found
  | cons process processes inductionHypothesis =>
    cases own : machine.rooted workspace process (timing.asked n) with
    | true =>
      rw [livePid, own, if_pos rfl] at found
      exact ⟨[], process, processes, rfl, Option.some.inj found, own, by simp⟩
    | false =>
      rw [livePid, own, if_neg (by simp)] at found
      obtain ⟨before, owner, after, rfl, names, isRooted, earlier⟩ := inductionHypothesis found
      refine ⟨process :: before, owner, after, rfl, names, ?_, ?_⟩
      · rwa [List.length_cons, Nat.add_comm before.length 1, ← Nat.add_assoc]
      · intro k other at'
        cases k with
        | zero =>
          cases at'
          exact own
        | succ k =>
          rw [Nat.add_comm k 1, ← Nat.add_assoc]
          exact earlier k other at'

/-- Where a process is the first in the directory, the scan finds it. -/
theorem livePid_of_first {n : Nat} {before after : List Process} {owner : Process}
    (isRooted : machine.rooted workspace owner (timing.asked (n + before.length)) = true)
    (earlier : ∀ k other, before[k]? = some other →
      machine.rooted workspace other (timing.asked (n + k)) = false) :
    machine.livePid timing workspace n (before ++ owner :: after) = some owner.entry.pid := by
  induction before generalizing n with
  | nil =>
    have own : machine.rooted workspace owner (timing.asked n) = true := isRooted
    simp [livePid, own]
  | cons process before inductionHypothesis =>
    have own : machine.rooted workspace process (timing.asked n) = false := earlier 0 process rfl
    rw [List.cons_append, livePid, own, if_neg (by simp)]
    refine inductionHypothesis ?_ ?_
    · rwa [List.length_cons, Nat.add_comm before.length 1, ← Nat.add_assoc] at isRooted
    · intro k other at'
      have later := earlier (k + 1) other at'
      rwa [Nat.add_comm k 1, ← Nat.add_assoc] at later

end Machine

/-- The scan finds a process exactly where it is the first in the directory, and its session exactly where
the transcript of that session is the newest. -/
theorem findOwningClaudeProcess_eq_some {machine : Machine} {timing : Timing} {workspacePath : String}
    {projectDir : List Char} {owning : OwningProcess} :
    findOwningClaudeProcess machine timing workspacePath projectDir = some owning ↔
      (∃ owner, machine.First timing (PosixPath.resolve machine.cwd workspacePath.toList) owner ∧
        owner.entry.pid = owning.pid) ∧
      ∃ entries ∈ machine.readdir projectDir, Newest entries owning.providerSessionId := by
  constructor
  · intro found
    unfold findOwningClaudeProcess at found
    split at found
    · cases found
    · next livePid seen =>
      obtain ⟨latest, read, rfl⟩ := Option.map_eq_some_iff.mp found
      obtain ⟨entries, listed, newest⟩ := Option.bind_eq_some_iff.mp read
      obtain ⟨before, owner, after, shape, names, isRooted, earlier⟩ := Machine.livePid_eq_some seen
      simp only [Nat.zero_add] at isRooted earlier
      rw [latestTranscript_eq] at newest
      exact ⟨⟨owner, ⟨before, after, shape, isRooted, earlier⟩, names⟩, entries, listed, latest.2,
        newest⟩
  · rintro ⟨⟨owner, ⟨before, after, shape, isRooted, earlier⟩, names⟩, entries, listed, mtime, newest⟩
    have seen : machine.livePid timing (PosixPath.resolve machine.cwd workspacePath.toList) 0
        (before ++ owner :: after) = some owner.entry.pid :=
      Machine.livePid_of_first (by simpa using isRooted) (by simpa using earlier)
    unfold findOwningClaudeProcess
    rw [shape, seen]
    simp only [Option.mem_def.mp listed, Option.bind_some, latestTranscript_eq, newest,
      Option.map_some, names]

end Kvy.Cli.Adopt
