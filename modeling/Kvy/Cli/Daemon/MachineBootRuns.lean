import Kvy.Cli.Daemon.MachineBoot

/-!
# The key of the daemon and the key of its machine

The key under which a daemon serves is the one that its machine's row holds, as long as no boot ends
while the file names a machine without its key, and the master secret is not replaced while a machine
is remembered or a boot is under way. Whatever else happens, a boot either takes the remembered key
to the remembered machine or gives a new machine the key it has.
-/

namespace Kvy.Cli.Daemon.MachineWorld

open General General.Runs Wire Server.Db Server.App

variable {Secret Dek : Type} {keys : DekWrap Secret Dek} {world next : MachineWorld Secret Dek}
  {event : MachineEvent Secret Dek}

/-! ## What is asked -/

/-- The daemon serves under the key that the row of its machine holds. -/
def KeyAgreed (keys : DekWrap Secret Dek) (world : MachineWorld Secret Dek) : Prop :=
  ∀ secret dek id row, world.boot = some ⟨secret, .serving dek id⟩ →
    world.machines.get? id = some row → keys.unwrapDek row.dek secret = some dek

/-- A boot ends only where the file holds the key of the machine that it names. The master secret is
replaced only while no boot is on its way, and by one that opens the key of the remembered machine as
the old one did. -/
def Careful (keys : DekWrap Secret Dek) (world : MachineWorld Secret Dek) :
    MachineEvent Secret Dek → Prop
  | .finish => ∀ id row, world.file.bind DaemonState.machineId = some id →
      world.machines.get? id = some row → world.file.bind DaemonState.wrappedDek = some row.dek
  | .replaceSecret secret =>
    (∀ boot, world.boot = some boot → ∃ dek id, boot.stage = .serving dek id) ∧
      ∀ id row, world.file.bind DaemonState.machineId = some id →
        world.machines.get? id = some row →
        keys.unwrapDek row.dek secret = keys.unwrapDek row.dek world.secret
  | _ => True

/-! ## Rows keep their keys -/

/-- The row of an id, if there is one, holds the key. -/
def Holds (machines : OrderedMap String MachineRecord) (id wrappedDek : String) : Prop :=
  ∀ row, machines.get? id = some row → row.dek = wrappedDek

/-- The rows under ids that were used already hold what they held, as far as they are there. -/
def KeepsKeys (used : List String) (machines after : OrderedMap String MachineRecord) : Prop :=
  ∀ id ∈ used, ∀ row, after.get? id = some row →
    ∃ held, machines.get? id = some held ∧ held.dek = row.dek

theorem keeps_keys_refl (used : List String) (machines : OrderedMap String MachineRecord) :
    KeepsKeys used machines machines := fun _ _ row held => ⟨row, held, rfl⟩

variable {id wrappedDek : String} {machines : OrderedMap String MachineRecord}
  {used : List String}

theorem KeepsKeys.holds {after : OrderedMap String MachineRecord}
    (keeps : KeepsKeys used machines after) (member : id ∈ used)
    (holds : Holds machines id wrappedDek) : Holds after id wrappedDek := by
  intro row held
  obtain ⟨before, was, same⟩ := keeps id member row held
  exact same.symm.trans (holds before was)

/-- An update keeps the key of its row. -/
theorem updated_dek
    (metadata : EncryptedBox) (daemonState : Option (EncryptedBox × Nat)) (now : Int)
    (row : MachineRecord) : (updatedMachine metadata daemonState now row).dek = row.dek := by
  unfold updatedMachine
  split <;> rfl

/-- What the route does: a new row under its id, an update of a row of the account, or nothing. -/
theorem post_cases (machines : OrderedMap String MachineRecord) (accountId : String)
    (post : MachinePost) (id : String) (now : Int) :
    (∃ row dek, post.machineId.filter (· ≠ "") = none ∧ post.dek.filter (· ≠ "") = some dek ∧
        row.dek = dek ∧ postMachines machines accountId post id now =
          (machines.set id row, .created id)) ∨
      (∃ machineId row updated, post.machineId.filter (· ≠ "") = some machineId ∧
        machines.get? machineId = some row ∧ updated.dek = row.dek ∧
        postMachines machines accountId post id now =
          (machines.set machineId updated, .updated machineId)) ∨
      ∃ answer, postMachines machines accountId post id now = (machines, answer) ∧
        (answer = .badRequest ∨ answer = .notFound ∨
          ∃ metadataVersion daemonStateVersion, answer = .conflict metadataVersion daemonStateVersion) := by
  unfold postMachines
  cases named : post.machineId.filter (· ≠ "") with
  | none =>
    cases given : post.dek.filter (· ≠ "") with
    | none => exact Or.inr (Or.inr ⟨_, rfl, Or.inl rfl⟩)
    | some dek => exact Or.inl ⟨_, dek, rfl, rfl, rfl, rfl⟩
  | some machineId =>
    dsimp only
    cases found : (machines.get? machineId).filter (fun row => row.accountId = accountId) with
    | none => exact Or.inr (Or.inr ⟨_, rfl, Or.inr (Or.inl rfl)⟩)
    | some row =>
      dsimp only
      split
      · exact Or.inr (Or.inr ⟨_, rfl, Or.inr (Or.inr ⟨_, _, rfl⟩)⟩)
      · exact Or.inr (Or.inl ⟨machineId, row, _, rfl, (Option.filter_eq_some_iff.mp found).1,
          updated_dek _ _ now row, rfl⟩)

/-- What handling a request leaves. -/
structure Handled (world after : MachineWorld Secret Dek) : Prop where
  same : after = { world with machines := after.machines, used := after.used }
  keeps : KeepsKeys world.used world.machines after.machines
  grows : ∀ id ∈ world.used, id ∈ after.used
  stored : ∀ id row, after.machines.get? id = some row → id ∈ after.used

/-- A row that is updated keeps its key and its id. -/
theorem keeps_keys_set
    {row updated : MachineRecord} (held : machines.get? id = some row) (same : updated.dek = row.dek) :
    KeepsKeys used machines (machines.set id updated) := by
  intro tested _ found isFound
  rw [OrderedMap.get_set] at isFound
  split at isFound
  · cases isFound
    subst tested
    exact ⟨row, held, same.symm⟩
  · exact ⟨found, isFound, rfl⟩

/-- A new row takes no id that was used. -/
theorem keeps_keys_new
    (fresh : id ∉ used) (row : MachineRecord) : KeepsKeys used machines (machines.set id row) := by
  intro tested member found isFound
  have apart : tested ≠ id := by
    rintro rfl
    exact fresh member
  rw [OrderedMap.get_set, if_neg apart] at isFound
  exact ⟨found, isFound, rfl⟩

variable {after : MachineWorld Secret Dek}

theorem handle_handled (stored : ∀ id row, world.machines.get? id = some row → id ∈ world.used)
    {accountId : String} {post : MachinePost} {now : Int}
    {answer : MachineAnswer} (handled : world.handle accountId post id now = some (after, answer)) :
    Handled world after ∧
      ((∃ dek, answer = .created id ∧ post.machineId.filter (· ≠ "") = none ∧
          post.dek.filter (· ≠ "") = some dek ∧ id ∈ after.used ∧ Holds after.machines id dek) ∨
        (∃ machineId, answer = .updated machineId ∧ post.machineId.filter (· ≠ "") = some machineId) ∨
        answer = .badRequest ∨ answer = .notFound ∨
          ∃ metadataVersion daemonStateVersion,
            answer = .conflict metadataVersion daemonStateVersion) := by
  unfold handle at handled
  obtain ⟨row, dek, unnamed, given, isDek, posted⟩ | ⟨machineId, row, updated, named, held, same, posted⟩ |
    ⟨told, posted, refused⟩ := post_cases world.machines accountId post id now
  · simp only [posted] at handled
    split at handled
    · contradiction
    · rename_i unused
      obtain ⟨rfl, rfl⟩ := Prod.mk.inj (Option.some.inj handled)
      have fresh : id ∉ world.used := fun member => unused (Or.inl member)
      refine ⟨⟨rfl, keeps_keys_new fresh row, fun _ member => List.mem_cons_of_mem _ member, ?_⟩,
        Or.inl ⟨dek, rfl, unnamed, given, List.mem_cons_self, ?_⟩⟩
      · intro tested found isFound
        rw [OrderedMap.get_set] at isFound
        split at isFound
        · subst tested
          exact List.mem_cons_self
        · exact List.mem_cons_of_mem _ (stored tested found isFound)
      · intro found isFound
        rw [OrderedMap.get_set, if_pos rfl] at isFound
        cases isFound
        exact isDek
  · simp only [posted] at handled
    obtain ⟨rfl, rfl⟩ := Prod.mk.inj (Option.some.inj handled)
    refine ⟨⟨rfl, keeps_keys_set held same, fun _ member => member, ?_⟩,
      Or.inr (Or.inl ⟨machineId, rfl, named⟩)⟩
    intro tested found isFound
    rw [OrderedMap.get_set] at isFound
    split at isFound
    · subst tested
      exact stored _ row held
    · exact stored tested found isFound
  · have unchanged : (after, answer) = (world, told) := by
      rcases refused with rfl | rfl | ⟨_, _, rfl⟩
      all_goals
        simp only [posted] at handled
        exact (Option.some.inj handled).symm
    obtain ⟨rfl, rfl⟩ := Prod.mk.inj unchanged
    exact ⟨⟨rfl, keeps_keys_refl _ _, fun _ member => member, stored⟩, Or.inr (Or.inr refused)⟩

/-! ## The file and the boot -/

/-- The file holds the key of the machine that it names, and the account's secret opens it. -/
def FileAgrees (keys : DekWrap Secret Dek) (secret : Secret) (file : Option DaemonState)
    (machines : OrderedMap String MachineRecord) : Prop :=
  ∀ id row, file.bind DaemonState.machineId = some id → machines.get? id = some row →
    file.bind DaemonState.wrappedDek = some row.dek ∧ (keys.unwrapDek row.dek secret).isSome = true

/-- What holds at a stage of a boot. Between the two writes the file may name the machine without its
key. -/
def AtStage (keys : DekWrap Secret Dek) (world : MachineWorld Secret Dek) (secret : Secret) :
    BootStage Dek → Prop
  | .reading => FileAgrees keys secret world.file world.machines
  | .keyed dek wrappedDek =>
    FileAgrees keys secret world.file world.machines ∧ keys.unwrapDek wrappedDek secret = some dek ∧
      ∀ id, world.file.bind DaemonState.machineId = some id → Holds world.machines id wrappedDek
  | .posting dek wrappedDek machineId _ _ _ =>
    FileAgrees keys secret world.file world.machines ∧ keys.unwrapDek wrappedDek secret = some dek ∧
      ∀ id, machineId = some id → id ∈ world.used ∧ Holds world.machines id wrappedDek
  | .registered dek wrappedDek id | .mergingId dek wrappedDek id _ =>
    FileAgrees keys secret world.file world.machines ∧ keys.unwrapDek wrappedDek secret = some dek ∧
      id ∈ world.used ∧ Holds world.machines id wrappedDek
  | .persistedId dek wrappedDek id =>
    (∀ state, world.file = some state → state.machineId = some id) ∧
      keys.unwrapDek wrappedDek secret = some dek ∧
      id ∈ world.used ∧ Holds world.machines id wrappedDek
  | .mergingDek dek wrappedDek id existing =>
    ((∀ state, world.file = some state → state.machineId = some id) ∧
      existing.machineId = some id) ∧ keys.unwrapDek wrappedDek secret = some dek ∧
      id ∈ world.used ∧ Holds world.machines id wrappedDek
  | .serving dek id =>
    FileAgrees keys world.secret world.file world.machines ∧ id ∈ world.used ∧
      ∀ row, world.machines.get? id = some row → keys.unwrapDek row.dek secret = some dek

/-- What every careful run keeps. -/
structure Sound (keys : DekWrap Secret Dek) (world : MachineWorld Secret Dek) : Prop where
  stored : ∀ id row, world.machines.get? id = some row → id ∈ world.used
  remembered : ∀ id, world.file.bind DaemonState.machineId = some id → id ∈ world.used
  current : ∀ secret stage, world.boot = some ⟨secret, stage⟩ →
    (∃ dek id, stage = .serving dek id) ∨ secret = world.secret
  idle : world.boot = none → FileAgrees keys world.secret world.file world.machines
  stages : ∀ secret stage, world.boot = some ⟨secret, stage⟩ → AtStage keys world secret stage

/-- A daemon that serves has the key of its machine. -/
theorem Sound.agreed (sound : Sound keys world) : KeyAgreed keys world :=
  fun secret _ _ row isBoot held => (sound.stages secret _ isBoot).2.2 row held

variable {file : Option DaemonState} {secret : Secret}

/-- Rows that keep their keys keep the file's agreement. -/
theorem FileAgrees.keeps {after : OrderedMap String MachineRecord}
    (agrees : FileAgrees keys secret file machines) (keeps : KeepsKeys used machines after)
    (remembered : ∀ id, file.bind DaemonState.machineId = some id → id ∈ used) :
    FileAgrees keys secret file after := by
  intro id row named held
  obtain ⟨before, was, same⟩ := keeps id (remembered id named) row held
  exact same ▸ agrees id before named was

variable {stage : BootStage Dek}

/-- Rows that keep their keys keep what holds at a stage. -/
theorem AtStage.keeps (at' : AtStage keys world secret stage) (handled : Handled world after)
    (remembered : ∀ id, world.file.bind DaemonState.machineId = some id → id ∈ world.used) :
    AtStage keys after secret stage := by
  obtain ⟨same, keeps, grows, _⟩ := handled
  have file : after.file = world.file := by rw [same]
  have current : after.secret = world.secret := by rw [same]
  cases stage with
  | reading =>
    have agrees : FileAgrees keys secret world.file after.machines :=
      FileAgrees.keeps at' keeps remembered
    rw [← file] at agrees
    exact agrees
  | keyed dek wrappedDek =>
    obtain ⟨agrees, opens, under⟩ := at'
    exact ⟨file ▸ agrees.keeps keeps remembered, opens, fun id named =>
      keeps.holds (remembered id (file ▸ named)) (under id (file ▸ named))⟩
  | posting dek wrappedDek machineId metadataVersion daemonStateVersion left =>
    obtain ⟨agrees, opens, under⟩ := at'
    exact ⟨file ▸ agrees.keeps keeps remembered, opens, fun id named =>
      ⟨grows id (under id named).1, keeps.holds (under id named).1 (under id named).2⟩⟩
  | registered dek wrappedDek id =>
    obtain ⟨agrees, opens, member, holds⟩ := at'
    exact ⟨file ▸ agrees.keeps keeps remembered, opens, grows id member, keeps.holds member holds⟩
  | mergingId dek wrappedDek id existing =>
    obtain ⟨agrees, opens, member, holds⟩ := at'
    exact ⟨file ▸ agrees.keeps keeps remembered, opens, grows id member, keeps.holds member holds⟩
  | persistedId dek wrappedDek id =>
    obtain ⟨names, opens, member, holds⟩ := at'
    exact ⟨file ▸ names, opens, grows id member, keeps.holds member holds⟩
  | mergingDek dek wrappedDek id existing =>
    obtain ⟨names, opens, member, holds⟩ := at'
    exact ⟨file ▸ names, opens, grows id member, keeps.holds member holds⟩
  | serving dek id =>
    obtain ⟨agrees, member, opens⟩ := at'
    refine ⟨file ▸ current ▸ agrees.keeps keeps remembered, grows id member, fun row held => ?_⟩
    obtain ⟨before, was, same⟩ := keeps id member row held
    exact same ▸ opens before was

/-- A request of anyone keeps a world sound. -/
theorem Sound.handled (sound : Sound keys world)
    (handled : Handled world after) : Sound keys after := by
  have file : after.file = world.file := by rw [handled.same]
  have boot : after.boot = world.boot := by rw [handled.same]
  have current : after.secret = world.secret := by rw [handled.same]
  refine ⟨handled.stored, ?_, ?_, ?_, ?_⟩
  · intro id named
    exact handled.grows id (sound.remembered id (file ▸ named))
  · intro secret stage isBoot
    exact current ▸ sound.current secret stage (boot ▸ isBoot)
  · intro idle
    exact file ▸ current ▸ (sound.idle (boot ▸ idle)).keeps handled.keeps sound.remembered
  · intro secret stage isBoot
    exact (sound.stages secret stage (boot ▸ isBoot)).keeps handled sound.remembered

/-- A boot that goes to a stage of which everything holds. -/
theorem Sound.moved
    (sound : Sound keys world)     (isBoot : ∃ before, world.boot = some ⟨secret, before⟩ ∧ ∀ dek id, before ≠ .serving dek id)
    (holds : AtStage keys world secret stage) :
    Sound keys (world.move ⟨secret, .reading⟩ stage) := by
  obtain ⟨before, isBoot, starting⟩ := isBoot
  refine ⟨sound.stored, sound.remembered, ?_, by simp [move], ?_⟩
  · intro given reached isReached
    obtain ⟨rfl, rfl⟩ := Boot.mk.inj (Option.some.inj isReached)
    rcases sound.current secret before isBoot with ⟨dek, id, serving⟩ | same
    · exact absurd serving (starting dek id)
    · exact Or.inr same
  · intro given reached isReached
    obtain ⟨rfl, rfl⟩ := Boot.mk.inj (Option.some.inj isReached)
    cases stage <;> exact holds

/-! ## Steps -/

variable {dek : Dek}

/-- The key that a boot chooses opens, and it is that of the remembered machine. -/
theorem choose_dek (agrees : FileAgrees keys secret file machines)
    (fresh : Dek) (nonce : Nat)     (chosen : chooseDek keys file secret fresh nonce = (dek, wrappedDek)) :
    keys.unwrapDek wrappedDek secret = some dek ∧
      ∀ id, file.bind DaemonState.machineId = some id → Holds machines id wrappedDek := by
  unfold chooseDek at chosen
  split at chosen
  · rename_i previous isPrevious
    have isPrevious := (Option.filter_eq_some_iff.mp isPrevious).1
    split at chosen
    · rename_i opened opens
      obtain ⟨rfl, rfl⟩ := Prod.mk.inj chosen
      refine ⟨opens, fun id named row held => ?_⟩
      exact Option.some.inj ((agrees id row named held).1.symm.trans isPrevious)
    · rename_i closed
      obtain ⟨rfl, rfl⟩ := Prod.mk.inj chosen
      refine ⟨keys.unwraps fresh secret nonce, fun id named row held => ?_⟩
      obtain ⟨isKey, opens⟩ := agrees id row named held
      obtain rfl := Option.some.inj (isKey.symm.trans isPrevious)
      simp [closed] at opens
  · rename_i none'
    obtain ⟨rfl, rfl⟩ := Prod.mk.inj chosen
    refine ⟨keys.unwraps fresh secret nonce, fun id named row held => ?_⟩
    obtain ⟨isKey, opens⟩ := agrees id row named held
    have isEmpty : row.dek = "" := by simpa [isKey, Option.filter_eq_none_iff] using none'
    simp [isEmpty, keys.empty] at opens

/-- A boot on its way has the account's secret. -/
theorem Sound.same_secret
    (sound : Sound keys world)     (isBoot : world.boot = some ⟨secret, stage⟩) (starting : ∀ dek id, stage ≠ .serving dek id) :
    secret = world.secret :=
  (sound.current secret stage isBoot).resolve_left
    (fun ⟨dek, id, serving⟩ => starting dek id serving)

/-- A boot ends where the file agrees. -/
theorem Sound.finished (sound : Sound keys world)
    (agrees : FileAgrees keys world.secret world.file world.machines) :
    Sound keys { world with boot := none } where
  stored := sound.stored
  remembered := sound.remembered
  current := by simp
  idle _ := agrees
  stages := by simp

/-- The file agrees where the boot is not between its two writes. -/
theorem Sound.file_agrees
    (sound : Sound keys world)     (isBoot : world.boot = some ⟨secret, stage⟩)
    (apart : ∀ dek wrappedDek id existing, stage ≠ .persistedId dek wrappedDek id ∧
      stage ≠ .mergingDek dek wrappedDek id existing) :
    FileAgrees keys world.secret world.file world.machines := by
  have at' := sound.stages secret stage isBoot
  cases stage with
  | reading => exact sound.same_secret isBoot (by simp) ▸ at'
  | keyed => exact sound.same_secret isBoot (by simp) ▸ at'.1
  | posting => exact sound.same_secret isBoot (by simp) ▸ at'.1
  | registered => exact sound.same_secret isBoot (by simp) ▸ at'.1
  | mergingId => exact sound.same_secret isBoot (by simp) ▸ at'.1
  | persistedId dek wrappedDek id => exact absurd rfl (apart dek wrappedDek id ⟨0, 0, "", 0, none, none⟩).1
  | mergingDek dek wrappedDek id existing => exact absurd rfl (apart dek wrappedDek id existing).2
  | serving => exact at'.1

/-- What the client does with the answer to its request. -/
theorem hear_sound {machineId : Option String}
    {metadataVersion daemonStateVersion left : Nat} (sound : Sound keys world)
    (isBoot : world.boot = some
      ⟨secret, .posting dek wrappedDek machineId metadataVersion daemonStateVersion left⟩)
    {answer : MachineAnswer} (remaining : Nat)
    (named : ∀ id, answer = .created id ∨ answer = .updated id →
      id ∈ world.used ∧ Holds world.machines id wrappedDek) :
    Sound keys (world.hear ⟨secret, .reading⟩ dek wrappedDek machineId remaining answer) := by
  obtain ⟨agrees, opens, under⟩ := sound.stages secret _ isBoot
  have starting : ∃ before, world.boot = some ⟨secret, before⟩ ∧
      ∀ dek id, before ≠ .serving dek id := ⟨_, isBoot, by simp⟩
  have ends : Sound keys { world with boot := none } :=
    sound.finished (sound.file_agrees isBoot (by simp))
  cases answer with
  | created id =>
    exact sound.moved starting ⟨agrees, opens, named id (Or.inl rfl)⟩
  | updated id =>
    exact sound.moved starting ⟨agrees, opens, named id (Or.inr rfl)⟩
  | badRequest => exact ends
  | notFound =>
    simp only [hear]
    split
    · exact sound.moved starting ⟨agrees, opens, by simp⟩
    · exact ends
  | conflict metadataVersion daemonStateVersion =>
    simp only [hear]
    split
    · exact sound.moved starting ⟨agrees, opens, under⟩
    · exact ends

/-- A file that is written names the machine of the boot. -/
theorem Sound.written (sound : Sound keys world) {before : BootStage Dek}
    (isBoot : world.boot = some ⟨secret, before⟩) (starting : ∀ dek id, before ≠ .serving dek id)
    {state : DaemonState} (named : state.machineId = some id) (member : id ∈ world.used)
    (holds : AtStage keys { world with file := some state } secret stage) :
    Sound keys { world.move ⟨secret, .reading⟩ stage with file := some state } where
  stored := sound.stored
  remembered := by
    intro tested isNamed
    obtain rfl : id = tested := Option.some.inj (named.symm.trans isNamed)
    exact member
  current := by
    intro given reached isReached
    obtain ⟨rfl, rfl⟩ := Boot.mk.inj (Option.some.inj isReached)
    exact Or.inr (sound.same_secret isBoot starting)
  idle := by simp [move]
  stages := by
    intro given reached isReached
    obtain ⟨rfl, rfl⟩ := Boot.mk.inj (Option.some.inj isReached)
    cases stage <;> exact holds

/-- A file that names one machine, with its key, agrees where the key opens. -/
theorem agrees_of_names (names : ∀ state, file = some state → state.machineId = some id)
    (opens : keys.unwrapDek wrappedDek secret = some dek) (holds : Holds machines id wrappedDek)
    (keyed : ∀ row, file.bind DaemonState.machineId = some id → machines.get? id = some row →
      file.bind DaemonState.wrappedDek = some row.dek) : FileAgrees keys secret file machines := by
  intro tested row named held
  obtain ⟨state, isFile, isNamed⟩ := Option.bind_eq_some_iff.mp named
  obtain rfl : id = tested := Option.some.inj ((names state isFile).symm.trans isNamed)
  refine ⟨keyed row named held, ?_⟩
  rw [holds row held, opens]
  rfl

/-- A boot starts on a file that agrees. -/
theorem Sound.reading (sound : Sound keys world)
    (remembered : ∀ id, file.bind DaemonState.machineId = some id → id ∈ world.used)
    (agrees : FileAgrees keys world.secret file world.machines) :
    Sound keys { world with file, boot := some ⟨world.secret, .reading⟩ } := by
  refine ⟨sound.stored, remembered, ?_, by simp, ?_⟩
  · intro secret stage isBoot
    obtain ⟨rfl, rfl⟩ := Boot.mk.inj (Option.some.inj isBoot)
    exact Or.inr rfl
  · intro secret stage isBoot
    obtain ⟨rfl, rfl⟩ := Boot.mk.inj (Option.some.inj isBoot)
    exact agrees

/-- The route answers a boot with the machine that the boot asked for, or with a new one that has its
key. -/
theorem posted_machine {machineId : Option String} {metadataVersion daemonStateVersion left : Nat}
    {metadata daemonState : EncryptedBox} {now : Int}
    {answer : MachineAnswer} (sound : Sound keys world)
    (isBoot : world.boot = some
      ⟨secret, .posting dek wrappedDek machineId metadataVersion daemonStateVersion left⟩)
    (isHandled : world.handle world.accountId
      (request wrappedDek machineId metadataVersion daemonStateVersion metadata daemonState) id now =
        some (after, answer)) :
    ∀ told, answer = .created told ∨ answer = .updated told →
      told ∈ after.used ∧ Holds after.machines told wrappedDek := by
  obtain ⟨handled, answers⟩ := handle_handled sound.stored isHandled
  have soundAfter := sound.handled handled
  have isAfter : after.boot = some
      ⟨secret, .posting dek wrappedDek machineId metadataVersion daemonStateVersion left⟩ := by
    rw [handled.same]
    exact isBoot
  intro told named
  obtain ⟨given, rfl, unnamed, isGiven, member, holds⟩ | ⟨machine, rfl, isMachine⟩ | refused := answers
  · obtain rfl : id = told := by simpa using named
    have isNew : machineId = none := by
      cases machineId with
      | none => rfl
      | some held => simp [request] at isGiven
    subst isNew
    obtain rfl : wrappedDek = given := Option.some.inj (Option.filter_eq_some_iff.mp isGiven).1
    exact ⟨member, holds⟩
  · obtain rfl : machine = told := by simpa using named
    have isMachine : machineId = some machine := (Option.filter_eq_some_iff.mp isMachine).1
    exact (soundAfter.stages secret _ isAfter).2.2 machine isMachine
  · rcases refused with rfl | rfl | ⟨_, _, rfl⟩ <;> simp at named

/-- A boot that ends anywhere leaves a file that agrees, where one that names the machine has its
key. -/
theorem Sound.stopped (sound : Sound keys world)
    (careful : ∀ id row, world.file.bind DaemonState.machineId = some id →
      world.machines.get? id = some row → world.file.bind DaemonState.wrappedDek = some row.dek) :
    Sound keys { world with boot := none } := by
  cases isBoot : world.boot with
  | none => exact sound.finished (sound.idle isBoot)
  | some boot =>
    obtain ⟨secret, stage⟩ := boot
    have at' := sound.stages secret stage isBoot
    refine sound.finished ?_
    cases stage with
    | persistedId dek wrappedDek id =>
      exact sound.same_secret isBoot (by simp) ▸ agrees_of_names at'.1 at'.2.1 at'.2.2.2 (careful id)
    | mergingDek dek wrappedDek id existing =>
      exact sound.same_secret isBoot (by simp) ▸ agrees_of_names at'.1.1 at'.2.1 at'.2.2.2 (careful id)
    | _ => exact sound.file_agrees isBoot (by simp)

/-- A file that is gone agrees with everything. -/
theorem Sound.cleared (sound : Sound keys world) : Sound keys { world with file := none } := by
  have agrees (secret : Secret) : FileAgrees keys secret none world.machines := by simp [FileAgrees]
  refine ⟨sound.stored, by simp, sound.current, fun _ => agrees _, ?_⟩
  intro secret stage isBoot
  have at' := sound.stages secret stage isBoot
  cases stage with
  | reading => exact agrees _
  | keyed => exact ⟨agrees _, at'.2.1, by simp⟩
  | posting => exact ⟨agrees _, at'.2⟩
  | registered => exact ⟨agrees _, at'.2⟩
  | mergingId => exact ⟨agrees _, at'.2⟩
  | persistedId => exact ⟨by simp, at'.2⟩
  | mergingDek => exact ⟨⟨by simp, at'.1.2⟩, at'.2⟩
  | serving => exact ⟨agrees _, at'.2⟩

/-- A boot that has asked the route goes on with the machine it is told, or has failed. -/
theorem Sound.posted (sound : Sound keys world) {metadata daemonState : EncryptedBox}
    {now : Int} {heard : Bool}
    (taken : step keys world (.post metadata daemonState id now heard) = some next) :
    Sound keys next := by
  simp only [step] at taken
  split at taken
  · rename_i secret dek wrappedDek machineId metadataVersion daemonStateVersion left isBoot
    split at taken
    · rename_i after answer isHandled
      have handled := (handle_handled sound.stored isHandled).1
      have soundAfter := sound.handled handled
      have isAfter : after.boot = some
          ⟨secret, .posting dek wrappedDek machineId metadataVersion daemonStateVersion (left + 1)⟩ := by
        rw [handled.same]
        exact isBoot
      split at taken
      · cases taken
        exact hear_sound soundAfter isAfter left (posted_machine sound isBoot isHandled)
      · cases taken
        exact soundAfter.finished (soundAfter.file_agrees isAfter (by simp))
    · contradiction
  · contradiction

/-- The boot serves where the file has its key, and writes it otherwise. -/
theorem Sound.dek_read (sound : Sound keys world)
    (taken : step keys world .readForDek = some next) : Sound keys next := by
  simp only [step] at taken
  split at taken
  · rename_i secret dek wrappedDek id isBoot
    obtain ⟨names, opens, member, holds⟩ := sound.stages secret _ isBoot
    have same := sound.same_secret isBoot (by simp)
    split at taken
    · rename_i current
      cases taken
      refine sound.moved ⟨_, isBoot, by simp⟩ ⟨?_, member, fun row held => holds row held ▸ opens⟩
      refine agrees_of_names names (same ▸ opens) holds (fun row named held => ?_)
      obtain ⟨state, isFile, _⟩ := Option.bind_eq_some_iff.mp named
      have isKey : state.wrappedDek = some wrappedDek := by simpa [isFile] using current
      rw [holds row held, isFile]
      exact isKey
    · rename_i existing isExisting
      cases taken
      have isFile := (Option.filter_eq_some_iff.mp isExisting).1
      exact sound.moved ⟨_, isBoot, by simp⟩ ⟨⟨names, names existing isFile⟩, opens, member, holds⟩
  · contradiction

/-- The key that is written is the one of the machine that the file names. -/
theorem Sound.dek_written (sound : Sound keys world)
    (taken : step keys world .writeDek = some next) : Sound keys next := by
  simp only [step] at taken
  split at taken
  · rename_i secret dek wrappedDek id existing isBoot
    obtain ⟨⟨_, isNamed⟩, opens, member, holds⟩ := sound.stages secret _ isBoot
    have same := sound.same_secret isBoot (by simp)
    cases taken
    refine sound.written isBoot (by simp) isNamed member
      ⟨?_, member, fun row held => holds row held ▸ opens⟩
    refine agrees_of_names (fun state isFile => ?_) (same ▸ opens) holds (fun row _ held => ?_)
    · cases isFile
      exact isNamed
    · rw [holds row held]
      rfl
  · contradiction

/-- The secret may be replaced under a daemon that serves, where it opens the key of the file. -/
theorem Sound.secret_replaced (sound : Sound keys world) {replaced : Secret}
    (careful : Careful keys world (.replaceSecret replaced))
    (taken : step keys world (.replaceSecret replaced) = some next) : Sound keys next := by
  cases taken
  obtain ⟨serving, opens⟩ := careful
  have agrees (before : FileAgrees keys world.secret world.file world.machines) :
      FileAgrees keys replaced world.file world.machines := by
    intro id row named held
    obtain ⟨isKey, opened⟩ := before id row named held
    exact ⟨isKey, by rw [opens id row named held]; exact opened⟩
  refine ⟨sound.stored, sound.remembered, ?_, fun idle => agrees (sound.idle idle), ?_⟩
  · intro secret stage isBoot
    exact Or.inl (serving _ isBoot)
  · intro secret stage isBoot
    obtain ⟨dek, id, rfl⟩ := serving _ isBoot
    have at' := sound.stages secret _ isBoot
    exact ⟨agrees at'.1, at'.2⟩

/-- A machine that is deleted leaves the others as they are. -/
theorem Sound.machine_deleted (sound : Sound keys world)
    (taken : step keys world (.deleteMachine id) = some next) : Sound keys next := by
  cases taken
  have kept (tested : String) (row : MachineRecord)
      (held : (world.machines.delete id).get? tested = some row) :
      world.machines.get? tested = some row := by
    rw [OrderedMap.get_delete] at held
    split at held
    · contradiction
    · exact held
  exact sound.handled ⟨rfl, fun tested _ row held => ⟨row, kept tested row held, rfl⟩,
    fun _ member => member, fun tested row held => sound.stored tested row (kept tested row held)⟩

/-- A step that is careful keeps a world sound. -/
theorem step_sound (sound : Sound keys world) (careful : Careful keys world event)
    (taken : step keys world event = some next) : Sound keys next := by
  cases event with
  | boot pid port version startedAt =>
    obtain ⟨stopped, ⟨⟩⟩ := Option.ite_none_left_eq_some.mp taken
    have idle : world.boot = none := by simpa using stopped
    exact sound.reading sound.remembered (sound.idle idle)
  | reload =>
    simp only [step] at taken
    split at taken
    · rename_i idle
      cases taken
      exact sound.reading sound.remembered (sound.idle idle)
    · rename_i isBoot
      cases taken
      exact sound.reading sound.remembered (sound.stages _ _ isBoot).1
    · contradiction
  | readDek fresh nonce =>
    simp only [step] at taken
    split at taken
    · rename_i secret isBoot
      cases taken
      have agrees : FileAgrees keys secret world.file world.machines := sound.stages secret _ isBoot
      exact sound.moved ⟨_, isBoot, by simp⟩ ⟨agrees, choose_dek agrees fresh nonce rfl⟩
    · contradiction
  | readMachineId =>
    simp only [step] at taken
    split at taken
    · rename_i secret dek wrappedDek isBoot
      obtain ⟨agrees, opens, under⟩ := sound.stages secret _ isBoot
      split at taken
      · cases taken
        exact sound.moved ⟨_, isBoot, by simp⟩ ⟨agrees, opens, by simp⟩
      · rename_i machineId isNamed
        have isNamed := (Option.filter_eq_some_iff.mp isNamed).1
        cases taken
        refine sound.moved ⟨_, isBoot, by simp⟩ ⟨agrees, opens, fun id same => ?_⟩
        cases same
        exact ⟨sound.remembered machineId isNamed, under machineId isNamed⟩
    · contradiction
  | post => exact sound.posted taken
  | readForId =>
    simp only [step] at taken
    split at taken
    · rename_i secret dek wrappedDek id isBoot
      obtain ⟨agrees, opens, member, holds⟩ := sound.stages secret _ isBoot
      split at taken
      · rename_i current
        cases taken
        refine sound.moved ⟨_, isBoot, by simp⟩ ⟨fun state isFile => ?_, opens, member, holds⟩
        simpa [isFile] using current
      · cases taken
        exact sound.moved ⟨_, isBoot, by simp⟩ ⟨agrees, opens, member, holds⟩
    · contradiction
  | writeId =>
    simp only [step] at taken
    split at taken
    · rename_i secret dek wrappedDek id existing isBoot
      obtain ⟨_, opens, member, holds⟩ := sound.stages secret _ isBoot
      cases taken
      refine sound.written isBoot (by simp) rfl member ⟨fun state isFile => ?_, opens, member, holds⟩
      cases isFile
      rfl
    · contradiction
  | readForDek => exact sound.dek_read taken
  | writeDek => exact sound.dek_written taken
  | finish =>
    obtain ⟨_, ⟨⟩⟩ := Option.ite_none_right_eq_some.mp taken
    exact sound.stopped careful
  | clear =>
    cases taken
    exact sound.cleared
  | replaceSecret => exact sound.secret_replaced careful taken
  | otherPost accountId post id now =>
    obtain ⟨⟨after, answer⟩, isHandled, rfl⟩ := Option.map_eq_some_iff.mp taken
    exact sound.handled (handle_handled sound.stored isHandled).1
  | deleteMachine => exact sound.machine_deleted taken

/-! ## Runs -/

theorem start_sound (keys : DekWrap Secret Dek) (accountId : String) (maxCasRetries : Nat)
    (secret : Secret) : Sound keys (start accountId maxCasRetries secret : MachineWorld Secret Dek) where
  stored := by simp [start]
  remembered := by simp [start]
  current := by simp [start]
  idle _ := by simp [FileAgrees, start]
  stages := by simp [start]

/-- In every careful run, a daemon that serves has the key that the row of its machine holds. -/
theorem key_agreed (keys : DekWrap Secret Dek) (accountId : String) (maxCasRetries : Nat)
    (secret : Secret) (events : List (MachineEvent Secret Dek))
    (careful : Always (step keys) (fun world event _ => Careful keys world event)
      (start accountId maxCasRetries secret) events) :
    Always (step keys) (fun _ _ next => KeyAgreed keys next)
      (start accountId maxCasRetries secret) events :=
  always_under (Sound keys) (Careful keys) (fun _ _ next => KeyAgreed keys next)
    (fun _ _ _ sound careful taken =>
      have soundNext := step_sound sound careful taken
      ⟨soundNext, soundNext.agreed⟩)
    (start_sound keys accountId maxCasRetries secret) careful

/-- A wrapping of two keys that any secret opens. -/
def plainWrap : DekWrap Unit Bool where
  wrapDek dek _ _ := if dek then "new" else "old"
  unwrapDek text _ := if text = "new" then some true else if text = "old" then some false else none
  unwraps dek _ _ := by cases dek <;> decide
  empty _ := by decide

/-- A boot that comes to its end. -/
def completeBoot (dek : Bool) (left : List (MachineEvent Unit Bool)) : List (MachineEvent Unit Bool) :=
  [.boot 1 2 "1.0.0" 3, .readDek dek 0, .readMachineId, .post ⟨"metadata"⟩ ⟨"state"⟩ "machine" 0 true,
    .readForId] ++ left

/-- The daemon is stopped, and it starts again. -/
def stoppedBetween : List (MachineEvent Unit Bool) :=
  completeBoot false [.writeId, .readForDek, .writeDek, .finish] ++ completeBoot true [.readForDek]

/-- The daemon crashes before it has written its key, and it starts again. -/
def crashedBetween : List (MachineEvent Unit Bool) :=
  completeBoot false [.writeId, .finish] ++ completeBoot true [.readForDek, .writeDek]

/-- After a stop the remembered key is used. -/
theorem key_agreed_stopped :
    Always (step plainWrap) (fun _ _ next => KeyAgreed plainWrap next) (start "account" 3 ())
      stoppedBetween := by
  refine key_agreed plainWrap "account" 3 () stoppedBetween ?_
  refine always_cons rfl trivial (always_cons rfl trivial (always_cons rfl trivial ?_))
  refine always_cons rfl trivial (always_cons rfl trivial (always_cons rfl trivial ?_))
  refine always_cons rfl trivial (always_cons rfl trivial ?_)
  refine always_cons rfl ?_ ?_
  · intro id row named held
    obtain rfl := Option.some.inj named
    obtain rfl := Option.some.inj held
    rfl
  · refine always_cons rfl trivial (always_cons rfl trivial (always_cons rfl trivial ?_))
    exact always_cons rfl trivial (always_cons rfl trivial (always_cons rfl trivial trivial))

/-- After a crash between the two writes the daemon serves its machine under another key. -/
theorem crash_splits_keys :
    ¬ Always (step plainWrap) (fun _ _ next => KeyAgreed plainWrap next) (start "account" 3 ())
      crashedBetween := by
  intro always
  obtain ⟨final, ran⟩ : ∃ final, run (step plainWrap) (start "account" 3 ()) crashedBetween =
      some final := ⟨_, rfl⟩
  have agreed := always_run always (by simp [KeyAgreed, start]) ran
  have serving : final.boot = some ⟨(), .serving true "machine"⟩ := by
    obtain rfl := Option.some.inj ran
    rfl
  have held : (final.machines.get? "machine").map MachineRecord.dek = some "old" := by
    obtain rfl := Option.some.inj ran
    rfl
  obtain ⟨row, isRow, isDek⟩ := Option.map_eq_some_iff.mp held
  have opens := agreed () true "machine" row serving isRow
  rw [isDek] at opens
  contradiction

end Kvy.Cli.Daemon.MachineWorld
