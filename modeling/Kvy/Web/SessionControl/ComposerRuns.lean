import Kvy.General.Runs
import Kvy.Web.SessionControl.OptimisticComposer

/-!
# The composer over a whole run

Messages are sent, answered and failed while the transcript is rendered again and again, and
after each rendering the pending messages are reconciled from scratch. The state also records
what the code does not: what had landed when a message was sent, and which landed item accounts
for which dropped message. Whose message an item comes from is given from outside.
-/

namespace Kvy.Web.SessionControl

open General Web.Sync

/-- A message once sent, with the items that had landed before. -/
structure Send where
  localId : String
  landedBefore : List String

/-- The state of `useComposerState`, with records of what was sent, of what has landed, and of
the item that accounts for each dropped message. -/
structure Composer where
  items : List RenderItem
  due : Bool
  pending : List PendingMessage
  inFlight : List String
  sends : List Send
  landed : List String
  accounts : List (String × String)

namespace Composer

/-- Nothing sent and nothing landed. -/
def start : Composer :=
  { items := [], due := true, pending := [], inFlight := [], sends := [], landed := []
    accounts := [] }

/-- The ids of the messages once sent. -/
def sentIds (composer : Composer) : List String := composer.sends.map Send.localId

/-- What happens to the composer. -/
inductive Event where
  | transcript (envelopes : List Wire.SessionEnvelope)
  | effect
  | send (localId text : String) (time : Decimal)
  | attach (localId name : String) (size time : Decimal)
  | reply (localId : String) (result : MessageRpcResult)
  | fail (localId : String)

/-- The send of a message that an item comes from, where it comes from one of this composer. -/
abbrev Cause := String → Option String

/-- An item belongs to no other send: it has no other send's id, it does not come from another
send, and it accounts for no other. -/
def NoOther (cause : Cause) (composer : Composer) (item localId : String) : Prop :=
  (item ∈ composer.sentIds → item = localId) ∧
    (∀ other ∈ cause item, other = localId) ∧
      ∀ account ∈ composer.accounts, account.1 = item → account.2 = localId

instance (cause : Cause) (composer : Composer) (item localId : String) :
    Decidable (composer.NoOther cause item localId) :=
  inferInstanceAs (Decidable (_ ∧ _ ∧ _))

/-- An item landed after a message was sent. -/
def LandedAfter (composer : Composer) (item localId : String) : Prop :=
  ∀ send ∈ composer.sends, send.localId = localId → item ∉ send.landedBefore

instance (composer : Composer) (item localId : String) :
    Decidable (composer.LandedAfter item localId) :=
  inferInstanceAs (Decidable (∀ send ∈ composer.sends, _))

/-- An item ends the turn of a message. -/
def EndsTurnOf (cause : Cause) (composer : Composer) (localId : String) (item : RenderItem) :
    Prop :=
  isTurnEnd item = true ∧ cause item.base.id = some localId ∧
    composer.NoOther cause item.base.id localId

instance (cause : Cause) (composer : Composer) (localId : String) :
    DecidablePred (composer.EndsTurnOf cause localId) :=
  fun _ => inferInstanceAs (Decidable (_ ∧ _ ∧ _))

/-- The item that ends the turn of a message; failing that, the first that ends a turn since the
message was sent. -/
def closing (cause : Cause) (composer : Composer) (message : PendingMessage) : Option RenderItem :=
  (composer.items.find? (composer.EndsTurnOf cause message.localId)).or
    (composer.items.find? (fun item => hasTurnClosedSince [item] message.sentAt))

/-- The item that accounts for a dropped message, with the message. -/
def account (cause : Cause) (composer : Composer) (gone : PendingMessage × Reason) :
    String × String :=
  match gone.2 with
  | .id => (gone.1.localId, gone.1.localId)
  | .text item => (item, gone.1.localId)
  | .turnEnd =>
    ((composer.closing cause gone.1).elim gone.1.localId (fun item => item.base.id),
      gone.1.localId)

/-- A message under an id that nobody has used. -/
def insert (composer : Composer) (localId : String) (kind : PendingKind) (time : Decimal) :
    Option Composer :=
  if localId ∈ composer.sentIds ∨ localId ∈ composer.landed then none
  else some { composer with
    pending := composer.pending ++ [PendingMessage.mk kind localId time false]
    inFlight := composer.inFlight ++ [localId]
    sends := composer.sends ++ [Send.mk localId composer.landed] }

/-- One event; `due` tells that the effect on `items` has yet to run. -/
def step (cause : Cause) (composer : Composer) : Event → Option Composer
  | .transcript envelopes =>
    let items := reduceEnvelopes envelopes
    some { composer with items, due := true, landed := composer.landed ++ landedIds items }
  | .effect =>
    if composer.due then
      some { composer with
        due := false
        pending := reconcilePending composer.pending composer.items
        accounts := composer.accounts ++
          (dropped composer.pending composer.items).map (composer.account cause) }
    else none
  | .send localId text time =>
    let trimmed := Text.trimString text
    if trimmed = "" then some composer else composer.insert localId (.text trimmed) time
  | .attach localId name size time => composer.insert localId (.file name size) time
  | .reply localId result =>
    if localId ∈ composer.inFlight then
      some { composer with
        pending := reconcileByStatus composer.pending localId result
        inFlight := composer.inFlight.erase localId }
    else none
  | .fail localId =>
    if localId ∈ composer.inFlight then
      some { composer with
        pending := dropMessage composer.pending localId
        inFlight := composer.inFlight.erase localId }
    else none

/-! ## What is asked of a run -/

/-- What lets a pending message leave the list. -/
inductive Justified (cause : Cause) (composer : Composer) (event : Event)
    (message : PendingMessage) : Prop where
  | id (landed : message.localId ∈ landedIds composer.items)
  | text (landed : String × String) (held : landed ∈ landedUserTexts composer.items)
      (same : message.text? = some landed.2)
      (later : composer.LandedAfter landed.1 message.localId)
      (own : composer.NoOther cause landed.1 message.localId)
  | failed (own : event = .fail message.localId)
  | duplicate (result : MessageRpcResult) (own : event = .reply message.localId result)
      (duplicate : result.status = some .duplicate)
  | turn (queued : message.queued = true) (item : RenderItem) (held : item ∈ composer.items)
      (ends : isTurnEnd item = true) (own : cause item.base.id = some message.localId)

/-- Every message that leaves the list may do so. -/
def LeavesForOwnSake (cause : Cause) (composer : Composer) (event : Event) (next : Composer) :
    Prop :=
  ∀ message ∈ composer.pending,
    message.localId ∉ next.pending.map PendingMessage.localId → composer.Justified cause event message

/-- No item accounts for two dropped messages. -/
def AccountsOnce (composer : Composer) : Prop :=
  ∀ first ∈ composer.accounts, ∀ second ∈ composer.accounts,
    first.1 = second.1 → first.2 = second.2

/-- What is asked of every step. -/
def DropsOnlyOwn (cause : Cause) (composer : Composer) (event : Event) (next : Composer) : Prop :=
  composer.LeavesForOwnSake cause event next ∧ next.AccountsOnce

/-- When the pending messages are reconciled, every message that waits for a text stands opposite
to an item that landed after it was sent and belongs to no other send, or to none; and where a
turn has ended since a queued message that stands opposite to none was sent, the turn of that
message has ended. -/
def Unmistaken (cause : Cause) (composer : Composer) : Event → Prop
  | .effect =>
    (∀ text ∈ composer.pending.filterMap PendingMessage.text?,
      ∀ pair ∈ opposite composer.pending composer.items text,
        composer.LandedAfter pair.2.1 pair.1.localId ∧
          composer.NoOther cause pair.2.1 pair.1.localId) ∧
      ∀ message ∈ composer.pending, message.queued = true →
        message.localId ∉ landedIds composer.items →
          hasTurnClosedSince composer.items message.sentAt = true →
            (∀ text ∈ message.text?,
              message ∉ (opposite composer.pending composer.items text).map Prod.fst) →
              ∃ item ∈ composer.items, composer.EndsTurnOf cause message.localId item
  | _ => True

instance (cause : Cause) (composer : Composer) (event : Event) :
    Decidable (composer.Unmistaken cause event) := by
  cases event with
  | effect => exact inferInstanceAs (Decidable (_ ∧ _))
  | transcript | send | attach | reply | fail => exact isTrue trivial

/-! ## The invariant -/

/-- What holds of a composer while no message is mistaken. -/
structure Sound (composer : Composer) : Prop where
  known : ∀ message ∈ composer.pending, message.localId ∈ composer.sentIds
  apart : (composer.pending.map PendingMessage.localId).Nodup
  distinct : DistinctTexts composer.items
  shown : ∀ item ∈ landedIds composer.items, item ∈ composer.landed
  accounted : ∀ account ∈ composer.accounts, account.1 ∈ composer.landed
  echoes : ∀ account ∈ composer.accounts, account.1 ∈ composer.sentIds → account.2 = account.1
  once : composer.AccountsOnce

theorem sound_start : start.Sound where
  known := by simp [start]
  apart := List.nodup_nil
  distinct := List.nodup_nil
  shown := by simp [start, landedIds]
  accounted := by simp [start]
  echoes := by simp [start]
  once := by simp [start, AccountsOnce]

/-- A text item is among the items. -/
theorem landed_of_text {items : List RenderItem} {landed : String × String}
    (held : landed ∈ landedUserTexts items) : landed.1 ∈ landedIds items := by
  obtain ⟨item, member, selected⟩ := List.mem_filterMap.mp held
  refine List.mem_map.mpr ⟨item, member, ?_⟩
  cases item with
  | event base item =>
    cases item with
    | text md thinking =>
      simp only [RenderItem.event?, Option.bind_some, userText?, Option.ite_none_right_eq_some,
        Option.some.injEq] at selected
      rw [← selected.2]
      rfl
    | service | file | turnStart | turnEnd | modeSwitch | permissionMode | subStart | subStop
    | usage | plan => cases selected
  | permPlaceholder | tool | orphanToolEnd | subagentGroup => cases selected

variable {message : PendingMessage}

section Reconciling

variable {cause : Cause} {composer : Composer}

/-- What a text item that drops a message is, where no message is mistaken. -/
theorem text_own (sound : composer.Sound) (fair : composer.Unmistaken cause .effect) {item : String}
    (gone : (message, .text item) ∈ dropped composer.pending composer.items) :
    ∃ text, message.text? = some text ∧ (item, text) ∈ landedUserTexts composer.items ∧
      composer.LandedAfter item message.localId ∧ composer.NoOther cause item message.localId := by
  obtain ⟨text, own, pair⟩ := opposite_of_text sound.distinct gone
  have held : (item, text) ∈ landedTexts composer.items text := (List.of_mem_zip pair).2
  have asked : text ∈ composer.pending.filterMap PendingMessage.text? :=
    List.mem_filterMap.mpr ⟨message, pending_of_dropped gone, own⟩
  obtain ⟨later, noOther⟩ := fair.1 text asked _ pair
  exact ⟨text, own, (List.mem_filter.mp held).1, later, noOther⟩

/-- Where no message is mistaken, a message dropped for the end of a turn is queued and its own
turn has ended. -/
theorem turn_own (sound : composer.Sound) (fair : composer.Unmistaken cause .effect)
    (gone : (message, .turnEnd) ∈ dropped composer.pending composer.items) :
    message.queued = true ∧
      ∃ item ∈ composer.items, composer.EndsTurnOf cause message.localId item := by
  obtain ⟨queued, absent, closed, unpaired⟩ :=
    turn_of_dropped sound.distinct (List.Nodup.of_map _ sound.apart) gone
  exact ⟨queued, fair.2 message (pending_of_dropped gone) queued absent closed
    (fun text own => unpaired text own)⟩

/-- The item that accounts for such a message ends its turn. -/
theorem closing_own
    (ended : ∃ item ∈ composer.items, composer.EndsTurnOf cause message.localId item) :
    ∃ item ∈ composer.items, composer.EndsTurnOf cause message.localId item ∧
      composer.account cause (message, .turnEnd) = (item.base.id, message.localId) := by
  obtain ⟨item, member, ends⟩ := ended
  cases found : composer.items.find? (composer.EndsTurnOf cause message.localId) with
  | none =>
    have never := List.find?_eq_none.mp found item member
    exact absurd (decide_eq_true ends) never
  | some first =>
    have passes := List.find?_some found
    refine ⟨first, List.mem_of_find?_eq_some found, of_decide_eq_true passes, ?_⟩
    simp [account, closing, found]

variable {reason : Reason}

/-- A message dropped for its own sake. -/
theorem dropped_justified (sound : composer.Sound) (fair : composer.Unmistaken cause .effect)
        (gone : (message, reason) ∈ dropped composer.pending composer.items) :
    composer.Justified cause .effect message := by
  cases reason with
  | id => exact .id (landed_of_dropped gone)
  | text item =>
    obtain ⟨text, own, held, later, noOther⟩ := text_own sound fair gone
    exact .text (item, text) held own later noOther
  | turnEnd =>
    obtain ⟨queued, item, member, ends, own, -⟩ := turn_own sound fair gone
    exact .turn queued item member ends own

/-- The item that accounts for a dropped message has landed and belongs to no other send. -/
theorem account_own (sound : composer.Sound) (fair : composer.Unmistaken cause .effect)
        (gone : (message, reason) ∈ dropped composer.pending composer.items) :
    ∃ item, composer.account cause (message, reason) = (item, message.localId) ∧
      item ∈ composer.landed ∧ (item ∈ composer.sentIds → item = message.localId) ∧
        ∀ account ∈ composer.accounts, account.1 = item → account.2 = message.localId := by
  cases reason with
  | id =>
    refine ⟨message.localId, rfl, sound.shown _ (landed_of_dropped gone), fun _ => rfl, ?_⟩
    intro account member same
    have sent := sound.known message (pending_of_dropped gone)
    exact (sound.echoes account member (same ▸ sent)).trans same
  | text item =>
    obtain ⟨text, -, held, -, noOther⟩ := text_own sound fair gone
    have landed := sound.shown item (landed_of_text held)
    exact ⟨item, rfl, landed, noOther.1, noOther.2.2⟩
  | turnEnd =>
    obtain ⟨item, member, ends, told⟩ := closing_own (turn_own sound fair gone).2
    have landed := sound.shown item.base.id (List.mem_map_of_mem member)
    exact ⟨item.base.id, told, landed, ends.2.2.1, ends.2.2.2.2⟩

/-- A message dropped for its id is the only one its item accounts for. -/
theorem id_once (sound : composer.Sound) (fair : composer.Unmistaken cause .effect)
    {other : PendingMessage}
    (first : (message, .id) ∈ dropped composer.pending composer.items)
    (second : (other, reason) ∈ dropped composer.pending composer.items)
    (same : (composer.account cause (other, reason)).1 = message.localId) :
    message.localId = other.localId := by
  obtain ⟨item, told, -, own, -⟩ := account_own sound fair second
  obtain rfl : item = message.localId := by simpa [told] using same
  exact own (sound.known message (pending_of_dropped first))

/-- A text item that drops one message does not end the turn of another. -/
theorem text_not_turn (sound : composer.Sound) (fair : composer.Unmistaken cause .effect)
    {other : PendingMessage} {item : String}
    (first : (message, .text item) ∈ dropped composer.pending composer.items)
    (second : (other, .turnEnd) ∈ dropped composer.pending composer.items)
    (same : (composer.account cause (other, .turnEnd)).1 = item) :
    message.localId = other.localId := by
  obtain ⟨text, -, -, -, noOther⟩ := text_own sound fair first
  obtain ⟨closes, -, ends, told⟩ := closing_own (turn_own sound fair second).2
  obtain rfl : closes.base.id = item := by simpa [told] using same
  exact (noOther.2.1 other.localId ends.2.1).symm

/-- No two of the messages dropped together are accounted for by one item. -/
theorem dropped_once (sound : composer.Sound) (fair : composer.Unmistaken cause .effect)
    {other : PendingMessage} {again : Reason}
    (first : (message, reason) ∈ dropped composer.pending composer.items)
    (second : (other, again) ∈ dropped composer.pending composer.items)
    (same : (composer.account cause (message, reason)).1 =
      (composer.account cause (other, again)).1) : message.localId = other.localId := by
  cases reason with
  | id => exact id_once sound fair first second same.symm
  | text item =>
    cases again with
    | id => exact (id_once sound fair second first same).symm
    | text item' =>
      obtain rfl : item = item' := same
      rw [text_claimed_once first second]
    | turnEnd => exact text_not_turn sound fair first second same.symm
  | turnEnd =>
    cases again with
    | id => exact (id_once sound fair second first same).symm
    | text item => exact (text_not_turn sound fair second first same).symm
    | turnEnd =>
      obtain ⟨closes, -, ends, told⟩ := closing_own (turn_own sound fair first).2
      obtain ⟨closesToo, -, endsToo, toldToo⟩ := closing_own (turn_own sound fair second).2
      have item : closes.base.id = closesToo.base.id := by simpa [told, toldToo] using same
      have causes : some message.localId = some other.localId := by
        rw [← ends.2.1, item, endsToo.2.1]
      exact Option.some.inj causes

/-- The effect keeps the invariant where no message is mistaken. -/
theorem Sound.effect (sound : composer.Sound) (fair : composer.Unmistaken cause .effect) :
    Sound { composer with
      due := false
      pending := reconcilePending composer.pending composer.items
      accounts := composer.accounts ++
        (dropped composer.pending composer.items).map (composer.account cause) } where
  known := fun message member =>
    sound.known message ((reconcile_sublist composer.pending composer.items).subset member)
  apart := sound.apart.sublist ((reconcile_sublist composer.pending composer.items).map _)
  distinct := sound.distinct
  shown := sound.shown
  accounted := by
    intro account member
    rcases List.mem_append.mp member with old | new
    · exact sound.accounted account old
    · obtain ⟨⟨message, reason⟩, gone, rfl⟩ := List.mem_map.mp new
      obtain ⟨item, told, landed, -⟩ := account_own sound fair gone
      rw [told]
      exact landed
  echoes := by
    intro account member sent
    rcases List.mem_append.mp member with old | new
    · exact sound.echoes account old sent
    · obtain ⟨⟨message, reason⟩, gone, rfl⟩ := List.mem_map.mp new
      obtain ⟨item, told, -, own, -⟩ := account_own sound fair gone
      rw [told] at sent ⊢
      exact (own sent).symm
  once := by
    intro first firstMember second secondMember same
    rcases List.mem_append.mp firstMember with old | new <;>
      rcases List.mem_append.mp secondMember with oldToo | newToo
    · exact sound.once first old second oldToo same
    · obtain ⟨⟨message, reason⟩, gone, rfl⟩ := List.mem_map.mp newToo
      obtain ⟨item, told, -, -, alone⟩ := account_own sound fair gone
      rw [told] at same ⊢
      exact alone first old same
    · obtain ⟨⟨message, reason⟩, gone, rfl⟩ := List.mem_map.mp new
      obtain ⟨item, told, -, -, alone⟩ := account_own sound fair gone
      rw [told] at same ⊢
      exact (alone second oldToo same.symm).symm
    · obtain ⟨⟨message, reason⟩, gone, rfl⟩ := List.mem_map.mp new
      obtain ⟨⟨other, again⟩, goneToo, rfl⟩ := List.mem_map.mp newToo
      obtain ⟨item, told, -⟩ := account_own sound fair gone
      obtain ⟨itemToo, toldToo, -⟩ := account_own sound fair goneToo
      have one := dropped_once sound fair gone goneToo same
      rw [told, toldToo]
      exact one

end Reconciling

variable {composer next : Composer}

/-- A message under a fresh id keeps the invariant. -/
theorem Sound.insert {localId : String} {kind : PendingKind}
    {time : Decimal} (sound : composer.Sound)
    (inserted : composer.insert localId kind time = some next) : next.Sound := by
  unfold Composer.insert at inserted
  split at inserted
  · contradiction
  · rename_i fresh
    obtain ⟨unsent, unlanded⟩ := not_or.mp fresh
    cases inserted
    have new : localId ∉ composer.pending.map PendingMessage.localId := by
      intro held
      obtain ⟨message, member, rfl⟩ := List.mem_map.mp held
      exact unsent (sound.known message member)
    constructor
    · intro message member
      rcases List.mem_append.mp member with old | added
      · rw [sentIds, List.map_append]
        exact List.mem_append_left _ (sound.known message old)
      · simp [sentIds, List.mem_singleton.mp added]
    · simp only [List.map_append, List.map_cons, List.map_nil]
      exact List.nodup_append.mpr ⟨sound.apart, List.nodup_singleton _, by
        rintro _ old _ added rfl
        exact new (List.mem_singleton.mp added ▸ old)⟩
    · exact sound.distinct
    · exact sound.shown
    · exact sound.accounted
    · intro account member sent
      have either : account.1 ∈ composer.sentIds ∨ account.1 = localId := by
        simpa [sentIds] using sent
      rcases either with old | same
      · exact sound.echoes account member old
      · exact absurd (same ▸ sound.accounted account member) unlanded
    · exact sound.once

/-- A sent message leaves the others on the list. -/
theorem insert_keeps {localId : String} {kind : PendingKind}
    {time : Decimal} (inserted : composer.insert localId kind time = some next) :
    ∀ message ∈ composer.pending, message ∈ next.pending := by
  unfold Composer.insert at inserted
  split at inserted
  · contradiction
  · cases inserted
    intro message held
    exact List.mem_append_left _ held

/-- Fewer or changed messages under the same ids keep the invariant. -/
theorem Sound.shorten (sound : composer.Sound)
    {pending : List PendingMessage} (inFlight : List String)
    (fewer : (pending.map PendingMessage.localId).Sublist
      (composer.pending.map PendingMessage.localId)) :
    Sound { composer with pending, inFlight } where
  known := by
    intro message member
    obtain ⟨held, old, same⟩ := List.mem_map.mp (fewer.subset (List.mem_map_of_mem member))
    exact same ▸ sound.known held old
  apart := sound.apart.sublist fewer
  distinct := sound.distinct
  shown := sound.shown
  accounted := sound.accounted
  echoes := sound.echoes
  once := sound.once

theorem drop_ids (pending : List PendingMessage) (localId : String) :
    ((dropMessage pending localId).map PendingMessage.localId).Sublist
      (pending.map PendingMessage.localId) :=
  List.filter_sublist.map _

/-- Only the message itself is taken off. -/
theorem own_of_drop {pending : List PendingMessage} {localId : String} (held : message ∈ pending)
    (gone : message.localId ∉ (dropMessage pending localId).map PendingMessage.localId) :
    message.localId = localId := by
  by_contra apart
  exact gone (List.mem_map_of_mem (List.mem_filter.mpr ⟨held, by simpa using apart⟩))

/-- A reply takes off its own message where it tells of a duplicate; else all messages stay. -/
theorem reply_ids (pending : List PendingMessage) (localId : String) (result : MessageRpcResult) :
    (result.status = some .duplicate ∧
      reconcileByStatus pending localId result = dropMessage pending localId) ∨
    (reconcileByStatus pending localId result).map PendingMessage.localId =
      pending.map PendingMessage.localId := by
  have marked : (pending.map (fun message =>
      if message.localId = localId then { message with queued := result.queued } else message)).map
        PendingMessage.localId = pending.map PendingMessage.localId := by
    rw [List.map_map]
    apply List.map_congr_left
    intro message _
    simp only [Function.comp_apply]
    split <;> rfl
  unfold reconcileByStatus
  cases result.status with
  | none => exact .inr marked
  | some status =>
    cases status with
    | duplicate => exact .inl ⟨rfl, rfl⟩
    | outcomeUnknown => exact .inr rfl
    | queued => exact .inr marked

/-- The messages under a reply, as ids. -/
theorem reply_sublist (pending : List PendingMessage) (localId : String)
    (result : MessageRpcResult) :
    ((reconcileByStatus pending localId result).map PendingMessage.localId).Sublist
      (pending.map PendingMessage.localId) := by
  rcases reply_ids pending localId result with ⟨-, same⟩ | same
  · rw [same]
    exact drop_ids pending localId
  · rw [same]

/-! ## Steps and runs -/

/-- A step on which no message is mistaken keeps the invariant. -/
theorem Sound.step {cause : Cause} {event : Event}
    (sound : composer.Sound) (fair : composer.Unmistaken cause event)
    (taken : composer.step cause event = some next) : next.Sound := by
  cases event with
  | transcript envelopes =>
    cases taken
    exact { sound with
      distinct := reduced_distinct envelopes
      shown := fun item member => List.mem_append_right _ member
      accounted := fun account member => List.mem_append_left _ (sound.accounted account member) }
  | effect =>
    simp only [Composer.step, Option.ite_none_right_eq_some, Option.some.injEq] at taken
    obtain ⟨-, rfl⟩ := taken
    exact sound.effect fair
  | send localId text time =>
    simp only [Composer.step] at taken
    split at taken
    · cases taken
      exact sound
    · exact sound.insert taken
  | attach localId name size time => exact sound.insert taken
  | reply localId result =>
    simp only [Composer.step, Option.ite_none_right_eq_some, Option.some.injEq] at taken
    obtain ⟨-, rfl⟩ := taken
    exact sound.shorten _ (reply_sublist composer.pending localId result)
  | fail localId =>
    simp only [Composer.step, Option.ite_none_right_eq_some, Option.some.injEq] at taken
    obtain ⟨-, rfl⟩ := taken
    exact sound.shorten _ (drop_ids composer.pending localId)

/-- On a step on which no message is mistaken, messages leave for their own sake. -/
theorem step_leaves {cause : Cause} {event : Event}
    (sound : composer.Sound) (fair : composer.Unmistaken cause event)
    (taken : composer.step cause event = some next) :
    composer.LeavesForOwnSake cause event next := by
  intro message held gone
  cases event with
  | transcript envelopes =>
    cases taken
    exact absurd (List.mem_map_of_mem held) gone
  | effect =>
    simp only [Composer.step, Option.ite_none_right_eq_some, Option.some.injEq] at taken
    obtain ⟨-, rfl⟩ := taken
    have left : message ∉ reconcilePending composer.pending composer.items :=
      fun stays => gone (List.mem_map_of_mem stays)
    obtain ⟨reason, wasDropped⟩ := dropped_of_not_mem held left
    exact dropped_justified sound fair wasDropped
  | send localId text time =>
    simp only [Composer.step] at taken
    split at taken
    · cases taken
      exact absurd (List.mem_map_of_mem held) gone
    · exact absurd (List.mem_map_of_mem (insert_keeps taken message held)) gone
  | attach localId name size time =>
    exact absurd (List.mem_map_of_mem (insert_keeps taken message held)) gone
  | reply localId result =>
    simp only [Composer.step, Option.ite_none_right_eq_some, Option.some.injEq] at taken
    obtain ⟨-, rfl⟩ := taken
    rcases reply_ids composer.pending localId result with ⟨duplicate, same⟩ | same
    · simp only [same] at gone
      obtain rfl := own_of_drop held gone
      exact .duplicate result rfl duplicate
    · exact absurd (same ▸ List.mem_map_of_mem held) gone
  | fail localId =>
    simp only [Composer.step, Option.ite_none_right_eq_some, Option.some.injEq] at taken
    obtain ⟨-, rfl⟩ := taken
    obtain rfl := own_of_drop held gone
    exact .failed rfl

/-- In every run in which no message is mistaken when the pending messages are reconciled,
messages leave the list for their own sake only, and no item accounts for two of them. -/
theorem unmistaken_run_drops_own (cause : Cause) (events : List Event)
    (fair : Runs.Always (step cause) (fun composer event _ => composer.Unmistaken cause event)
      start events) :
    Runs.Always (step cause) (DropsOnlyOwn cause) start events := by
  refine Runs.always_under Sound (fun composer event => composer.Unmistaken cause event)
    (DropsOnlyOwn cause) ?_ sound_start fair
  intro composer event next sound met taken
  have kept := sound.step met taken
  exact ⟨kept, step_leaves sound met taken, kept.once⟩

/-- A message of the user in the transcript. -/
def userEnvelope (id text : String) (time : Int) : Wire.SessionEnvelope :=
  { id, time := Decimal.ofInt time, role := .user, turn := none, subagent := none
    ev := .text text none }

/-- The end of a turn in the transcript. -/
def turnEndEnvelope (id : String) (time : Int) : Wire.SessionEnvelope :=
  { id, time := Decimal.ofInt time, role := .agent, turn := none, subagent := none
    ev := .turnEnd .completed }

/-- One message is echoed under its id, an equal one under another id after that, and a queued
one only shows in the end of its turn. -/
def echoedRun : List Event :=
  [.send "m1" "yes" (Decimal.ofInt 1), .reply "m1" ⟨false, none⟩,
    .transcript [userEnvelope "m1" "yes" 1], .effect,
    .send "m2" " no " (Decimal.ofInt 2), .transcript [userEnvelope "m1" "yes" 1,
      userEnvelope "e2" "no" 3], .effect,
    .send "m3" "go" (Decimal.ofInt 4), .reply "m3" ⟨true, some .queued⟩,
    .transcript [userEnvelope "m1" "yes" 1, userEnvelope "e2" "no" 3, turnEndEnvelope "t3" 5],
    .effect]

/-- The messages that the items of the run come from. -/
def echoedCause : Cause := fun item => [("m1", "m1"), ("e2", "m2"), ("t3", "m3")].lookup item

/-- No message is mistaken in the run, all three are dropped, and each for its own sake. -/
theorem echoed_run_drops_own :
    (Runs.run (step echoedCause) start echoedRun).map (fun composer => composer.accounts) =
        some [("m1", "m1"), ("e2", "m2"), ("t3", "m3")] ∧
      Runs.Always (step echoedCause) (DropsOnlyOwn echoedCause) start echoedRun :=
  ⟨by decide +kernel, unmistaken_run_drops_own echoedCause echoedRun (by decide +kernel)⟩

/-- Two equal messages are sent and the first is echoed under its id. -/
def oneEcho : List Event :=
  [.send "m1" "yes" (Decimal.ofInt 1), .send "m2" "yes" (Decimal.ofInt 2),
    .transcript [userEnvelope "m1" "yes" 1], .effect]

/-- The one echo drops both messages. -/
theorem echo_drops_both :
    ∃ events, ¬ Runs.Always (step (fun item => if item = "m1" then some "m1" else none))
      (DropsOnlyOwn (fun item => if item = "m1" then some "m1" else none)) start events := by
  refine ⟨oneEcho, fun always => ?_⟩
  have ran : (Runs.run (step (fun item => if item = "m1" then some "m1" else none)) start
      oneEcho).map (fun composer => composer.accounts) = some [("m1", "m1"), ("m1", "m2")] := by
    decide +kernel
  obtain ⟨final, reached, accounts⟩ := Option.map_eq_some_iff.mp ran
  have accountsOnce := Runs.always_along (fun _ => True) _
    (fun _ _ next => next.AccountsOnce) (fun _ _ _ _ both _ => ⟨trivial, both.2⟩) trivial always
  have once : final.AccountsOnce := Runs.always_run accountsOnce sound_start.once reached
  have one := once ("m1", "m1") (by simp [accounts]) ("m1", "m2") (by simp [accounts]) rfl
  exact absurd one (by decide)

end Composer
end Kvy.Web.SessionControl
