import Kvy.General.Base64
import Kvy.General.IsoDate
import Kvy.General.StableSort
import Kvy.General.Utf8
import Kvy.Server.App.Routes.Mappers
import Kvy.Server.App.Routes.MessageWalk
import Mathlib.Data.Prod.Lex
import Mathlib.Data.String.Basic

/-!
# Walking the session list

`GET /v1/sessions` lists the sessions of an account from the one that was updated last. The
column holds microseconds, the driver hands over a date in milliseconds, and the cursor is
made from that date and the identifier. The rows of one millisecond that follow the end of a
page are therefore left out, unless they lie at its very start and have a smaller identifier.

The flips of stale sessions that the route makes before it answers are writes and are left
out: the table is fixed.
-/

namespace Kvy.Server.App

open General Wire Db

/-- `encodeSessionCursor`. -/
def encodeSessionCursor (updatedAt : Date) (id : String) : List Char :=
  Base64.encode (Utf8.encode (updatedAt.toISOString ++ '|' :: id.toList))

/-- `decodeSessionCursor`; absent where it throws. -/
def decodeSessionCursor (cursor : List Char) : Option (Date × String) :=
  match (Utf8.decode (Base64.decode cursor)).splitOn '|' with
  | iso :: id :: _ =>
    if iso.isEmpty || id.isEmpty then none
    else (Date.parse iso).map (fun updatedAt => (updatedAt, String.ofList id))
  | _ => none

/-- A stored session with its `updated_at` in microseconds, which the driver hands over in
milliseconds. Identifiers are drawn by `createId`, from letters and digits. -/
structure StoredSession where
  row : SessionRecord
  updatedAt : Int
  read : row.updatedAt = updatedAt / 1000
  within : (updatedAt / 1000).natAbs ≤ 8640000000000000
  named : row.id ≠ ""
  plain : '|' ∉ row.id.toList

/-- The date that the driver hands over. -/
def StoredSession.date (session : StoredSession) : Date := ⟨session.updatedAt / 1000, session.within⟩

/-- The answer of the list route. -/
structure SessionsPage where
  sessions : List SessionRow
  nextCursor : Option (List Char)

section
variable {κ : Type} [LinearOrder κ] (collation : String → κ)

/-- Where a session stands: later updates first, then greater identifiers. -/
def standing (session : StoredSession) : (Int ×ₗ κ)ᵒᵈ :=
  OrderDual.toDual (toLex (session.updatedAt, collation session.row.id))

/-- The sessions of an account in the order of the list. -/
def orderedSessions (table : List StoredSession) (accountId : String) : List StoredSession :=
  sortBy (standing collation) (table.filter (fun session => session.row.accountId = accountId))

/-- Sessions are paged by the date and the identifier of the last one. -/
def sessionKeyset : Keyset StoredSession (Date × String) where
  of session := (session.date, session.row.id)
  below cursor session :=
    decide (session.updatedAt < cursor.1.ms * 1000) ||
      (decide (session.updatedAt = cursor.1.ms * 1000) &&
        decide (collation session.row.id < collation cursor.2))

/-- The handler of the list route; absent where it answers 400. An empty cursor is none. -/
def listSessions (table : List StoredSession) (accountId : String) (cursor : Option (List Char))
    (limit : PageLimit) : Option SessionsPage := do
  let before ← match cursor.filter (fun text => !text.isEmpty) with
    | none => some none
    | some text => (decodeSessionCursor text).map some
  let (page, next) :=
    (sessionKeyset collation).page (orderedSessions collation table accountId) before limit.value
  return ⟨page.map (fun session => toSessionRow session.row),
    next.map (fun (updatedAt, id) => encodeSessionCursor updatedAt id)⟩

/-- Follow the cursors to the end. Absent when a cursor is refused or the fuel of the model is
used up. -/
def walkSessions (table : List StoredSession) (accountId : String) (limit : PageLimit) :
    Nat → Option (List Char) → Option (List SessionRow)
  | 0, _ => none
  | fuel + 1, cursor => do
    let page ← listSessions collation table accountId cursor limit
    match page.nextCursor with
    | none => return page.sessions
    | some next => return page.sessions ++ (← walkSessions table accountId limit fuel (some next))

end

/-! ## Cursors -/

/-- The cursor of a session holds its date and its identifier. -/
theorem decode_session_cursor (session : StoredSession) :
    decodeSessionCursor (encodeSessionCursor session.date session.row.id) =
      some (session.date, session.row.id) := by
  have isoPlain : '|' ∉ session.date.toISOString := by
    intro member
    rcases session.date.iso_chars '|' member with digit | mark
    · exact absurd digit (by decide)
    · exact absurd mark (by decide)
  have isoWritten : session.date.toISOString.isEmpty = false := by
    simp [Date.toISOString]
  have idWritten : session.row.id.toList.isEmpty = false := by
    simpa using session.named
  have split : (session.date.toISOString ++ '|' :: session.row.id.toList).splitOn '|' =
      [session.date.toISOString, session.row.id.toList] := by
    rw [List.splitOn_append_cons_self_of_not_mem isoPlain, List.splitOn_eq_singleton session.plain]
  simp [decodeSessionCursor, encodeSessionCursor, Base64.decode_encode, Utf8.decode_encode, split,
    isoWritten, idWritten, Date.parse_toISOString]

section
variable {κ : Type} [LinearOrder κ] (collation : String → κ)

/-! ## Order -/

/-- One session stands before another. -/
theorem standing_le {first second : StoredSession} :
    standing collation first ≤ standing collation second ↔
      second.updatedAt < first.updatedAt ∨
        (second.updatedAt = first.updatedAt ∧ collation second.row.id ≤ collation first.row.id) := by
  simp only [standing, OrderDual.toDual_le_toDual, Prod.Lex.toLex_le_toLex]

theorem ordered_pairwise (table : List StoredSession) (accountId : String) :
    (orderedSessions collation table accountId).Pairwise
      (fun first second => standing collation first ≤ standing collation second) :=
  sort_pairwise (standing collation) _

/-- A session that stands no later than another does not lie below its cursor. -/
theorem below_own {row last : StoredSession} (before : standing collation row ≤ standing collation last) :
    (sessionKeyset collation).below ((sessionKeyset collation).of last) row = false := by
  have order := (standing_le collation).mp before
  have floor : last.updatedAt / 1000 * 1000 ≤ last.updatedAt := by omega
  simp only [sessionKeyset, StoredSession.date, Bool.or_eq_false_iff, decide_eq_false_iff_not,
    Bool.and_eq_false_iff, not_lt]
  rcases order with earlier | ⟨same, least⟩
  · exact ⟨by omega, Or.inl (by omega)⟩
  · exact ⟨by omega, Or.inr least⟩

/-- The cursors respect the order of the list. -/
theorem sessions_descend (table : List StoredSession) (accountId : String) :
    (sessionKeyset collation).Descends (orderedSessions collation table accountId) where
  never := by
    intro seen last left split row member
    apply below_own
    have order := ordered_pairwise collation table accountId
    rw [split, List.pairwise_append] at order
    rcases List.mem_append.mp member with before | same
    · exact order.2.2 row before last List.mem_cons_self
    · rw [List.mem_singleton.mp same]
  stays := by
    apply (ordered_pairwise collation table accountId).imp
    intro first second before cursor below
    have order := (standing_le collation).mp before
    simp only [sessionKeyset, Bool.or_eq_true, decide_eq_true_eq, Bool.and_eq_true] at below ⊢
    rcases below with earlier | ⟨same, least⟩
    · left
      omega
    · rcases order with later | ⟨alike, smaller⟩
      · left
        omega
      · right
        exact ⟨by omega, lt_of_le_of_lt smaller least⟩

/-- At the end of each full page, the session that follows was updated before the millisecond of
the last one, or at the very start of it with a smaller identifier. -/
def PagesApart (rows : List StoredSession) (limit : Nat) : Prop :=
  ∀ index last first, (index + 1) % limit = 0 → rows[index]? = some last →
    rows[index + 1]? = some first →
    first.updatedAt < last.updatedAt / 1000 * 1000 ∨
      (first.updatedAt = last.updatedAt / 1000 * 1000 ∧
        collation first.row.id < collation last.row.id)

theorem continues_apart (rows : List StoredSession) (limit : Nat) :
    (sessionKeyset collation).Continues rows limit ↔ PagesApart collation rows limit := by
  simp only [Keyset.Continues, PagesApart, sessionKeyset, StoredSession.date, Bool.or_eq_true,
    decide_eq_true_eq, Bool.and_eq_true]

/-! ## Walks -/

/-- The cursor of a request, as the handler gets it and as it is read. -/
inductive Asks : Option (List Char) → Option (Date × String) → Prop
  | first : Asks none none
  | next (session : StoredSession) :
    Asks (some (encodeSessionCursor session.date session.row.id)) (some (session.date, session.row.id))

/-- The handler answers with a page of the sessions. -/
theorem list_sessions_page {cursor : Option (List Char)} {before : Option (Date × String)}
    (asks : Asks cursor before) (table : List StoredSession) (accountId : String) (limit : PageLimit) :
    listSessions collation table accountId cursor limit =
      let (page, next) := (sessionKeyset collation).page (orderedSessions collation table accountId)
        before limit.value
      some ⟨page.map (fun session => toSessionRow session.row),
        next.map (fun (updatedAt, id) => encodeSessionCursor updatedAt id)⟩ := by
  cases asks with
  | first => rfl
  | next session =>
    have decoded := decode_session_cursor session
    have written : (encodeSessionCursor session.date session.row.id).isEmpty = false := by
      cases text : encodeSessionCursor session.date session.row.id with
      | nil =>
        have refused : decodeSessionCursor [] = none := by decide
        rw [text, refused] at decoded
        contradiction
      | cons char rest => rfl
    simp [listSessions, Option.filter, written, decoded]

/-- A walk over the route is the walk of the keyset. -/
theorem walk_sessions_keyset (table : List StoredSession) (accountId : String) (limit : PageLimit)
    (fuel request : Nat) {cursor : Option (List Char)} {before : Option (Date × String)}
    (asks : Asks cursor before) :
    walkSessions collation table accountId limit fuel cursor =
      ((sessionKeyset collation).walk (fun _ => orderedSessions collation table accountId) limit.value
        fuel request before).map (List.map (fun session => toSessionRow session.row)) := by
  induction fuel generalizing request cursor before with
  | zero => rfl
  | succ fuel inductionHypothesis =>
    simp only [walkSessions, Keyset.walk, list_sessions_page collation asks]
    cases listed : (sessionKeyset collation).page (orderedSessions collation table accountId) before
      limit.value with
    | mk page next =>
      cases next with
      | none => rfl
      | some next =>
        obtain ⟨session, _, rfl⟩ := Keyset.page_cursor listed
        have rest := inductionHypothesis (request + 1) (Asks.next session)
        simp only [sessionKeyset] at rest ⊢
        simp only [Option.map_some, rest, Option.bind_eq_bind, Option.bind_some, Option.map_map]
        cases (Keyset.walk _ _ _ _ _ _ : Option (List StoredSession)) with
        | none => rfl
        | some visited => simp

/-- A walk ends; it returns every session of the account once, in descending order, exactly when
its pages end apart from what follows them. -/
theorem session_walk_exact_iff (table : List StoredSession) (accountId : String) (limit : PageLimit) :
    (orderedSessions collation table accountId).Perm
        (table.filter (fun session => session.row.accountId = accountId)) ∧
      (orderedSessions collation table accountId).Pairwise
        (fun first second => standing collation first ≤ standing collation second) ∧
      ∃ visited, (∀ fuel, (orderedSessions collation table accountId).length < fuel →
          walkSessions collation table accountId limit fuel none = some visited) ∧
        (visited = (orderedSessions collation table accountId).map
            (fun session => toSessionRow session.row) ↔
          PagesApart collation (orderedSessions collation table accountId) limit.value) := by
  refine ⟨sort_perm (standing collation) _, ordered_pairwise collation table accountId, ?_⟩
  obtain ⟨visited, walked, sublist, exactly⟩ := Keyset.walk_fixed limit.positive
    (sessions_descend collation table accountId)
  refine ⟨visited.map (fun session => toSessionRow session.row), ?_, ?_⟩
  · intro fuel enough
    rw [walk_sessions_keyset collation table accountId limit fuel 0 Asks.first, walked fuel enough]
    rfl
  · rw [← continues_apart, ← exactly]
    constructor
    · intro shown
      have lengths := congrArg List.length shown
      simp only [List.length_map] at lengths
      exact sublist.eq_of_length lengths
    · rintro rfl
      rfl

end

/-- A session of the account `a` that was updated at the given microsecond. -/
def sampleSession (id : String) (updatedAt : Int) (within : (updatedAt / 1000).natAbs ≤ 8640000000000000)
    (named : id ≠ "") (plain : '|' ∉ id.toList) : StoredSession where
  row :=
    { id, accountId := "a", workspaceId := none, machineId := none, tag := "t", provider := "claude"
      executionTarget := "local", status := .active, metadata := ⟨"c"⟩, metadataVersion := 1
      agentState := none, agentStateVersion := 0, dek := "d", keyEpoch := 1, msgSeq := 0
      notificationsMuted := false, createdAt := 0, updatedAt := updatedAt / 1000 }
  updatedAt
  read := rfl
  within
  named
  plain

/-- Two sessions that were updated within one millisecond. -/
def crowdedSessions : List StoredSession :=
  [sampleSession "s1" 1000500 (by decide) (by decide) (by decide),
    sampleSession "s2" 1000400 (by decide) (by decide) (by decide)]

/-- The second of two sessions of one millisecond is left out when a page ends between them. -/
theorem session_walk_skips :
    walkSessions (id : String → String) crowdedSessions "a" ⟨1, by decide, by decide⟩ 5 none =
        some ((crowdedSessions.take 1).map (fun session => toSessionRow session.row)) ∧
      crowdedSessions.length = 2 := by
  decide +kernel

end Kvy.Server.App
