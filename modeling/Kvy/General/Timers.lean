import Mathlib.Data.List.Nodup

/-!
# Pending timers

Setting a timer returns a handle that was never returned before. A pending timer fires once,
at any moment after it is set, unless its handle is cleared first. Clearing a handle that is
not pending changes nothing.
-/

namespace Kvy.General

universe u

/-- A timer that is set: its handle and what it runs. -/
structure Timer (κ : Type u) where
  handle : Nat
  callback : κ
deriving DecidableEq

/-- The pending timers. Handles are issued in order and pending ones are distinct. -/
structure Timers (κ : Type u) where
  next : Nat
  pending : List (Timer κ)
  issued : ∀ timer ∈ pending, timer.handle < next
  distinct : (pending.map Timer.handle).Nodup

namespace Timers

variable {κ : Type u}

/-- No timer is set. -/
def idle : Timers κ := ⟨0, [], by simp, List.nodup_nil⟩

/-- `setTimeout`. The handle of the new timer is the next one. -/
def set (timers : Timers κ) (callback : κ) : Timers κ where
  next := timers.next + 1
  pending := timers.pending ++ [⟨timers.next, callback⟩]
  issued := by
    intro timer member
    rcases List.mem_append.mp member with before | added
    · exact Nat.lt_succ_of_lt (timers.issued timer before)
    · obtain rfl := List.mem_singleton.mp added
      exact Nat.lt_succ_self timers.next
  distinct := by
    rw [List.map_append, List.nodup_append]
    refine ⟨timers.distinct, List.nodup_singleton _, ?_⟩
    intro handle held other added
    obtain ⟨timer, member, rfl⟩ := List.mem_map.mp held
    obtain rfl : other = timers.next := by simpa using added
    exact Nat.ne_of_lt (timers.issued timer member)

/-- `clearTimeout`. -/
def clear (timers : Timers κ) (handle : Nat) : Timers κ where
  next := timers.next
  pending := timers.pending.filter (fun timer => timer.handle ≠ handle)
  issued := by
    intro timer member
    exact timers.issued timer (List.mem_of_mem_filter member)
  distinct := timers.distinct.sublist (List.filter_sublist.map Timer.handle)

/-- What the pending timers run. -/
def callbacks (timers : Timers κ) : List κ := timers.pending.map Timer.callback

@[simp] theorem next_set (timers : Timers κ) (callback : κ) :
    (timers.set callback).next = timers.next + 1 := rfl

@[simp] theorem pending_set (timers : Timers κ) (callback : κ) :
    (timers.set callback).pending = timers.pending ++ [⟨timers.next, callback⟩] := rfl

@[simp] theorem callbacks_idle : (idle : Timers κ).callbacks = [] := rfl

@[simp] theorem callbacks_set (timers : Timers κ) (callback : κ) :
    (timers.set callback).callbacks = timers.callbacks ++ [callback] := by
  simp [callbacks]

variable {timer : Timer κ} {timers : Timers κ}

theorem mem_clear {handle : Nat} :
    timer ∈ (timers.clear handle).pending ↔ timer ∈ timers.pending ∧ timer.handle ≠ handle := by
  simp [clear]

/-- Pending timers with one handle are one timer. -/
theorem eq_of_handle {first second : Timer κ}
    (firstPending : first ∈ timers.pending) (secondPending : second ∈ timers.pending)
    (same : first.handle = second.handle) : first = second :=
  List.inj_on_of_nodup_map timers.distinct firstPending secondPending same

/-- Clearing a pending timer removes it and nothing else. -/
theorem pending_clear (pending : timer ∈ timers.pending) :
    timers.pending.Perm (timer :: (timers.clear timer.handle).pending) := by
  have once : timers.pending.Nodup := timers.distinct.of_map
  have clearedOnce : (timers.clear timer.handle).pending.Nodup :=
    (timers.clear timer.handle).distinct.of_map
  have fresh : timer ∉ (timers.clear timer.handle).pending := by
    intro held
    exact (mem_clear.mp held).2 rfl
  apply (List.perm_ext_iff_of_nodup once (List.nodup_cons.mpr ⟨fresh, clearedOnce⟩)).mpr
  intro other
  rw [List.mem_cons, mem_clear]
  constructor
  · intro held
    by_cases same : other.handle = timer.handle
    · exact Or.inl (eq_of_handle held pending same)
    · exact Or.inr ⟨held, same⟩
  · rintro (rfl | ⟨held, _⟩)
    · exact pending
    · exact held

/-- Clearing a handle keeps what is selected from the other callbacks. -/
theorem filterMap_clear {β : Type u} {handle : Nat} (select : κ → Option β)
    (unselected : ∀ timer ∈ timers.pending, timer.handle = handle → select timer.callback = .none) :
    (timers.clear handle).callbacks.filterMap select = timers.callbacks.filterMap select := by
  rw [callbacks, callbacks, List.filterMap_map, List.filterMap_map, clear, List.filterMap_filter]
  apply List.filterMap_congr
  intro timer member
  by_cases same : timer.handle = handle
  · simp [same, unselected timer member same]
  · simp [same]

/-- What a pending timer runs leaves the callbacks with it. -/
theorem callbacks_clear (pending : timer ∈ timers.pending) :
    timers.callbacks.Perm (timer.callback :: (timers.clear timer.handle).callbacks) :=
  (pending_clear pending).map Timer.callback

/-- Clearing several handles. -/
def clearAll (timers : Timers κ) (handles : List Nat) : Timers κ := handles.foldl clear timers

@[simp] theorem next_clearAll (timers : Timers κ) (handles : List Nat) :
    (timers.clearAll handles).next = timers.next := by
  induction handles generalizing timers with
  | nil => rfl
  | cons handle handles inductionHypothesis => exact inductionHypothesis (timers.clear handle)

theorem mem_clearAll {handles : List Nat} :
    timer ∈ (timers.clearAll handles).pending ↔ timer ∈ timers.pending ∧ timer.handle ∉ handles := by
  induction handles generalizing timers with
  | nil => simp [clearAll]
  | cons handle handles inductionHypothesis =>
    rw [clearAll, List.foldl_cons, ← clearAll, inductionHypothesis, mem_clear, List.mem_cons,
      not_or, and_assoc]

/-- What is pending after clearing was pending before, in the same order. -/
theorem sublist_clearAll (timers : Timers κ) (handles : List Nat) :
    (timers.clearAll handles).pending.Sublist timers.pending := by
  induction handles generalizing timers with
  | nil => exact List.Sublist.refl _
  | cons handle handles inductionHypothesis =>
    exact (inductionHypothesis (timers.clear handle)).trans List.filter_sublist

end Timers

end Kvy.General
