import Kvy.General.OrderedMap
import Mathlib.Algebra.Order.Ring.Int
import Mathlib.Data.List.Pairwise
import Mathlib.Data.List.Count
import Mathlib.Data.List.Induction

/-!
# The sliding window of the RPC socket

Each key keeps the times of its allowed calls that are still inside the window. A new key that
finds the map full pushes out the key inserted first together with its times, also when these
are inside the window: a key that is pushed out starts afresh.
-/

namespace Kvy.Server.App.Socket

open General

/-- `RpcRateLimiterOptions`, without the clock: every call brings its time. -/
structure RpcRateLimiterOptions where
  max : Nat
  windowMs : Nat
  maxKeys : Option Nat
  max_positive : 0 < max
  window_positive : 0 < windowMs
  keys_positive : ∀ keys ∈ maxKeys, 0 < keys

/-- `DEFAULT_MAX_KEYS`. -/
def defaultMaxKeys : Nat := 10000

/-- The fields of an `RpcRateLimiter`. -/
structure RpcRateLimiter where
  hits : OrderedMap String (List Int)
  max : Nat
  windowMs : Nat
  maxKeys : Nat

/-- The constructor. -/
def RpcRateLimiter.new (opts : RpcRateLimiterOptions) : RpcRateLimiter where
  hits := .empty
  max := opts.max
  windowMs := opts.windowMs
  maxKeys := opts.maxKeys.getD defaultMaxKeys

/-- The times kept under a key that are inside the window. -/
def RpcRateLimiter.recent (limiter : RpcRateLimiter) (now : Int) (key : String) : List Int :=
  let windowStart := now - limiter.windowMs
  match limiter.hits.get? key with
  | some existing => existing.filter (fun t => windowStart < t)
  | none => []

/-- `tryConsume` at the time `now`. -/
def RpcRateLimiter.tryConsume (limiter : RpcRateLimiter) (now : Int) (key : String) :
    Bool × RpcRateLimiter :=
  let existing := limiter.hits.get? key
  let recent := limiter.recent now key
  if limiter.max ≤ recent.length then (false, { limiter with hits := limiter.hits.set key recent })
  else
    let recent := recent ++ [now]
    let hits :=
      if existing.isNone && limiter.maxKeys ≤ limiter.hits.keys.length then
        match limiter.hits.keys.head? with
        | some oldestKey => limiter.hits.delete oldestKey
        | none => limiter.hits
      else limiter.hits
    (true, { limiter with hits := hits.set key recent })

/-- What one call did: its time and key, its result, and the keys whose times were dropped. -/
structure Event where
  now : Int
  key : String
  allowed : Bool
  evicted : List String

/-- A limiter together with the calls made so far, the latest one last. -/
structure Watched where
  limiter : RpcRateLimiter
  history : List Event

/-- What the next call does. -/
def Watched.event (watched : Watched) (now : Int) (key : String) : Event where
  now := now
  key := key
  allowed := (watched.limiter.tryConsume now key).1
  evicted := watched.limiter.hits.keys.filter fun held =>
    !(watched.limiter.tryConsume now key).2.hits.has held

/-- One more call. -/
def Watched.call (watched : Watched) (now : Int) (key : String) : Watched where
  limiter := (watched.limiter.tryConsume now key).2
  history := watched.history ++ [watched.event now key]

/-- Calls in the order they are made; the clock never goes back. -/
structure Attempts where
  calls : List (Int × String)
  ordered : calls.Pairwise (fun earlier later => earlier.1 ≤ later.1)

/-- Some calls on a new limiter. -/
def watch (opts : RpcRateLimiterOptions) (calls : List (Int × String)) : Watched :=
  calls.foldl (fun watched call => watched.call call.1 call.2) ⟨.new opts, []⟩

/-- A half-open interval: from its start on, or after its start up to its end. -/
inductive Window where
  | fromStart (start : Int)
  | afterStart (start : Int)

/-- Whether a time is in an interval of the given length. -/
def Window.has (length : Nat) : Window → Int → Bool
  | .fromStart start, t => start ≤ t && t < start + length
  | .afterStart start, t => start < t && t ≤ start + length

/-- How many calls of a key were allowed in an interval. -/
def allowedIn (history : List Event) (key : String) (length : Nat) (window : Window) : Nat :=
  history.countP fun event => event.key = key && event.allowed && window.has length event.now

/-- How often the times of a key were dropped in an interval. -/
def evictionsIn (history : List Event) (key : String) (length : Nat) (window : Window) : Nat :=
  history.countP fun event => event.evicted.contains key && window.has length event.now

/-- Everything a call can do: refuse, allow with room in the map, or allow after pushing out the
key inserted first. -/
theorem RpcRateLimiter.consume_cases (limiter : RpcRateLimiter) (room : 0 < limiter.maxKeys)
    (now : Int) (key : String) :
    (limiter.max ≤ (limiter.recent now key).length ∧
      limiter.tryConsume now key =
        (false, { limiter with hits := limiter.hits.set key (limiter.recent now key) })) ∨
    ((limiter.recent now key).length < limiter.max ∧
      (limiter.hits.has key = true ∨ limiter.hits.keys.length < limiter.maxKeys) ∧
      limiter.tryConsume now key =
        (true, { limiter with hits := limiter.hits.set key (limiter.recent now key ++ [now]) })) ∨
    ((limiter.recent now key).length < limiter.max ∧ limiter.hits.has key = false ∧
      limiter.maxKeys ≤ limiter.hits.keys.length ∧ ∃ oldest rest, limiter.hits.keys = oldest :: rest ∧
        limiter.tryConsume now key =
          (true, { limiter with
            hits := (limiter.hits.delete oldest).set key (limiter.recent now key ++ [now]) })) := by
  by_cases full : limiter.max ≤ (limiter.recent now key).length
  · exact .inl ⟨full, by simp [tryConsume, full]⟩
  · have few : (limiter.recent now key).length < limiter.max := by omega
    right
    cases held : limiter.hits.has key with
    | true =>
      have existing : (limiter.hits.get? key).isNone = false := by
        rw [OrderedMap.has] at held
        simp [Option.isNone_eq_false_iff, held]
      exact .inl ⟨few, .inl rfl, by simp [tryConsume, full, existing]⟩
    | false =>
      have missing : (limiter.hits.get? key).isNone = true := by
        rw [OrderedMap.has] at held
        simpa using held
      by_cases crowded : limiter.maxKeys ≤ limiter.hits.keys.length
      · refine .inr ⟨few, rfl, crowded, ?_⟩
        cases keys : limiter.hits.keys with
        | nil =>
          rw [keys] at crowded
          simp only [List.length_nil] at crowded
          omega
        | cons oldest rest =>
          refine ⟨oldest, rest, rfl, ?_⟩
          rw [keys] at crowded
          have crowdedRest : limiter.maxKeys ≤ rest.length + 1 := crowded
          simp [tryConsume, full, missing, crowdedRest, keys]
      · exact .inl ⟨few, .inr (by omega), by simp [tryConsume, full, crowded]⟩

/-- The times of a key that was just set are read off what was put there. -/
theorem recent_of_get {limiter : RpcRateLimiter} {key : String} {times : List Int}
    (held : limiter.hits.get? key = some times) (later : Int) :
    limiter.recent later key = times.filter (fun t => later - limiter.windowMs < t) := by
  simp [RpcRateLimiter.recent, held]

/-- A key that is not held has no times. -/
theorem recent_of_missing {limiter : RpcRateLimiter} {key : String}
    (missing : limiter.hits.get? key = none) (later : Int) : limiter.recent later key = [] := by
  simp [RpcRateLimiter.recent, missing]

/-- Times that have left the window stay outside it. -/
theorem recent_recent (limiter : RpcRateLimiter) {now later : Int} (ordered : now ≤ later)
    (key : String) :
    (limiter.recent now key).filter (fun t => later - limiter.windowMs < t) =
      limiter.recent later key := by
  cases held : limiter.hits.get? key with
  | none => rw [recent_of_missing held, recent_of_missing held, List.filter_nil]
  | some times =>
    rw [recent_of_get held, recent_of_get held, List.filter_filter]
    refine List.filter_congr fun t _ => ?_
    by_cases inside : later - limiter.windowMs < t
    · have earlier : now - limiter.windowMs < t := by omega
      simp [inside, earlier]
    · simp [inside]

/-- What a call does to one key: nothing that shows, one more time, or all its times dropped. -/
inductive Effect (watched : Watched) (now : Int) (call key : String) : Prop where
  | unchanged (silent : ¬ (call = key ∧ (watched.event now call).allowed = true))
    (kept : key ∉ (watched.event now call).evicted)
    (same : ∀ later, now ≤ later →
      (watched.call now call).limiter.recent later key = watched.limiter.recent later key)
  | allowed (own : call = key) (passed : (watched.event now call).allowed = true)
    (kept : key ∉ (watched.event now call).evicted)
    (few : (watched.limiter.recent now key).length < watched.limiter.max)
    (added : ∀ later, (watched.call now call).limiter.recent later key =
      (watched.limiter.recent now key ++ [now]).filter
        (fun t => later - watched.limiter.windowMs < t))
  | evicted (silent : ¬ (call = key ∧ (watched.event now call).allowed = true))
    (dropped : key ∈ (watched.event now call).evicted)
    (empty : ∀ later, (watched.call now call).limiter.recent later key = [])

/-- Limits are fixed. -/
theorem call_limits (watched : Watched) (room : 0 < watched.limiter.maxKeys) (now : Int)
    (call : String) :
    (watched.call now call).limiter.max = watched.limiter.max ∧
      (watched.call now call).limiter.windowMs = watched.limiter.windowMs ∧
      (watched.call now call).limiter.maxKeys = watched.limiter.maxKeys := by
  obtain ⟨-, result⟩ | ⟨-, -, result⟩ | ⟨-, -, -, oldest, rest, -, result⟩ :=
    watched.limiter.consume_cases room now call
  all_goals simp [Watched.call, result]

/-- A key that is still held was not dropped. -/
theorem not_evicted {watched : Watched} {now : Int} {call key : String}
    (held : (watched.call now call).limiter.hits.has key = true) :
    key ∉ (watched.event now call).evicted := by
  intro dropped
  have gone := (List.mem_filter.mp dropped).2
  rw [Watched.call] at held
  simp [held] at gone

/-- A key whose entry did not change was not dropped, and its times are the same. -/
theorem effect_of_same_entry {watched : Watched} (room : 0 < watched.limiter.maxKeys) {now : Int}
    {call key : String} (other : call ≠ key)
    (same : (watched.call now call).limiter.hits.get? key = watched.limiter.hits.get? key) :
    Effect watched now call key := by
  refine .unchanged (fun own => other own.1) ?_ ?_
  · intro dropped
    obtain ⟨member, gone⟩ := List.mem_filter.mp dropped
    obtain ⟨times, held⟩ := (OrderedMap.mem_keys _ _).mp member
    rw [held] at same
    have still : (watched.call now call).limiter.hits.has key = true := by simp [OrderedMap.has, same]
    exact not_evicted still dropped
  · intro later _
    have limits := call_limits watched room now call
    simp [RpcRateLimiter.recent, same, limits.2.1]

/-- The key of a call is held after it. -/
theorem effect_on_own (watched : Watched) (room : 0 < watched.limiter.maxKeys) (now : Int)
    (key : String) : Effect watched now key key := by
  obtain ⟨full, result⟩ | ⟨few, -, result⟩ | ⟨few, -, -, oldest, rest, -, result⟩ :=
    watched.limiter.consume_cases room now key
  · have refused : (watched.event now key).allowed = false := by simp [Watched.event, result]
    refine .unchanged (by simp [refused]) (not_evicted ?_) ?_
    · simp [Watched.call, result, OrderedMap.has]
    · intro later ordered
      have held : (watched.call now key).limiter.hits.get? key =
          some (watched.limiter.recent now key) := by simp [Watched.call, result]
      rw [recent_of_get held, (call_limits watched room now key).2.1]
      exact recent_recent watched.limiter ordered key
  all_goals
    have held : (watched.call now key).limiter.hits.get? key =
        some (watched.limiter.recent now key ++ [now]) := by simp [Watched.call, result]
    refine .allowed rfl (by simp [Watched.event, result]) (not_evicted ?_) few ?_
    · simp [OrderedMap.has, held]
    · intro later
      rw [recent_of_get held, (call_limits watched room now key).2.1]

/-- Every call has one of the effects on every key. -/
theorem call_effect (watched : Watched) (room : 0 < watched.limiter.maxKeys) (now : Int)
    (call key : String) : Effect watched now call key := by
  by_cases own : call = key
  · subst own
    exact effect_on_own watched room now call
  · have other : key ≠ call := Ne.symm own
    obtain ⟨-, result⟩ | ⟨-, -, result⟩ | ⟨-, -, -, oldest, rest, keys, result⟩ :=
      watched.limiter.consume_cases room now call
    · exact effect_of_same_entry room own (by simp [Watched.call, result, other])
    · exact effect_of_same_entry room own (by simp [Watched.call, result, other])
    · by_cases chosen : key = oldest
      · subst chosen
        have gone : (watched.call now call).limiter.hits.get? key = none := by
          simp [Watched.call, result, other]
        have member : key ∈ watched.limiter.hits.keys := by simp [keys]
        refine .evicted (fun both => own both.1) ?_ (fun later => recent_of_missing gone later)
        refine List.mem_filter.mpr ⟨member, ?_⟩
        rw [Watched.call] at gone
        simp [OrderedMap.has, gone]
      · exact effect_of_same_entry room own (by simp [Watched.call, result, other, chosen])

/-- The calls made so far are not after a time. -/
def Watched.Past (watched : Watched) (now : Int) : Prop :=
  ∀ event ∈ watched.history, event.now ≤ now

/-- What holds of a key in every state. `since` are the times of its calls that were allowed since
its times were last dropped. -/
structure Sound (opts : RpcRateLimiterOptions) (key : String) (watched : Watched)
    (since : List Int) : Prop where
  limits : watched.limiter.max = opts.max ∧ watched.limiter.windowMs = opts.windowMs ∧
    0 < watched.limiter.maxKeys
  kept : ∀ now, watched.Past now →
    watched.limiter.recent now key = since.filter (fun t => now - opts.windowMs < t)
  past : ∀ now, watched.Past now → ∀ t ∈ since, t ≤ now
  bounded : ∀ window : Window, since.countP (window.has opts.windowMs) ≤ opts.max
  listed : ∀ window, since.countP (window.has opts.windowMs) ≤
    allowedIn watched.history key opts.windowMs window
  counted : ∀ window,
    allowedIn watched.history key opts.windowMs window ≤
      opts.max * evictionsIn watched.history key opts.windowMs window +
        since.countP (window.has opts.windowMs) ∨
    allowedIn watched.history key opts.windowMs window ≤
      opts.max * (evictionsIn watched.history key opts.windowMs window + 1) ∧
    ∀ now, watched.Past now → window.has opts.windowMs now = false

/-- A call is part of the past after it. -/
theorem past_of_call {watched : Watched} {now later : Int} {call : String}
    (past : (watched.call now call).Past later) : watched.Past later ∧ now ≤ later := by
  refine ⟨fun event member => past event (List.mem_append_left _ member), ?_⟩
  exact past (watched.event now call) (List.mem_append_right _ List.mem_cons_self)

/-- The allowed calls after one more call. -/
theorem allowed_in_call (watched : Watched) (now : Int) (call key : String) (length : Nat)
    (window : Window) :
    allowedIn (watched.call now call).history key length window =
      allowedIn watched.history key length window +
        if call = key ∧ (watched.event now call).allowed = true ∧ window.has length now = true
        then 1 else 0 := by
  simp only [allowedIn, Watched.call, List.countP_append, List.countP_singleton, Bool.and_eq_true,
    decide_eq_true_eq, and_assoc]
  congr

/-- The evictions after one more call. -/
theorem evictions_in_call (watched : Watched) (now : Int) (call key : String) (length : Nat)
    (window : Window) :
    evictionsIn (watched.call now call).history key length window =
      evictionsIn watched.history key length window +
        if key ∈ (watched.event now call).evicted ∧ window.has length now = true then 1 else 0 := by
  simp [evictionsIn, Watched.call, List.countP_append, List.countP_singleton, Watched.event]

/-- Two times of one interval are less than its length apart. -/
theorem close_together {length : Nat} {window : Window} {t now : Int}
    (first : window.has length t = true) (second : window.has length now = true) :
    now - length < t := by
  cases window with
  | fromStart start =>
    simp only [Window.has, Bool.and_eq_true, decide_eq_true_eq] at first second
    omega
  | afterStart start =>
    simp only [Window.has, Bool.and_eq_true, decide_eq_true_eq] at first second
    omega

/-- A time after another that is not in the interval: either no earlier time or no later time is
in it. -/
theorem before_or_after {length : Nat} {window : Window} {now : Int}
    (outside : window.has length now = false) :
    (∀ t ≤ now, window.has length t = false) ∨ (∀ t, now ≤ t → window.has length t = false) := by
  cases window with
  | fromStart start =>
    simp only [Window.has, Bool.and_eq_false_iff, decide_eq_false_iff_not] at outside ⊢
    by_cases early : now < start
    · exact .inl fun t ordered => .inl (by omega)
    · exact .inr fun t ordered => .inr (by omega)
  | afterStart start =>
    simp only [Window.has, Bool.and_eq_false_iff, decide_eq_false_iff_not] at outside ⊢
    by_cases early : now ≤ start
    · exact .inl fun t ordered => .inl (by omega)
    · exact .inr fun t ordered => .inr (by omega)

/-- A call that shows nothing of a key. -/
theorem Sound.unchanged {opts : RpcRateLimiterOptions} {key : String} {watched : Watched}
    {since : List Int} (sound : Sound opts key watched since) {now : Int} {call : String}
    (silent : ¬ (call = key ∧ (watched.event now call).allowed = true))
    (kept : key ∉ (watched.event now call).evicted)
    (same : ∀ later, now ≤ later →
      (watched.call now call).limiter.recent later key = watched.limiter.recent later key) :
    Sound opts key (watched.call now call) since := by
  have room := sound.limits.2.2
  have limits := call_limits watched room now call
  have none_more : ∀ window, allowedIn (watched.call now call).history key opts.windowMs window =
      allowedIn watched.history key opts.windowMs window := by
    intro window
    rw [allowed_in_call, if_neg (fun both => silent ⟨both.1, both.2.1⟩), Nat.add_zero]
  have none_dropped : ∀ window,
      evictionsIn (watched.call now call).history key opts.windowMs window =
        evictionsIn watched.history key opts.windowMs window := by
    intro window
    rw [evictions_in_call, if_neg (fun both => kept both.1), Nat.add_zero]
  refine ⟨?_, ?_, ?_, sound.bounded, ?_, ?_⟩
  · rw [limits.1, limits.2.1, limits.2.2]
    exact sound.limits
  · intro later past
    obtain ⟨before, ordered⟩ := past_of_call past
    rw [same later ordered, sound.kept later before]
  · exact fun later past => sound.past later (past_of_call past).1
  · intro window
    rw [none_more]
    exact sound.listed window
  · intro window
    rw [none_more, none_dropped]
    exact (sound.counted window).imp id fun both =>
      ⟨both.1, fun later past => both.2 later (past_of_call past).1⟩

/-- An allowed call adds its time. -/
theorem Sound.allowed {opts : RpcRateLimiterOptions} {key : String} {watched : Watched}
    {since : List Int} (sound : Sound opts key watched since) {now : Int}
    (current : watched.Past now) (passed : (watched.event now key).allowed = true)
    (kept : key ∉ (watched.event now key).evicted)
    (few : (watched.limiter.recent now key).length < watched.limiter.max)
    (added : ∀ later, (watched.call now key).limiter.recent later key =
      (watched.limiter.recent now key ++ [now]).filter
        (fun t => later - watched.limiter.windowMs < t)) :
    Sound opts key (watched.call now key) (since ++ [now]) := by
  have room := sound.limits.2.2
  have limits := call_limits watched room now key
  have one_more : ∀ window, allowedIn (watched.call now key).history key opts.windowMs window =
      allowedIn watched.history key opts.windowMs window +
        if window.has opts.windowMs now = true then 1 else 0 := by
    intro window
    rw [allowed_in_call]
    simp [passed]
  have none_dropped : ∀ window,
      evictionsIn (watched.call now key).history key opts.windowMs window =
        evictionsIn watched.history key opts.windowMs window := by
    intro window
    rw [evictions_in_call, if_neg (fun both => kept both.1), Nat.add_zero]
  have longer : ∀ window : Window, (since ++ [now]).countP (window.has opts.windowMs) =
      since.countP (window.has opts.windowMs) +
        if window.has opts.windowMs now = true then 1 else 0 := by
    intro window
    rw [List.countP_append, List.countP_singleton]
  refine ⟨?_, ?_, ?_, ?_, ?_, ?_⟩
  · rw [limits.1, limits.2.1, limits.2.2]
    exact sound.limits
  · intro later past
    obtain ⟨-, ordered⟩ := past_of_call past
    rw [added, sound.kept now current, sound.limits.2.1, List.filter_append, List.filter_append,
      List.filter_filter]
    refine congrArg (· ++ _) (List.filter_congr fun t _ => ?_)
    by_cases inside : later - opts.windowMs < t
    · have earlier : now - opts.windowMs < t := by omega
      simp [inside, earlier]
    · simp [inside]
  · intro later past t member
    obtain ⟨before, ordered⟩ := past_of_call past
    rcases List.mem_append.mp member with old | new
    · exact sound.past later before t old
    · have same : t = now := List.mem_singleton.mp new
      omega
  · intro window
    rw [longer]
    split
    · rename_i inside
      -- the times that share an interval with this call are among the recent ones
      have recent : since.countP (window.has opts.windowMs) ≤
          (watched.limiter.recent now key).length := by
        rw [sound.kept now current, ← List.countP_eq_length_filter]
        refine List.countP_mono_left fun t _ also => ?_
        exact decide_eq_true (close_together also inside)
      rw [sound.limits.1] at few
      omega
    · exact sound.bounded window
  · intro window
    rw [longer, one_more]
    have listed := sound.listed window
    omega
  · intro window
    rw [longer, one_more, none_dropped]
    rcases sound.counted window with counted | ⟨counted, finished⟩
    · exact .inl (by omega)
    · rw [if_neg (by simp [finished now current])]
      exact .inr ⟨counted, fun later past => finished later (past_of_call past).1⟩

/-- A key that is pushed out starts afresh. -/
theorem Sound.evicted {opts : RpcRateLimiterOptions} {key : String} {watched : Watched}
    {since : List Int} (sound : Sound opts key watched since) {now : Int} {call : String}
    (current : watched.Past now)
    (silent : ¬ (call = key ∧ (watched.event now call).allowed = true))
    (dropped : key ∈ (watched.event now call).evicted)
    (empty : ∀ later, (watched.call now call).limiter.recent later key = []) :
    Sound opts key (watched.call now call) [] := by
  have room := sound.limits.2.2
  have limits := call_limits watched room now call
  have none_more : ∀ window, allowedIn (watched.call now call).history key opts.windowMs window =
      allowedIn watched.history key opts.windowMs window := by
    intro window
    rw [allowed_in_call, if_neg (fun both => silent ⟨both.1, both.2.1⟩), Nat.add_zero]
  refine ⟨?_, ?_, ?_, ?_, ?_, ?_⟩
  · rw [limits.1, limits.2.1, limits.2.2]
    exact sound.limits
  · exact fun later _ => empty later
  · exact fun later past t member => absurd member List.not_mem_nil
  · exact fun window => Nat.zero_le _
  · exact fun window => Nat.zero_le _
  · intro window
    have bounded := sound.bounded window
    rw [none_more, evictions_in_call, List.countP_nil, Nat.add_zero]
    rcases sound.counted window with counted | ⟨counted, finished⟩
    · cases inside : window.has opts.windowMs now with
      | true =>
        left
        rw [if_pos ⟨dropped, rfl⟩, Nat.mul_add, Nat.mul_one]
        omega
      | false =>
        rw [if_neg (fun both => absurd both.2 Bool.false_ne_true), Nat.add_zero]
        rcases before_or_after inside with earlier | later
        · have nothing : since.countP (window.has opts.windowMs) = 0 := by
            rw [List.countP_eq_zero]
            intro t member
            simp [earlier t (sound.past now current t member)]
          exact .inl (by omega)
        · refine .inr ⟨?_, fun after past => later after (past_of_call past).2⟩
          rw [Nat.mul_add, Nat.mul_one]
          omega
    · right
      rw [if_neg (by simp [finished now current])]
      exact ⟨counted, fun later past => finished later (past_of_call past).1⟩

/-- Every call keeps what holds of a key. -/
theorem Sound.call {opts : RpcRateLimiterOptions} {key : String} {watched : Watched}
    {since : List Int} (sound : Sound opts key watched since) {now : Int}
    (current : watched.Past now) (call : String) :
    ∃ since, Sound opts key (watched.call now call) since := by
  cases call_effect watched sound.limits.2.2 now call key with
  | unchanged silent kept same => exact ⟨since, sound.unchanged silent kept same⟩
  | allowed own passed kept few added =>
    subst own
    exact ⟨since ++ [now], sound.allowed current passed kept few added⟩
  | evicted silent dropped empty => exact ⟨[], sound.evicted current silent dropped empty⟩

/-- The bound on the tracked keys. -/
def RpcRateLimiterOptions.keyLimit (opts : RpcRateLimiterOptions) : Nat :=
  opts.maxKeys.getD defaultMaxKeys

theorem RpcRateLimiterOptions.key_limit_positive (opts : RpcRateLimiterOptions) :
    0 < opts.keyLimit := by
  unfold keyLimit
  cases chosen : opts.maxKeys with
  | none => decide
  | some keys => exact opts.keys_positive keys (by simp [chosen])

/-- A new limiter has allowed nothing. -/
theorem sound_new (opts : RpcRateLimiterOptions) (key : String) :
    Sound opts key ⟨.new opts, []⟩ [] where
  limits := ⟨rfl, rfl, opts.key_limit_positive⟩
  kept _ _ := recent_of_missing (OrderedMap.get_empty key) _
  past _ _ t member := absurd member List.not_mem_nil
  bounded _ := Nat.zero_le _
  listed _ := Nat.zero_le _
  counted _ := .inl (Nat.zero_le _)

/-- The calls of a run, the last one apart. -/
theorem watch_append (opts : RpcRateLimiterOptions) (calls : List (Int × String))
    (last : Int × String) :
    watch opts (calls ++ [last]) = (watch opts calls).call last.1 last.2 := by
  rw [watch, List.foldl_append]
  rfl

/-- The history lists the times of the calls. -/
theorem times_of_watch (opts : RpcRateLimiterOptions) (calls : List (Int × String)) :
    (watch opts calls).history.map Event.now = calls.map Prod.fst := by
  induction calls using List.reverseRecOn with
  | nil => rfl
  | append_singleton calls last inductionHypothesis =>
    rw [watch_append, Watched.call, List.map_append, inductionHypothesis, List.map_append]
    rfl

/-- A call that no call of the run is later than. -/
theorem past_of_watch {opts : RpcRateLimiterOptions} {calls : List (Int × String)} {now : Int}
    (latest : ∀ call ∈ calls, call.1 ≤ now) : (watch opts calls).Past now := by
  intro event member
  have listed : event.now ∈ calls.map Prod.fst := by
    rw [← times_of_watch opts calls]
    exact List.mem_map_of_mem member
  obtain ⟨call, called, same⟩ := List.mem_map.mp listed
  exact same ▸ latest call called

/-- What holds of a key holds after every run. -/
theorem watch_sound (opts : RpcRateLimiterOptions) (key : String) (calls : List (Int × String))
    (ordered : calls.Pairwise (fun earlier later => earlier.1 ≤ later.1)) :
    ∃ since, Sound opts key (watch opts calls) since := by
  induction calls using List.reverseRecOn with
  | nil => exact ⟨[], sound_new opts key⟩
  | append_singleton calls last inductionHypothesis =>
    obtain ⟨before, -, after⟩ := List.pairwise_append.mp ordered
    obtain ⟨since, sound⟩ := inductionHypothesis before
    rw [watch_append]
    exact sound.call (past_of_watch fun call member => after call member last List.mem_cons_self) last.2

/-- Setting a key that is held adds none. -/
theorem keys_set_held {map : OrderedMap String (List Int)} {key : String} (held : map.has key = true)
    (times : List Int) : (map.set key times).keys = map.keys := by
  have member : key ∈ map.keys := (OrderedMap.mem_keys map key).mpr (Option.isSome_iff_exists.mp held)
  exact (keys_set_entry key times map.entries).trans (if_pos member)

/-- Setting a key adds one at most. -/
theorem keys_set_length (map : OrderedMap String (List Int)) (key : String) (times : List Int) :
    (map.set key times).keys.length ≤ map.keys.length + 1 := by
  have keys : (map.set key times).keys = if key ∈ map.keys then map.keys else map.keys ++ [key] :=
    keys_set_entry key times map.entries
  rw [keys]
  split <;> simp

/-- Pushing out the key inserted first removes one. -/
theorem keys_delete_oldest {map : OrderedMap String (List Int)} {oldest : String}
    {rest : List String} (keys : map.keys = oldest :: rest) :
    (map.delete oldest).keys.length + 1 ≤ map.keys.length := by
  have fewer : (map.delete oldest).keys = map.keys.filter (fun held => held ≠ oldest) := by
    simp only [OrderedMap.keys, OrderedMap.delete, OrderedMap.filter, List.filter_map]
    rfl
  have shorter : (rest.filter (fun held => held ≠ oldest)).length ≤ rest.length :=
    List.length_filter_le _ _
  rw [fewer, keys, List.filter_cons]
  simp only [ne_eq, not_true_eq_false, decide_false, Bool.false_eq_true, ↓reduceIte, List.length_cons]
  simp only [ne_eq] at shorter
  omega

/-- The tracked keys are within the bound, and the limits are those of the options. -/
structure Bounded (opts : RpcRateLimiterOptions) (limiter : RpcRateLimiter) : Prop where
  max : limiter.max = opts.max
  maxKeys : limiter.maxKeys = opts.keyLimit
  tracked : limiter.hits.keys.length ≤ opts.keyLimit

/-- A refused call is of a key that is tracked. -/
theorem Bounded.refused_held {opts : RpcRateLimiterOptions} {limiter : RpcRateLimiter}
    (bounded : Bounded opts limiter) {now : Int} {key : String}
    (full : limiter.max ≤ (limiter.recent now key).length) : limiter.hits.has key = true := by
  have positive := opts.max_positive
  cases held : limiter.hits.get? key with
  | some times => simp [OrderedMap.has, held]
  | none =>
    rw [recent_of_missing held, bounded.max, List.length_nil] at full
    omega

/-- Every call keeps the bound. -/
theorem Bounded.consume {opts : RpcRateLimiterOptions} {limiter : RpcRateLimiter}
    (bounded : Bounded opts limiter) (now : Int) (key : String) :
    Bounded opts (limiter.tryConsume now key).2 := by
  have room : 0 < limiter.maxKeys := bounded.maxKeys ▸ opts.key_limit_positive
  have tracked := bounded.tracked
  obtain ⟨full, result⟩ | ⟨-, few, result⟩ | ⟨-, -, -, oldest, rest, keys, result⟩ :=
    limiter.consume_cases room now key
  all_goals
    rw [result]
    refine ⟨bounded.max, bounded.maxKeys, ?_⟩
    simp only
  · rw [keys_set_held (bounded.refused_held full)]
    exact tracked
  · rcases few with held | few
    · rw [keys_set_held held]
      exact tracked
    · have longer := keys_set_length limiter.hits key (limiter.recent now key ++ [now])
      rw [bounded.maxKeys] at few
      omega
  · have longer := keys_set_length (limiter.hits.delete oldest) key (limiter.recent now key ++ [now])
    have shorter := keys_delete_oldest keys
    omega

/-- Every run keeps the bound. -/
theorem watch_bounded (opts : RpcRateLimiterOptions) (calls : List (Int × String)) :
    Bounded opts (watch opts calls).limiter := by
  induction calls using List.reverseRecOn with
  | nil => exact ⟨rfl, rfl, Nat.zero_le _⟩
  | append_singleton calls last inductionHypothesis =>
    rw [watch_append]
    exact inductionHypothesis.consume last.1 last.2

/-- Times are dropped only for a key that is not tracked, when the map is full. -/
theorem evicted_when_full {opts : RpcRateLimiterOptions} {watched : Watched}
    (bounded : Bounded opts watched.limiter) {now : Int} {call key : String}
    (dropped : key ∈ (watched.event now call).evicted) :
    watched.limiter.hits.has call = false ∧ watched.limiter.hits.keys.length = opts.keyLimit := by
  have room : 0 < watched.limiter.maxKeys := bounded.maxKeys ▸ opts.key_limit_positive
  obtain ⟨member, gone⟩ := List.mem_filter.mp dropped
  have held : watched.limiter.hits.has key = true :=
    Option.isSome_iff_exists.mpr ((OrderedMap.mem_keys _ _).mp member)
  obtain ⟨-, result⟩ | ⟨-, -, result⟩ | ⟨-, untracked, full, -⟩ :=
    watched.limiter.consume_cases room now call
  · simp [result, OrderedMap.has_set, held] at gone
  · simp [result, OrderedMap.has_set, held] at gone
  · have tracked := bounded.tracked
    rw [bounded.maxKeys] at full
    exact ⟨untracked, by omega⟩

/-- A call is allowed where few calls of its key were allowed in the window before it. -/
theorem Sound.consume {opts : RpcRateLimiterOptions} {key : String} {watched : Watched}
    {since : List Int} (sound : Sound opts key watched since) {now : Int}
    (current : watched.Past now)
    (few : allowedIn watched.history key opts.windowMs (.afterStart (now - opts.windowMs)) <
      opts.max) :
    (watched.limiter.tryConsume now key).1 = true := by
  have listed := sound.listed (.afterStart (now - opts.windowMs))
  have recent : (watched.limiter.recent now key).length ≤
      since.countP (Window.has opts.windowMs (.afterStart (now - opts.windowMs))) := by
    rw [sound.kept now current, ← List.countP_eq_length_filter]
    refine List.countP_mono_left fun t member inside => ?_
    have earlier := sound.past now current t member
    have inside := of_decide_eq_true inside
    simp only [Window.has, Bool.and_eq_true, decide_eq_true_eq]
    omega
  obtain ⟨full, -⟩ | ⟨-, -, result⟩ | ⟨-, -, -, oldest, rest, -, result⟩ :=
    watched.limiter.consume_cases sound.limits.2.2 now key
  · rw [sound.limits.1] at full
    omega
  · rw [result]
  · rw [result]

/-- The window of the limiter. In every half-open interval of the window's length a key gets at most
`max` calls, and as many again for each time it was pushed out of the map in that interval. The
tracked keys are within the bound. A call is allowed when fewer than `max` calls of its key
were allowed in the window before it. A key is pushed out only for one that is not tracked, of a
map that is full. -/
theorem rate_limit_windows (opts : RpcRateLimiterOptions) (attempts : Attempts) :
    let watched := watch opts attempts.calls
    (∀ key window,
      allowedIn watched.history key opts.windowMs window ≤
        opts.max * (evictionsIn watched.history key opts.windowMs window + 1)) ∧
    watched.limiter.hits.keys.length ≤ opts.keyLimit ∧
    (∀ now key, watched.Past now →
      allowedIn watched.history key opts.windowMs (.afterStart (now - opts.windowMs)) < opts.max →
      (watched.limiter.tryConsume now key).1 = true) ∧
    ∀ now call key, key ∈ (watched.event now call).evicted →
      watched.limiter.hits.has call = false ∧
        watched.limiter.hits.keys.length = opts.keyLimit := by
  have bounded := watch_bounded opts attempts.calls
  refine ⟨fun key window => ?_, bounded.tracked, fun now key current few => ?_,
    fun now call key dropped => evicted_when_full bounded dropped⟩
  · obtain ⟨since, sound⟩ := watch_sound opts key attempts.calls attempts.ordered
    have held := sound.bounded window
    rcases sound.counted window with counted | ⟨counted, -⟩
    · rw [Nat.mul_add, Nat.mul_one]
      omega
    · exact counted
  · obtain ⟨since, sound⟩ := watch_sound opts key attempts.calls attempts.ordered
    exact sound.consume current few

/-- One call per second for each key, with one key tracked. -/
def oneKey : RpcRateLimiterOptions where
  max := 1
  windowMs := 1000
  maxKeys := some 1
  max_positive := by decide
  window_positive := by decide
  keys_positive := by simp

/-- A call of another key between two calls of one key. -/
def churn : Attempts where
  calls := [(0, "acct_1"), (1, "acct_2"), (2, "acct_1")]
  ordered := by decide

/-- Two calls of one key within three milliseconds, where one a second is allowed: the key between
them pushes out its times. -/
theorem churn_allows_two :
    allowedIn (watch oneKey churn.calls).history "acct_1" oneKey.windowMs (.fromStart 0) = 2 ∧
      evictionsIn (watch oneKey churn.calls).history "acct_1" oneKey.windowMs (.fromStart 0) = 1 ∧
      oneKey.max = 1 := by
  decide +kernel

end Kvy.Server.App.Socket
