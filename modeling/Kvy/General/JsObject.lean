import Kvy.General.OrderedMap

/-!
# Objects with a prototype

An object has its own properties and may inherit those of the root prototype. Reading a key
finds an own property first. Assigning the key of the prototype accessor on an object that
inherits it makes no own property; defining a property, as a literal or a spread does,
always makes one.
-/

namespace Kvy.General

universe v
variable {β : Type v}

/-- The properties that every object literal inherits, with the names of the functions they
hold; `__proto__` holds an object. -/
def inheritedProperties : List (String × Option String) :=
  [("constructor", some "Object"), ("__defineGetter__", some "__defineGetter__"),
    ("__defineSetter__", some "__defineSetter__"), ("hasOwnProperty", some "hasOwnProperty"),
    ("__lookupGetter__", some "__lookupGetter__"), ("__lookupSetter__", some "__lookupSetter__"),
    ("isPrototypeOf", some "isPrototypeOf"),
    ("propertyIsEnumerable", some "propertyIsEnumerable"), ("toString", some "toString"),
    ("valueOf", some "valueOf"), ("__proto__", none), ("toLocaleString", some "toLocaleString")]

/-- An object whose prototype is the root one, or none. -/
structure JsObject (β : Type v) where
  own : OrderedMap String β
  inherits : Bool

/-- What reading a key finds. -/
inductive Property (β : Type v) where
  | own (value : β)
  | inherited
  | absent

namespace JsObject

/-- The object without a prototype and without properties. -/
def bare : JsObject β := ⟨.empty, false⟩

/-- The empty literal. -/
def literal : JsObject β := ⟨.empty, true⟩

/-- Read a key. -/
def read (object : JsObject β) (key : String) : Property β :=
  match object.own.get? key with
  | some value => .own value
  | none =>
    if object.inherits && (inheritedProperties.lookup key).isSome then .inherited else .absent

/-- Assign to a key. -/
def assign (object : JsObject β) (key : String) (value : β) : JsObject β :=
  if object.inherits && key = "__proto__" && !object.own.has key then object
  else { object with own := object.own.set key value }

/-- The literal that spreads an object and defines a computed key. -/
def spreadWith (object : JsObject β) (key : String) (value : β) : JsObject β :=
  ⟨object.own.set key value, true⟩

@[simp] theorem assign_bare {object : JsObject β} (plain : object.inherits = false) (key : String)
    (value : β) : object.assign key value = ⟨object.own.set key value, false⟩ := by
  simp [assign, plain]

/-- Without a prototype a key is read as an own property or not at all. -/
theorem read_bare {object : JsObject β} (plain : object.inherits = false) (key : String) :
    object.read key = (object.own.get? key).elim .absent .own := by
  unfold read
  cases object.own.get? key with
  | none => simp [plain]
  | some value => rfl

/-- Assigning the selected entries of a list with distinct keys to a bare object, one by one,
makes each an own property. -/
theorem own_assigned {α : Type v} (select : α → Option β) (entries : List (String × α))
    (distinct : (entries.map Prod.fst).Nodup) (start : JsObject β) (plain : start.inherits = false)
    (fresh : ∀ key ∈ entries.map Prod.fst, start.own.get? key = none) :
    let object := entries.foldl (fun object (entry : String × α) =>
      (select entry.2).elim object (object.assign entry.1)) start
    object.inherits = false ∧ ∀ key, object.own.get? key =
      (start.own.get? key).or ((entries.lookup key).bind select) := by
  induction entries generalizing start with
  | nil => exact ⟨plain, fun key => by simp⟩
  | cons entry rest inductionHypothesis =>
    obtain ⟨first, held⟩ := entry
    obtain ⟨absent, restDistinct⟩ := List.nodup_cons.mp distinct
    have later : ∀ key ∈ rest.map Prod.fst, key ≠ first := by
      rintro key member rfl
      exact absent member
    have unset : start.own.get? first = none := fresh first List.mem_cons_self
    simp only [List.foldl_cons]
    cases chosen : select held with
    | none =>
      obtain ⟨stays, reads⟩ := inductionHypothesis restDistinct start plain
        (fun key member => fresh key (List.mem_cons_of_mem first member))
      refine ⟨stays, ?_⟩
      intro key
      rw [lookup_cons_if]
      by_cases same : key = first
      · subst same
        have missing : rest.lookup key = none := by
          apply List.lookup_eq_none_iff.mpr
          intro entry member
          simpa using (later entry.1 (List.mem_map_of_mem member)).symm
        simp only [Option.elim_none, reads key, unset, missing, ↓reduceIte, Option.bind_some, chosen,
          Option.bind_none]
      · simp only [Option.elim_none, reads key, same, ↓reduceIte]
    | some value =>
      have freshLater : ∀ key ∈ rest.map Prod.fst,
          (start.assign first value).own.get? key = none := by
        intro key member
        simp only [assign_bare plain, OrderedMap.get_set, later key member, ↓reduceIte]
        exact fresh key (List.mem_cons_of_mem first member)
      obtain ⟨stays, reads⟩ := inductionHypothesis restDistinct (start.assign first value)
        (by simp [plain]) freshLater
      refine ⟨stays, ?_⟩
      intro key
      rw [lookup_cons_if]
      by_cases same : key = first
      · subst same
        rw [Option.elim_some, reads key]
        simp [plain, unset, chosen]
      · rw [Option.elim_some, reads key]
        simp [plain, same]

end JsObject
end Kvy.General
