import Kvy.General.Json

/-!
# Reading JSON against a schema

A reader takes the value of a property, absent or present, and returns what the schema
makes of it, or nothing when the value does not fit.
-/

namespace Kvy.General.Schema

universe u
variable {α : Type u}

/-- Read a property that may be absent. -/
abbrev Reader (α : Type u) := Option Json → Option α

/-- Any string. -/
def string : Reader String
  | some (.str text) => some text
  | _ => none

/-- Any finite number. -/
def number : Reader Decimal
  | some (.num value) => some value
  | _ => none

/-- A truth value. -/
def boolean : Reader Bool
  | some (.bool value) => some value
  | _ => none

/-- Any value, or none. -/
def unknown : Reader (Option Json) := some

/-- One of the listed strings. -/
def enum (table : List (String × α)) (value : Option Json) : Option α :=
  (string value).bind (fun text => table.lookup text)

/-- A property that fits when it is absent or when its value does. -/
def optional (read : Reader α) : Reader (Option α)
  | none => some none
  | some value => (read (some value)).map some

/-- An array all of whose items fit. -/
def array (read : Reader α) : Reader (List α)
  | some (.arr items) => items.mapM (fun item => read (some item))
  | _ => none

end Kvy.General.Schema
