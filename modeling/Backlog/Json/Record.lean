/-
  Records written as JSON.

  A record is an object of named fields, unknown ones skipped and known ones given at most once, or
  an array of its fields in declaration order, the last ones left out perhaps.  `Raw.record?` lines
  the fields up with their names; the readers below take a single field for what it should be.
-/
import Backlog.Json.Raw
import Backlog.Text.Word

namespace Backlog.Json.Raw

open Backlog.Text

/-! ## The fields of a record -/

/-- The value of a field that is given at most once. -/
def field? (fields : List (Option String × Raw)) (name : String) : Option (Option Raw) :=
  match fields.filter fun f => f.1 == some name with
  | [] => some none
  | [f] => some (some f.2)
  | _ => none

/-- The fields of a record in the order of their names, each if it is given. -/
def record? (names : List String) : Raw → Option (List (Option Raw))
  | .object fields => do
    guard (fields.all fun f => f.1.isSome)
    names.mapM (field? fields)
  | .array items => do
    guard (items.length ≤ names.length)
    return (List.range names.length).map fun i => items[i]?
  | _ => none

/-- A field with a value for when it is not given. -/
def orDefault? {α : Type} (default : α) (read : Raw → Option α) : Option Raw → Option α
  | none => some default
  | some v => read v

/-! ## Single values -/

/-- A text. -/
def text? : Raw → Option String
  | .text s => s
  | _ => none

/-- A whole number within bounds, written without fraction and exponent. -/
def int? (low high : Int) : Raw → Option Int
  | .number (some (.whole n)) => if low ≤ n ∧ n ≤ high then some n else none
  | _ => none

/-- A value, or null for none. -/
def nullable? {α : Type} (read : Raw → Option α) : Raw → Option (Option α)
  | .null => some none
  | v => (read v).map some

/-- A list of values. -/
def list? {α : Type} (read : Raw → Option α) : Raw → Option (List α)
  | .array items => items.mapM read
  | _ => none

/-- A member of a vocabulary: its word, or an object with the word for its only key and null. -/
def member? (α : Type) [Vocabulary α] : Raw → Option α
  | .text (some s) => exactWord? α s
  | .object [(some s, .null)] => exactWord? α s
  | _ => none

end Backlog.Json.Raw

/-! ## A value as its text would have it -/

namespace Backlog.Json

mutual

/-- The value as reading its written form gives it. -/
def toRaw : Json → Raw
  | .null => .null
  | .bool b => .bool b
  | .number n => .number (some n)
  | .text s => .text (some s)
  | .array items => .array (itemsToRaw items)
  | .object fields => .object (fieldsToRaw fields)

/-- The values as reading their written form gives them. -/
def itemsToRaw : List Json → List Raw
  | [] => []
  | v :: vs => toRaw v :: itemsToRaw vs

/-- The fields as reading their written form gives them. -/
def fieldsToRaw : List (String × Json) → List (Option String × Raw)
  | [] => []
  | (k, v) :: fs => (some k, toRaw v) :: fieldsToRaw fs

end

end Backlog.Json
