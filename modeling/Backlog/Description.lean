/-
  Structured descriptions.

  A description has five parts.  Joining two of them part by part keeps both texts with an empty
  line between, or the one that is not blank; it is stored as an object of its five parts and read
  with missing parts empty.
-/
import Backlog.Json.Record
import Backlog.Text.Blank

namespace Backlog

/-- What is to be done and why, in five parts. -/
structure Description where
  context : String := ""
  problem : String := ""
  solution : String := ""
  impact : String := ""
  sizingRationale : String := ""
deriving DecidableEq, Repr, Inhabited

namespace Description

/-- Whether every part is empty. -/
def isEmpty (d : Description) : Bool :=
  d.context.isEmpty && d.problem.isEmpty && d.solution.isEmpty && d.impact.isEmpty
    && d.sizingRationale.isEmpty

/-- Two texts with an empty line between them, blank ones left out. -/
def joinParts (a b : String) : String :=
  match Text.isBlank a, Text.isBlank b with
  | true, true => ""
  | false, true => a
  | true, false => b
  | false, false => a ++ "\n\n" ++ b

/-- Two descriptions joined part by part. -/
def join (a b : Description) : Description where
  context := joinParts a.context b.context
  problem := joinParts a.problem b.problem
  solution := joinParts a.solution b.solution
  impact := joinParts a.impact b.impact
  sizingRationale := joinParts a.sizingRationale b.sizingRationale

/-! ## Stored form -/

/-- The description as a value, its parts in key order. -/
def toJson (d : Description) : Json :=
  .object [("context", .text d.context), ("impact", .text d.impact), ("problem", .text d.problem),
    ("sizing_rationale", .text d.sizingRationale), ("solution", .text d.solution)]

/-- A description written as a record; missing parts are empty. -/
def read? (raw : Json.Raw) : Option Description := do
  match ← raw.record? ["context", "problem", "solution", "impact", "sizing_rationale"] with
  | [context, problem, solution, impact, sizing] => do
    let part := Json.Raw.orDefault? "" Json.Raw.text?
    let context ← part context
    let problem ← part problem
    let solution ← part solution
    let impact ← part impact
    let sizingRationale ← part sizing
    return { context, problem, solution, impact, sizingRationale }
  | _ => none

/-- The description that a value holds. -/
def ofJson? (value : Json) : Option Description := read? value.toRaw

/-- A stored description reads back as it was. -/
theorem ofJson?_toJson (d : Description) : ofJson? d.toJson = some d := rfl

/-! ## Examples -/

example : ofJson? (.array [.text "c", .text "p"])
    = some { context := "c", problem := "p" } := by decide
example : ofJson? (.object [("context", .int 12)]) = none := by decide

end Description

end Backlog
