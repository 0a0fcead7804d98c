/-
  Dependency cycles.

  Program: `cycleThrough? items start` looks for a path of dependencies from an item back to itself by
  depth-first search.  Items found on the way are visited once, dependencies that are not there are
  passed over.

  Specification: a path found begins and ends with the start, and each ID on it is a dependency of
  the one before.

  The crux is that a nested search enters an item not visited before, so the depth never exceeds
  the number of items and that number serves as fuel.
-/
import Backlog.Item.Basic

namespace Backlog

/-- The dependencies of the item with an ID; of several, of the last. -/
def dependenciesOf? (items : List Item) (id : String) : Option (List String) :=
  (items.reverse.find? fun i => i.id == id).map (·.dependencies)

/-- The first result that a step gives along a list, with the IDs visited on the way. -/
def firstResult {α : Type} (step : String → List String → Option α × List String) :
    List String → List String → Option α × List String
  | [], visited => (none, visited)
  | id :: ids, visited =>
    match step id visited with
    | (some result, visited) => (some result, visited)
    | (none, visited) => firstResult step ids visited

/-- The path that leads to the start through one of these dependencies, with the IDs visited. -/
def walk (items : List Item) (start : String) :
    Nat → List String → List String → Option (List String) × List String
  | 0, _, visited => (none, visited)
  | depth + 1, dependencies, visited =>
    firstResult (fun id visited =>
      if id = start then (some [id], visited)
      else
        match dependenciesOf? items id with
        | none => (none, visited)
        | some further =>
          if visited.contains id then (none, visited)
          else
            let (path, visited) := walk items start depth further (id :: visited)
            (path.map (id :: ·), visited)) dependencies visited

/-- A path of dependencies from an item back to itself. -/
def cycleThrough? (items : List Item) (start : String) : Option (List String) := do
  let dependencies ← dependenciesOf? items start
  let path ← (walk items start (items.length + 1) dependencies []).1
  return start :: path

/-! ## Examples -/

/-- An item that depends on others, to look for cycles with. -/
def dependent (id : String) (dependencies : List String) : Item :=
  { Item.bare id id ⟨0, 0⟩ with dependencies }

example : cycleThrough? [dependent "A" ["B", "C"], dependent "B" ["B", "Z"], dependent "C" ["A"]] "A"
    = some ["A", "C", "A"] := by decide
example : cycleThrough? [dependent "A" ["B"], dependent "B" ["Z"]] "A" = none := by decide

end Backlog
