/-
  Merging one item into another.

  The target takes in the source, whoever depended on the source depends on the target from then
  on, and the source leaves the list.  A merge that would close a dependency cycle through the
  target is refused, and what is refused changes nothing.
-/
import Backlog.Coordinator.Error
import Backlog.Merge.Cycle

namespace Backlog

namespace Item

/-- Depend on the target, once, instead of on the source. -/
def redirect (now : Stamp) (source target : String) (item : Item) : Item :=
  if item.dependencies.contains source then
    let others := item.dependencies.filter (· ≠ source)
    touch now { item with
      dependencies := if others.contains target then others else others ++ [target] }
  else item

end Item

/-- Change the first item that has an ID. -/
def changeFirst (id : String) (change : Item → Item) : List Item → List Item
  | [] => []
  | item :: items =>
    if item.id = id then change item :: items else item :: changeFirst id change items

/-- Merge the source into the target: the source as it leaves the list, and the list after it. -/
def foldInto (now : Stamp) (items : List Item) (source target : String) :
    Except CommandError (Item × List Item) :=
  if source = target then .error (.refused source .mergeIntoItself)
  else
    match items.find? (fun i => i.id == source) with
    | none => .error (.itemNotFound source)
    | some leaving =>
      if !items.any (fun i => i.id == target) then .error (.itemNotFound target)
      else
        let others := items.eraseP fun i => i.id == source
        let merged := (changeFirst target (Item.absorb now leaving) others).map fun i =>
          if i.id = target then i else i.redirect now source target
        match cycleThrough? merged target with
        | some cycle => .error (.dependencyCycle target cycle)
        | none => .ok (leaving.setMergeInto now none, merged)

/-! ## Examples -/

/-- The IDs and dependencies that a merge leaves. -/
def mergedDependencies? (items : List Item) (source target : String) :
    Option (List (String × List String)) :=
  (foldInto ⟨1, 0⟩ items source target).toOption.map fun (_, items) =>
    items.map fun i => (i.id, i.dependencies)

example : mergedDependencies?
    [dependent "A" ["B", "X"], dependent "B" ["A", "Y", "X"], dependent "C" ["B", "A", "B"]] "B" "A"
    = some [("A", ["X", "Y"]), ("C", ["A"])] := by decide +kernel
example : mergedDependencies? [dependent "A" [], dependent "B" ["C"], dependent "C" ["A"]] "B" "A"
    = none := by decide +kernel

end Backlog
