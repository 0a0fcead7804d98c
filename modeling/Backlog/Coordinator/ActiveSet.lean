/-
  Changes to the active items.

  Each command changes the list of active items in one of four ways: one item in its place, one
  item taken out because it is done, one merged into another (`foldInto`), or new items at the
  end.  Whatever is refused gives an error and no list.
-/
import Backlog.Item.Update
import Backlog.Merge.Items
import Backlog.Store.Id

namespace Backlog

/-- Change the first item with an ID, the others and their order kept. -/
def changeItem {α : Type} (id : String) (change : Change α) :
    List Item → Except CommandError (α × List Item)
  | [] => .error (.itemNotFound id)
  | item :: items =>
    if item.id = id then
      match change item with
      | (.ok a, changed) => .ok (a, changed :: items)
      | (.error reason, _) => .error (.refused id reason)
    else (changeItem id change items).map fun (a, items) => (a, item :: items)

/-- Take out the first item with an ID, which has to be done. -/
def retireItem (id : String) : List Item → Except CommandError (Item × List Item)
  | [] => .error (.itemNotFound id)
  | item :: items =>
    if item.id = id then
      if item.status = .done then .ok (item, items)
      else .error (.refused id (.notDone item.status))
    else (retireItem id items).map fun (retired, items) => (retired, item :: items)

/-- Fresh IDs and the new items that drafts describe, in the order of the drafts. -/
def draftItems (now : Stamp) : IdSource → List Draft → Except StoreError (List Item)
  | _, [] => .ok []
  | source, draft :: drafts =>
    match source.fresh with
    | (.error e, _) => .error e
    | (.ok id, source) => (draftItems now source drafts).map (draft.item id now :: ·)

/-- The new items that drafts describe, with IDs that no active or archived item has. -/
def createItems (now : Stamp) (stem : String) (active : List Item) (archived : List String)
    (drafts : List Draft) : Except CommandError (List Item) :=
  match IdSource.make stem (archived ++ active.map Item.id) with
  | .error e => .error (.ofStore e)
  | .ok source => (draftItems now source drafts).mapError .ofStore

end Backlog
