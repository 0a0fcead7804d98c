/-
  What a store holds, and how it answers.

  Program: the items of a store are in two places, the active set and the archive.  A call of the
  store is carried out, or it fails and has no effect; which calls fail is left open.

  The crux is that nothing else is said: the lock may be free or not, version control may do as it
  likes, and none of that touches the items.  Facts in this world are facts about every such store.
-/
import Backlog.Proofs.ActiveSet
import Backlog.Proofs.Coordinator.Turns

namespace Backlog

/-- The items in a store. -/
structure Contents where
  active : List Item
  archive : List Item

namespace Contents

/-! ## Writes -/

/-- The contents with an item more in the archive, if there is one. -/
def file (c : Contents) (retired : Option Item) : Contents :=
  { c with archive := c.archive ++ retired.toList }

/-- The contents with other active items. -/
def replace (c : Contents) (items : List Item) : Contents := { c with active := items }

@[simp] theorem active_file (c : Contents) (retired : Option Item) :
    (c.file retired).active = c.active := rfl

@[simp] theorem archive_file (c : Contents) (retired : Option Item) :
    (c.file retired).archive = c.archive ++ retired.toList := rfl

@[simp] theorem file_none (c : Contents) : c.file none = c := by
  rw [file, Option.toList_none, List.append_nil]

/-! ## What is known -/

/-- An item with this ID is in the store. -/
def Knows (c : Contents) (id : String) : Prop := id ∈ ids c.active ∨ id ∈ ids c.archive

/-! ## Answers -/

/-- How a store with these contents answers, and what it holds then. -/
def Answers : Surroundings Contents := fun c q =>
  match q with
  | .load => fun a after => after = c ∧ ∀ items, a = .ok items → items = c.active
  | .archivedIds => fun a after => after = c ∧ ∀ known, a = .ok known → known = ids c.archive
  | .save items => fun
    | .ok () => fun after => after = c.replace items
    | .error _ => fun after => after = c
  | .append item => fun
    | .ok () => fun after => after = c.file (some item)
    | .error _ => fun after => after = c
  | _ => fun _ after => after = c

/-- Outside of the locked sections nothing happens to the items. -/
theorem eq_of_answers_quiet {c after : Contents} {q : Request} {a : q.Answer}
    (hq : q.Quiet ∨ q = .lock ∨ q = .unlock) (h : Answers c q a after) : after = c := by
  cases q with
  | load => exact h.1
  | archivedIds => exact h.1
  | save items => simp [Request.Quiet] at hq
  | append item => simp [Request.Quiet] at hq
  | _ => exact h

end Contents

/-! ## Loads and saves -/

/-- The items that an exchange has loaded. -/
def Exchange.loaded : Exchange → Option (List Item)
  | ⟨.load, .ok items⟩ => some items
  | _ => none

/-- The items that were to be saved, and whether they were. -/
def Exchange.saved : Exchange → Option (List Item × Bool)
  | ⟨.save items, .ok ()⟩ => some (items, true)
  | ⟨.save items, .error _⟩ => some (items, false)
  | _ => none

/-- An exchange with the store, next to what the store held. -/
abbrev Call := Contents × Exchange

/-- What these calls have loaded. -/
def loads (calls : List Call) : List (List Item) := calls.filterMap fun call => call.2.loaded

/-- What these calls were to save, next to what the store held, and whether it was saved. -/
def saves (calls : List Call) : List (Contents × List Item × Bool) :=
  calls.filterMap fun call => call.2.saved.map fun saved => (call.1, saved)

@[simp] theorem loads_append (xs ys : List Call) : loads (xs ++ ys) = loads xs ++ loads ys :=
  List.filterMap_append

@[simp] theorem saves_append (xs ys : List Call) : saves (xs ++ ys) = saves xs ++ saves ys :=
  List.filterMap_append

/-- Saves that were carried out, or that failed, are counted among the calls as among the exchanges. -/
theorem countP_saves (p : Bool → Bool) (calls : List Call) :
    (saves calls).countP (fun save => p save.2.2)
      = (calls.map Prod.snd).countP fun x => x.saved.any fun saved => p saved.2 := by
  rw [saves, List.countP_filterMap, List.countP_map]
  refine List.countP_congr fun call _ => ?_
  show _ ↔ (call.2.saved.any fun saved => p saved.2) = true
  cases call.2.saved with
  | none => exact Iff.rfl
  | some saved => exact Iff.rfl

/-- No save is made outside of the transactions. -/
theorem saved_eq_none {q : Request} {a : q.Answer} (hq : q.Quiet ∨ q = .lock ∨ q = .unlock) :
    Exchange.saved ⟨q, a⟩ = none := by
  cases q with
  | save items => simp [Request.Quiet] at hq
  | _ => rfl

/-- The saves among these calls that were carried out. -/
def carriedOut (calls : List Call) : List (Contents × List Item × Bool) :=
  (saves calls).filter fun save => save.2.2

@[simp] theorem carriedOut_append (xs ys : List Call) :
    carriedOut (xs ++ ys) = carriedOut xs ++ carriedOut ys := by
  rw [carriedOut, saves_append, List.filter_append]
  rfl

theorem carriedOut_of_not_save {c : Contents} {q : Request} {a : q.Answer}
    (hq : q.Quiet ∨ q = .lock ∨ q = .unlock) : carriedOut [(c, (⟨q, a⟩ : Exchange))] = [] := by
  simp only [carriedOut, saves, List.filterMap_cons, List.filterMap_nil, saved_eq_none hq,
    Option.map_none, List.filter_nil]

end Backlog
