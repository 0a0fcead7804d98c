/-
  Items as the store keeps them.

  An item has native fields, which every reader of the store understands, and extension entries, of
  which sixteen keys (`Key`) belong to this project.  Every write takes the time it happens at:
  `touch` is the only place that sets `updatedAt` after an item was made.
-/
import Backlog.Json.Value
import Backlog.Status
import Backlog.Time.Stamp

namespace Backlog

/-! ## Extension keys -/

/-- The extension entries that this project owns. -/
inductive Key where
  | status | phase | phasePool | pipelineType | lastPhaseCommit | blockedFrom | blockedType
  | unblockContext | description | impact | size | risk | requiresHumanReview | origin
  | triageRequested | mergeInto
deriving DecidableEq, Repr

/-- The name under which an entry is stored. -/
def Key.name : Key → String
  | .status => "x-pk-status"
  | .phase => "x-pk-phase"
  | .phasePool => "x-pk-phase-pool"
  | .pipelineType => "x-pk-pipeline-type"
  | .lastPhaseCommit => "x-pk-last-phase-commit"
  | .blockedFrom => "x-pk-blocked-from"
  | .blockedType => "x-pk-blocked-type"
  | .unblockContext => "x-pk-unblock-context"
  | .description => "x-pk-description"
  | .impact => "x-pk-impact"
  | .size => "x-pk-size"
  | .risk => "x-pk-risk"
  | .requiresHumanReview => "x-pk-requires-human-review"
  | .origin => "x-pk-origin"
  | .triageRequested => "x-pk-triage-requested"
  | .mergeInto => "x-pk-merge-into"

theorem Key.name_inj {a b : Key} : a.name = b.name ↔ a = b := by
  cases a <;> cases b <;> decide

/-! ## Items -/

/-- A unit of work as it is stored. -/
structure Item where
  id : String
  title : String
  /-- The status that every reader of the store understands. -/
  native : NativeStatus
  priority : Int
  /-- The description in one line. -/
  description : Option String
  tags : List String
  dependencies : List String
  createdAt : Stamp
  updatedAt : Stamp
  blockedReason : Option String
  /-- The native status that the item was blocked from. -/
  nativeBlockedFrom : Option NativeStatus
  extensions : Dict Json
deriving DecidableEq

namespace Item

/-- An item to do without anything else known about it. -/
def bare (id title : String) (now : Stamp) : Item where
  id
  title
  native := .todo
  priority := 0
  description := none
  tags := []
  dependencies := []
  createdAt := now
  updatedAt := now
  blockedReason := none
  nativeBlockedFrom := none
  extensions := .empty

/-! ## Writes -/

/-- Record that the item was written. -/
def touch (now : Stamp) (item : Item) : Item := { item with updatedAt := now }

/-- Set the native status. -/
def setNative (now : Stamp) (status : NativeStatus) (item : Item) : Item :=
  touch now { item with native := status }

/-- Block with a reason, remembering the native status; a blocked item only gets the reason. -/
def blockNative (now : Stamp) (reason : Option String) (item : Item) : Item :=
  let item :=
    if item.native = .blocked then item
    else { item with nativeBlockedFrom := some item.native, native := .blocked }
  touch now { item with blockedReason := reason }

/-- Forget that the item was blocked; one still blocked goes back to the native status it was
    blocked from, or to todo. -/
def unblockNative (now : Stamp) (item : Item) : Item :=
  let item :=
    if item.native = .blocked then { item with native := item.nativeBlockedFrom.getD .todo }
    else item
  touch now { item with blockedReason := none, nativeBlockedFrom := none }

/-- The extension entry under a key. -/
def extension? (item : Item) (key : Key) : Option Json := item.extensions.get? key.name

/-- Write an extension entry. -/
def setEntry (now : Stamp) (key : Key) (value : Json) (item : Item) : Item :=
  touch now { item with extensions := item.extensions.insert key.name value }

/-- Remove an extension entry; an item that has none is not written. -/
def removeEntry (now : Stamp) (key : Key) (item : Item) : Item :=
  if item.extensions.contains key.name then
    touch now { item with extensions := item.extensions.erase key.name }
  else item

/-! ## What the writes leave -/

@[simp] theorem extension?_touch (now : Stamp) (item : Item) (key : Key) :
    (item.touch now).extension? key = item.extension? key := rfl

@[simp] theorem extension?_setNative (now : Stamp) (s : NativeStatus) (item : Item) (key : Key) :
    (item.setNative now s).extension? key = item.extension? key := rfl

@[simp] theorem extension?_blockNative (now : Stamp) (reason : Option String) (item : Item)
    (key : Key) : (item.blockNative now reason).extension? key = item.extension? key := by
  unfold blockNative extension?
  split <;> rfl

@[simp] theorem extension?_unblockNative (now : Stamp) (item : Item) (key : Key) :
    (item.unblockNative now).extension? key = item.extension? key := by
  unfold unblockNative extension?
  split <;> rfl

@[simp] theorem extension?_setEntry (now : Stamp) (key other : Key) (value : Json) (item : Item) :
    (item.setEntry now key value).extension? other
      = if other = key then some value else item.extension? other := by
  simp [extension?, setEntry, touch, Key.name_inj]

@[simp] theorem extension?_removeEntry (now : Stamp) (key other : Key) (item : Item) :
    (item.removeEntry now key).extension? other
      = if other = key then none else item.extension? other := by
  unfold removeEntry
  split
  · simp [extension?, touch, Key.name_inj]
  · next h =>
    by_cases ho : other = key
    · subst ho
      simpa [Dict.contains, extension?] using h
    · simp [ho]

end Item

end Backlog
