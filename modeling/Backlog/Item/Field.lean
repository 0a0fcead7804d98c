/-
  Typed fields of an item.

  Status, phase, assessments and signals live in the extension entries, which others may write too.
  So each field is read with suspicion: an entry of the wrong type or with a value that makes no
  sense counts as absent, and the reader complains.  `inspect…` gives the value or the complaint,
  the reader proper only the value; `Item.complaints` is what reading every field once finds.

  Authority: a native status of doing, done or blocked decides alone; todo is told apart by the
  sub-state entry, new without one.  The blocked-from entry decides what to restore, but is stale
  once the native field beside it is gone.
-/
import Backlog.Assessment
import Backlog.Description
import Backlog.Item.Basic

namespace Backlog

open Text (Vocabulary)

/-! ## Complaints -/

/-- What is wrong with a stored entry. -/
inductive Complaint where
  | unexpectedType (key : Key) (found : String)
  | invalidValue (key : Key) (value : String)
  | unknownSubstate (value : String)
  | substateType (found : String)
  | emptyPhase
  | malformedCommit (value : String)
  | staleBlockedFrom (status : Status)
  | unrestorable (status : Status)
  | unreadableDescription
deriving DecidableEq, Repr

namespace Complaint

/-- The complaint in words. -/
def message : Complaint → String
  | .unexpectedType .. => "Ignoring extension value of unexpected type"
  | .invalidValue .. => "Ignoring invalid extension value"
  | .unknownSubstate _ => "Unrecognized sub-state, reading as new"
  | .substateType _ => "Sub-state has unexpected type, reading as new"
  | .emptyPhase => "Ignoring empty phase name"
  | .malformedCommit _ => "Ignoring malformed phase commit"
  | .staleBlockedFrom _ =>
    "Blocked-from extension is stale (native field cleared externally), ignoring"
  | .unrestorable _ => "Ignoring blocked-from that cannot be restored"
  | .unreadableDescription => "Ignoring unreadable structured description"

/-- What the complaint is about, by name. -/
def details : Complaint → List (String × String)
  | .unexpectedType key found => [("key", key.name), ("found", found)]
  | .invalidValue key value => [("key", key.name), ("value", value)]
  | .unknownSubstate value => [("value", value)]
  | .substateType found => [("found", found)]
  | .malformedCommit value => [("value", value)]
  | .staleBlockedFrom status | .unrestorable status => [("value", Text.word status)]
  | .emptyPhase | .unreadableDescription => []

end Complaint

namespace Item

/-! ## Entries by type -/

/-- A field's value if reading found one, whatever it complained of. -/
def settle {α : Type} : Except Complaint (Option α) → Option α
  | .ok value => value
  | .error _ => none

/-- An entry that should be a text. -/
def inspectText (key : Key) (item : Item) : Except Complaint (Option String) :=
  match item.extension? key with
  | none => .ok none
  | some (.text s) => .ok (some s)
  | some other => .error (.unexpectedType key other.kind)

/-- An entry that should be a truth value; false without one. -/
def inspectFlag (key : Key) (item : Item) : Except Complaint Bool :=
  match item.extension? key with
  | none => .ok false
  | some (.bool b) => .ok b
  | some other => .error (.unexpectedType key other.kind)

/-- An entry that should name a member of a vocabulary. -/
def inspectMember (α : Type) [Vocabulary α] (key : Key) (item : Item) :
    Except Complaint (Option α) := do
  match ← inspectText key item with
  | none => return none
  | some text =>
    match Text.readWord α text with
    | .ok a => return some a
    | .error _ => throw (.invalidValue key text)

/-- A text entry, absent when blank. -/
def notBlank (text : Option String) : Option String := text.filter fun s => !Text.isBlank s

/-! ## Status -/

/-- Where the item stands. -/
def inspectStatus (item : Item) : Except Complaint Status :=
  match item.native with
  | .doing => .ok .inProgress
  | .done => .ok .done
  | .blocked => .ok .blocked
  | .todo =>
    match item.extension? .status with
    | none => .ok .new
    | some (.text s) =>
      match Status.ofSubstate? s with
      | some status => .ok status
      | none => .error (.unknownSubstate s)
    | some other => .error (.substateType other.kind)

/-- Where the item stands; an unreadable sub-state counts as new. -/
def status (item : Item) : Status :=
  match item.inspectStatus with
  | .ok status => status
  | .error _ => .new

/-- The status to restore when the item is unblocked. -/
def inspectBlockedFrom (item : Item) : Except Complaint (Option Status) := do
  match ← inspectMember Status .blockedFrom item with
  | none => return none
  | some status =>
    if item.nativeBlockedFrom.isNone then throw (.staleBlockedFrom status)
    else if status.isBlockable then return some status
    else throw (.unrestorable status)

/-- The status to restore when the item is unblocked. -/
def blockedFrom (item : Item) : Option Status := settle item.inspectBlockedFrom

/-- The kind of answer a blocked item waits for. -/
def blockedType (item : Item) : Option BlockType := settle (inspectMember BlockType .blockedType item)

/-- The answer given to a blocked item. -/
def unblockContext (item : Item) : Option String :=
  notBlank (settle (inspectText .unblockContext item))

/-! ## Phase -/

/-- The name of the current phase. -/
def inspectPhase (item : Item) : Except Complaint (Option String) := do
  match ← inspectText .phase item with
  | none => return none
  | some phase => if Text.isBlank phase then throw .emptyPhase else return some phase

/-- The name of the current phase. -/
def phase (item : Item) : Option String := settle item.inspectPhase

/-- The pool of the current phase. -/
def phasePool (item : Item) : Option Pool := settle (inspectMember Pool .phasePool item)

/-- The pipeline that the item asks for. -/
def pipelineType (item : Item) : Option String :=
  notBlank (settle (inspectText .pipelineType item))

/-- The revision that the current phase started from. -/
def inspectLastPhaseCommit (item : Item) : Except Complaint (Option String) := do
  match ← inspectText .lastPhaseCommit item with
  | none => return none
  | some revision =>
    if isRevision revision then return some revision else throw (.malformedCommit revision)

/-- The revision that the current phase started from. -/
def lastPhaseCommit (item : Item) : Option String := settle item.inspectLastPhaseCommit

/-! ## Description, assessments and signals -/

/-- The structured description. -/
def inspectStructured (item : Item) : Except Complaint (Option Description) :=
  match item.extension? .description with
  | none => .ok none
  | some value =>
    match Description.ofJson? value with
    | some description => .ok (some description)
    | none => .error .unreadableDescription

/-- The structured description. -/
def structured (item : Item) : Option Description := settle item.inspectStructured

/-- The impact that the item was given. -/
def impact (item : Item) : Option Level := settle (inspectMember Level .impact item)

/-- The size that the item was given. -/
def size (item : Item) : Option Size := settle (inspectMember Size .size item)

/-- The risk that the item was given. -/
def risk (item : Item) : Option Level := settle (inspectMember Level .risk item)

/-- Whether a human has to look at the item's result. -/
def requiresHumanReview (item : Item) : Bool :=
  (inspectFlag .requiresHumanReview item).toOption.getD false

/-- Where the item came from. -/
def origin (item : Item) : Option String := settle (inspectText .origin item)

/-- Whether a human asked for the item to be assessed again. -/
def triageRequested (item : Item) : Bool := (inspectFlag .triageRequested item).toOption.getD false

/-- The item that this one should be merged into. -/
def mergeInto (item : Item) : Option String := notBlank (settle (inspectText .mergeInto item))

/-! ## Everything that reading finds wrong -/

/-- The complaint of a reading. -/
def complaint? {α : Type} : Except Complaint α → Option Complaint
  | .ok _ => none
  | .error c => some c

/-- The complaints of reading every field once. -/
def complaints (item : Item) : List Complaint :=
  [ complaint? item.inspectStatus,
    complaint? item.inspectPhase,
    complaint? (inspectMember Pool .phasePool item),
    complaint? (inspectText .pipelineType item),
    complaint? item.inspectLastPhaseCommit,
    complaint? item.inspectBlockedFrom,
    complaint? (inspectMember BlockType .blockedType item),
    complaint? (inspectText .unblockContext item),
    complaint? item.inspectStructured,
    complaint? (inspectMember Level .impact item),
    complaint? (inspectMember Size .size item),
    complaint? (inspectMember Level .risk item),
    complaint? (inspectFlag .requiresHumanReview item),
    complaint? (inspectText .origin item),
    complaint? (inspectFlag .triageRequested item),
    complaint? (inspectText .mergeInto item) ].filterMap fun c => c

end Item

end Backlog
