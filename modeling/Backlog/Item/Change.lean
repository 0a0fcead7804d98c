/-
  Changes to an item.

  Plain writes (`setPhase`, `absorb`, …) always succeed.  A checked change (`Change`) gives its
  result or the reason it was refused, and the item after it: whatever is refused leaves the item
  as it was.  Optional texts are stored trimmed, and blank ones not at all.
-/
import Backlog.Item.Field

namespace Backlog

/-! ## Refusals -/

/-- Why a change was refused. -/
inductive Refusal where
  | cannotMove (src dst : Status)
  | blockFinished
  | notBlocked (status : Status)
  | noBlockedFrom
  | enterWithoutPhase (status : Status)
  | contextForUnblocked
  | mergeIntoItself
  | emptyTitle
  | noPipeline (name : String)
  | notPromotable (status : Status)
  | nothingRunning (status : Status)
  | otherPhase (reported current : String)
  | noPhaseRecorded (reported : String)
  | notAPhase (phase : String) (pool : Pool)
  | invalidRevision (text : String)
  | noPhase (status : Status)
  | cannotStart (phase : String) (status : Status)
  | notDone (status : Status)
  /-- A refusal in someone else's words. -/
  | worded (message : String)
deriving DecidableEq, Repr

/-- The refusal in words. -/
def Refusal.message : Refusal → String
  | .cannotMove src dst => s!"cannot move from {Text.word src} to {Text.word dst}"
  | .blockFinished => "cannot block a finished item"
  | .notBlocked status => s!"cannot unblock an item that is {Text.word status}"
  | .noBlockedFrom => "no valid blocked-from status recorded"
  | .enterWithoutPhase status =>
    s!"cannot enter {Text.word status} without a phase; promote the item instead"
  | .contextForUnblocked => "an unblock context can only be given to a blocked item"
  | .mergeIntoItself => "an item cannot be merged into itself"
  | .emptyTitle => "title cannot be empty"
  | .noPipeline name => s!"no pipeline named '{name}' is configured"
  | .notPromotable status =>
    s!"only new or ready items can be promoted (item is {Text.word status})"
  | .nothingRunning status => s!"no phase is running while the item is {Text.word status}"
  | .otherPhase reported current =>
    s!"reported phase '{reported}' but current phase is '{current}'"
  | .noPhaseRecorded reported => s!"reported phase '{reported}' but no phase is recorded"
  | .notAPhase phase pool => s!"phase '{phase}' is not a {Text.word pool} phase of this pipeline"
  | .invalidRevision text => s!"'{text}' is not a valid revision"
  | .noPhase status => s!"no phase recorded while the item is {Text.word status}"
  | .cannotStart phase status =>
    s!"phase '{phase}' cannot start while the item is {Text.word status}"
  | .notDone status => s!"only done items can be archived (item is {Text.word status})"
  | .worded message => message

/-- A change that may be refused: what came of it, and the item after it. -/
abbrev Change (α : Type) := Item → Except Refusal α × Item

namespace Item

/-! ## Optional entries -/

/-- Store a text trimmed; a blank one, or none, removes the entry. -/
def setText (now : Stamp) (key : Key) (value : Option String) (item : Item) : Item :=
  match notBlank (value.map Text.trim) with
  | some text => item.setEntry now key (.text text)
  | none => item.removeEntry now key

/-- Store the word of a member; none removes the entry. -/
def setMember {α : Type} [Text.Vocabulary α] (now : Stamp) (key : Key) (value : Option α)
    (item : Item) : Item :=
  item.setText now key (value.map Text.word)

/-- Set the current phase. -/
def setPhase (now : Stamp) (phase : Option String) : Item → Item := setText now .phase phase

/-- Set the pool of the current phase. -/
def setPhasePool (now : Stamp) (pool : Option Pool) : Item → Item := setMember now .phasePool pool

/-- Set the pipeline that the item asks for. -/
def setPipelineType (now : Stamp) (name : Option String) : Item → Item :=
  setText now .pipelineType name

/-- Set the revision that the current phase started from. -/
def setLastPhaseCommit (now : Stamp) (revision : Option String) : Item → Item :=
  setText now .lastPhaseCommit revision

/-- Set the answer given to a blocked item. -/
def setUnblockContext (now : Stamp) (context : Option String) : Item → Item :=
  setText now .unblockContext context

/-- Set the item that this one should be merged into. -/
def setMergeInto (now : Stamp) (target : Option String) : Item → Item :=
  setText now .mergeInto target

/-- Ask for a new assessment, or no longer. -/
def setTriageRequested (now : Stamp) (requested : Bool) (item : Item) : Item :=
  if requested then item.setEntry now .triageRequested (.bool true)
  else item.removeEntry now .triageRequested

/-- Set the structured description; its context becomes the description in one line. -/
def setStructured (now : Stamp) (description : Description) (item : Item) : Item :=
  { item.setEntry now .description description.toJson with
    description := if Text.isBlank description.context then none else some description.context }

/-! ## Status -/

/-- Write a status: the native one, and the sub-state where the store cannot tell. -/
def setStatus (now : Stamp) (status : Status) (item : Item) : Item :=
  match status.substate? with
  | some substate => (item.setNative now .todo).setEntry now .status (.text substate)
  | none => (item.setNative now status.native).removeEntry now .status

/-- Block with a reason, recording the status to restore; a blocked item only gets the reason. An
    answer given before no longer counts. -/
def setBlocked (now : Stamp) (reason : Option String) (blockedType : Option BlockType) :
    Change Unit := fun item =>
  let current := item.status
  if current = .done then (.error .blockFinished, item)
  else
    let item :=
      if current = .blocked then item
      else
        (item.setEntry now .blockedFrom (.text (Text.word current))).removeEntry now .status
    (.ok (), ((item.blockNative now reason).setMember now .blockedType blockedType).removeEntry now
      .unblockContext)

/-- Change the status as the table allows. -/
def transition (now : Stamp) (dst : Status) : Change Unit := fun item =>
  let src := item.status
  if src = dst then (.ok (), item)
  else if !src.mayBecome dst then (.error (.cannotMove src dst), item)
  else if dst = .blocked then setBlocked now none none item
  else (.ok (), item.setStatus now dst)

/-- Restore the status that the item was blocked from. The answer, the one given now or else the
    one recorded before, stays readable. -/
def unblock (now : Stamp) (context : Option String) : Change Status := fun item =>
  let current := item.status
  if current ≠ .blocked then (.error (.notBlocked current), item)
  else
    match item.blockedFrom with
    | none => (.error .noBlockedFrom, item)
    | some restored =>
      let answer := (notBlank context).or item.unblockContext
      let item := (((item.setStatus now restored).removeEntry now .blockedFrom).removeEntry now
        .blockedType).removeEntry now .unblockContext
      let item := item.unblockNative now
      (.ok restored, match answer with
        | some text => item.setEntry now .unblockContext (.text text)
        | none => item)

/-! ## Taking in another item -/

/-- The structured description, or one whose context is the description in one line. -/
def fullDescription (item : Item) : Description :=
  item.structured.getD { context := item.description.getD "" }

/-- The texts of the second list that the first lacks, each once, after the first. -/
def union (xs ys : List String) : List String :=
  ys.foldl (fun acc y => if acc.contains y then acc else acc ++ [y]) xs

/-- Take in another item: dependencies and tags are united, the higher priority wins, and the
    descriptions are joined. -/
def absorb (now : Stamp) (source target : Item) : Item :=
  let foreign := source.dependencies.filter fun d => d ≠ target.id ∧ d ≠ source.id
  let joined := target.fullDescription.join source.fullDescription
  let item := { target with
    dependencies := (union target.dependencies foreign).filter (· ≠ source.id)
    tags := union target.tags source.tags
    priority := max target.priority source.priority }
  touch now (if joined.isEmpty then item else item.setStructured now joined)

end Item

end Backlog
