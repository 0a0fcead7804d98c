/-
  Typed updates, and new items.

  An `Update` is what a caller may ask to have changed on an item; updates given together are
  applied from left to right, and the first that is refused ends them.  A `Draft` is what is known
  of an item before it exists.
-/
import Backlog.Item.Change

namespace Backlog

/-! ## Updates -/

/-- What a caller may ask to have changed on an item. -/
inductive Update where
  /-- Change the status as the table allows. -/
  | transition (status : Status)
  | setPhase (phase : Option String)
  | setPhasePool (pool : Option Pool)
  | setPipelineType (name : Option String)
  | setBlocked (reason : String) (blockedType : Option BlockType)
  | setUnblockContext (context : Option String)
  /-- Record assessments; those not given stay. -/
  | assess (impact : Option Level) (size : Option Size) (risk : Option Level)
      (requiresHumanReview : Option Bool)
  | setDescription (description : Description)
  | setTriageRequested (requested : Bool)
  | setMergeInto (target : Option String)
  | setDependencies (dependencies : List String)
  | addTag (tag : String)
  | removeTag (tag : String)
  | setTitle (title : String)
  | setPriority (priority : Int)
deriving DecidableEq, Repr

namespace Item

/-- Record the word of a member, if there is one to record. -/
def recordMember {α : Type} [Text.Vocabulary α] (now : Stamp) (key : Key) (value : Option α)
    (item : Item) : Item :=
  match value with
  | some a => item.setEntry now key (.text (Text.word a))
  | none => item

/-- Apply one update. A status in which a phase runs is entered only with a phase recorded. -/
def applyUpdate (now : Stamp) : Update → Change Unit
  | .transition status, item =>
    if (status = .scoping ∨ status = .inProgress) ∧ item.status ≠ status ∧ item.phase.isNone then
      (.error (.enterWithoutPhase status), item)
    else transition now status item
  | .setPhase phase, item => (.ok (), item.setPhase now phase)
  | .setPhasePool pool, item => (.ok (), item.setPhasePool now pool)
  | .setPipelineType name, item => (.ok (), item.setPipelineType now name)
  | .setBlocked reason blockedType, item => setBlocked now (some reason) blockedType item
  | .setUnblockContext context, item =>
    if item.status ≠ .blocked ∧ context.isSome then (.error .contextForUnblocked, item)
    else (.ok (), item.setUnblockContext now context)
  | .assess impact size risk review, item =>
    let item := ((item.recordMember now .impact impact).recordMember now .size size).recordMember
      now .risk risk
    (.ok (), match review with
      | some b => item.setEntry now .requiresHumanReview (.bool b)
      | none => item)
  | .setDescription description, item => (.ok (), item.setStructured now description)
  | .setTriageRequested requested, item => (.ok (), item.setTriageRequested now requested)
  | .setMergeInto target, item =>
    if target = some item.id then (.error .mergeIntoItself, item)
    else (.ok (), item.setMergeInto now target)
  | .setDependencies dependencies, item =>
    (.ok (), touch now { item with dependencies := dependencies.filter (· ≠ item.id) })
  | .addTag tag, item =>
    (.ok (), if item.tags.contains tag then item
      else touch now { item with tags := item.tags ++ [tag] })
  | .removeTag tag, item => (.ok (), touch now { item with tags := item.tags.filter (· ≠ tag) })
  | .setTitle title, item =>
    if Text.isBlank title then (.error .emptyTitle, item)
    else (.ok (), touch now { item with title })
  | .setPriority priority, item => (.ok (), touch now { item with priority })

/-- Apply updates from left to right, as far as none is refused. -/
def applyUpdates (now : Stamp) : List Update → Change Unit
  | [], item => (.ok (), item)
  | u :: us, item =>
    match applyUpdate now u item with
    | (.ok (), item) => applyUpdates now us item
    | (.error e, item) => (.error e, item)

/-- Apply updates; what comes of it is the item after them. -/
def applyAll (now : Stamp) (updates : List Update) : Change Item := fun item =>
  let (r, item) := item.applyUpdates now updates
  (r.map fun () => item, item)

end Item

/-! ## New items -/

/-- What is known of an item before it exists. -/
structure Draft where
  title : String
  description : Option Description := none
  dependencies : List String := []
  tags : List String := []
  priority : Int := 0
  pipelineType : Option String := none
  origin : Option String := none
  impact : Option Level := none
  size : Option Size := none
  risk : Option Level := none
deriving DecidableEq, Repr

/-- The new item that a draft describes; it does not depend on itself. -/
def Draft.item (draft : Draft) (id : String) (now : Stamp) : Item :=
  let item := { Item.bare id draft.title now with
    priority := draft.priority
    tags := draft.tags
    dependencies := draft.dependencies.filter (· ≠ id) }
  let item := item.setStatus now .new
  let item := match draft.description with
    | some description => item.setStructured now description
    | none => item
  let item := item.setPipelineType now draft.pipelineType
  let item := item.setText now .origin draft.origin
  let item := item.setMember now .impact draft.impact
  let item := item.setMember now .size draft.size
  item.setMember now .risk draft.risk

/-! ## Examples -/

/-- A new item to try changes on. -/
def Draft.sample : Item := Draft.item { title := "Add caching" } "WRK-1" ⟨0, 0⟩

example : Draft.sample.status = .new := by decide
example : (Item.applyUpdate ⟨1, 0⟩ (.transition .inProgress) Draft.sample).2 = Draft.sample := by
  decide
example : (Item.setBlocked ⟨1, 0⟩ (some "which?") none Draft.sample).2.blockedFrom = some .new := by
  decide

end Backlog
