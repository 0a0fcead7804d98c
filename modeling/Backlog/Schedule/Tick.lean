/-
  Planning a tick.

  Program: `Schedule.tick` looks at the items in order of age, then ID.  An item that is running is
  passed over; a done one is archived, a blocked one with its answer unblocked, one with a merge or
  triage signal gets that and nothing else.  The rest are candidates: ready ones by impact, then
  those in progress and those scoping by how far they are along, then new ones; equals keep the
  order of age.  Each candidate in turn takes a slot if its dependencies are met and one is free, a
  destructive phase also an exclusive slot.

  Specification: the plan is a function of the items' set, the running work, the limits and the
  pipelines alone; the two budgets are never overdrawn.

  The crux is that the candidates' order is fixed before the first slot is given away, so giving
  slots is one pass over a list (`offerAll`).
-/
import Backlog.Pipeline
import Backlog.Schedule.Action

namespace Backlog

/-! ## Limits and running work -/

/-- How much may run at once. -/
structure Limits where
  /-- Items worked on, running and dispatched. -/
  maxWip : Nat := 3
  /-- Destructive phases among them. -/
  maxExclusive : Nat := 1
deriving DecidableEq, Repr

/-- A phase that is running. -/
structure RunningPhase where
  phase : String
  pool : Pool
  destructive : Bool
deriving DecidableEq, Repr

/-- The work in flight by item. -/
abbrev Running := Dict RunningPhase

/-- How many of the running phases are destructive. -/
def Running.destructiveCount (running : Running) : Nat :=
  running.values.countP (·.destructive)

namespace Schedule

/-! ## Dependencies -/

/-- The status of the item with an ID; of several, of the last. -/
def statusOf? (items : List Item) (id : String) : Option Status :=
  (items.reverse.find? fun i => i.id == id).map Item.status

/-- The dependencies that are present and not done. One that is not there counts as met. -/
def unmetDependencies (items : List Item) (item : Item) : List String :=
  item.dependencies.filter fun d =>
    d ≠ item.id && (statusOf? items d).any fun s => !s.isTerminal

/-! ## Order -/

/-- Whether an item comes no later than another by age, then ID. -/
def olderFirst (a b : Item) : Bool :=
  a.createdAt.before b.createdAt || (a.createdAt == b.createdAt && a.id ≤ b.id)

/-- The items by age, then ID. -/
def byAge (items : List Item) : List Item := items.mergeSort olderFirst

/-- Items by a key from high to low, those without one last; equals keep their order. -/
def byKeyDown (key : Item → Option Nat) (items : List Item) : List Item :=
  let rank (i : Item) : Nat := match key i with
    | some n => n + 1
    | none => 0
  items.mergeSort fun a b => rank b ≤ rank a

/-! ## Signals -/

/-- What becomes of an item before any slot is given away. -/
inductive Standing where
  | act (action : Action)
  | skip (reason : SkipReason)
  /-- Blocked, and without an answer. -/
  | rest
  | candidate
deriving DecidableEq, Repr

/-- What becomes of an item before any slot is given away. -/
def standing (items : List Item) (running : Running) (item : Item) : Standing :=
  if running.contains item.id then .skip .alreadyRunning
  else
    match item.status with
    | .done => .act (.archive item.id)
    | .blocked =>
      match item.unblockContext with
      | some context => .act (.unblock item.id context)
      | none => .rest
    | _ =>
      match item.mergeInto with
      | some target =>
        if target ≠ item.id ∧ items.any (fun i => i.id == target) then
          .act (.merge item.id target)
        else .skip (.mergeTargetMissing target)
      | none => if item.triageRequested then .act (.triage item.id) else .candidate

/-- The part of the plan that takes no slot. -/
def signals (items : List Item) (running : Running) (ordered : List Item) : Plan where
  actions := ordered.filterMap fun i => match standing items running i with
    | .act action => some action
    | _ => none
  skipped := ordered.filterMap fun i => match standing items running i with
    | .skip reason => some (i.id, reason)
    | _ => none

/-! ## Candidates -/

/-- The candidates in the order in which they are offered a slot. -/
def candidates (items : List Item) (running : Running) (pipelines : Pipelines) : List Item :=
  let open_ := (byAge items).filter fun i => standing items running i = .candidate
  let ofStatus (s : Status) : List Item := open_.filter fun i => i.status = s
  byKeyDown (fun i => i.impact.map Level.rank) (ofStatus .ready)
    ++ byKeyDown pipelines.currentIndex? (ofStatus .inProgress)
    ++ byKeyDown pipelines.currentIndex? (ofStatus .scoping)
    ++ ofStatus .new

/-- What a candidate would do with a slot: move on, or run its phase if its pipeline has it. -/
def proposal (pipelines : Pipelines) (item : Item) : Option Action :=
  match item.status with
  | .scoping | .inProgress =>
    (pipelines.currentPhase? item).map fun phase =>
      let usual := if item.status = .scoping then Pool.pre else Pool.main
      .runPhase item.id phase.name (item.phasePool.getD usual) phase.destructive
  | status => some (.promote item.id status)

/-! ## Slots -/

/-- The slots that are free. -/
structure Capacity where
  wip : Nat
  exclusive : Nat
deriving DecidableEq, Repr

/-- The slots that running work leaves free. -/
def Capacity.left (limits : Limits) (running : Running) : Capacity where
  wip := limits.maxWip - running.size
  exclusive := limits.maxExclusive - running.destructiveCount

/-- Offer a slot to a candidate: what it does, or why nothing, and the slots left. -/
def offer (items : List Item) (pipelines : Pipelines) (free : Capacity) (item : Item) :
    Except SkipReason Action × Capacity :=
  match proposal pipelines item with
  | none => (.error .noRunnablePhase, free)
  | some action =>
    let waitingOn := unmetDependencies items item
    if !waitingOn.isEmpty then (.error (.unmetDependencies waitingOn), free)
    else if free.wip = 0 then (.error .wipLimit, free)
    else if action.isDestructive then
      if free.exclusive = 0 then (.error .exclusiveLimit, free)
      else (.ok action, { wip := free.wip - 1, exclusive := free.exclusive - 1 })
    else (.ok action, { free with wip := free.wip - 1 })

/-- Offer slots to candidates in turn. -/
def offerAll (items : List Item) (pipelines : Pipelines) : Capacity → List Item → Plan
  | _, [] => {}
  | free, item :: rest =>
    let (decision, free) := offer items pipelines free item
    let plan := offerAll items pipelines free rest
    match decision with
    | .ok action => { plan with actions := action :: plan.actions }
    | .error reason => { plan with skipped := (item.id, reason) :: plan.skipped }

/-- Decide what to do this tick, and why every other item is passed over. -/
def tick (items : List Item) (running : Running) (limits : Limits) (pipelines : Pipelines) :
    Plan :=
  signals items running (byAge items)
    ++ offerAll items pipelines (.left limits running) (candidates items running pipelines)

/-- The actions of a tick. -/
def actions (items : List Item) (running : Running) (limits : Limits) (pipelines : Pipelines) :
    List Action :=
  (tick items running limits pipelines).actions

end Schedule

end Backlog
