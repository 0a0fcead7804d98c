/-
  Progress along a pipeline.

  A new item is promoted into its first pre-phase, a ready one into its first main phase; where the
  pool has none the item passes it.  Completing the running phase leads to the next one of its pool,
  or to ready or done after the last.
-/
import Backlog.Item.Change
import Backlog.Pipeline

namespace Backlog

/-! ## Where an item lands -/

/-- Where an item landed. -/
inductive Progress where
  | entered (phase : Phase) (pool : Pool)
  | ready
  | done
deriving DecidableEq, Repr

/-- Where an item landed, in words. -/
def Progress.message : Progress → String
  | .entered phase pool => s!"{Text.word pool} phase '{phase.name}'"
  | .ready => "ready"
  | .done => "done"

namespace Item

/-- Enter a phase of a pool. -/
def enter (now : Stamp) (status : Status) (pool : Pool) (phase : Phase) (item : Item) : Item :=
  ((item.setStatus now status).setPhase now (some phase.name)).setPhasePool now (some pool)

/-- Leave the phases of a pool: after scoping an item is ready, after the main phases done. -/
def leave (now : Stamp) (pool : Pool) (item : Item) : Progress × Item :=
  let finish (status : Status) : Item :=
    ((item.setStatus now status).setPhase now none).setPhasePool now none
  match pool with
  | .pre => (.ready, finish .ready)
  | .main => (.done, finish .done)

/-- Enter a phase if there is one, and leave the pool if not. -/
def proceed (now : Stamp) (status : Status) (pool : Pool) (phase : Option Phase) (item : Item) :
    Progress × Item :=
  match phase with
  | some phase => (.entered phase pool, item.enter now status pool phase)
  | none => item.leave now pool

/-! ## Promotion -/

/-- The pipeline that an item goes through. -/
def pipeline (set : Pipelines) (item : Item) : Except Refusal Pipeline :=
  match set.resolve? item.pipelineType with
  | some pipeline => .ok pipeline
  | none => .error (.noPipeline set.default)

/-- Move a new item into scoping, or a ready one into the main pipeline. -/
def promote (now : Stamp) (set : Pipelines) : Change Progress := fun item =>
  match item.pipeline set with
  | .error e => (.error e, item)
  | .ok pipeline =>
    let into (pool : Pool) : Except Refusal Progress × Item :=
      let (progress, item) := item.proceed now pool.status pool (pipeline.first? pool)
      (.ok progress, item)
    match item.status with
    | .new => into .pre
    | .ready => into .main
    | other => (.error (.notPromotable other), item)

/-! ## Completion -/

/-- The pool of the phase that an item is running, if it is the named one. -/
def runningPool (phase : String) (item : Item) : Except Refusal Pool :=
  match Pool.ofStatus? item.status with
  | none => .error (.nothingRunning item.status)
  | some usual =>
    match item.phase with
    | none => .error (.noPhaseRecorded phase)
    | some current =>
      if current = phase then .ok (item.phasePool.getD usual)
      else .error (.otherPhase phase current)

/-- Complete the running phase. The answer that unblocked it has been used up. -/
def advance (now : Stamp) (phase : String) (set : Pipelines) : Change Progress := fun item =>
  match item.runningPool phase with
  | .error e => (.error e, item)
  | .ok pool =>
    match item.pipeline set with
    | .error e => (.error e, item)
    | .ok pipeline =>
      if (pipeline.index? pool phase).isNone then (.error (.notAPhase phase pool), item)
      else
        let (progress, item) := (item.setUnblockContext now none).proceed now pool.status pool
          (pipeline.next? pool phase)
        (.ok progress, item)

end Item

end Backlog
