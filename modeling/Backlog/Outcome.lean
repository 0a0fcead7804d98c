/-
  What a phase run reports.

  A phase that is complete moves its item along the pipeline.  One that needs an answer, or has
  failed, blocks the item and keeps the phase, so that the item resumes there once unblocked.
-/
import Backlog.Progress

namespace Backlog

/-- How a phase run ended. -/
inductive RunOutcome where
  | complete
  /-- A human has to answer before the phase can go on. -/
  | blocked (reason : String) (blockedType : BlockType)
  | failed (reason : String)
deriving DecidableEq, Repr

/-- The outcome in a word. -/
def RunOutcome.label : RunOutcome → String
  | .complete => "complete"
  | .blocked .. => "blocked"
  | .failed _ => "failed"

/-- What recording an outcome did to the item. -/
structure Recorded where
  status : Status
  /-- Where the item landed, if its phase is complete. -/
  progress : Option Progress
  /-- The revision that the phase started from, as it was recorded before. -/
  phaseStart : Option String
deriving DecidableEq, Repr

namespace Item

/-- Block the item in the phase that it is running. -/
def blockInPhase (now : Stamp) (phase reason : String) (blockedType : Option BlockType) :
    Change Unit := fun item =>
  match item.runningPool phase with
  | .error e => (.error e, item)
  | .ok _ => setBlocked now (some reason) blockedType item

/-- Record how a run of the named phase ended. -/
def recordOutcome (now : Stamp) (phase : String) (outcome : RunOutcome) (set : Pipelines) :
    Change Recorded := fun item =>
  let recorded (after : Item) (progress : Option Progress) : Recorded :=
    { status := after.status, progress, phaseStart := item.lastPhaseCommit }
  match outcome with
  | .complete =>
    match item.advance now phase set with
    | (.ok progress, after) => (.ok (recorded after (some progress)), after)
    | (.error e, after) => (.error e, after)
  | .blocked reason blockedType =>
    match item.blockInPhase now phase reason (some blockedType) with
    | (.ok (), after) => (.ok (recorded after none), after)
    | (.error e, after) => (.error e, after)
  | .failed reason =>
    match item.blockInPhase now phase s!"phase {phase} failed: {reason}" none with
    | (.ok (), after) => (.ok (recorded after none), after)
    | (.error e, after) => (.error e, after)

/-- Record the revision that the current phase starts from. -/
def startPhase (now : Stamp) (revision : Option String) : Change Unit := fun item =>
  match item.phase with
  | none => (.error (.noPhase item.status), item)
  | some phase =>
    match item.status with
    | .scoping | .inProgress => (.ok (), item.setLastPhaseCommit now revision)
    | other => (.error (.cannotStart phase other), item)

end Item

end Backlog
