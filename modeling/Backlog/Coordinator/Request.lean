/-
  What the coordinator asks of its surroundings.

  There are three kinds of questions: calls of the store, calls of version control, and diagnostics
  to write down.  A call may fail, or break down halfway with a message or without one; a store call
  that fails has had no effect.  Nothing else of the world is visible to the coordinator, so a store,
  a version control system and a log are whatever answers these questions.
-/
import Backlog.Coordinator.Error
import Backlog.Script

namespace Backlog

/-! ## Failures -/

/-- How a store call fails. -/
inductive StoreFault where
  | failed (e : StoreError)
  /-- The call broke down, with a message if it left one. -/
  | crashed (message : Option String)
deriving DecidableEq, Repr

/-- How a version-control call fails. -/
inductive TrackerFault where
  | failed
  | crashed
deriving DecidableEq, Repr

/-! ## Diagnostics -/

/-- How serious a diagnostic is. -/
inductive Severity where
  | warning | error
deriving DecidableEq, Repr

/-- What the coordinator writes down for whoever operates it. -/
inductive Diagnostic where
  /-- The lock was not free; there is another try after so many milliseconds. -/
  | lockBusy (delayMs : Nat)
  | unknownPipeline
  | exclusivityDiffers
  | headMoved
  | destructiveCommitFailed
  | batchCommitFailed
  | trackerFailed
  | trackerCrashed
  | fatalError
  | retryableError
  | unexpectedError
  | halting
  | stoppedWithBatch
deriving DecidableEq, Repr

namespace Diagnostic

/-- How serious a diagnostic is. -/
def severity : Diagnostic → Severity
  | .trackerFailed | .trackerCrashed | .fatalError | .unexpectedError | .halting => .error
  | .lockBusy _ | .unknownPipeline | .exclusivityDiffers | .headMoved | .destructiveCommitFailed
  | .batchCommitFailed | .retryableError | .stoppedWithBatch => .warning

/-- A pause in its shortest form: seconds, with up to three decimals, or milliseconds below one. -/
def renderPause (ms : Nat) : String :=
  if ms = 0 then "0ns"
  else if ms < 1000 then s!"{ms}ms"
  else
    let decimals := (toString (1000 + ms % 1000)).toList.drop 1
    let decimals := (decimals.reverse.dropWhile (· == '0')).reverse
    let fraction := if decimals.isEmpty then "" else "." ++ String.ofList decimals
    toString (ms / 1000) ++ fraction ++ "s"

/-- The diagnostic in words. -/
def message : Diagnostic → String
  | .lockBusy delayMs => "Store lock busy, retrying in " ++ renderPause delayMs
  | .unknownPipeline => "Unknown pipeline type, the default pipeline will be used"
  | .exclusivityDiffers => "Reported phase exclusivity differs from the pipeline configuration"
  | .headMoved => "HEAD moved while a destructive phase was running"
  | .destructiveCommitFailed => "Destructive commit failed, keeping it for the next flush"
  | .batchCommitFailed => "Batch commit failed, keeping entries for the next flush"
  | .trackerFailed => "Version control step failed"
  | .trackerCrashed => "Version control step panicked"
  | .fatalError => "Fatal coordinator error"
  | .retryableError => "Command failed, caller may retry"
  | .unexpectedError => "Unexpected store failure"
  | .halting => "Coordinator halting after fatal error"
  | .stoppedWithBatch => "Coordinator stopped with uncommitted batched changes"

end Diagnostic

/-! ## Requests -/

/-- A question of the coordinator. -/
inductive Request where
  /-- Take the store's lock. -/
  | lock
  /-- Free the store's lock. -/
  | unlock
  /-- The active items. -/
  | load
  /-- Replace the active items, all or nothing. -/
  | save (items : List Item)
  /-- Add an item to the archive. -/
  | append (item : Item)
  /-- The IDs in the archive. -/
  | archivedIds
  /-- Put paths into the index of version control. -/
  | stage (paths : List String)
  /-- Take the changes of paths out of the index again. -/
  | unstage (paths : List String)
  /-- Put the store's own files into the index. -/
  | stageStore
  /-- Commit the index: the new revision, or none if there was nothing to commit. -/
  | commit (message : String)
  /-- The revision that the next commit builds on, if there is one. -/
  | head
  /-- Wait for so many milliseconds. -/
  | pause (ms : Nat)
  /-- Write down a diagnostic. -/
  | note (d : Diagnostic)

/-- What the answer to a question of the coordinator looks like. -/
def Request.Answer : Request → Type
  | .lock | .save _ | .append _ => Except StoreFault Unit
  | .load => Except StoreFault (List Item)
  | .archivedIds => Except StoreFault (List String)
  | .stage _ | .unstage _ | .stageStore => Except TrackerFault Unit
  | .commit _ | .head => Except TrackerFault (Option String)
  | .unlock | .pause _ | .note _ => Unit

/-- A program of the coordinator. -/
abbrev Talk := Script Request Request.Answer

namespace Talk

/-! ## Store calls -/

/-- How a task over the store ends early. -/
inductive Stop where
  | error (e : CommandError)
  /-- A call broke down, with a message if it left one. -/
  | crash (message : Option String)
deriving DecidableEq, Repr

/-- How a failing store call ends the task it belongs to. -/
def Stop.ofFault : StoreFault → Stop
  | .failed e => .error (.ofStore e)
  | .crashed message => .crash message

/-- A task over the store, which a failing call or an error ends early. -/
abbrev StoreTask (α : Type) := ExceptT Stop Talk α

namespace StoreTask

/-- The outcome of a call as a step of a task. -/
def ofAnswer {α : Type} (answer : Except StoreFault α) : Except Stop α :=
  answer.mapError Stop.ofFault

/-- The active items. -/
def load : StoreTask (List Item) := ExceptT.mk (.ask .load fun a => .done (ofAnswer a))

/-- Replace the active items. -/
def save (items : List Item) : StoreTask Unit :=
  ExceptT.mk (.ask (.save items) fun a => .done (ofAnswer a))

/-- Add an item to the archive. -/
def append (item : Item) : StoreTask Unit :=
  ExceptT.mk (.ask (.append item) fun a => .done (ofAnswer a))

/-- The IDs in the archive. -/
def archivedIds : StoreTask (List String) :=
  ExceptT.mk (.ask .archivedIds fun a => .done (ofAnswer a))

/-- End the task with an error. -/
def fail {α : Type} (e : CommandError) : StoreTask α := ExceptT.mk (.done (.error (.error e)))

/-- Go on with a value, or end the task with an error. -/
def ofExcept {α : Type} : Except CommandError α → StoreTask α
  | .ok a => pure a
  | .error e => fail e

/-- Run a task while holding the lock, which is freed however the task ends. -/
def locked {α : Type} (task : StoreTask α) : StoreTask α :=
  ExceptT.mk (.ask .lock fun
    | .error fault => .done (.error (.ofFault fault))
    | .ok () => do
      let outcome ← task.run
      .ask .unlock fun () => .done outcome)

end StoreTask

/-! ## Retries -/

/-- How often a task whose lock is not free is tried, and how long to wait between tries. -/
structure RetryPolicy where
  /-- Tries in all; none counts as one. -/
  attempts : Nat := 3
  delayMs : Nat := 1000
deriving DecidableEq, Repr

/-- Write down a diagnostic. -/
def note (d : Diagnostic) : Talk Unit := .ask (.note d) .done

/-- Wait for so many milliseconds. -/
def pause (ms : Nat) : Talk Unit := .ask (.pause ms) .done

/-- What a task over the store answers. A breakdown is reported under the name of the operation. -/
def outcome {α : Type} (operation : String) : Except Stop α → Except CommandError α
  | .ok a => .ok a
  | .error (.error e) => .error e
  | .error (.crash message) => .error (.storeCrashed
      (operation ++ " panicked: " ++ message.getD "non-string panic payload"))

/-- Run a task over the store, up to so many times more if its lock is not free. -/
def attempt {α : Type} (delayMs : Nat) (operation : String) (task : StoreTask α) :
    Nat → Talk (Except CommandError α)
  | 0 => do return outcome operation (← task.run)
  | more + 1 => do
    match ← task.run with
    | .error (.error (.lockTimeout _)) => do
      note (.lockBusy delayMs)
      pause delayMs
      attempt delayMs operation task more
    | ended => return outcome operation ended

/-- Run a task over the store, again if its lock is not free. -/
def withRetries {α : Type} (policy : RetryPolicy) (operation : String) (task : StoreTask α) :
    Talk (Except CommandError α) :=
  attempt policy.delayMs operation task (policy.attempts - 1)

/-! ## Version control -/

/-- The value of a version-control call; a failure is written down and gives none. -/
def settle {α : Type} : Except TrackerFault α → Talk (Option α)
  | .ok a => return some a
  | .error .failed => do
    note .trackerFailed
    return none
  | .error .crashed => do
    note .trackerCrashed
    return none

/-- Stage paths; whether it was done. -/
def stage (paths : List String) : Talk Bool :=
  .ask (.stage paths) fun a => do return (← settle a).isSome

/-- Take paths out of the index again. -/
def unstage (paths : List String) : Talk Unit :=
  .ask (.unstage paths) fun a => do
    let _ ← settle a

/-- Stage the store's own files. -/
def stageStore : Talk Unit :=
  .ask .stageStore fun a => do
    let _ ← settle a

/-- Commit the index: none if that failed, else the new revision if there is one. -/
def commit (message : String) : Talk (Option (Option String)) := .ask (.commit message) settle

/-- The revision that the next commit builds on. -/
def head : Talk (Option String) := .ask .head fun a => do return (← settle a).join

end Talk

/-! ## Examples -/

example : [0, 250, 1000, 1500, 60050].map Diagnostic.renderPause
    = ["0ns", "250ms", "1s", "1.5s", "60.05s"] := by decide +kernel

end Backlog
