/-
  Command-line sessions.

  Program: a session opens the project, gives commands to a coordinator over the project's store,
  and commits what they left in the batch before it ends.

  Specification: a command that is skipped is reported and counts as done; every other failure
  ends the session where it is.
-/
import Backlog.Coordinator.Serve
import Backlog.Project

namespace Backlog.Cli

/-! ## Failures -/

/-- Why a run fails. -/
inductive Failure where
  | noCurrentFolder
  | project (e : ProjectError)
  | noStore (folder : String)
  | command (e : CommandError)
  | emptyTitle
  | unknownPipeline (name : String) (available : List String)
  | unknownWord (e : Text.UnknownWord)
  /-- The file system refused, with its reason. -/
  | refused (reason : String)
deriving DecidableEq, Repr

/-- The failure in words. -/
def Failure.message : Failure → String
  | .noCurrentFolder => "Failed to get current directory"
  | .project e => e.message
  | .noStore folder => s!"No phasekeep store in {folder}. Run 'phasekeep init' first."
  | .command e => e.message
  | .emptyTitle => "Item title must not be empty"
  | .unknownPipeline name available =>
    s!"Unknown pipeline '{name}'. Available: " ++ ", ".intercalate available
  | .unknownWord e => e.message
  | .refused reason => reason

/-- A program of the command line. -/
abbrev Task (α : Type) := Host.Task Failure α

/-- A step on a project. -/
def onProject {α : Type} (task : Project.Task α) : Task α :=
  ExceptT.mk do return (← task.run).mapError .project

/-! ## Sessions -/

/-- An open project, and the coordinator of its store. -/
structure Session where
  project : Project
  coordinator : Coordinator := {}

/-- A program within a session. -/
abbrev InSession (α : Type) := StateT Session (Host.Task Failure) α

namespace Session

/-- The settings of the session's coordinator. -/
def settingsFor (project : Project) : Coordinator.Settings where
  stem := project.settings.stem
  pipelines := project.settings.allPipelines

/-- Open the project in a folder; it has to have a store. -/
def openIn (folder : String) : Task Session := do
  let project ← onProject (Project.openIn folder)
  if !(← Project.hasStore project.folder) then throw (.noStore project.folder)
  project.settings.validate.forM fun warning => Host.warn warning.message
  return { project }

/-- Give the coordinator a command. -/
def submit (command : Command) : InSession (Except CommandError command.Answer) := do
  let session ← get
  let talk := session.coordinator.submit (settingsFor session.project) (← Host.now) command
  let (answer, coordinator) ← (talk.interpret session.project.store.answer : Host _)
  set { session with coordinator }
  return answer

/-- Give a command whose every error is a failure. -/
def require (command : Command) : InSession command.Answer := do
  match ← submit command with
  | .ok answer => return answer
  | .error e => throw (.command e)

/-- Give a command that may be skipped, which is reported. -/
def attempt (command : Command) : InSession (Option command.Answer) := do
  match ← submit command with
  | .ok answer => return some answer
  | .error e =>
    if e.category = .skip then
      Host.printLine ("Skipped: " ++ e.message)
      return none
    else throw (.command e)

/-- Commit the batch and end the coordinator, which may have halted already. -/
def close : InSession Unit := do
  match ← submit .flush with
  | .ok _ | .error .halted => pure ()
  | .error e => throw (.command e)
  let session ← get
  let coordinator ← (session.coordinator.close.interpret session.project.store.answer : Host _)
  set { session with coordinator }

/-- Run a program in a session on the project in a folder. -/
def within (folder : String) (body : InSession Unit) : Task Unit := do
  let session ← openIn folder
  let _ ← (body *> close).run session

end Session

end Backlog.Cli
