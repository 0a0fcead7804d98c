/-
  The commands of the command line.

  Program: `run` reads the arguments, finds the project's folder and carries the instruction out on
  the machine.

  Specification: a run ends in one of three ways, each with its exit code: done, failed with a
  message, or not understood.  What was printed before a failure stays printed.
-/
import Backlog.Cli.Invocation
import Backlog.Cli.Report
import Backlog.Cli.Session

namespace Backlog.Cli

open Session (attempt require)

/-! ## Planning -/

/-- The work in flight: the named items that are active and in a phase. -/
def runningOf (set : Pipelines) (items : List Item) (ids : List String) : Running :=
  .ofList <| ids.filterMap fun id => do
    let item ← items.find? fun i => i.id == id
    let phase ← set.currentPhase? item
    let pool ← item.phasePool
    return (id, { phase := phase.name, pool, destructive := phase.destructive })

/-- The warnings about named items that are not in flight. -/
def runningWarnings (set : Pipelines) (items : List Item) (ids : List String) : List String :=
  ids.filterMap fun id =>
    match items.find? fun i => i.id == id with
    | none => some "Running item is not in the active set"
    | some item =>
      if (set.currentPhase? item).isSome && item.phasePool.isSome then none
      else some "Running item has no current phase"

/-- The plan for the next tick, given the named items as the work in flight. -/
def nextPlan (settings : Settings) (items : List Item) (ids : List String) (maxWip : Option Nat) :
    Plan :=
  let limits := settings.limits
  Schedule.tick items (runningOf settings.allPipelines items ids)
    { limits with maxWip := maxWip.getD limits.maxWip } settings.allPipelines

/-- Whether a phase of an item runs exclusively when nobody says so: if it is the one that the item
    is in, and destructive. -/
def exclusiveByDefault (set : Pipelines) (items : List Item) (id phase : String) : Bool :=
  ((items.find? fun i => i.id == id).bind set.currentPhase?).any fun p =>
    p.name == phase && p.destructive

/-! ## Commands in a session -/

/-- The pipelines of the session's project. -/
def pipelines : InSession Pipelines := do return (← get).project.settings.allPipelines

/-- Print lines within a session. -/
def print (lines : List String) : InSession Unit := Host.printLines lines

/-- Give a command, and print what its answer is reported as. -/
def tell (command : Command) (report : command.Answer → List String) : InSession Unit := do
  match ← attempt command with
  | some answer => print (report answer)
  | none => pure ()

/-- Create an item. -/
def add (draft : Draft) : InSession Unit := do
  let set ← pipelines
  match draft.pipelineType.filter fun name => !set.byName.contains name with
  | some name => do
    -- Nothing was changed, but a session is closed before it fails for a reason of its own.
    Session.close
    throw (.unknownPipeline name set.names)
  | none =>
    tell (.ingest [draft]) fun (ids : List String) =>
      ids.map fun id => s!"Created {id}: {draft.title}"

/-- Show what would be done next. -/
def next (verbose : Bool) (ids : List String) (maxWip : Option Nat) (json : Bool) :
    InSession Unit := do
  let items : List Item ← require .snapshot
  let settings := (← get).project.settings
  (runningWarnings settings.allPipelines items ids).forM fun text => Host.warn text
  let plan := nextPlan settings items ids maxWip
  print (if json then [plan.toJson.pretty] else Report.plan verbose plan)

/-- Report a phase run. -/
def complete (options : CompleteOptions) (outcome : RunOutcome) : InSession Unit := do
  let folder := (← get).project.folder
  let destructive ← match options.exclusive with
    | some exclusive => pure exclusive
    | none => do
      let items : List Item ← require .snapshot
      pure (exclusiveByDefault (← pipelines) items options.item options.phase)
  let completion : PhaseRun :=
    { item := options.item, phase := options.phase, destructive, outcome
      artifacts := options.artifacts.map (Path.join folder) }
  tell (.completePhase completion) (Report.completion options.item options.phase)

/-! ## Commands without a session -/

/-- Make what is missing of a project. -/
def makeProject (folder : String) : Task Unit := do
  let made ← onProject (Project.init folder)
  Host.printLines (Report.made (Project.storeFolder folder) made)

/-- Show the settings. -/
def showSettings (folder : String) : Task Unit := do
  let path := Project.settingsPath folder
  Host.printLines Report.settingsTitle
  let there ← Host.exists? path
  Host.printLines (Report.settingsOrigin path there)
  let settings ← if there then onProject (Project.readSettings path) else pure {}
  Host.printLines (Report.settings settings)
  if !(← Host.exists? path) then Host.printLines Report.settingsHint

/-- Show what is wrong with the settings. -/
def validateSettings (folder : String) : Task Unit := do
  let path := Project.settingsPath folder
  Host.printLines ["", "Validating configuration...", ""]
  if ← Host.exists? path then
    let settings ← onProject (Project.readSettings path)
    Host.printLines (Report.warnings settings.validate)
  else Host.printLine "No phasekeep.toml found. Using defaults (valid)."

/-- Write the usual settings, unless there are settings. -/
def writeDefaultSettings (folder : String) : Task Unit := do
  let path := Project.settingsPath folder
  if ← Host.exists? path then
    Host.printLines ["phasekeep.toml already exists at " ++ path,
      "Delete it first if you want to recreate it."]
  else
    let store := Project.storeFolder folder
    if !(← Host.exists? store) then Host.orFail .refused (Host.makeFolders store)
    onProject (Project.writeSettings path {})
    Host.printLines (Report.settingsWritten path)

/-! ## Runs -/

/-- Read a word before anything is opened. -/
def readWord (α : Type) [Text.Vocabulary α] (text : String) : Task α :=
  ExceptT.mk (.done ((Text.readWord α text).mapError .unknownWord))

/-- Carry out an instruction on the project in a folder. -/
def perform (verbose : Bool) (folder : String) : Instruction → Task Unit
  | .init => makeProject folder
  | .add draft => do
    if draft.title.isEmpty then throw .emptyTitle
    Session.within folder (add draft)
  | .status => Session.within folder do
    let items : List Item ← require .snapshot
    print (Report.items items)
  | .next ids maxWip json => Session.within folder (next verbose ids maxWip json)
  | .promote id => Session.within folder <|
    tell (.promote id) fun (progress : Progress) => [s!"Promoted {id}: " ++ progress.message]
  | .start id revision => Session.within folder <|
    tell (.startPhase id revision) fun (recorded : Option String) => [Report.start id recorded]
  | .complete options => do
    -- A word that names no kind of block fails the run before the project is opened.
    let outcome ← ExceptT.mk (.done (options.outcome.mapError .unknownWord))
    Session.within folder (complete options outcome)
  | .flush => Session.within folder do
    let revision : Option String ← require .flush
    print [Report.commit revision]
  | .archive id => Session.within folder <| tell (.archive id) fun _ => ["Archived " ++ id]
  | .block id reason word => do
    let blockType ← word.mapM (readWord BlockType)
    Session.within folder <|
      tell (.update id [.setBlocked reason blockType]) fun _ => [s!"Blocked {id}: {reason}"]
  | .unblock id context => Session.within folder <|
    tell (.unblock id context) fun (status : Status) =>
      [s!"Unblocked {id} (now " ++ Text.word status ++ ")"]
  | .merge source target => Session.within folder <|
    tell (.merge source target) fun _ => [s!"Merged {source} into {target}"]
  | .config .display => showSettings folder
  | .config .validate => validateSettings folder
  | .config .init => writeDefaultSettings folder

/-- How a run ends. -/
inductive Ending where
  | done
  | failed (failure : Failure)
  /-- The arguments were not understood. -/
  | misused
deriving DecidableEq, Repr

/-- The exit code. -/
def Ending.code : Ending → Nat
  | .done => 0
  | .failed _ => 1
  | .misused => 2

/-- What is printed for help. -/
def help : List String :=
  ["Work-item orchestrator with phased pipelines", "",
    "Usage: phasekeep [OPTIONS] <COMMAND>", "", "Commands:",
    "  " ++ ", ".intercalate ((names forms).filter (· ≠ "help") ++ ["config", "help"]), "",
    "Options:", "  -v, --verbose", "      --project-dir <PROJECT_DIR>", "  -h, --help",
    "  -V, --version"]

/-- Carry out an invocation. -/
def carryOut (invocation : Invocation) : Task Unit := do
  let folder ← match invocation.folder with
    | some folder => pure folder
    | none => match ← Host.here with
      | some folder => pure folder
      | none => throw .noCurrentFolder
  perform invocation.verbose folder invocation.instruction

/-- Run the program with arguments. -/
def run (args : List String) : Host Ending := do
  match read args with
  | .error .help => do
    Host.printLines help
    return .done
  | .error .version => do
    Host.printLine "phasekeep 0.1.0"
    return .done
  | .error .misuse => return .misused
  | .ok asked => do
    match ← (carryOut asked).run with
    | .ok () => return .done
    | .error failure => return .failed failure

end Backlog.Cli
