/-
  What the commands print.

  Every report is a list of lines, made from plain values.
-/
import Backlog.Coordinator.Command
import Backlog.Project
import Backlog.Schedule.Tick
import Backlog.Text.Digits

namespace Backlog.Cli.Report

open Text (padLeft padRight)

/-! ## Items -/

/-- A line below the row of an item. -/
def detail (text : String) : String := padRight 10 "" ++ " " ++ text

/-- The cells of a row of the table of items. -/
def row (id status phase priority title : String) : String :=
  padRight 10 id ++ " " ++ padRight 12 status ++ " " ++ padRight 12 phase ++ " "
    ++ padLeft 4 priority ++ "  " ++ title

/-- The lines of an item. -/
def itemLines (item : Item) : List String :=
  row item.id (Text.word item.status) (item.phase.getD "-") (toString item.priority) item.title
    :: (item.blockedReason.toList.map fun reason => detail ("blocked: " ++ reason))
    ++ if item.dependencies.isEmpty then []
      else [detail ("depends on: " ++ ", ".intercalate item.dependencies)]

/-- The active items in a table. -/
def items : List Item → List String
  | [] => ["No active items. Run 'phasekeep add \"<title>\"' to create one."]
  | items =>
    [row "ID" "Status" "Phase" "Pri" "Title",
      row "----------" "------------" "------------" "----" "-----"]
    ++ items.flatMap itemLines
    ++ ["", toString items.length ++ " active items"]

/-! ## Plans -/

/-- A plan; with every skipped item if that is asked for. -/
def plan (verbose : Bool) (plan : Plan) : List String :=
  (if plan.isIdle then ["Nothing to do."]
    else "Next actions:" :: plan.actions.map fun action => "  " ++ action.message)
  ++ (if plan.skipped.isEmpty then [] else
    ["", "Skipped: " ++ plan.summary]
    ++ if verbose then
        plan.skipped.map fun (id, reason) => "  " ++ padRight 10 id ++ " " ++ reason.message
      else [])

/-! ## Phase completions -/

/-- What came of a phase completion. -/
def completion (id phase : String) (report : Completion) : List String :=
  (match report.progress with
    | some progress => s!"{id} {phase} complete: " ++ progress.message
    | none => s!"{id} {phase} recorded, item is " ++ Text.word report.status)
  :: match report.commit with
    | .committed revision => ["Committed " ++ revision]
    | .batched => []
    | .deferred => if report.destructive then ["Commit deferred to the next flush"] else []

/-- What came of a commit. -/
def commit : Option String → String
  | some revision => "Committed " ++ revision
  | none => "Nothing to commit."

/-- What came of the start of a phase. -/
def start (id : String) : Option String → String
  | some revision => s!"Started {id} at {revision}"
  | none => s!"Started {id} (no revision recorded)"

/-! ## Projects -/

/-- What was made of a project, with the path of its store. -/
def made (store : String) (made : Project.Made) : List String :=
  if made.created then
    ["Initialized phasekeep store at " ++ store, "", "Created:", "  .phasekeep/",
      "  ├── items.json       # Active work items",
      "  ├── phasekeep.toml   # Configuration (see `phasekeep config show`)",
      "  └── .gitignore       # Keeps the lock file out of git", "", "Next steps:",
      "  1. Run `phasekeep add \"<title>\"` to create an item",
      "  2. Run `phasekeep next` to see what to work on"]
  else
    ("phasekeep store already initialized at " ++ store)
      :: if made.wroteSettings then ["Wrote missing phasekeep.toml."] else []

/-! ## Settings -/

/-- The phases of a pool in order, destructive ones with a mark. -/
def phases (phases : List Phase) : String :=
  " -> ".intercalate (phases.map fun p => if p.destructive then p.name ++ "*" else p.name)

/-- The lines of a pipeline. -/
def pipeline (set : Pipelines) (name : String) (pipeline : Pipeline) : List String :=
  ["[pipelines." ++ name ++ "]" ++ (if name = set.default then " (default)" else ""),
    "  pre_phases: " ++ phases pipeline.prePhases,
    "  phases:     " ++ phases pipeline.phases, ""]

/-- The lines above the settings. -/
def settingsTitle : List String :=
  ["", "phasekeep Configuration", "=======================", ""]

/-- Where the settings come from. -/
def settingsOrigin (path : String) (there : Bool) : List String :=
  if there then ["Config file: " ++ path]
  else ["No phasekeep.toml found at " ++ path, "Using default configuration."]

/-- The settings and the pipelines they give. -/
def settings (settings : Settings) : List String :=
  let set := settings.allPipelines
  ["", "[project]", s!"  prefix = \"{settings.stem}\"", "", "[execution]",
    s!"  max_wip = {settings.limits.maxWip}", s!"  max_exclusive = {settings.limits.maxExclusive}",
    s!"  lock_timeout_secs = {settings.lockTimeoutSecs}",
    s!"  default_pipeline = \"{settings.defaultPipeline}\"", ""]
  ++ set.byName.entries.flatMap (fun (name, p) => pipeline set name p)
  ++ ["(* = destructive, runs exclusively)", ""]

/-- The hint below settings that no file gave. -/
def settingsHint : List String :=
  ["Run 'phasekeep config init' to create a phasekeep.toml file.", ""]

/-- The warnings about settings. -/
def warnings : List Settings.Warning → List String
  | [] => ["Configuration is valid.", ""]
  | warnings =>
    "Configuration warnings:" :: warnings.map (fun warning => "  - " ++ warning.message) ++ [""]

/-- What is said about settings that were written. -/
def settingsWritten (path : String) : List String :=
  ["Created phasekeep.toml at " ++ path, "", "You can now customize:", "  - [project] prefix",
    "  - [execution] max_wip, max_exclusive, lock_timeout_secs, default_pipeline",
    "  - [pipelines.<name>] pre_phases and phases", ""]

end Backlog.Cli.Report
