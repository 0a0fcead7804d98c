/-
  Project settings.

  Settings are read from a configuration document whose sections and keys may all be left out;
  unknown ones are skipped, if only every number in them has a value.  A section may also be an
  array of its values in order, where nobody looks at further ones.  Written settings name every
  value, and read back as they were.
-/
import Backlog.Schedule.Tick
import Backlog.Store.Id
import Backlog.Toml.Document

namespace Backlog

/-- The settings of a project. -/
structure Settings where
  /-- What the IDs of new items begin with. -/
  stem : String := "WRK"
  limits : Limits := {}
  /-- How long to wait for the store's lock. -/
  lockTimeoutSecs : Nat := 5
  /-- The pipeline of items that ask for no known one. -/
  defaultPipeline : String := Pipelines.builtIn
  pipelines : Dict Pipeline := .empty
deriving DecidableEq

namespace Settings

instance : Inhabited Settings := ⟨{}⟩

/-- The pipelines that items go through. -/
def allPipelines (settings : Settings) : Pipelines :=
  .make settings.defaultPipeline settings.pipelines

/-! ## Reading -/

open Toml (Value)

/-- The values of a section in the order of their names, each if it is given. -/
def section? (names : List String) : Value → Option (List (Option Value))
  | .table _ entries =>
    if entries.all fun (name, v) => names.contains name || v.isFit then
      some (names.map fun name => lookupEntry name entries)
    else none
  | .scalar .date => some (names.map fun _ => none)
  | value => value.items?.map fun items => (List.range names.length).map fun i => items[i]?

/-- A value that may be left out. -/
def orElse? {α : Type} (fallback : α) (read : Value → Option α) : Option Value → Option α
  | none => some fallback
  | some v => read v

/-- A text. -/
def text? : Value → Option String
  | .scalar (.text s) => some s
  | _ => none

/-- A truth value. -/
def bool? : Value → Option Bool
  | .scalar (.bool b) => some b
  | _ => none

/-- A whole number from 0 to 2^64 - 1. -/
def count? : Value → Option Nat
  | .scalar (.integer n) => if 0 ≤ n ∧ n < Int.pow 2 64 then some n.toNat else none
  | _ => none

/-- A phase, which has to have a name. -/
def phase? (value : Value) : Option Phase := do
  match ← section? ["name", "destructive"] value with
  | [name, destructive] =>
    return { name := ← name.bind text?, destructive := ← orElse? false bool? destructive }
  | _ => none

/-- A list of phases. -/
def phases? (value : Value) : Option (List Phase) := do (← value.items?).mapM phase?

/-- A pipeline. -/
def pipeline? (value : Value) : Option Pipeline := do
  match ← section? ["pre_phases", "phases"] value with
  | [prePhases, phases] =>
    return { prePhases := ← orElse? [] phases? prePhases, phases := ← orElse? [] phases? phases }
  | _ => none

/-- Named pipelines. -/
def pipelines? : Value → Option (Dict Pipeline)
  | .table _ entries => do
    return .ofList (← entries.mapM fun (name, v) => do return (name, ← pipeline? v))
  | _ => none

/-- An empty section. -/
def emptySection : Value := .table .header []

/-- The settings that a document holds. -/
def ofDocument? (document : Toml.Entries) : Option Settings := do
  let [project, execution, pipelines] ← section? ["project", "execution", "pipelines"]
    (.table .header document) | none
  let project ← section? ["prefix"] (project.getD emptySection)
  let execution ← section? ["max_wip", "max_exclusive", "lock_timeout_secs", "default_pipeline"]
    (execution.getD emptySection)
  let pipelines ← pipelines? (pipelines.getD emptySection)
  match project, execution with
  | [stem], [maxWip, maxExclusive, lockTimeout, defaultPipeline] => do
    let defaults : Settings := {}
    return {
      stem := ← orElse? defaults.stem text? stem
      limits := { maxWip := ← orElse? defaults.limits.maxWip count? maxWip
                  maxExclusive := ← orElse? defaults.limits.maxExclusive count? maxExclusive }
      lockTimeoutSecs := ← orElse? defaults.lockTimeoutSecs count? lockTimeout
      defaultPipeline := ← orElse? defaults.defaultPipeline text? defaultPipeline
      pipelines }
  | _, _ => none

/-- The settings that a text holds. -/
def read? (text : String) : Option Settings := (Toml.readDocument? text).bind ofDocument?

/-! ## Writing -/

/-- A line with a key and its written value. -/
def line (key value : String) : String := key ++ " = " ++ value ++ "\n"

/-- The tables of a list of phases. -/
def renderPhases (path : String) (phases : List Phase) : String :=
  String.join (phases.map fun p =>
    "\n[[" ++ path ++ "]]\n" ++ line "name" (Toml.renderText p.name)
      ++ line "destructive" (if p.destructive then "true" else "false"))

/-- A named pipeline: its empty lists, then a table for each phase. -/
def renderPipeline (name : String) (pipeline : Pipeline) : String :=
  let path := "pipelines." ++ Toml.renderKey name
  let empty (key : String) (phases : List Phase) : String :=
    if phases.isEmpty then line key "[]" else ""
  let lists := empty "pre_phases" pipeline.prePhases ++ empty "phases" pipeline.phases
  (if lists.isEmpty then "" else "\n[" ++ path ++ "]\n" ++ lists)
    ++ renderPhases (path ++ ".pre_phases") pipeline.prePhases
    ++ renderPhases (path ++ ".phases") pipeline.phases

/-- The written settings. -/
def render (settings : Settings) : String :=
  "[project]\n" ++ line "prefix" (Toml.renderText settings.stem)
    ++ "\n[execution]\n" ++ line "max_wip" (toString settings.limits.maxWip)
    ++ line "max_exclusive" (toString settings.limits.maxExclusive)
    ++ line "lock_timeout_secs" (toString settings.lockTimeoutSecs)
    ++ line "default_pipeline" (Toml.renderText settings.defaultPipeline)
    ++ (if settings.pipelines.isEmpty then "\n[pipelines]\n"
      else String.join (settings.pipelines.entries.map fun (name, p) => renderPipeline name p))

/-! ## Warnings -/

/-- A setting that will misbehave. -/
inductive Warning where
  | stem (text : String)
  | noWip
  | noExclusive
  | exclusiveAboveWip (limits : Limits)
  | noWaiting
  | pipelines (warning : Pipelines.Warning)
deriving DecidableEq, Repr

/-- The warning in words. -/
def Warning.message : Warning → String
  | .stem text => s!"Invalid ID prefix '{text}': use ASCII letters and digits only"
  | .noWip => "max_wip is 0: no phase will ever be scheduled"
  | .noExclusive => "max_exclusive is 0: destructive phases will never be scheduled"
  | .exclusiveAboveWip limits =>
    s!"max_exclusive ({limits.maxExclusive}) exceeds max_wip ({limits.maxWip})"
  | .noWaiting => "lock_timeout_secs is 0: contended locks fail immediately"
  | .pipelines warning => warning.message

/-- Warnings about settings that will misbehave. -/
def validate (settings : Settings) : List Warning :=
  (if IdSource.isStem settings.stem then [] else [.stem settings.stem])
  ++ (if settings.limits.maxWip = 0 then [.noWip] else [])
  ++ (if settings.limits.maxExclusive = 0 then [.noExclusive] else [])
  ++ (if settings.limits.maxWip < settings.limits.maxExclusive
      then [.exclusiveAboveWip settings.limits] else [])
  ++ (if settings.lockTimeoutSecs = 0 then [.noWaiting] else [])
  ++ settings.allPipelines.validate.map .pipelines

/-! ## Examples -/

/-- Settings with a pipeline that has a name in need of quotes. -/
def sample : Settings where
  stem := "OPS"
  pipelines := .ofList [("hot fix", { phases := [{ name := "build", destructive := true }] })]

example : read? sample.render = some sample := by decide +kernel
example : read? "x = [1e400]" = none := by decide +kernel
example : (read? "project = [\"A\", 1e400]\nexecution.max_wip = 0x10").map (fun s => (s.stem, s.limits))
    = some ("A", { maxWip := 16 }) := by decide +kernel

end Settings

end Backlog
