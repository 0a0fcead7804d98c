/-
  Pipelines.

  A pipeline is a list of pre-phases, run while an item is scoping, and a list of main phases, run
  while it is in progress.  `Pipelines` are named, one of them always feature, and they say
  which of them items without a known pipeline use.  Warnings name what will misbehave.
-/
import Backlog.Item.Field

namespace Backlog

/-! ## Phases and pipelines -/

/-- One step of a pipeline. -/
structure Phase where
  name : String
  /-- Whether it must not run beside other destructive phases. -/
  destructive : Bool := false
deriving DecidableEq, Repr

/-- The phases of each pool in order. -/
structure Pipeline where
  prePhases : List Phase := []
  phases : List Phase := []
deriving DecidableEq, Repr

namespace Pipeline

/-- The built-in pipeline. -/
def feature : Pipeline where
  prePhases := [{ name := "research" }]
  phases := [{ name := "prd" }, { name := "design" }, { name := "spec" },
    { name := "build", destructive := true }, { name := "review" }]

/-- The phases of a pool. -/
def pool (pipeline : Pipeline) : Pool → List Phase
  | .pre => pipeline.prePhases
  | .main => pipeline.phases

/-- The place of the first phase with a name. -/
def index? (pipeline : Pipeline) (pool : Pool) (name : String) : Option Nat :=
  (pipeline.pool pool).findIdx? fun p => p.name == name

/-- The first phase with a name. -/
def phase? (pipeline : Pipeline) (pool : Pool) (name : String) : Option Phase :=
  (pipeline.pool pool).find? fun p => p.name == name

/-- The phase that a pool begins with. -/
def first? (pipeline : Pipeline) (pool : Pool) : Option Phase := (pipeline.pool pool).head?

/-- The phase after the first one with a name. -/
def next? (pipeline : Pipeline) (pool : Pool) (name : String) : Option Phase :=
  (pipeline.index? pool name).bind fun i => (pipeline.pool pool)[i + 1]?

/-- Whether there is no phase at all. -/
def isEmpty (pipeline : Pipeline) : Bool := pipeline.prePhases.isEmpty && pipeline.phases.isEmpty

end Pipeline

/-! ## Sets of pipelines -/

/-- Named pipelines, and the name of the one for items that ask for none of them. -/
structure Pipelines where
  default : String
  byName : Dict Pipeline
deriving DecidableEq

namespace Pipelines

/-- The name of the built-in pipeline. -/
def builtIn : String := "feature"

/-- The given pipelines, and the built-in one unless its name is taken. -/
def make (default : String) (pipelines : Dict Pipeline) : Pipelines :=
  ⟨default, if pipelines.contains builtIn then pipelines
    else pipelines.insert builtIn Pipeline.feature⟩

instance : Inhabited Pipelines := ⟨make builtIn .empty⟩

/-- The names in order. -/
def names (set : Pipelines) : List String := set.byName.keys

/-- The pipeline with a name. -/
def get? (set : Pipelines) (name : String) : Option Pipeline := set.byName.get? name

/-- The pipeline for a pipeline type: the one of that name, or else the default one. -/
def resolve? (set : Pipelines) (type : Option String) : Option Pipeline :=
  (type.bind set.get?).or (set.get? set.default)

/-- Whether a pipeline type names a pipeline; none does. -/
def isKnown (set : Pipelines) (type : Option String) : Bool :=
  match type with
  | some name => set.byName.contains name
  | none => true

/-! ## An item in its pipeline -/

/-- The name and the pool of an item's phase; the status tells the pool if no entry does. -/
def place? (item : Item) : Option (String × Pool) := do
  let name ← item.phase
  let pool ← item.phasePool.or (Pool.ofStatus? item.status)
  return (name, pool)

/-- The phase that an item is in, as its pipeline has it. -/
def currentPhase? (set : Pipelines) (item : Item) : Option Phase := do
  let (name, pool) ← place? item
  (← set.resolve? item.pipelineType).phase? pool name

/-- The place of an item's phase in its pool. -/
def currentIndex? (set : Pipelines) (item : Item) : Option Nat := do
  let (name, pool) ← place? item
  (← set.resolve? item.pipelineType).index? pool name

/-- Whether an item's phase is a destructive one. -/
def isDestructive (set : Pipelines) (item : Item) : Bool :=
  (set.currentPhase? item).any (·.destructive)

/-! ## Warnings -/

/-- Something that will misbehave. -/
inductive Warning where
  | undefinedDefault (name : String) (available : List String)
  | noPhases (pipeline : String)
  | noMainPhases (pipeline : String)
  | unnamedPhase (pipeline : String)
  | repeatedPhase (pipeline : String) (pool : Pool) (phase : String)
deriving DecidableEq, Repr

/-- The warning in words. -/
def Warning.message : Warning → String
  | .undefinedDefault name available =>
    s!"Default pipeline '{name}' is not defined (available: "
      ++ ", ".intercalate available ++ ")"
  | .noPhases pipeline => s!"Pipeline '{pipeline}' has no phases"
  | .noMainPhases pipeline =>
    s!"Pipeline '{pipeline}' has no main phases; items finish as soon as they are promoted"
  | .unnamedPhase pipeline => s!"Pipeline '{pipeline}' has a phase with an empty name"
  | .repeatedPhase pipeline pool phase =>
    s!"Pipeline '{pipeline}' repeats {Text.word pool} phase '{phase}'"

/-- Warnings about the phases of a pool, given the names before them. -/
def phaseWarnings (pipeline : String) (pool : Pool) : List String → List Phase → List Warning
  | _, [] => []
  | seen, p :: ps =>
    if Text.isBlank p.name then .unnamedPhase pipeline :: phaseWarnings pipeline pool seen ps
    else if seen.contains p.name then
      .repeatedPhase pipeline pool p.name :: phaseWarnings pipeline pool seen ps
    else phaseWarnings pipeline pool (p.name :: seen) ps

/-- Warnings about a pipeline. -/
def pipelineWarnings (name : String) (pipeline : Pipeline) : List Warning :=
  (if pipeline.isEmpty then [.noPhases name]
    else if pipeline.phases.isEmpty then [.noMainPhases name] else [])
  ++ phaseWarnings name .pre [] pipeline.prePhases
  ++ phaseWarnings name .main [] pipeline.phases

/-- Warnings about definitions that will misbehave. -/
def validate (set : Pipelines) : List Warning :=
  (if set.byName.contains set.default then []
    else [.undefinedDefault set.default set.names])
  ++ set.byName.entries.flatMap fun (name, pipeline) => pipelineWarnings name pipeline

end Pipelines

/-! ## Examples -/

example : (Pipeline.feature.next? .main "spec").map (·.name) = some "build" := by decide
example : Pipeline.feature.next? .main "review" = none := by decide
example : (default : Pipelines).validate = [] := by decide

end Backlog
