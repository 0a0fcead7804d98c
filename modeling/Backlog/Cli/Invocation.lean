/-
  What a command line asks for.

  Every command has a `Form`: the grammar of its arguments, and the instruction that arguments of
  that grammar stand for.  Two options hold at every level of a command line; for the folder of the
  project the deepest level decides.
-/
import Backlog.Cli.Arguments
import Backlog.Item.Update
import Backlog.Outcome

namespace Backlog.Cli

/-! ## Instructions -/

/-- The report of a phase run, as it is given on a command line. -/
structure CompleteOptions where
  item : String
  phase : String
  /-- Paths of files, as given. -/
  artifacts : List String := []
  /-- What has to be answered, if the phase is blocked. -/
  blocked : Option String := none
  /-- The word for the kind of block. -/
  blockType : String := "clarification"
  /-- Why the phase failed, if it did. -/
  failed : Option String := none
  /-- Whether the phase ran exclusively, if that is said. -/
  exclusive : Option Bool := none
deriving DecidableEq, Repr

/-- The outcome that is reported; the kind of block counts for a blocked phase alone. -/
def CompleteOptions.outcome (options : CompleteOptions) : Except Text.UnknownWord RunOutcome :=
  match options.blocked, options.failed with
  | some reason, _ => (Text.readWord BlockType options.blockType).map (.blocked reason)
  | none, some reason => .ok (.failed reason)
  | none, none => .ok .complete

/-- What is done about the settings. -/
inductive ConfigPart where
  | display
  | validate
  | init
deriving DecidableEq, Repr

/-- What a user asks for. -/
inductive Instruction where
  /-- Make a project. -/
  | init
  | add (draft : Draft)
  | status
  /-- Plan with these items running and perhaps another limit. -/
  | next (running : List String) (maxWip : Option Nat) (json : Bool)
  | promote (id : String)
  | start (id : String) (revision : Option String)
  | complete (options : CompleteOptions)
  | flush
  | archive (id : String)
  | block (id reason : String) (blockType : Option String)
  | unblock (id : String) (context : Option String)
  | merge (source target : String)
  | config (part : ConfigPart)
deriving DecidableEq, Repr

/-- A command line that has been understood. -/
structure Invocation where
  verbose : Bool := false
  /-- The folder of the project, unless it is the current one. -/
  folder : Option String := none
  instruction : Instruction
deriving DecidableEq, Repr

/-! ## Options -/

/-- The options of every level. -/
def commonOptions : List Opt :=
  [{ name := "verbose", letter := some 'v', manner := .flag },
    { name := "project-dir", accepts := fun path => !path.isEmpty },
    { name := "help", letter := some 'h', manner := .stop .help }]

/-- The truth value that a word names. -/
def readBool? : String → Option Bool
  | "true" => some true
  | "false" => some false
  | _ => none

/-! ## Forms -/

/-- A command: what it takes, and what its arguments stand for. -/
structure Form where
  name : String
  options : List Opt := []
  positionals : Nat := 0
  /-- The instruction, unless something that is needed is missing. -/
  meaning : Arguments → Option Instruction

/-- A command whose only argument is an item's ID. -/
def idForm (name : String) (options : List Opt) (meaning : String → Arguments → Instruction) :
    Form where
  name := name
  options := options
  positionals := 1
  meaning given := match given.positionals with
    | [id] => some (meaning id given)
    | _ => none

/-- The draft that the arguments for a new item give; blank descriptions are left out. -/
def draftOf (title : String) (given : Arguments) : Draft where
  title := Text.trim title
  description := ((given.value? "description").filter fun text => !Text.isBlank text).map
    fun context => { context }
  dependencies := given.values "dep"
  tags := given.values "tag"
  priority := ((given.value? "priority").bind Text.readSigned?).getD 0
  pipelineType := given.value? "pipeline"
  origin := some "cli"

/-- The command that creates an item. -/
def addForm : Form where
  name := "add"
  options := [{ name := "dep", manner := .repeated }, { name := "tag", manner := .repeated },
    { name := "pipeline" }, { name := "description" },
    { name := "priority", accepts := fun text => (Text.readSigned? text).isSome }]
  positionals := 1
  meaning given := match given.positionals with
    | [title] => some (.add (draftOf title given))
    | _ => none

/-- The command that plans. -/
def nextForm : Form where
  name := "next"
  options := [{ name := "running", manner := .repeated },
    { name := "max-wip", accepts := fun text => (Text.readUnsigned? text).isSome },
    { name := "json", manner := .flag }]
  meaning given := some (.next (given.values "running")
    ((given.value? "max-wip").bind Text.readUnsigned?) (given.has "json"))

/-- Whether the options on how a phase ended go together: it is not both blocked and failed, and
    a kind of block needs a phase that did not complete. -/
def fitTogether (given : Arguments) : Bool :=
  !(given.has "blocked" && given.has "failed")
    && (!given.has "block-type" || given.has "blocked" || given.has "failed")

/-- The command that reports a phase run. -/
def completeForm : Form where
  name := "complete"
  options := [{ name := "artifact", manner := .repeated, accepts := fun path => !path.isEmpty },
    { name := "blocked" }, { name := "block-type" }, { name := "failed" },
    { name := "exclusive", accepts := fun text => (readBool? text).isSome }]
  positionals := 2
  meaning given := match given.positionals with
    | [item, phase] =>
      if fitTogether given then
        some (.complete {
          item, phase
          artifacts := given.values "artifact"
          blocked := given.value? "blocked"
          blockType := (given.value? "block-type").getD "clarification"
          failed := given.value? "failed"
          exclusive := (given.value? "exclusive").bind readBool? })
      else none
    | _ => none

/-- The command that blocks an item. -/
def blockForm : Form where
  name := "block"
  options := [{ name := "type" }]
  positionals := 2
  meaning given := match given.positionals with
    | [id, reason] => some (.block id reason (given.value? "type"))
    | _ => none

/-- The command that merges two items. -/
def mergeForm : Form where
  name := "merge"
  positionals := 2
  meaning given := match given.positionals with
    | [source, target] => some (.merge source target)
    | _ => none

/-- The commands without commands below them. -/
def forms : List Form :=
  [{ name := "init", meaning := fun _ => some .init }, addForm,
    { name := "status", meaning := fun _ => some .status }, nextForm,
    idForm "promote" [] fun id _ => .promote id,
    idForm "start" [{ name := "revision" }] fun id given => .start id (given.value? "revision"),
    completeForm, { name := "flush", meaning := fun _ => some .flush },
    idForm "archive" [] fun id _ => .archive id, blockForm,
    idForm "unblock" [{ name := "context" }] fun id given => .unblock id (given.value? "context"),
    mergeForm]

/-- The commands about settings. -/
def configForms : List Form :=
  [{ name := "show", meaning := fun _ => some (.config .display) },
    { name := "validate", meaning := fun _ => some (.config .validate) },
    { name := "init", meaning := fun _ => some (.config .init) }]

/-! ## Reading a command line -/

/-- The names of the commands of a level. -/
def names (forms : List Form) : List String := forms.map Form.name ++ ["help"]

/-- What a request for help with a path of commands comes to: it has to lead to a command. -/
def helpOn : List String → Interrupt
  | [] => .help
  | [name] => if name == "config" || (names forms).contains name then .help else .misuse
  | ["config", name] => if (names configForms).contains name then .help else .misuse
  | _ => .misuse

/-- What the arguments of all levels have in common with an instruction. -/
def invoke (levels : List Arguments) (instruction : Instruction) : Invocation where
  verbose := levels.any (·.has "verbose")
  folder := (levels.flatMap (·.values "project-dir")).getLast?
  instruction := instruction

/-- Read the arguments of a command that is one of the given ones. -/
def readForm (forms : List Form) (levels : List Arguments) (name : String) (args : List String) :
    Except Interrupt Invocation := do
  match forms.find? (·.name == name) with
  | none => throw .misuse
  | some form =>
    let grammar : Grammar :=
      { options := commonOptions ++ form.options, positionals := form.positionals }
    let (given, _) ← grammar.scan {} args
    match form.meaning given with
    | none => throw .misuse
    | some instruction => return invoke (levels ++ [given]) instruction

/-- Read the arguments of the command about settings. -/
def readConfig (top : Arguments) (args : List String) : Except Interrupt Invocation := do
  let grammar : Grammar := { options := commonOptions, commands := names configForms }
  let (given, below) ← grammar.scan {} args
  match below with
  | none => return invoke [top, given] (.config .display)
  | some ("help", path) => throw (helpOn ("config" :: path))
  | some (name, args) => readForm configForms [top, given] name args

/-- Read a command line. -/
def read (args : List String) : Except Interrupt Invocation := do
  let version : Opt := { name := "version", letter := some 'V', manner := .stop .version }
  let grammar : Grammar :=
    { options := version :: commonOptions, commands := "config" :: names forms }
  let (top, below) ← grammar.scan {} args
  match below with
  | none => throw .misuse
  | some ("help", path) => throw (helpOn path)
  | some ("config", args) => readConfig top args
  | some (name, args) => readForm forms [top] name args

/-! ## Examples -/

/-- What reading gives, in a form that can be compared. -/
def reading (args : List String) : Option Invocation := (read args).toOption

example : reading ["-v", "archive", "A-1", "--project-dir=x"]
    = some { verbose := true, folder := some "x", instruction := .archive "A-1" } := by
  decide +kernel
example : reading ["--project-dir", "a", "config", "--project-dir", "b", "validate"]
    = some { folder := some "b", instruction := .config .validate } := by decide +kernel
example : [reading ["archive"], reading ["archive", "--", "A", "-v"], reading ["flush", "--all"]]
    = [none, none, none] := by decide +kernel

end Backlog.Cli
