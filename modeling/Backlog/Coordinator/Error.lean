/-
  Errors that answer a command.

  Every error belongs to one category, which tells the caller what to do: try again later, give up
  because the coordinator has halted, go on with other work, or report a store failure that has no
  policy of its own.  `CommandError.ofStore` gives each store failure its policy.
-/
import Backlog.Item.Change
import Backlog.Store.Error

namespace Backlog

/-! ## Categories -/

/-- What the caller of a command is to do about an error. -/
inductive ErrorCategory where
  | retryable | fatal | skip | unexpected
deriving DecidableEq, Repr

instance : Text.Vocabulary ErrorCategory where
  subject := "error category"
  members := [.retryable, .fatal, .skip, .unexpected]
  word
    | .retryable => "retryable"
    | .fatal => "fatal"
    | .skip => "skip"
    | .unexpected => "unexpected"

/-! ## Errors -/

/-- Why a command was not carried out. -/
inductive CommandError where
  | lockTimeout (waitedMs : Nat)
  | corrupt (path detail : String)
  | notInitialized (path : String)
  | idsExhausted (stem : String) (attempts : Nat)
  /-- A store call, or version control, broke down. -/
  | storeCrashed (message : String)
  | itemNotFound (id : String)
  | refused (id : String) (reason : Refusal)
  | dependencyCycle (id : String) (cycle : List String)
  | unexpected (message : String)
  /-- The coordinator no longer takes commands. -/
  | halted
deriving DecidableEq, Repr

namespace CommandError

/-- What the caller is to do about the error. -/
def category : CommandError → ErrorCategory
  | .lockTimeout _ => .retryable
  | .corrupt .. | .notInitialized _ | .idsExhausted .. | .storeCrashed _ | .halted => .fatal
  | .itemNotFound _ | .refused .. | .dependencyCycle .. => .skip
  | .unexpected _ => .unexpected

/-- Whether the coordinator halts after the error. -/
def isFatal (e : CommandError) : Bool := e.category == .fatal

/-- Whether the same command may succeed later. -/
def isRetryable (e : CommandError) : Bool := e.category == .retryable

/-- The error in words. -/
def message : CommandError → String
  | .lockTimeout waitedMs => s!"Store lock not acquired (waited {waitedMs}ms on the last attempt)"
  | .corrupt path detail => s!"Storage corrupted at {path}: {detail}"
  | .notInitialized path => s!"Store not initialized at {path}"
  | .idsExhausted stem attempts =>
    s!"ID allocation exhausted for prefix '{stem}' after {attempts} attempts"
  | .storeCrashed message => s!"Store operation panicked: {message}"
  | .itemNotFound id => s!"Item {id} not found"
  | .refused id reason => s!"Invalid transition for {id}: {reason.message}"
  | .dependencyCycle id cycle =>
    s!"Merging into {id} would create a dependency cycle: " ++ " -> ".intercalate cycle
  | .unexpected message => s!"Unexpected store failure: {message}"
  | .halted => "Coordinator has halted and no longer accepts commands"

/-- The error that a store failure becomes. -/
def ofStore : StoreError → CommandError
  | .lockTimeout waitedMs => .lockTimeout waitedMs
  | .notInitialized path => .notInitialized path
  | .corrupt path detail => .corrupt path detail
  | .itemNotFound id => .itemNotFound id
  | .idsExhausted stem attempts => .idsExhausted stem attempts
  | .invalidId id => .unexpected (StoreError.invalidId id).message
  | .io path reason => .unexpected (StoreError.io path reason).message

end CommandError

end Backlog
