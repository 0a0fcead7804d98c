/-
  What the command line asks of the machine it runs on.

  Files, the clock, the current folder, output and the log are reached through these calls and in no
  other way, so a run can be answered by the real machine or by one that is a value.
-/
import Backlog.Coordinator.Request

namespace Backlog

/-! ## Calls -/

/-- What a path leads to. -/
inductive FileKind where
  | file | folder
deriving DecidableEq, Repr

/-- Why a lock was not taken. -/
inductive LockFault where
  /-- Someone else held it for as long as the caller waits. -/
  | busy (waitedMs : Nat)
  /-- The file system refused, with its reason. -/
  | refused (reason : String)
deriving DecidableEq, Repr

namespace Host

/-- A call of the machine. -/
inductive Call where
  /-- What a path leads to. -/
  | kind (path : String)
  | read (path : String)
  /-- Make a file, or empty one, and write to it. -/
  | write (path text : String)
  /-- Add to the end of a file, made if it is missing. -/
  | append (path text : String)
  /-- Put a file in place of another. -/
  | rename (src dst : String)
  /-- Make a folder with all the folders it lies in. -/
  | makeFolders (path : String)
  /-- The absolute path of something that exists. -/
  | resolve (path : String)
  /-- Take the lock on a file, made if it is missing. -/
  | lock (path : String) (waitMs : Nat)
  | unlock (path : String)
  /-- The current folder. -/
  | here
  | now
  | print (text : String)
  | log (severity : Severity) (text : String)
  | pause (ms : Nat)

/-- What the answer to a call looks like; a call that fails gives the machine's reason. -/
def Call.Answer : Call → Type
  | .kind _ => Option FileKind
  | .read _ => Except String ByteArray
  | .write .. | .append .. | .rename .. | .makeFolders _ => Except String Unit
  | .resolve _ => Option String
  | .lock .. => Except LockFault Unit
  | .here => Option String
  | .now => Stamp
  | .unlock _ | .print _ | .log .. | .pause _ => Unit

end Host

/-- A program for the machine. -/
abbrev Host (α : Type) := Script Host.Call Host.Call.Answer α

namespace Host

/-- A program for the machine that may fail. -/
abbrev Task (ε α : Type) := ExceptT ε (Script Call Call.Answer) α

/-! ## Single calls -/

/-- What a path leads to. -/
def kind (path : String) : Host (Option FileKind) := .ask (.kind path) .done

/-- Whether a path leads anywhere. -/
def exists? (path : String) : Host Bool := .ask (.kind path) fun k => .done (Option.isSome k)

/-- The bytes of a file. -/
def read (path : String) : Host (Except String ByteArray) := .ask (.read path) .done

/-- Write a file. -/
def write (path text : String) : Host (Except String Unit) := .ask (.write path text) .done

/-- Add to the end of a file. -/
def append (path text : String) : Host (Except String Unit) := .ask (.append path text) .done

/-- Put a file in place of another. -/
def rename (src dst : String) : Host (Except String Unit) := .ask (.rename src dst) .done

/-- Make a folder with all the folders it lies in. -/
def makeFolders (path : String) : Host (Except String Unit) := .ask (.makeFolders path) .done

/-- The absolute path of something that exists. -/
def resolve (path : String) : Host (Option String) := .ask (.resolve path) .done

/-- Take the lock on a file. -/
def lock (path : String) (waitMs : Nat) : Host (Except LockFault Unit) :=
  .ask (.lock path waitMs) .done

/-- Free the lock on a file. -/
def unlock (path : String) : Host Unit := .ask (.unlock path) .done

/-- The current folder. -/
def here : Host (Option String) := .ask .here .done

/-- The time. -/
def now : Host Stamp := .ask .now .done

/-- Print a line. -/
def printLine (line : String) : Host Unit := .ask (.print (line ++ "\n")) .done

/-- Print lines. -/
def printLines (lines : List String) : Host Unit := lines.forM printLine

/-- Log a warning. -/
def warn (text : String) : Host Unit := .ask (.log .warning text) .done

/-- Go on with a value, or fail with the error that a reason becomes. -/
def orFail {ε α : Type} (error : String → ε) (answer : Host (Except String α)) : Task ε α :=
  ExceptT.mk (do return (← answer).mapError error)

end Host

end Backlog
