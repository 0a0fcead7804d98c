/-
  Statuses and phase pools.

  An item has one of six statuses; the store knows only four, and keeps new, scoping and ready
  apart by a sub-state (`Status.native`, `Status.substate?`).  `Status.mayBecome` is the table of
  direct changes: done is final, and blocked is left by unblocking alone.
-/
import Backlog.Text.Word

namespace Backlog

open Text (Vocabulary LawfulVocabulary)

/-! ## The four statuses of the store -/

/-- The status that every reader of the store understands. -/
inductive NativeStatus where
  | todo | doing | done | blocked
deriving DecidableEq, Repr

instance : Vocabulary NativeStatus where
  subject := "native status"
  members := [.todo, .doing, .done, .blocked]
  word
    | .todo => "todo"
    | .doing => "doing"
    | .done => "done"
    | .blocked => "blocked"

instance : LawfulVocabulary NativeStatus where
  exactWord?_word a := by cases a <;> decide
  normalize_word a := by cases a <;> decide

/-! ## The six statuses of an item -/

/-- Where an item stands. -/
inductive Status where
  /-- Not looked at yet. -/
  | new
  /-- Running its pre-phases. -/
  | scoping
  /-- Scoped, and waiting for the main pipeline. -/
  | ready
  /-- Running its main phases. -/
  | inProgress
  | done
  | blocked
deriving DecidableEq, Repr

namespace Status

instance : Vocabulary Status where
  subject := "status"
  members := [.new, .scoping, .ready, .inProgress, .done, .blocked]
  word
    | .new => "new"
    | .scoping => "scoping"
    | .ready => "ready"
    | .inProgress => "in_progress"
    | .done => "done"
    | .blocked => "blocked"
  normalize s := String.ofList (s.toList.map fun c => if c = '-' then '_' else c)

instance : LawfulVocabulary Status where
  exactWord?_word a := by cases a <;> decide
  normalize_word a := by cases a <;> decide

/-- The status that the store keeps. -/
def native : Status → NativeStatus
  | .new | .scoping | .ready => .todo
  | .inProgress => .doing
  | .done => .done
  | .blocked => .blocked

/-- The word that tells the statuses kept as todo apart. -/
def substate? (s : Status) : Option String :=
  match s with
  | .new | .scoping | .ready => some (Text.word s)
  | .inProgress | .done | .blocked => none

/-- The status that a sub-state names. -/
def ofSubstate? (text : String) : Option Status :=
  [Status.new, .scoping, .ready].find? fun s => Text.word s == text

/-- Whether no work is left. -/
def isTerminal (s : Status) : Bool := s == .done

/-- Whether an item can be blocked from this status, and restored to it. -/
def isBlockable : Status → Bool
  | .done | .blocked => false
  | .new | .scoping | .ready | .inProgress => true

/-- Whether an item may change directly from one status to another. -/
def mayBecome : Status → Status → Bool
  | .done, _ | .blocked, _ => false
  | _, .blocked | _, .done => true
  | .new, .scoping | .new, .ready => true
  | .scoping, .ready => true
  | .ready, .inProgress | .ready, .scoping => true
  | .inProgress, .ready => true
  | _, _ => false

/-- The place of a status in the order of a run. -/
def rank : Status → Nat
  | .new => 0
  | .scoping => 1
  | .ready => 2
  | .inProgress => 3
  | .done => 4
  | .blocked => 5

end Status

/-! ## Phase pools -/

/-- Whether a phase belongs to scoping or to the main pipeline. -/
inductive Pool where
  | pre | main
deriving DecidableEq, Repr

namespace Pool

instance : Vocabulary Pool where
  subject := "phase pool"
  members := [.pre, .main]
  word
    | .pre => "pre"
    | .main => "main"

instance : LawfulVocabulary Pool where
  exactWord?_word a := by cases a <;> decide
  normalize_word a := by cases a <;> decide

/-- The status of an item that runs a phase of this pool. -/
def status : Pool → Status
  | .pre => .scoping
  | .main => .inProgress

/-- The pool whose phases an item of this status runs. -/
def ofStatus? : Status → Option Pool
  | .scoping => some .pre
  | .inProgress => some .main
  | .new | .ready | .done | .blocked => none

end Pool

/-! ## Examples -/

example : (Text.readWord Status "BLOC\u212aED").toOption = some .blocked := by decide
example : (Text.readWord Status "In-Progress").toOption = some .inProgress := by decide
example : (Text.readWord Pool "Main ").toOption = none := by decide

end Backlog
