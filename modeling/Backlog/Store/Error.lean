/-
  How a store fails.

  Every failure is a cause; the wording is in `StoreError.message`.
-/
import Backlog.Text.Word

namespace Backlog

/-- Why a store did not do what it was asked. -/
inductive StoreError where
  /-- Someone else held the lock for as long as the store waits. -/
  | lockTimeout (waitedMs : Nat)
  | notInitialized (path : String)
  /-- A file holds something that is no stored data. -/
  | corrupt (path detail : String)
  | itemNotFound (id : String)
  | idsExhausted (stem : String) (attempts : Nat)
  | invalidId (id : String)
  /-- The file system refused. -/
  | io (path reason : String)
deriving DecidableEq, Repr

/-- The failure in words. -/
def StoreError.message : StoreError → String
  | .lockTimeout waitedMs => s!"Timed out after {waitedMs}ms waiting for the store lock"
  | .notInitialized path => s!"Store is not initialized at {path} (run \x60phasekeep init\x60)"
  | .corrupt path detail => s!"Store data in {path} is corrupt: {detail}"
  | .itemNotFound id => s!"Item {id} not found"
  | .idsExhausted stem attempts =>
    s!"Could not allocate a free ID with prefix '{stem}' after {attempts} attempts"
  | .invalidId id => s!"Invalid ID or prefix '{id}'"
  | .io path reason => s!"Store I/O failed at {path}: {reason}"

end Backlog
