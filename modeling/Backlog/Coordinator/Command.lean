/-
  Commands, and what answers them.
-/
import Backlog.Item.Update
import Backlog.Outcome

namespace Backlog

/-! ## Phase completions -/

/-- The report of a phase run. -/
structure PhaseRun where
  item : String
  phase : String
  /-- Whether the phase ran exclusively; its result gets a commit of its own. -/
  destructive : Bool
  outcome : RunOutcome
  /-- Paths of files that the phase produced. -/
  artifacts : List String
deriving DecidableEq, Repr

/-- What became of the commit for a phase completion. -/
inductive CommitFate where
  /-- Committed on its own. -/
  | committed (revision : String)
  /-- Waiting for the next flush. -/
  | batched
  /-- Nothing to commit, or the commit failed and the change waits for the next flush. -/
  | deferred
deriving DecidableEq, Repr

/-- The answer to a phase completion. -/
structure Completion where
  status : Status
  progress : Option Progress
  destructive : Bool
  commit : CommitFate
deriving DecidableEq, Repr

/-! ## Commands -/

/-- What the coordinator can be told to do. -/
inductive Command where
  | snapshot
  /-- Apply updates in order, all or none. -/
  | update (id : String) (updates : List Update)
  | promote (id : String)
  /-- Record the revision that a phase starts from; without one, the current one. -/
  | startPhase (id : String) (revision : Option String)
  | completePhase (completion : PhaseRun)
  /-- Commit the batch. -/
  | flush
  | archive (id : String)
  /-- Create items. -/
  | ingest (drafts : List Draft)
  | merge (source target : String)
  | unblock (id : String) (context : Option String)

/-- What a command that succeeds is answered with. -/
def Command.Answer : Command → Type
  | .snapshot => List Item
  | .update .. => Item
  | .promote _ => Progress
  | .startPhase .. => Option String
  | .completePhase _ => Completion
  | .flush => Option String
  | .archive _ => Unit
  | .ingest _ => List String
  | .merge .. => Unit
  | .unblock .. => Status

end Backlog
