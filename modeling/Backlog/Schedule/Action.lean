/-
  What a tick decides: actions to take, and reasons why an item gets none.

  A plan lists both in the order in which the items were looked at.  Promotions and phase runs take
  a slot of the work in progress; signals do not.
-/
import Backlog.Json.Value
import Backlog.Status

namespace Backlog

/-! ## Actions -/

/-- Something to do this tick. -/
inductive Action where
  /-- Move a new or ready item on. -/
  | promote (item : String) (src : Status)
  /-- Run the item's current phase. -/
  | runPhase (item phase : String) (pool : Pool) (destructive : Bool)
  /-- Assess the item again. -/
  | triage (item : String)
  /-- Merge an item into another. -/
  | merge (source target : String)
  /-- Retire a finished item. -/
  | archive (item : String)
  /-- Restore a blocked item that has its answer. -/
  | unblock (item context : String)
deriving DecidableEq, Repr

namespace Action

/-- The item that an action is about; of a merge, the source. -/
def item : Action → String
  | .promote item _ | .runPhase item .. | .triage item | .merge item _ | .archive item
  | .unblock item _ => item

/-- Whether an action takes a slot of the work in progress. -/
def takesCapacity : Action → Bool
  | .promote .. | .runPhase .. => true
  | .triage _ | .merge .. | .archive _ | .unblock .. => false

/-- Whether an action runs a destructive phase. -/
def isDestructive : Action → Bool
  | .runPhase _ _ _ destructive => destructive
  | .promote .. | .triage _ | .merge .. | .archive _ | .unblock .. => false

/-- The action in words. -/
def message : Action → String
  | .promote item src => s!"promote {item} (from {Text.word src})"
  | .runPhase item phase pool destructive =>
    s!"run {Text.word pool} phase '{phase}' for {item}"
      ++ (if destructive then " [destructive]" else "")
  | .triage item => s!"triage {item}"
  | .merge source target => s!"merge {source} into {target}"
  | .archive item => s!"archive {item}"
  | .unblock item _ => s!"unblock {item}"

/-- The action as a value. -/
def toJson : Action → Json
  | .promote item src => .object
    [("action", .text "promote"), ("item_id", .text item), ("from", .text (Text.word src))]
  | .runPhase item phase pool destructive => .object
    [("action", .text "run_phase"), ("item_id", .text item), ("phase", .text phase),
      ("pool", .text (Text.word pool)), ("destructive", .bool destructive)]
  | .triage item => .object [("action", .text "triage"), ("item_id", .text item)]
  | .merge source target => .object
    [("action", .text "merge"), ("source", .text source), ("target", .text target)]
  | .archive item => .object [("action", .text "archive"), ("item_id", .text item)]
  | .unblock item context => .object
    [("action", .text "unblock"), ("item_id", .text item), ("context", .text context)]

end Action

/-! ## Reasons for no action -/

/-- Why an item gets no action this tick. -/
inductive SkipReason where
  /-- Dependencies are present and not done. -/
  | unmetDependencies (waitingOn : List String)
  | alreadyRunning
  | wipLimit
  | exclusiveLimit
  /-- The item runs a phase that its pipeline does not have. -/
  | noRunnablePhase
  /-- The item should be merged into one that is not there. -/
  | mergeTargetMissing (target : String)
deriving DecidableEq, Repr

namespace SkipReason

/-- The reason without its particulars. -/
def label : SkipReason → String
  | .unmetDependencies _ => "waiting on dependencies"
  | .alreadyRunning => "already running"
  | .wipLimit => "at WIP limit"
  | .exclusiveLimit => "waiting for exclusive slot"
  | .noRunnablePhase => "no runnable phase"
  | .mergeTargetMissing _ => "merge target missing"

/-- The reason in words. -/
def message : SkipReason → String
  | .unmetDependencies waitingOn => "waiting on " ++ ", ".intercalate waitingOn
  | .mergeTargetMissing target => s!"merge target {target} not found"
  | other => other.label

/-- The reason as a value. -/
def toJson : SkipReason → Json
  | .unmetDependencies waitingOn => .object
    [("reason", .text "unmet_dependencies"), ("waiting_on", .texts waitingOn)]
  | .alreadyRunning => .object [("reason", .text "already_running")]
  | .wipLimit => .object [("reason", .text "wip_limit")]
  | .exclusiveLimit => .object [("reason", .text "exclusive_limit")]
  | .noRunnablePhase => .object [("reason", .text "no_runnable_phase")]
  | .mergeTargetMissing target => .object
    [("reason", .text "merge_target_missing"), ("target", .text target)]

end SkipReason

/-! ## Plans -/

/-- What a tick decided. -/
structure Plan where
  actions : List Action := []
  skipped : List (String × SkipReason) := []
deriving DecidableEq, Repr

namespace Plan

/-- One decision after the other. -/
def append (a b : Plan) : Plan := ⟨a.actions ++ b.actions, a.skipped ++ b.skipped⟩

instance : Append Plan := ⟨append⟩

/-- Whether there is nothing to do. -/
def isIdle (plan : Plan) : Bool := plan.actions.isEmpty

/-- How often each reason was given, by its label. -/
def skipCounts (plan : Plan) : Dict Nat :=
  plan.skipped.foldl
    (fun counts s => counts.insert s.2.label ((counts.get? s.2.label).getD 0 + 1)) .empty

/-- The counts in one line. -/
def summary (plan : Plan) : String :=
  ", ".intercalate (plan.skipCounts.entries.map fun (label, n) => s!"{n} {label}")

/-- The plan as a value. -/
def toJson (plan : Plan) : Json := .object
  [("actions", .array (plan.actions.map Action.toJson)),
    ("skipped", .array (plan.skipped.map fun (item, reason) =>
      .array [.text item, reason.toJson]))]

end Plan

end Backlog
