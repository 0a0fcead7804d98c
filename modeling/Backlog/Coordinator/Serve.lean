/-
  The coordinator: the single writer of the store.

  Program: `Coordinator.submit` serves one command after the other.  A change is read, made and
  saved while the store's lock is held; then the store's files are staged and the change joins the
  batch.  A destructive phase is committed at once, after the batch that was pending.  After a fatal
  error no command is served any more.

  Specification: a command answered with an error has saved nothing, and the entries of the batch
  are cleared by commits alone.

  The crux is `mutate`: everything that decides about a change is a pure function of the items
  loaded under the lock, so what is saved is that function's value and nothing else.
-/
import Backlog.Batch
import Backlog.Coordinator.ActiveSet
import Backlog.Coordinator.Command
import Backlog.Coordinator.Request

namespace Backlog

namespace Coordinator

open Talk (StoreTask note)
open Talk.StoreTask (load save append archivedIds ofExcept locked)

/-! ## Settings -/

/-- What stays the same while a coordinator runs. -/
structure Settings where
  /-- What the IDs of new items begin with. -/
  stem : String := "WRK"
  pipelines : Pipelines := default
  retry : Talk.RetryPolicy := {}

/-- A part of a command: it talks to the surroundings and changes the batch. -/
abbrev Task (α : Type) := StateT Batch Talk α

/-! ## The batch -/

/-- Add a change to the batch. -/
def push (id summary : String) : Task Unit := modify (· ++ [⟨id, summary⟩])

/-- Stage the store's files and add a change to the batch. -/
def stageAndPush (id summary : String) : Task Unit := do
  Talk.stageStore
  push id summary

/-- Commit the batch; its entries survive a commit that fails. -/
def flush : Task (Option String) := do
  let batch ← get
  if batch.isEmpty then return none
  match ← Talk.commit (Batch.message batch) with
  | some revision => do
    set ([] : Batch)
    return revision
  | none => do
    note .batchCommitFailed
    return none

/-! ## Changes to the store -/

/-- Load the items, change one, and save them, all under the lock. -/
def mutate {α : Type} (settings : Settings) (operation id : String) (change : Change α) :
    Talk (Except CommandError α) :=
  Talk.withRetries settings.retry operation <| locked do
    let items ← load
    let (a, items) ← ofExcept (changeItem id change items)
    save items
    return a

/-- Write down every pipeline type that names no pipeline. -/
def warnUnknown (set : Pipelines) (types : List (Option String)) : Talk Unit :=
  types.forM fun type => if set.isKnown type then pure () else note .unknownPipeline

/-- The active items, read without the lock. -/
def snapshot (settings : Settings) : Talk (Except CommandError (List Item)) :=
  Talk.withRetries settings.retry "get_snapshot" load

/-- The pipeline types that updates ask for. -/
def requestedTypes (updates : List Update) : List (Option String) :=
  updates.filterMap fun
    | .setPipelineType type => some type
    | _ => none

/-- Apply updates to an item. -/
def update (settings : Settings) (now : Stamp) (id : String) (updates : List Update) :
    Task (Except CommandError Item) := do
  warnUnknown settings.pipelines (requestedTypes updates)
  match ← mutate settings "update_item" id (Item.applyAll now updates) with
  | .error e => return .error e
  | .ok item => do
    stageAndPush id s!"updated ({updates.length} changes)"
    return .ok item

/-- Move an item into its first phase. -/
def promote (settings : Settings) (now : Stamp) (id : String) :
    Task (Except CommandError Progress) := do
  match ← mutate settings "promote" id (Item.promote now settings.pipelines) with
  | .error e => return .error e
  | .ok progress => do
    stageAndPush id ("promoted to " ++ progress.message)
    return .ok progress

/-- Restore a blocked item. -/
def unblock (settings : Settings) (now : Stamp) (id : String) (context : Option String) :
    Task (Except CommandError Status) := do
  match ← mutate settings "unblock_item" id (Item.unblock now context) with
  | .error e => return .error e
  | .ok restored => do
    stageAndPush id ("unblocked to " ++ Text.word restored)
    return .ok restored

/-- The revision that a phase starts from: the one given, or else the current one. -/
def startRevision (given : Option String) : Talk (Option String) :=
  match given with
  | some text => pure (some text)
  | none => Talk.head

/-- Record the revision that a phase starts from. -/
def startPhase (settings : Settings) (now : Stamp) (id : String) (revision : Option String) :
    Task (Except CommandError (Option String)) := do
  match revision.filter fun text => !isRevision text with
  | some text => return .error (.refused id (.invalidRevision text))
  | none => do
    let revision ← startRevision revision
    match ← mutate settings "record_phase_start" id (Item.startPhase now revision) with
    | .error e => return .error e
    | .ok () => do
      stageAndPush id "phase started"
      return .ok revision

/-- Move a done item to the archive, which is written first. -/
def archive (settings : Settings) (id : String) : Task (Except CommandError Unit) := do
  let archived ← Talk.withRetries settings.retry "archive_item" <| locked do
    let items ← load
    let (retired, items) ← ofExcept (retireItem id items)
    append retired
    save items
  match archived with
  | .error e => return .error e
  | .ok () => do
    stageAndPush id "archived"
    return .ok ()

/-- Merge an item into another and archive it; the archive is written first. -/
def merge (settings : Settings) (now : Stamp) (source target : String) :
    Task (Except CommandError Unit) := do
  let merged ← Talk.withRetries settings.retry "merge_item" <| locked do
    let items ← load
    let (retired, items) ← ofExcept (foldInto now items source target)
    append retired
    save items
  match merged with
  | .error e => return .error e
  | .ok () => do
    stageAndPush target ("absorbed " ++ source)
    return .ok ()

/-- Create the items that drafts describe; the answer is their IDs. -/
def ingest (settings : Settings) (now : Stamp) (drafts : List Draft) :
    Task (Except CommandError (List String)) := do
  if drafts.isEmpty then return .ok []
  warnUnknown settings.pipelines (drafts.map Draft.pipelineType)
  let created ← Talk.withRetries settings.retry "ingest_follow_ups" <| locked do
    let items ← load
    let archived ← archivedIds
    let created ← ofExcept (createItems now settings.stem items archived drafts)
    save (items ++ created)
    return created.map Item.id
  match created with
  | .error e => return .error e
  | .ok ids => do
    Talk.stageStore
    ids.forM fun id => push id "created"
    return .ok ids

/-! ## Phase completions -/

/-- Whether the item is running the phase, read without the lock, and if it is, whether the
    pipeline has that phase as a destructive one. -/
def precheck (settings : Settings) (id phase : String) :
    Talk (Except CommandError Bool) :=
  Talk.withRetries settings.retry "complete_phase" do
    let items ← load
    match items.find? fun i => i.id == id with
    | none => StoreTask.fail (.itemNotFound id)
    | some item =>
      match item.runningPool phase with
      | .error reason => StoreTask.fail (.refused id reason)
      | .ok _ => return settings.pipelines.isDestructive item

/-- Whether the revision moved away from the one that a phase started from. -/
def headMoved (phaseStart : Option String) : Talk Bool := do
  match phaseStart with
  | none => return false
  | some start => return (← Talk.head).any (· ≠ start)

/-- Write down that the revision moved while a phase was running. -/
def noteMove (phaseStart : Option String) : Talk Unit := do
  if ← headMoved phaseStart then note .headMoved

/-- Commit the result of a destructive phase on its own. The commit covers what was pending, and
    if it fails the result joins the batch. -/
def commitAlone (id summary : String) (phaseStart : Option String) :
    Task CommitFate := do
  noteMove phaseStart
  match ← Talk.commit (Batch.Entry.message ⟨id, summary⟩) with
  | some (some revision) => do
    set ([] : Batch)
    return .committed revision
  | some none => return .deferred
  | none => do
    note .destructiveCommitFailed
    push id summary
    return .deferred

/-- Write down that the report of a phase run and the pipeline differ about its exclusivity. -/
def noteDifference (configured reported : Bool) : Talk Unit :=
  if configured = reported then pure () else note .exclusivityDiffers

/-- Commit the batch ahead of a destructive phase. -/
def flushAhead (destructive : Bool) : Task Unit := if destructive then discard flush else pure ()

/-- Stage the artifacts of a phase run, if it has any; whether they are in the index now. -/
def stageArtifacts (paths : List String) : Talk Bool :=
  if paths.isEmpty then pure false else Talk.stage paths

/-- Take the artifacts of a refused phase run out of the index again. -/
def unstageArtifacts (staged : Bool) (paths : List String) : Talk Unit :=
  if staged then Talk.unstage paths else pure ()

/-- Commit the recorded result of a phase run, or add it to the batch. -/
def commitResult (completion : PhaseRun) (recorded : Recorded) : Task CommitFate :=
  let summary := completion.phase ++ " " ++ completion.outcome.label
  if completion.destructive then commitAlone completion.item summary recorded.phaseStart
  else do
    push completion.item summary
    return .batched

/-- Record the report of a phase run that is to be accepted. Its artifacts are staged before the store
    is touched, and taken out of the index again if the report is refused. -/
def recordRun (settings : Settings) (now : Stamp) (completion : PhaseRun) :
    Task (Except CommandError Completion) := do
  let staged ← stageArtifacts completion.artifacts
  let change := Item.recordOutcome now completion.phase completion.outcome settings.pipelines
  match ← mutate settings "complete_phase" completion.item change with
  | .error e => do
    unstageArtifacts staged completion.artifacts
    return .error e
  | .ok recorded => do
    Talk.stageStore
    let commit ← commitResult completion recorded
    return .ok { status := recorded.status, progress := recorded.progress,
                 destructive := completion.destructive, commit }

/-- Record the report of a phase run, unless the item is seen not to be running the phase. -/
def completePhase (settings : Settings) (now : Stamp) (completion : PhaseRun) :
    Task (Except CommandError Completion) := do
  match ← precheck settings completion.item completion.phase with
  | .error e => return .error e
  | .ok configured => do
    noteDifference configured completion.destructive
    flushAhead completion.destructive
    recordRun settings now completion

/-! ## Serving commands -/

/-- Carry out a command. -/
def perform (settings : Settings) (now : Stamp) :
    (command : Command) → Task (Except CommandError command.Answer)
  | .snapshot => snapshot settings
  | .update id updates => update settings now id updates
  | .promote id => promote settings now id
  | .startPhase id revision => startPhase settings now id revision
  | .completePhase completion => completePhase settings now completion
  | .flush => do return .ok (← flush)
  | .archive id => archive settings id
  | .ingest drafts => ingest settings now drafts
  | .merge source target => merge settings now source target
  | .unblock id context => unblock settings now id context

/-- What is written down about an error, by its category. -/
def diagnosticOf (e : CommandError) : Option Diagnostic :=
  match e.category with
  | .fatal => some .fatalError
  | .retryable => some .retryableError
  | .skip => none
  | .unexpected => some .unexpectedError

end Coordinator

/-- A coordinator between two commands. -/
structure Coordinator where
  /-- Whether it still takes commands. -/
  running : Bool := true
  batch : Batch := []
deriving DecidableEq, Repr

namespace Coordinator

/-- Stop taking commands; a batch that was not committed is written down. -/
def stop (batch : Batch) : Talk Coordinator := do
  if !batch.isEmpty then Talk.note .stoppedWithBatch
  return { running := false, batch }

/-- Write down an error. -/
def noteError (e : CommandError) : Talk Unit :=
  match diagnosticOf e with
  | some d => Talk.note d
  | none => pure ()

/-- What a coordinator does after an error: it is written down, and a fatal one ends it. -/
def recover (e : CommandError) (coordinator : Coordinator) : Talk Coordinator := do
  noteError e
  if e.isFatal then
    Talk.note .halting
    stop coordinator.batch
  else return coordinator

/-- Serve a command, and stop after a fatal error. -/
def submit (settings : Settings) (now : Stamp) (command : Command) (coordinator : Coordinator) :
    Talk (Except CommandError command.Answer × Coordinator) := do
  if !coordinator.running then return (.error .halted, coordinator)
  match ← (perform settings now command).run coordinator.batch with
  | (.ok answer, batch) => return (.ok answer, { coordinator with batch })
  | (.error e, batch) => return (.error e, ← recover e { coordinator with batch })

/-- End a coordinator that no one uses any more. -/
def close (coordinator : Coordinator) : Talk Coordinator :=
  if coordinator.running then stop coordinator.batch else pure coordinator

end Coordinator

end Backlog
