/-
  What each command comes to.

  A command is a task over the batch.  Run from a batch it is a program that asks and nothing else,
  and the theorems here say which one: most commands are `batched`, they run their transaction and
  then join the batch; a phase completion also stages, commits and takes back.

  Nothing after this module looks into how the commands are written.
-/
import Backlog.Proofs.Coordinator.Transaction

namespace Backlog

open Talk (StoreTask note)
open Talk.StoreTask (load save append archivedIds ofExcept locked lookUp retire)
open Decision (ofChange ofRetirement ofCreation)

namespace Coordinator

variable (settings : Settings) (now : Stamp) (batch : Batch)

/-! ## Joining the batch -/

/-- A part of a command that does not touch the batch leaves it to the rest. -/
theorem run_talk_bind {α β : Type} (t : Talk α) (k : α → Task β) :
    ((liftM t : Task α) >>= k).run batch = t >>= fun a => (k a).run batch := by
  have hlift : (liftM t : Task α).run batch = t >>= fun a => pure (a, batch) := rfl
  rw [StateT.run_bind, hlift, bind_assoc]
  simp only [pure_bind]

theorem run_stageAndPush {α : Type} (id summary : String) (a : α) :
    (do
      stageAndPush id summary
      return a : Task α).run batch
      = Talk.stageStore >>= fun _ => pure (a, batch ++ [⟨id, summary⟩]) := by
  rw [stageAndPush, bind_assoc, run_talk_bind]
  rfl

/-- Changes join the batch once the transaction that makes them is through. -/
def batched {α β : Type} (batch : Batch) (answer : α → β) (entries : β → Batch)
    (transaction : Talk (Except CommandError α)) : Talk (Except CommandError β × Batch) := do
  match ← transaction with
  | .error e => return (.error e, batch)
  | .ok value => do
    Talk.stageStore
    return (.ok (answer value), batch ++ entries (answer value))

theorem run_eq_batched {α β : Type} {transaction : Talk (Except CommandError α)}
    {k : Except CommandError α → Task (Except CommandError β)} {answer : α → β}
    {entries : β → Batch} (herror : ∀ e, (k (.error e)).run batch = pure (.error e, batch))
    (hok : ∀ a, (k (.ok a)).run batch
      = Talk.stageStore >>= fun _ => pure (.ok (answer a), batch ++ entries (answer a))) :
    (liftM transaction >>= k).run batch = batched batch answer entries transaction := by
  rw [run_talk_bind, batched]
  refine bind_congr fun r => ?_
  cases r with
  | error e => exact herror e
  | ok a => exact hok a

/-! ## Commands that join the batch -/

theorem run_update (id : String) (updates : List Update) :
    (update settings now id updates).run batch = (do
      warnUnknown settings.pipelines (requestedTypes updates)
      batched batch (fun item => item) (fun _ => [⟨id, s!"updated ({updates.length} changes)"⟩])
        (mutate settings "update_item" id (Item.applyAll now updates))) := by
  rw [update, run_talk_bind]
  refine bind_congr fun _ => ?_
  exact run_eq_batched batch (fun _ => rfl) fun _ => run_stageAndPush batch id _ _

theorem run_promote (id : String) :
    (promote settings now id).run batch
      = batched batch (fun progress => progress)
          (fun progress => [⟨id, "promoted to " ++ progress.message⟩])
          (mutate settings "promote" id (Item.promote now settings.pipelines)) :=
  run_eq_batched batch (fun _ => rfl) fun _ => run_stageAndPush batch id _ _

theorem run_unblock (id : String) (context : Option String) :
    (unblock settings now id context).run batch
      = batched batch (fun status => status)
          (fun status => [⟨id, "unblocked to " ++ Text.word status⟩])
          (mutate settings "unblock_item" id (Item.unblock now context)) :=
  run_eq_batched batch (fun _ => rfl) fun _ => run_stageAndPush batch id _ _

theorem run_archive (id : String) :
    (archive settings id).run batch
      = batched batch (fun _ => ()) (fun _ => [⟨id, "archived"⟩])
          (Talk.withRetries settings.retry "archive_item"
            (locked (transact false fun items _ => ofRetirement (retireItem id items)))) := by
  have htransact : (transact false fun items _ => ofRetirement (retireItem id items))
      = (do
        let items ← load
        let retirement ← ofExcept (retireItem id items)
        append retirement.1
        save retirement.2) := by
    simp only [transact, lookUp, ofRetirement, ofExcept_map_bind, retire, pure_bind,
      Bool.false_eq_true, if_false, bind_pure_unit]
  rw [archive, htransact]
  exact run_eq_batched batch (fun _ => rfl) fun _ => run_stageAndPush batch id _ _

theorem run_merge (source target : String) :
    (merge settings now source target).run batch
      = batched batch (fun _ => ()) (fun _ => [⟨target, "absorbed " ++ source⟩])
          (Talk.withRetries settings.retry "merge_item"
            (locked (transact false fun items _ =>
              ofRetirement (foldInto now items source target)))) := by
  have htransact : (transact false fun items _ => ofRetirement (foldInto now items source target))
      = (do
        let items ← load
        let retirement ← ofExcept (foldInto now items source target)
        append retirement.1
        save retirement.2) := by
    simp only [transact, lookUp, ofRetirement, ofExcept_map_bind, retire, pure_bind,
      Bool.false_eq_true, if_false, bind_pure_unit]
  rw [merge, htransact]
  exact run_eq_batched batch (fun _ => rfl) fun _ => run_stageAndPush batch target _ _

theorem run_startPhase (id : String) (revision : Option String) :
    (startPhase settings now id revision).run batch
      = match revision.filter fun text => !isRevision text with
        | some text => pure (.error (.refused id (.invalidRevision text)), batch)
        | none => startRevision revision >>= fun revision =>
          batched batch (fun _ => revision) (fun _ => [⟨id, "phase started"⟩])
            (mutate settings "record_phase_start" id (Item.startPhase now revision)) := by
  rw [startPhase]
  cases revision.filter fun text => !isRevision text with
  | some text => rfl
  | none =>
    rw [run_talk_bind]
    refine bind_congr fun revision => ?_
    exact run_eq_batched batch (fun _ => rfl) fun _ => run_stageAndPush batch id _ _

theorem run_pushAll {α : Type} (created : List String) (a : α) :
    (do
      created.forM fun id => push id "created"
      return a : Task α).run batch
      = pure (a, batch ++ created.map fun id => ⟨id, "created"⟩) := by
  induction created generalizing batch with
  | nil => rw [List.map_nil, List.append_nil]; rfl
  | cons id rest ih =>
    show ((push id "created" >>= fun _ => rest.forM fun id => push id "created") >>= fun _ =>
      pure a : Task α).run batch = _
    rw [bind_assoc, StateT.run_bind]
    have hpush : (push id "created").run batch = pure ((), batch ++ [⟨id, "created"⟩]) := rfl
    rw [hpush, pure_bind, ih, List.map_cons, List.append_assoc, List.singleton_append]

theorem run_ingest (drafts : List Draft) :
    (ingest settings now drafts).run batch
      = if drafts.isEmpty then pure (.ok [], batch)
        else (do
          warnUnknown settings.pipelines (drafts.map Draft.pipelineType)
          batched batch (fun created => created)
            (fun created => created.map fun id => ⟨id, "created"⟩)
            (Talk.withRetries settings.retry "ingest_follow_ups"
              (locked (transact true fun items archived =>
                ofCreation items (createItems now settings.stem items archived drafts))))) := by
  have htransact : (transact true fun items archived =>
        ofCreation items (createItems now settings.stem items archived drafts))
      = (do
        let items ← load
        let archived ← archivedIds
        let created ← ofExcept (createItems now settings.stem items archived drafts)
        save (items ++ created)
        return created.map Item.id) := by
    simp only [transact, lookUp, ofCreation, ofExcept_map_bind, retire, pure_bind, if_true, ids]
  rw [ingest, htransact]
  split
  · rfl
  · rw [run_talk_bind]
    refine bind_congr fun _ => ?_
    refine run_eq_batched batch (fun _ => rfl) fun created => ?_
    rw [run_talk_bind]
    exact bind_congr fun _ => run_pushAll batch created _

/-! ## Commits and phase completions -/

theorem run_flush :
    flush.run batch
      = if batch.isEmpty then pure (none, batch)
        else Talk.commit batch.message >>= fun
          | some revision => pure (revision, [])
          | none => note .batchCommitFailed >>= fun _ => pure (none, batch) := by
  show (if batch.isEmpty then (pure none : Task (Option String)) else _).run batch = _
  split
  · rfl
  · refine (run_talk_bind ..).trans (bind_congr fun r => ?_)
    cases r <;> rfl

theorem run_flushAhead (destructive : Bool) :
    (flushAhead destructive).run batch
      = if destructive then flush.run batch >>= fun p => pure ((), p.2) else pure ((), batch) := by
  cases destructive
  · rfl
  · rfl

theorem run_commitAlone (id summary : String) (phaseStart : Option String) :
    (commitAlone id summary phaseStart).run batch
      = noteMove phaseStart >>= fun _ => Talk.commit (Batch.Entry.message ⟨id, summary⟩) >>= fun
        | some (some revision) => pure (.committed revision, [])
        | some none => pure (.deferred, batch)
        | none => note .destructiveCommitFailed >>= fun _ =>
          pure (.deferred, batch ++ [⟨id, summary⟩]) := by
  refine (run_talk_bind ..).trans (bind_congr fun _ => ?_)
  refine (run_talk_bind ..).trans (bind_congr fun r => ?_)
  rcases r with _ | _ | revision <;> rfl

theorem run_recordRun (completion : PhaseRun) :
    (recordRun settings now completion).run batch = (do
      let staged ← stageArtifacts completion.artifacts
      match ← mutate settings "complete_phase" completion.item (Item.recordOutcome now
        completion.phase completion.outcome settings.pipelines) with
      | .error e => do
        unstageArtifacts staged completion.artifacts
        return (.error e, batch)
      | .ok recorded => do
        Talk.stageStore
        let (commit, batch) ← (commitResult completion recorded).run batch
        return (.ok { status := recorded.status, progress := recorded.progress,
                      destructive := completion.destructive, commit }, batch)) := by
  rw [recordRun]
  refine (run_talk_bind ..).trans (bind_congr fun staged => ?_)
  refine (run_talk_bind ..).trans (bind_congr fun r => ?_)
  cases r with
  | error e => exact run_talk_bind ..
  | ok recorded => exact run_talk_bind ..

theorem run_completePhase (completion : PhaseRun) :
    (completePhase settings now completion).run batch = (do
      match ← precheck settings completion.item completion.phase with
      | .error e => return (.error e, batch)
      | .ok configured => do
        noteDifference configured completion.destructive
        let (_, batch) ← (flushAhead completion.destructive).run batch
        (recordRun settings now completion).run batch) := by
  rw [completePhase, run_talk_bind]
  refine bind_congr fun r => ?_
  cases r with
  | error e => rfl
  | ok configured =>
    refine (run_talk_bind ..).trans (bind_congr fun _ => ?_)
    rw [StateT.run_bind]

end Coordinator

end Backlog
