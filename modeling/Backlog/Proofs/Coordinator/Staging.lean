/-
  What each command does to version control.

  Program: a completion is checked against the item, flushes the batch if it is a destructive one,
  stages its artifacts, and is recorded in a transaction.  If it is refused there, the artifacts are
  taken out of the index again; if it is accepted, it joins the batch or is committed alone.  A
  flush commits the batch, and every other command stages the store's files at most.

  Specification: `Acts` lists the ways that a command can go, as steps of the surroundings: each
  request to stage, unstage or commit with its answer, and the reply and the batch at the end
  (`acts_of_leads`).

  The crux is that nothing is said of the surroundings, but that they stay the same where version
  control is left alone (`Still`).  What is known of an index that answers in one way or another is
  read off the same steps.
-/
import Backlog.Proofs.Coordinator.Commits

namespace Backlog

open Script (Keeps Results)

variable {σ : Type}

/-! ## Steps -/

/-- What leaves version control alone leaves the surroundings as they are. -/
def Still (W : Surroundings σ) : Prop :=
  ∀ state q answer after, Request.Calm q → W state q answer after → after = state

/-- A batch is flushed: what is left of it, and what becomes of the surroundings. -/
inductive Flushing (W : Surroundings σ) (batch : Batch) (state : σ) : Batch → σ → Prop
  | empty : batch = [] → Flushing W batch state [] state
  | asked {answer : Except TrackerFault (Option String)} {after : σ} : batch ≠ [] →
      W state (.commit batch.message) answer after →
      Flushing W batch state (batch.afterFlush answer) after

/-- A batch is flushed ahead of a destructive phase, and of no other. -/
def FlushingAhead (W : Surroundings σ) (destructive : Bool) (batch : Batch) (state : σ)
    (batch' : Batch) (after : σ) : Prop :=
  if destructive then Flushing W batch state batch' after else batch' = batch ∧ after = state

/-- Artifacts are staged, if there are any: whether that was done, and what becomes of the
    surroundings. -/
inductive Staging (W : Surroundings σ) (paths : List String) (state : σ) : Bool → σ → Prop
  | nothing : paths = [] → Staging W paths state false state
  | failed {fault : TrackerFault} {after : σ} : W state (.stage paths) (.error fault) after →
      Staging W paths state false after
  | staged {after : σ} : W state (.stage paths) (.ok ()) after → Staging W paths state true after

/-- Artifacts that were staged are taken out of the index again. -/
inductive Unstaging (W : Surroundings σ) (paths : List String) (state : σ) : Bool → σ → Prop
  | nothing : Unstaging W paths state false state
  | asked {answer : Except TrackerFault Unit} {after : σ} : W state (.unstage paths) answer after →
      Unstaging W paths state true after

/-- The ways that a command can go, given the batch that it was started with: its reply, the batch
    that it leaves, and what becomes of the surroundings. -/
inductive Acts (W : Surroundings σ) (batch : Batch) (state : σ) :
    (command : Command) → Except CommandError command.Answer → Batch → σ → Prop
  /-- It was refused and has touched nothing. -/
  | refused {command : Command} {e : CommandError} : Acts W batch state command (.error e) batch state
  /-- It was accepted and has touched nothing. -/
  | idle {command : Command} {answer : command.Answer} :
      (∀ completion, command ≠ .completePhase completion) →
      Acts W batch state command (.ok answer) batch state
  /-- It was accepted, the store's files were staged, and its changes joined the batch. -/
  | joined {command : Command} {answer : command.Answer} {staging : Except TrackerFault Unit}
      {after : σ} : (∀ completion, command ≠ .completePhase completion) →
      W state .stageStore staging after →
      Acts W batch state command (.ok answer) (batch ++ command.entries answer) after
  /-- It was a flush. -/
  | flushed {answer : Option String} {batch' : Batch} {after : σ} :
      Flushing W batch state batch' after → Acts W batch state .flush (.ok answer) batch' after
  /-- A completion was refused in its transaction, and its artifacts were taken back. -/
  | rejected {completion : PhaseRun} {e : CommandError} {batch' : Batch} {state₁ state₂ after : σ}
      {staged : Bool} : FlushingAhead W completion.destructive batch state batch' state₁ →
      Staging W completion.artifacts state₁ staged state₂ →
      Unstaging W completion.artifacts state₂ staged after →
      Acts W batch state (.completePhase completion) (.error e) batch' after
  /-- A completion was accepted and joined the batch. -/
  | batched {completion : PhaseRun} {answer : Completion} {state₁ after : σ} {staged : Bool}
      {staging : Except TrackerFault Unit} : completion.destructive = false →
      Staging W completion.artifacts state staged state₁ → W state₁ .stageStore staging after →
      Acts W batch state (.completePhase completion) (.ok answer) (batch ++ [completion.entry]) after
  /-- A destructive completion was accepted, and a commit of its result was asked for. -/
  | alone {completion : PhaseRun} {answer : Completion} {batch' : Batch}
      {state₁ state₂ state₃ after : σ} {staged : Bool} {staging : Except TrackerFault Unit}
      {result : Except TrackerFault (Option String)} : completion.destructive = true →
      Flushing W batch state batch' state₁ → Staging W completion.artifacts state₁ staged state₂ →
      W state₂ .stageStore staging state₃ → W state₃ (.commit completion.entry.message) result after →
      Acts W batch state (.completePhase completion) (.ok answer)
        (batch'.afterAlone completion.entry result) after

/-! ## Parts of commands -/

namespace Coordinator

variable {settings : Settings} {now : Stamp} {W : Surroundings σ} {state : σ}

theorem results_calm {α : Type} {t : Talk α} (hstill : Still W) (ht : t.Only Request.Calm) :
    Results W t (fun _ after => after = state) state :=
  ht.ensures (I := fun after => after = state)
    (fun s q answer after hq hx hs => (hstill s q answer after hq hx).trans hs)
    (fun _ _ => trivial) rfl

theorem calm_note (d : Diagnostic) : Request.Calm (.note d) := trivial

/-- The answer of version control is settled without a further word to it. -/
theorem results_settle {α β : Type} (hstill : Still W) (answer : Except TrackerFault α)
    (f : Option α → β) :
    Results W (f <$> Talk.settle answer) (fun b after => b = f answer.toOption ∧ after = state)
      state := by
  rcases answer with fault | a
  · -- either fault is written down, and that is all
    cases fault with
    | failed => exact ⟨trivial, fun _ after hx => ⟨trivial, rfl, hstill _ _ _ _ (calm_note _) hx⟩⟩
    | crashed => exact ⟨trivial, fun _ after hx => ⟨trivial, rfl, hstill _ _ _ _ (calm_note _) hx⟩⟩
  · exact ⟨trivial, rfl, rfl⟩

theorem results_stageArtifacts (hstill : Still W) (paths : List String) :
    Results W (stageArtifacts paths) (fun staged after => Staging W paths state staged after)
      state := by
  unfold stageArtifacts
  split
  · next hempty => exact ⟨trivial, .nothing (List.isEmpty_iff.mp hempty)⟩
  · refine ⟨trivial, fun answer after hx => ?_⟩
    refine (results_settle hstill answer Option.isSome).mono ?_
    rintro staged _ - ⟨rfl, rfl⟩
    rcases answer with fault | ⟨⟩
    · exact .failed hx
    · exact .staged hx

theorem results_unstageArtifacts (hstill : Still W) (staged : Bool) (paths : List String) :
    Results W (unstageArtifacts staged paths) (fun _ after => Unstaging W paths state staged after)
      state := by
  cases staged with
  | false => exact ⟨trivial, .nothing⟩
  | true =>
    refine ⟨trivial, fun answer after hx => ?_⟩
    refine (results_settle hstill answer fun _ => ()).mono ?_
    rintro _ _ - ⟨-, rfl⟩
    exact .asked hx

theorem results_stageStore (hstill : Still W) :
    Results W Talk.stageStore (fun _ after => ∃ answer, W state .stageStore answer after) state := by
  refine ⟨trivial, fun answer after hx => ?_⟩
  refine (results_settle hstill answer fun _ => ()).mono ?_
  rintro _ _ - ⟨-, rfl⟩
  exact ⟨answer, hx⟩

theorem results_commit (hstill : Still W) (message : String) :
    Results W (Talk.commit message)
      (fun r after => ∃ answer, r = answer.toOption ∧ W state (.commit message) answer after)
      state := by
  refine ⟨trivial, fun answer after hx => ?_⟩
  have hsettle : Results W (id <$> Talk.settle answer)
      (fun r after' => r = id answer.toOption ∧ after' = after) after :=
    results_settle hstill answer id
  rw [id_map] at hsettle
  refine hsettle.mono ?_
  rintro _ _ - ⟨rfl, rfl⟩
  exact ⟨answer, rfl, hx⟩

theorem results_flush (hstill : Still W) (batch : Batch) :
    Results W (flush.run batch) (fun p after => Flushing W batch state p.2 after) state := by
  rw [run_flush]
  split
  · next hempty =>
    obtain rfl : batch = [] := List.isEmpty_iff.mp hempty
    exact ⟨trivial, .empty rfl⟩
  · next hnonempty =>
    have hne : batch ≠ [] := fun h => hnonempty (List.isEmpty_iff.mpr h)
    refine Script.ensures_bind.mpr ((results_commit hstill _).mono ?_)
    rintro r after - ⟨answer, rfl, hx⟩
    rcases answer with fault | revision
    · -- the failure is written down
      refine Script.ensures_bind.mpr
        ((results_calm hstill (Talk.only_note calm_note .batchCommitFailed)).mono ?_)
      rintro _ _ - rfl
      exact ⟨trivial, .asked hne hx⟩
    · exact ⟨trivial, .asked hne hx⟩

theorem results_flushAhead (hstill : Still W) (destructive : Bool) (batch : Batch) :
    Results W ((flushAhead destructive).run batch)
      (fun p after => FlushingAhead W destructive batch state p.2 after) state := by
  rw [run_flushAhead]
  cases destructive with
  | false => exact ⟨trivial, rfl, rfl⟩
  | true =>
    rw [if_pos rfl]
    refine Script.ensures_bind.mpr ((results_flush hstill batch).mono ?_)
    intro p after _ hflushing
    exact ⟨trivial, hflushing⟩

theorem results_commitAlone (hstill : Still W) (e : Batch.Entry) (batch : Batch)
    (phaseStart : Option String) :
    Results W ((commitAlone e.item e.summary phaseStart).run batch)
      (fun p after => ∃ answer, p.2 = batch.afterAlone e answer ∧
        W state (.commit e.message) answer after) state := by
  rw [run_commitAlone]
  refine Script.ensures_bind.mpr
    ((results_calm hstill (only_noteMove calm_note trivial phaseStart)).mono ?_)
  rintro _ _ - rfl
  refine Script.ensures_bind.mpr ((results_commit hstill _).mono ?_)
  rintro r after - ⟨answer, rfl, hx⟩
  rcases answer with fault | _ | revision
  · refine Script.ensures_bind.mpr
      ((results_calm hstill (Talk.only_note calm_note .destructiveCommitFailed)).mono ?_)
    rintro _ _ - rfl
    exact ⟨trivial, _, rfl, hx⟩
  · exact ⟨trivial, _, rfl, hx⟩
  · exact ⟨trivial, _, rfl, hx⟩

/-- A command that joins the batch. -/
theorem results_batched (hstill : Still W) (now : Stamp) (batch : Batch) (head : Option String)
    (command : Command) {answer : command.Value → command.Answer}
    (hnot : ∀ completion, command ≠ .completePhase completion) :
    Results W (batched batch answer command.entries (command.transaction settings now head))
      (fun p after => Acts W batch state command p.1 p.2 after) state := by
  refine Script.ensures_bind.mpr ((results_calm hstill (only_transaction command head)).mono ?_)
  rintro r _ - rfl
  cases r with
  | error e => exact ⟨trivial, .refused⟩
  | ok value =>
    refine Script.ensures_bind.mpr ((results_stageStore hstill).mono ?_)
    rintro _ after - ⟨staging, hx⟩
    exact ⟨trivial, .joined hnot hx⟩

/-! ## Completions -/

/-- Recording a phase run once the batch was flushed ahead, or had no need to be. -/
theorem results_recordRun (hstill : Still W) (completion : PhaseRun) {batch batch' : Batch}
    {state₁ : σ} (hahead : FlushingAhead W completion.destructive batch state batch' state₁) :
    Results W ((recordRun settings now completion).run batch')
      (fun p after => Acts W batch state (.completePhase completion) p.1 p.2 after) state₁ := by
  rw [run_recordRun]
  refine Script.ensures_bind.mpr ((results_stageArtifacts hstill completion.artifacts).mono ?_)
  intro staged state₂ _ hstaging
  have htransaction : (mutate settings "complete_phase" completion.item (Item.recordOutcome now
      completion.phase completion.outcome settings.pipelines)).Only Request.Calm := by
    rw [mutate_eq]
    exact only_transaction (.completePhase completion) none
  refine Script.ensures_bind.mpr ((results_calm hstill htransaction).mono ?_)
  rintro r _ - rfl
  cases r with
  | error e =>
    -- what was staged is taken back, the flush ahead is not
    refine Script.ensures_bind.mpr ((results_unstageArtifacts hstill staged _).mono ?_)
    intro _ after _ hunstaging
    exact ⟨trivial, .rejected hahead hstaging hunstaging⟩
  | ok recorded =>
    refine Script.ensures_bind.mpr ((results_stageStore hstill).mono ?_)
    rintro _ state₃ - ⟨staging, hstore⟩
    rcases Bool.eq_false_or_eq_true completion.destructive with hdestructive | hnot
    · have hcommit : (commitResult completion recorded).run batch'
          = (commitAlone completion.entry.item completion.entry.summary recorded.phaseStart).run
            batch' := by
        rw [commitResult, hdestructive]
        rfl
      rw [FlushingAhead, if_pos hdestructive] at hahead
      rw [hcommit]
      refine Script.ensures_bind.mpr ((results_commitAlone hstill completion.entry _ _).mono ?_)
      rintro ⟨fate, batch''⟩ after - ⟨result, hbatch, hx⟩
      obtain rfl : batch'' = batch'.afterAlone completion.entry result := hbatch
      exact ⟨trivial, .alone hdestructive hahead hstaging hstore hx⟩
    · have hpush : (commitResult completion recorded).run batch'
          = pure (.batched, batch' ++ [completion.entry]) := by
        rw [commitResult, hnot]
        rfl
      rw [FlushingAhead, hnot, if_neg Bool.false_ne_true] at hahead
      obtain ⟨rfl, rfl⟩ := hahead
      rw [hpush]
      exact ⟨trivial, .batched hnot hstaging hstore⟩

theorem results_completePhase (hstill : Still W) (completion : PhaseRun) (batch : Batch) :
    Results W ((completePhase settings now completion).run batch)
      (fun p after => Acts W batch state (.completePhase completion) p.1 p.2 after) state := by
  rw [run_completePhase]
  have hprecheck : (precheck settings completion.item completion.phase).Only Request.Calm :=
    only_precheck calm_note (fun _ => trivial) trivial _ _
  refine Script.ensures_bind.mpr ((results_calm hstill hprecheck).mono ?_)
  rintro r _ - rfl
  cases r with
  | error e => exact ⟨trivial, .refused⟩
  | ok configured =>
    refine Script.ensures_bind.mpr
      ((results_calm hstill (only_noteDifference calm_note configured _)).mono ?_)
    rintro _ _ - rfl
    refine Script.ensures_bind.mpr ((results_flushAhead hstill completion.destructive batch).mono ?_)
    rintro ⟨⟨⟩, batch'⟩ state₁ - hahead
    exact results_recordRun hstill completion hahead

/-! ## Every command -/

theorem results_startPhase (hstill : Still W) (id : String) (revision : Option String)
    (batch : Batch) :
    Results W ((startPhase settings now id revision).run batch)
      (fun p after => Acts W batch state (.startPhase id revision) p.1 p.2 after) state := by
  rw [run_startPhase]
  split
  · exact ⟨trivial, .refused⟩
  · cases revision with
    | some text =>
      rw [startRevision, Script.pure_eq_done, Script.done_bind, mutate_eq]
      exact results_batched hstill now batch none (.startPhase id (some text)) (by rintro _ ⟨⟩)
    | none =>
      refine Script.ensures_bind.mpr
        ((results_calm hstill (only_startRevision calm_note trivial none)).mono ?_)
      rintro head _ - rfl
      rw [mutate_eq]
      exact results_batched hstill now batch head (.startPhase id none) (by rintro _ ⟨⟩)

theorem results_ingest (hstill : Still W) (drafts : List Draft) (batch : Batch) :
    Results W ((ingest settings now drafts).run batch)
      (fun p after => Acts W batch state (.ingest drafts) p.1 p.2 after) state := by
  rw [run_ingest]
  split
  · exact ⟨trivial, .idle (by rintro _ ⟨⟩)⟩
  · refine Script.ensures_bind.mpr
      ((results_calm hstill (only_warnUnknown calm_note settings.pipelines _)).mono ?_)
    rintro _ _ - rfl
    exact results_batched hstill now batch none (.ingest drafts) (by rintro _ ⟨⟩)

/-- How a command goes, whichever it is. -/
theorem results_perform (hstill : Still W) (command : Command) (batch : Batch) :
    Results W ((perform settings now command).run batch)
      (fun p after => Acts W batch state command p.1 p.2 after) state := by
  cases command with
  | snapshot =>
    have hload : (snapshot settings).Only Request.Calm :=
      Talk.only_withRetries calm_note (fun _ => trivial) ⟨trivial, fun _ => trivial⟩
    refine Script.ensures_bind.mpr ((results_calm hstill hload).mono ?_)
    rintro r _ - rfl
    cases r with
    | error e => exact ⟨trivial, .refused⟩
    | ok items => exact ⟨trivial, .idle (by rintro _ ⟨⟩)⟩
  | update id updates =>
    show Results W ((update settings now id updates).run batch) _ state
    rw [run_update]
    refine Script.ensures_bind.mpr
      ((results_calm hstill (only_warnUnknown calm_note settings.pipelines _)).mono ?_)
    rintro _ _ - rfl
    rw [mutate_eq]
    exact results_batched hstill now batch none (.update id updates) (by rintro _ ⟨⟩)
  | promote id =>
    show Results W ((promote settings now id).run batch) _ state
    rw [run_promote, mutate_eq]
    exact results_batched hstill now batch none (.promote id) (by rintro _ ⟨⟩)
  | startPhase id revision => exact results_startPhase hstill id revision batch
  | completePhase completion => exact results_completePhase hstill completion batch
  | flush =>
    refine Script.ensures_bind.mpr ((results_flush hstill batch).mono ?_)
    intro p after _ hflushing
    exact ⟨trivial, .flushed hflushing⟩
  | archive id =>
    show Results W ((archive settings id).run batch) _ state
    rw [run_archive]
    exact results_batched hstill now batch none (.archive id) (by rintro _ ⟨⟩)
  | ingest drafts => exact results_ingest hstill drafts batch
  | merge source target =>
    show Results W ((merge settings now source target).run batch) _ state
    rw [run_merge]
    exact results_batched hstill now batch none (.merge source target) (by rintro _ ⟨⟩)
  | unblock id context =>
    show Results W ((unblock settings now id context).run batch) _ state
    rw [run_unblock, mutate_eq]
    exact results_batched hstill now batch none (.unblock id context) (by rintro _ ⟨⟩)

/-- How a command goes when it is submitted. -/
theorem results_submit (hstill : Still W) (command : Command) (c : Coordinator) :
    Results W (submit settings now command c)
      (fun p after => Acts W c.batch state command p.1 p.2.batch after) state := by
  unfold submit
  split
  · exact ⟨trivial, .refused⟩
  · refine Script.ensures_bind.mpr ((results_perform hstill command c.batch).mono ?_)
    rintro ⟨reply, batch⟩ s - hacts
    cases reply with
    | ok answer => exact ⟨trivial, hacts⟩
    | error e =>
      -- an error is written down, and may end the coordinator, but the batch stays
      have hkeeps : Keeps W Request.Calm fun s' => s' = s :=
        fun s' q answer after hq hx hs => (hstill s' q answer after hq hx).trans hs
      refine Script.ensures_bind.mpr (((yields_recover calm_note e { c with batch }).ensures hkeeps
        (fun _ _ => trivial) rfl).mono ?_)
      rintro c' _ - ⟨rfl, rfl⟩
      exact ⟨trivial, hacts⟩

/-- How a turn went. -/
theorem acts_of_leads {t : Turn} {c between : Coordinator} {after : σ} (hstill : Still W)
    (hturn : (submit settings t.now t.command c).Leads t.log (.done (t.reply, between)))
    (hworld : Script.World.Takes W state t.log after) :
    Acts W c.batch state t.command t.reply between.batch after :=
  (results_submit hstill t.command c).post_of_leads hturn hworld

end Coordinator

end Backlog
