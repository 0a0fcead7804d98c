/-
  What each command commits.

  Specification: only a flush and the completion of a destructive phase ask for commits.  A flush asks
  for one commit of the batch, if there is something in it; the completion flushes the batch in the
  same way and then commits its own result.  In between, a command may be stopped anywhere (`Fits`),
  and when it is over, its reply, the batch and its commits belong together (`Ended`).

  `Tracked` is all of the surroundings that counts here: the commits that were asked for, and whether
  staging was asked for since the last one.  Everything else that a command does is without
  commits, and leaves no trace in it but that something was staged.
-/
import Backlog.Proofs.Batch
import Backlog.Proofs.Coordinator.Frame

namespace Backlog

open Script (Keeps)

/-! ## Commits -/

/-- A request to commit. -/
structure Commit where
  message : String
  /-- Whether staging was asked for since the commit before. -/
  staged : Bool
  answer : Except TrackerFault (Option String)

/-- The commits that were asked for, the latest last, and whether staging was asked for since. -/
structure Tracked where
  commits : List Commit := []
  staged : Bool := false

namespace Tracked

/-- What an exchange adds. -/
def after (s : Tracked) : Exchange → Tracked
  | ⟨.commit message, answer⟩ =>
    { commits := s.commits ++ [⟨message, s.staged, answer⟩], staged := false }
  | ⟨.stage _, _⟩ => { s with staged := true }
  | ⟨.stageStore, _⟩ => { s with staged := true }
  | _ => s

/-- What these exchanges add. -/
def track (s : Tracked) (log : List Exchange) : Tracked := log.foldl after s

/-- The surroundings in which any answer may be given and the commits are counted. -/
def world : Surroundings Tracked := fun s q a s' => s' = s.after ⟨q, a⟩

theorem takes_track (s : Tracked) (log : List Exchange) : world.Takes s log (s.track log) :=
  Script.World.takes_foldl s fun _ _ _ => rfl

/-- No commit later: perhaps something was staged. -/
structure Later (s s' : Tracked) : Prop where
  commits : s'.commits = s.commits
  staged : s.staged = true → s'.staged = true

theorem Later.refl (s : Tracked) : s.Later s := ⟨rfl, fun h => h⟩

theorem Later.trans {s s' s'' : Tracked} (h : s.Later s') (h' : s'.Later s'') : s.Later s'' :=
  ⟨h'.commits.trans h.commits, fun hs => h'.staged (h.staged hs)⟩

/-- A commit that is asked for later comes next. -/
theorem Later.commits_after {s s' : Tracked} (h : s.Later s') (message : String)
    (answer : Except TrackerFault (Option String)) :
    (s'.after ⟨.commit message, answer⟩).commits = s.commits ++ [⟨message, s'.staged, answer⟩] := by
  rw [← h.commits]
  rfl

end Tracked

/-- The request is not one to commit. -/
def Request.NoCommit : Request → Prop
  | .commit _ => False
  | _ => True

theorem Tracked.keeps_later (s : Tracked) :
    Keeps Tracked.world Request.NoCommit fun s' => s.Later s' := by
  rintro s' q a after hq rfl hlater
  refine hlater.trans ?_
  cases q with
  | commit message => exact hq.elim
  | stage paths => exact ⟨rfl, fun _ => rfl⟩
  | stageStore => exact ⟨rfl, fun _ => rfl⟩
  | _ => exact .refl s'

/-! ## What the batch comes to -/

namespace Batch

/-- The batch after a commit of it was asked for: a commit that fails keeps the entries. -/
def afterFlush (batch : Batch) : Except TrackerFault (Option String) → Batch
  | .ok _ => []
  | .error _ => batch

/-- The batch after a commit of one change alone: a revision covers what was pending too, and if the
    commit fails the change is pending. -/
def afterAlone (batch : Batch) (e : Entry) : Except TrackerFault (Option String) → Batch
  | .ok (some _) => []
  | .ok none => batch
  | .error _ => batch ++ [e]

end Batch

/-- How a batch was flushed. -/
inductive Flushed (batch : Batch) (s : Tracked) : Batch → Tracked → Prop
  | empty : batch = [] → Flushed batch s [] s
  | asked (answer : Except TrackerFault (Option String)) : batch ≠ [] →
      Flushed batch s (batch.afterFlush answer) (s.after ⟨.commit batch.message, answer⟩)

namespace Coordinator

variable {settings : Settings} {now : Stamp} {inv : Tracked → Prop} {s : Tracked}

/-- What leaves version control alone asks for no commit. -/
theorem noCommit_of_calm (q : Request) (hq : q.Calm) : q.NoCommit := by
  cases q with
  | commit message => exact hq.elim
  | _ => trivial

/-- A part of a command that asks for no commit. -/
theorem ensures_later {α : Type} {t : Talk α} (ht : t.Only Request.NoCommit)
    (hinv : ∀ s', s.Later s' → inv s') :
    t.Ensures Tracked.world inv (fun _ s' => s.Later s') s :=
  ht.ensures s.keeps_later hinv (.refl s)

/-- Afterwards the staging of the store's files was asked for, whatever came of it. -/
theorem ensures_stageStore (hinv : ∀ s', s.Later s' → inv s') :
    Talk.stageStore.Ensures Tracked.world inv (fun _ s' => s.Later s' ∧ s'.staged = true) s := by
  refine ⟨hinv s (.refl s), fun a s' hs' => ?_⟩
  obtain rfl : s' = s.after ⟨.stageStore, a⟩ := hs'
  have hlater : s.Later (s.after ⟨.stageStore, a⟩) := ⟨rfl, fun _ => rfl⟩
  rcases a with fault | ⟨⟩
  · cases fault with
    | failed => exact ⟨hinv _ hlater, fun _ s' hs' => hs' ▸ ⟨hinv _ hlater, hlater, rfl⟩⟩
    | crashed => exact ⟨hinv _ hlater, fun _ s' hs' => hs' ▸ ⟨hinv _ hlater, hlater, rfl⟩⟩
  · exact ⟨hinv _ hlater, hlater, rfl⟩

theorem ensures_commit {message : String} (hbefore : inv s)
    (hafter : ∀ answer, inv (s.after ⟨.commit message, answer⟩)) :
    (Talk.commit message).Ensures Tracked.world inv
      (fun r s' => ∃ answer, r = answer.toOption ∧ s' = s.after ⟨.commit message, answer⟩) s := by
  refine ⟨hbefore, fun answer s' hs' => ?_⟩
  obtain rfl : s' = s.after ⟨.commit message, answer⟩ := hs'
  rcases answer with fault | revision
  · -- the failure is written down
    cases fault with
    | failed => exact ⟨hafter _, fun _ s' hs' => hs' ▸ ⟨hafter _, _, rfl, rfl⟩⟩
    | crashed => exact ⟨hafter _, fun _ s' hs' => hs' ▸ ⟨hafter _, _, rfl, rfl⟩⟩
  · exact ⟨hafter _, _, rfl, rfl⟩

theorem ensures_flush {batch : Batch} (hbefore : inv s)
    (hafter : batch ≠ [] → ∀ answer, inv (s.after ⟨.commit batch.message, answer⟩)) :
    (flush.run batch).Ensures Tracked.world inv (fun p s' => Flushed batch s p.2 s') s := by
  rw [run_flush]
  split
  · next hempty =>
    obtain rfl : batch = [] := List.isEmpty_iff.mp hempty
    exact ⟨hbefore, .empty rfl⟩
  · next hnonempty =>
    have hne : batch ≠ [] := fun h => hnonempty (List.isEmpty_iff.mpr h)
    refine Script.ensures_bind.mpr ((ensures_commit hbefore (hafter hne)).mono ?_)
    rintro r s' - ⟨answer, rfl, rfl⟩
    rcases answer with fault | revision
    · exact ⟨hafter hne _, fun _ s' hs' => hs' ▸ ⟨hafter hne _, .asked (.error fault) hne⟩⟩
    · exact ⟨hafter hne _, .asked (.ok revision) hne⟩

theorem ensures_flushAhead {batch : Batch} (hbefore : inv s)
    (hafter : batch ≠ [] → ∀ answer, inv (s.after ⟨.commit batch.message, answer⟩)) :
    ((flushAhead true).run batch).Ensures Tracked.world inv (fun p s' => Flushed batch s p.2 s') s := by
  rw [run_flushAhead, if_pos rfl]
  exact Script.ensures_bind.mpr ((ensures_flush hbefore hafter).mono fun _ _ hs h => ⟨hs, h⟩)

theorem ensures_commitAlone {e : Batch.Entry} {batch : Batch} {phaseStart : Option String}
    (hbefore : ∀ s', s.Later s' → inv s')
    (hafter : ∀ s', s.Later s' → ∀ answer, inv (s'.after ⟨.commit e.message, answer⟩)) :
    ((commitAlone e.item e.summary phaseStart).run batch).Ensures Tracked.world inv
      (fun p s' => ∃ s₁ answer, s.Later s₁ ∧ p.2 = batch.afterAlone e answer ∧
        s' = s₁.after ⟨.commit e.message, answer⟩) s := by
  rw [run_commitAlone]
  have hmove : (noteMove phaseStart).Only Request.NoCommit :=
    only_noteMove (fun _ => trivial) trivial phaseStart
  refine Script.ensures_bind.mpr ((ensures_later hmove hbefore).mono ?_)
  intro _ s₁ _ hlater
  refine Script.ensures_bind.mpr
    ((ensures_commit (hbefore s₁ hlater) (hafter s₁ hlater)).mono ?_)
  rintro r s' hs' ⟨answer, rfl, rfl⟩
  rcases answer with fault | _ | revision
  · exact ⟨hs', fun _ s' hx => hx ▸ ⟨hs', s₁, .error fault, hlater, rfl, rfl⟩⟩
  · exact ⟨hs', s₁, .ok none, hlater, rfl, rfl⟩
  · exact ⟨hs', s₁, .ok (some revision), hlater, rfl, rfl⟩

end Coordinator

/-! ## What belongs together -/

/-- A command that begins with a flush, or is one. -/
def Command.Flushes : Command → Prop
  | .flush => True
  | .completePhase completion => completion.destructive = true
  | _ => False

/-- The commits that a command may have asked for while it is under way, given the batch that it was
    started with. -/
inductive Fits (batch : Batch) : Command → List Commit → Prop
  | none {command : Command} : Fits batch command []
  | flushed {command : Command} {c : Commit} : command.Flushes → batch ≠ [] →
      batch.IsListedBy c.message → Fits batch command [c]
  | alone {completion : PhaseRun} {c : Commit} : completion.destructive = true → batch = [] →
      completion.entry.IsToldBy c.message → Fits batch (.completePhase completion) [c]
  | both {completion : PhaseRun} {c c' : Commit} : completion.destructive = true → batch ≠ [] →
      batch.IsListedBy c.message → completion.entry.IsToldBy c'.message →
      Fits batch (.completePhase completion) [c, c']

/-- The reply to a command, the batch that it leaves and what it has asked of version control, given
    the batch that it was started with and whether something was staged then. -/
inductive Ended (batch : Batch) (staged : Bool) :
    (command : Command) → Except CommandError command.Answer → Batch → Tracked → Prop
  /-- It was refused before it asked for a commit. -/
  | refused {command : Command} {e : CommandError} {s : Tracked} :
      Tracked.Later ⟨[], staged⟩ s → Ended batch staged command (.error e) batch s
  /-- It was accepted, and its changes joined the batch. -/
  | joined {command : Command} {answer : command.Answer} {s : Tracked} :
      (∀ completion, command = .completePhase completion → completion.destructive = false) →
      Tracked.Later ⟨[], staged⟩ s → (command.entries answer ≠ [] → s.staged = true) →
      Ended batch staged command (.ok answer) (batch ++ command.entries answer) s
  /-- It was a flush. -/
  | flushed {answer : Option String} {after : Batch} {s₁ s : Tracked} :
      Tracked.Later ⟨[], staged⟩ s₁ → Flushed batch s₁ after s →
      Ended batch staged .flush (.ok answer) after s
  /-- A destructive completion was refused after the flush. -/
  | stopped {completion : PhaseRun} {e : CommandError} {after : Batch} {s₁ s₂ s : Tracked} :
      completion.destructive = true → Tracked.Later ⟨[], staged⟩ s₁ → Flushed batch s₁ after s₂ →
      s₂.Later s → Ended batch staged (.completePhase completion) (.error e) after s
  /-- A destructive completion was accepted, and a commit of its result was asked for. -/
  | committed {completion : PhaseRun} {answer : Completion} {after : Batch} {s₁ s₂ s₃ : Tracked}
      {result : Except TrackerFault (Option String)} :
      completion.destructive = true → Tracked.Later ⟨[], staged⟩ s₁ → Flushed batch s₁ after s₂ →
      s₂.Later s₃ → s₃.staged = true →
      Ended batch staged (.completePhase completion) (.ok answer)
        (after.afterAlone completion.entry result)
        (s₃.after ⟨.commit completion.entry.message, result⟩)

/-! ## Every command -/

namespace Coordinator

variable {settings : Settings} {now : Stamp} {batch : Batch} {staged : Bool}

theorem fits_of_later {command : Command} {s : Tracked}
    (h : Tracked.Later ⟨[], staged⟩ s) : Fits batch command s.commits := by
  rw [h.commits]
  exact .none

/-- While a destructive completion or a flush is under way. -/
theorem fits_of_flushed {command : Command} {s₁ s₂ s : Tracked} {after : Batch}
    (hcommand : command.Flushes) (hbefore : Tracked.Later ⟨[], staged⟩ s₁)
    (hflushed : Flushed batch s₁ after s₂) (hlater : s₂.Later s) : Fits batch command s.commits := by
  rw [hlater.commits]
  cases hflushed with
  | empty => exact fits_of_later hbefore
  | asked answer hne =>
    rw [hbefore.commits_after]
    exact .flushed hcommand hne (Batch.isListedBy_message batch)

theorem fits_of_committed {completion : PhaseRun} {s₁ s₂ s₃ : Tracked} {after : Batch}
    {result : Except TrackerFault (Option String)} (hdestructive : completion.destructive = true)
    (hbefore : Tracked.Later ⟨[], staged⟩ s₁) (hflushed : Flushed batch s₁ after s₂)
    (hlater : s₂.Later s₃) : Fits batch (.completePhase completion)
      (s₃.after ⟨.commit completion.entry.message, result⟩).commits := by
  rw [hlater.commits_after]
  cases hflushed with
  | empty hempty =>
    rw [hbefore.commits]
    exact .alone hdestructive hempty completion.entry.isToldBy_message
  | asked answer hne =>
    rw [hbefore.commits_after]
    exact .both hdestructive hne (Batch.isListedBy_message batch) completion.entry.isToldBy_message

/-- A command that joins the batch. -/
theorem ended_batched (now : Stamp) (head : Option String) {command : Command}
    {answer : command.Value → command.Answer} {s : Tracked}
    (hnot : ∀ completion, command = .completePhase completion → completion.destructive = false)
    (hbefore : Tracked.Later ⟨[], staged⟩ s) :
    (batched batch answer command.entries (command.transaction settings now head)).Ensures
      Tracked.world (fun s => Fits batch command s.commits)
      (fun p s => Ended batch staged command p.1 p.2 s) s := by
  have hinv : ∀ s', s.Later s' → Fits batch command s'.commits :=
    fun s' h => fits_of_later (hbefore.trans h)
  have htransaction : (command.transaction settings now head).Only Request.NoCommit :=
    (only_transaction command head).mono noCommit_of_calm
  refine Script.ensures_bind.mpr ((ensures_later htransaction hinv).mono ?_)
  rintro (e | value) s₁ hfits hlater
  · exact ⟨hfits, .refused (hbefore.trans hlater)⟩
  · -- the store's files are staged before the change joins the batch
    have hinv' : ∀ s', s₁.Later s' → Fits batch command s'.commits :=
      fun s' h => hinv s' (hlater.trans h)
    refine Script.ensures_bind.mpr ((ensures_stageStore hinv').mono ?_)
    rintro _ s₂ hfits ⟨hlater', hstaged⟩
    exact ⟨hfits, .joined hnot ((hbefore.trans hlater).trans hlater') fun _ => hstaged⟩

/-- Recording a phase run: it is refused before anything is committed, or its result is committed or
    joins the batch once the store's files were staged. -/
theorem ensures_recordRun {completion : PhaseRun} {before : Batch} {s : Tracked}
    {inv : Tracked → Prop} {post : Except CommandError Completion × Batch → Tracked → Prop}
    (hinv : ∀ s', s.Later s' → inv s')
    (hrefused : ∀ e s', s.Later s' → post (.error e, before) s')
    (haccepted : ∀ recorded s', s.Later s' → s'.staged = true →
      ((commitResult completion recorded).run before).Ensures Tracked.world inv
        (fun p s'' => ∀ answer, post (.ok answer, p.2) s'') s') :
    ((recordRun settings now completion).run before).Ensures Tracked.world inv post s := by
  have hnote : ∀ d, Request.NoCommit (.note d) := fun _ => trivial
  rw [run_recordRun]
  refine Script.ensures_bind.mpr ((ensures_later (only_stageArtifacts hnote trivial) hinv).mono ?_)
  intro inIndex s₁ _ hlater
  have htransaction : (mutate settings "complete_phase" completion.item (Item.recordOutcome now
      completion.phase completion.outcome settings.pipelines)).Only Request.NoCommit := by
    rw [mutate_eq]
    exact (only_transaction (.completePhase completion) none).mono noCommit_of_calm
  refine Script.ensures_bind.mpr
    ((ensures_later htransaction fun s' h => hinv s' (hlater.trans h)).mono ?_)
  rintro (e | recorded) s₂ _ hlater'
  · -- the transaction was refused, and what was staged ahead is taken back
    refine Script.ensures_bind.mpr ((ensures_later (only_unstageArtifacts hnote trivial inIndex)
      fun s' h => hinv s' ((hlater.trans hlater').trans h)).mono ?_)
    intro _ s₃ hs₃ hlater''
    exact ⟨hs₃, hrefused e s₃ ((hlater.trans hlater').trans hlater'')⟩
  · refine Script.ensures_bind.mpr
      ((ensures_stageStore fun s' h => hinv s' ((hlater.trans hlater').trans h)).mono ?_)
    rintro _ s₃ _ ⟨hlater'', hstaged⟩
    refine Script.ensures_bind.mpr
      ((haccepted recorded s₃ ((hlater.trans hlater').trans hlater'') hstaged).mono ?_)
    intro p s₄ hs₄ hpost
    exact ⟨hs₄, hpost _⟩

/-- A destructive completion, once the batch was flushed. -/
theorem ended_destructive {completion : PhaseRun} {after : Batch} {s₁ s₂ : Tracked}
    (hdestructive : completion.destructive = true) (hbefore : Tracked.Later ⟨[], staged⟩ s₁)
    (hflushed : Flushed batch s₁ after s₂) :
    ((recordRun settings now completion).run after).Ensures Tracked.world
      (fun s => Fits batch (.completePhase completion) s.commits)
      (fun p s => Ended batch staged (.completePhase completion) p.1 p.2 s) s₂ := by
  have hinv : ∀ s, s₂.Later s → Fits batch (.completePhase completion) s.commits :=
    fun s h => fits_of_flushed hdestructive hbefore hflushed h
  refine ensures_recordRun hinv (fun e s h => .stopped hdestructive hbefore hflushed h) ?_
  intro recorded s hlater hstaged
  have hcommit : (commitResult completion recorded).run after
      = (commitAlone completion.entry.item completion.entry.summary recorded.phaseStart).run
        after := by
    rw [commitResult, hdestructive]
    rfl
  rw [hcommit]
  refine (ensures_commitAlone (fun s' h => hinv s' (hlater.trans h)) fun s' h answer =>
    fits_of_committed hdestructive hbefore hflushed (hlater.trans h)).mono ?_
  rintro ⟨fate, batch'⟩ s₄ _ ⟨s₃, result, hlater', hbatch, rfl⟩ answer
  obtain rfl : batch' = after.afterAlone completion.entry result := hbatch
  exact .committed hdestructive hbefore hflushed (hlater.trans hlater') (hlater'.staged hstaged)

/-- Any other completion. -/
theorem ended_nondestructive {completion : PhaseRun} {s : Tracked}
    (hnot : completion.destructive = false) (hbefore : Tracked.Later ⟨[], staged⟩ s) :
    ((recordRun settings now completion).run batch).Ensures Tracked.world
      (fun s => Fits batch (.completePhase completion) s.commits)
      (fun p s => Ended batch staged (.completePhase completion) p.1 p.2 s) s := by
  refine ensures_recordRun (fun s' h => fits_of_later (hbefore.trans h))
    (fun e s' h => .refused (hbefore.trans h)) ?_
  intro recorded s' hlater hstaged
  have hpush : (commitResult completion recorded).run batch
      = pure (.batched, batch ++ [completion.entry]) := by
    rw [commitResult, hnot]
    rfl
  rw [hpush]
  refine ⟨fits_of_later (hbefore.trans hlater), fun answer => ?_⟩
  refine .joined ?_ (hbefore.trans hlater) fun _ => hstaged
  rintro _ hcompletion
  cases hcompletion
  exact hnot

theorem ended_completePhase (completion : PhaseRun) :
    ((completePhase settings now completion).run batch).Ensures Tracked.world
      (fun s => Fits batch (.completePhase completion) s.commits)
      (fun p s => Ended batch staged (.completePhase completion) p.1 p.2 s) ⟨[], staged⟩ := by
  rw [run_completePhase]
  have hnote : ∀ d, Request.NoCommit (.note d) := fun _ => trivial
  have hprecheck : (precheck settings completion.item completion.phase).Only Request.NoCommit :=
    only_precheck hnote (fun _ => trivial) trivial _ _
  refine Script.ensures_bind.mpr ((ensures_later hprecheck fun s h => fits_of_later h).mono ?_)
  rintro (e | configured) s hfits hlater
  · exact ⟨hfits, .refused hlater⟩
  · refine Script.ensures_bind.mpr ((ensures_later (only_noteDifference hnote _ _)
      fun s' h => fits_of_later (hlater.trans h)).mono ?_)
    intro _ s₁ hfits hlater'
    have hbefore := hlater.trans hlater'
    -- only a destructive completion flushes ahead
    rcases Bool.eq_false_or_eq_true completion.destructive with hdestructive | hnot
    · rw [show (flushAhead completion.destructive).run batch = (flushAhead true).run batch by
        rw [hdestructive]]
      have hafter : batch ≠ [] → ∀ answer, Fits batch (.completePhase completion)
          (s₁.after ⟨.commit batch.message, answer⟩).commits := fun hne answer =>
        fits_of_flushed hdestructive hbefore (.asked answer hne) (.refl _)
      refine Script.ensures_bind.mpr ((ensures_flushAhead hfits hafter).mono ?_)
      rintro ⟨⟨⟩, after⟩ s₂ _ hflushed
      exact ended_destructive hdestructive hbefore hflushed
    · rw [show (flushAhead completion.destructive).run batch = pure ((), batch) by
        rw [hnot]; rfl]
      exact ended_nondestructive hnot hbefore

/-- A command that was accepted and has changed nothing. -/
theorem ended_of_entries_nil {command : Command} {answer : command.Answer} {s : Tracked}
    (hnot : ∀ completion, command = .completePhase completion → completion.destructive = false)
    (hbefore : Tracked.Later ⟨[], staged⟩ s) (hentries : command.entries answer = []) :
    Ended batch staged command (.ok answer) batch s := by
  have hended : Ended batch staged command (.ok answer) (batch ++ command.entries answer) s :=
    .joined hnot hbefore fun hne => absurd hentries hne
  rw [hentries, List.append_nil] at hended
  exact hended

theorem ended_startPhase (id : String) (revision : Option String) :
    ((startPhase settings now id revision).run batch).Ensures Tracked.world
      (fun s => Fits batch (.startPhase id revision) s.commits)
      (fun p s => Ended batch staged (.startPhase id revision) p.1 p.2 s) ⟨[], staged⟩ := by
  rw [run_startPhase]
  split
  · exact ⟨.none, .refused (.refl _)⟩
  · cases revision with
    | some text =>
      rw [startRevision, Script.pure_eq_done, Script.done_bind, mutate_eq]
      exact ended_batched now none (by rintro _ ⟨⟩) (.refl _)
    | none =>
      refine Script.ensures_bind.mpr ((ensures_later
        (only_startRevision (fun _ => trivial) trivial none) fun s h => fits_of_later h).mono ?_)
      intro head s _ hlater
      rw [mutate_eq]
      exact ended_batched now head (by rintro _ ⟨⟩) hlater

/-- What a command comes to, whichever it is. -/
theorem ended_perform (command : Command) :
    ((perform settings now command).run batch).Ensures Tracked.world
      (fun s => Fits batch command s.commits)
      (fun p s => Ended batch staged command p.1 p.2 s) ⟨[], staged⟩ := by
  have hnote : ∀ d, Request.NoCommit (.note d) := fun _ => trivial
  cases command with
  | snapshot =>
    have hload : (snapshot settings).Only Request.NoCommit :=
      Talk.only_withRetries hnote (fun _ => trivial) ⟨trivial, fun _ => trivial⟩
    refine Script.ensures_bind.mpr ((ensures_later hload fun s h => fits_of_later h).mono ?_)
    rintro (e | items) s hfits hlater
    · exact ⟨hfits, .refused hlater⟩
    · exact ⟨hfits, ended_of_entries_nil (fun _ h => nomatch h) hlater rfl⟩
  | update id updates =>
    show ((update settings now id updates).run batch).Ensures _ _ _ _
    rw [run_update]
    refine Script.ensures_bind.mpr ((ensures_later (only_warnUnknown hnote _ _)
      fun s h => fits_of_later h).mono ?_)
    intro _ s _ hlater
    rw [mutate_eq]
    exact ended_batched now none (fun _ h => nomatch h) hlater
  | promote id =>
    show ((promote settings now id).run batch).Ensures _ _ _ _
    rw [run_promote, mutate_eq]
    exact ended_batched now none (fun _ h => nomatch h) (.refl _)
  | startPhase id revision => exact ended_startPhase id revision
  | completePhase completion => exact ended_completePhase completion
  | flush =>
    have hafter : batch ≠ [] → ∀ answer, Fits batch .flush
        (Tracked.after ⟨[], staged⟩ ⟨.commit batch.message, answer⟩).commits :=
      fun hne answer => .flushed trivial hne (Batch.isListedBy_message batch)
    refine Script.ensures_bind.mpr ((ensures_flush .none hafter).mono ?_)
    intro p s hfits hflushed
    exact ⟨hfits, .flushed (.refl _) hflushed⟩
  | archive id =>
    show ((archive settings id).run batch).Ensures _ _ _ _
    rw [run_archive]
    exact ended_batched now none (fun _ h => nomatch h) (.refl _)
  | ingest drafts =>
    show ((ingest settings now drafts).run batch).Ensures _ _ _ _
    rw [run_ingest]
    split
    · exact ⟨.none, ended_of_entries_nil (fun _ h => nomatch h) (.refl _) rfl⟩
    · refine Script.ensures_bind.mpr ((ensures_later (only_warnUnknown hnote _ _)
        fun s h => fits_of_later h).mono ?_)
      intro _ s _ hlater
      exact ended_batched now none (fun _ h => nomatch h) hlater
  | merge source target =>
    show ((merge settings now source target).run batch).Ensures _ _ _ _
    rw [run_merge]
    exact ended_batched now none (fun _ h => nomatch h) (.refl _)
  | unblock id context =>
    show ((unblock settings now id context).run batch).Ensures _ _ _ _
    rw [run_unblock, mutate_eq]
    exact ended_batched now none (fun _ h => nomatch h) (.refl _)

theorem ended_of_recover {command : Command} {e : CommandError} {after : Batch} {s s' : Tracked}
    (h : Ended batch staged command (.error e) after s) (hlater : s.Later s') :
    Ended batch staged command (.error e) after s' := by
  cases h with
  | refused hbefore => exact .refused (hbefore.trans hlater)
  | stopped hdestructive hbefore hflushed hafter =>
    exact .stopped hdestructive hbefore hflushed (hafter.trans hlater)

/-- What a command comes to when it is submitted. -/
theorem ended_submit (command : Command) (c : Coordinator) (staged : Bool) :
    (submit settings now command c).Ensures Tracked.world
      (fun s => Fits c.batch command s.commits)
      (fun p s => Ended c.batch staged command p.1 p.2.batch s) ⟨[], staged⟩ := by
  unfold submit
  split
  · exact ⟨.none, .refused (.refl _)⟩
  · refine Script.ensures_bind.mpr ((ended_perform command).mono ?_)
    rintro ⟨reply, batch⟩ s hfits hended
    cases reply with
    | ok answer => exact ⟨hfits, hended⟩
    | error e =>
      -- an error is written down, which adds no commit
      have hinv : ∀ s', s.Later s' → Fits c.batch command s'.commits := by
        intro s' h
        rw [h.commits]
        exact hfits
      refine Script.ensures_bind.mpr
        (((yields_recover (fun _ => trivial) e _).ensures s.keeps_later hinv (.refl s)).mono ?_)
      rintro c' s' hfits' ⟨hlater, rfl⟩
      exact ⟨hfits', ended_of_recover hended hlater⟩

end Coordinator

end Backlog
