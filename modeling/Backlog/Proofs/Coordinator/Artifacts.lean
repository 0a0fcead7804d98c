/-
  Where the paths of a revision come from.

  Program: a completion stages its artifacts before its transaction and takes them back if that is
  refused; a destructive one flushes the batch first and is committed alone.

  Specification: on a dependable version control, every path in a revision is one of the store's
  files, or was in the index from the start, or is an artifact of an accepted completion that has a
  line in the message of the revision.  A destructive completion's own revision has no other artifacts.

  The crux is the invariant of the run (`Accounted`): a path in the index that is none of the store's
  and none from the start belongs to an accepted completion with an entry in the batch.  A flush
  leaves nothing in the index and nothing in the batch, so whatever a destructive completion then
  finds there is its own.
-/
import Backlog.Proofs.Coordinator.Rehearsed
import Backlog.Proofs.Tracker.Repository

namespace Backlog

open Repository (dependable behaves_dependable)

/-! ## Paths that are accounted for -/

/-- Every path is known, or is an artifact of one of these phase runs that the batch has an entry
    of. -/
def Accounted (known : Finset String) (runs : List PhaseRun) (batch : Batch)
    (paths : Finset String) : Prop :=
  ∀ path ∈ paths, path ∉ known → ∃ run ∈ runs, run.entry ∈ batch ∧ path ∈ run.artifacts

variable {files known paths paths' : Finset String} {runs runs' : List PhaseRun}
  {batch batch' : Batch} {r after : Repository}

theorem Accounted.mono (h : Accounted known runs batch paths) (hruns : runs ⊆ runs')
    (hbatch : batch ⊆ batch') (hpaths : paths' ⊆ paths) : Accounted known runs' batch' paths' := by
  intro path hpath hnew
  obtain ⟨run, hrun, hentry, hartifact⟩ := h path (hpaths hpath) hnew
  exact ⟨run, hruns hrun, hbatch hentry, hartifact⟩

theorem Accounted.union (h : Accounted known runs batch paths)
    (h' : Accounted known runs batch paths') : Accounted known runs batch (paths ∪ paths') := by
  intro path hpath hnew
  rcases Finset.mem_union.mp hpath with hpath | hpath
  · exact h path hpath hnew
  · exact h' path hpath hnew

theorem accounted_of_subset (h : paths ⊆ known) : Accounted known runs batch paths :=
  fun _ hpath hnew => absurd (h hpath) hnew

/-- If nothing is pending, everything is known. -/
theorem Accounted.subset_known (h : Accounted known runs [] paths) : paths ⊆ known := by
  intro path hpath
  by_contra hnew
  obtain ⟨run, -, hentry, -⟩ := h path hpath hnew
  cases hentry

/-- The artifacts of a phase run belong to its entry, whether they were staged or not. -/
theorem accounted_staged (known : Finset String) (run : PhaseRun) (staged : Bool) :
    Accounted known [run] [run.entry] (if staged then run.artifacts.toFinset else ∅) := by
  intro path hpath _
  cases staged with
  | false => simp at hpath
  | true =>
    rw [if_pos rfl, List.mem_toFinset] at hpath
    exact ⟨run, List.mem_cons_self, List.mem_cons_self, hpath⟩

/-! ## Revisions -/

/-- How a revision came about in a command, given the batch that this was started with and the phase
    runs that were accepted before: its message lists the batch, or tells a completion, and each path
    that is not known belongs to one of the entries. -/
inductive Made (known : Finset String) (runs : List PhaseRun) (batch : Batch) (command : Command)
    (reply : Except CommandError command.Answer) (revision : Revision) : Prop
  /-- The batch was flushed. -/
  | flushed : command.Flushes → batch.IsListedBy revision.message →
      Accounted known runs batch revision.paths → Made known runs batch command reply revision
  /-- A destructive completion was accepted, and committed alone. -/
  | alone {completion : PhaseRun} : command.completion? reply = some completion →
      completion.destructive = true → completion.entry.IsToldBy revision.message →
      (∀ path ∈ revision.paths, path ∉ known → path ∈ completion.artifacts) →
      Made known runs batch command reply revision

/-- Whoever reads the message of a revision finds a line for each path that is not known: that of an
    accepted completion with this artifact. -/
theorem Made.hasLine {command : Command} {reply : Except CommandError command.Answer}
    {revision : Revision} (h : Made known runs batch command reply revision) {path : String}
    (hpath : path ∈ revision.paths) (hnew : path ∉ known) :
    ∃ run ∈ runs ++ (command.completion? reply).toList,
      path ∈ run.artifacts ∧ run.entry.HasLineIn revision.message := by
  cases h with
  | flushed _ hmessage hpaths =>
    obtain ⟨run, hrun, hentry, hartifact⟩ := hpaths path hpath hnew
    exact ⟨run, List.mem_append_left _ hrun, hartifact, hmessage.hasLine hentry⟩
  | @alone completion hcompletion _ hmessage hpaths =>
    refine ⟨completion, List.mem_append_right _ ?_, hpaths path hpath hnew, .inl hmessage⟩
    rw [hcompletion]
    exact List.mem_singleton_self completion

/-! ## One command -/

/-- After a commit nothing is in the index, and what was is in the revision if there is one. -/
theorem commit_dependable {message : String} {answer : Except TrackerFault (Option String)}
    (hx : dependable files r (.commit message) answer after) :
    (∃ revision, answer = .ok revision) ∧ after.index = ∅ ∧
      ∃ made, after.revisions = r.revisions ++ made ∧
        ∀ revision ∈ made, revision = ⟨message, r.index⟩ := by
  obtain ⟨revision, rfl, hnone⟩ := hx.2
  refine ⟨⟨revision, rfl⟩, ?_⟩
  cases revision with
  | none =>
    obtain rfl : after = r := hx.1
    exact ⟨hnone rfl, [], (List.append_nil _).symm, by simp⟩
  | some revision =>
    obtain rfl : after = r.commit message := hx.1
    exact ⟨rfl, [⟨message, r.index⟩], rfl, fun _ h => List.mem_singleton.mp h⟩

/-- A flush leaves nothing pending and nothing in the index but what is known. -/
theorem flushing_dependable (h : Flushing (dependable files) batch r batch' after)
    (hindex : Accounted known runs batch r.index) :
    batch' = [] ∧ after.index ⊆ known ∧
      ∃ made, after.revisions = r.revisions ++ made ∧
        ∀ revision ∈ made, revision = ⟨batch.message, r.index⟩ := by
  cases h with
  | empty hempty =>
    rw [hempty] at hindex
    exact ⟨rfl, hindex.subset_known, [], (List.append_nil _).symm, by simp⟩
  | asked _ hx =>
    obtain ⟨⟨revision, rfl⟩, hnothing, hmade⟩ := commit_dependable hx
    refine ⟨rfl, ?_, hmade⟩
    rw [hnothing]
    exact Finset.empty_subset known

/-- Artifacts that were staged and taken back leave nothing behind. -/
theorem unstaged_dependable {artifacts : List String} {staged : Bool} {between : Repository}
    (hstaging : Staging (dependable files) artifacts r staged between)
    (hunstaging : Unstaging (dependable files) artifacts between staged after) :
    after.index ⊆ r.index ∧ after.revisions = r.revisions := by
  obtain rfl := (behaves_dependable files).staging hstaging
  cases hunstaging with
  | nothing =>
    rw [if_neg Bool.false_ne_true, Repository.add_empty]
    exact ⟨subset_rfl, rfl⟩
  | @asked answer after hx =>
    obtain rfl : answer = .ok () := hx.2
    obtain rfl : after = (r.add artifacts.toFinset).remove artifacts.toFinset := hx.1
    refine ⟨?_, rfl⟩
    show (r.index ∪ artifacts.toFinset) \ artifacts.toFinset ⊆ r.index
    rw [Finset.union_sdiff_right]
    exact Finset.sdiff_subset

/-- Staging the store's files adds nothing that is not known. -/
theorem stageStore_dependable {answer : Except TrackerFault Unit} (hfiles : files ⊆ known)
    (hx : dependable files r .stageStore answer after)
    (hindex : Accounted known runs batch r.index) :
    Accounted known runs batch after.index ∧ after.revisions = r.revisions := by
  obtain ⟨changed, hchanged, rfl⟩ := hx.1
  exact ⟨hindex.union (accounted_of_subset (hchanged.trans hfiles)), rfl⟩

/-- What a command leaves in the index is accounted for, and so is what it has put into revisions. -/
theorem accounted_of_acts {command : Command} {reply : Except CommandError command.Answer}
    (hfiles : files ⊆ known) (h : Acts (dependable files) batch r command reply batch' after)
    (hindex : Accounted known runs batch r.index) :
    Accounted known (runs ++ (command.completion? reply).toList) batch' after.index ∧
      ∃ made, after.revisions = r.revisions ++ made ∧
        ∀ revision ∈ made, Made known runs batch command reply revision := by
  have hmore : runs ⊆ runs ++ (command.completion? reply).toList := List.subset_append_left _ _
  cases h with
  | refused => exact ⟨hindex.mono hmore (.refl _) subset_rfl, [], by simp⟩
  | idle => exact ⟨hindex.mono hmore (.refl _) subset_rfl, [], by simp⟩
  | joined _ hx =>
    obtain ⟨hafter, hrevisions⟩ := stageStore_dependable hfiles hx hindex
    refine ⟨hafter.mono hmore (List.subset_append_left _ _) subset_rfl, [], ?_, by simp⟩
    rw [hrevisions, List.append_nil]
  | flushed hflushing =>
    obtain ⟨-, hknown, made, hmade, hall⟩ := flushing_dependable hflushing hindex
    refine ⟨accounted_of_subset hknown, made, hmade, fun revision hrevision => ?_⟩
    rw [hall revision hrevision]
    exact .flushed trivial batch.isListedBy_message hindex
  | @rejected completion e batch' state₁ state₂ after staged hahead hstaging hunstaging =>
    obtain ⟨hback, hsame⟩ := unstaged_dependable hstaging hunstaging
    rcases Bool.eq_false_or_eq_true completion.destructive with hdestructive | hnot
    · rw [FlushingAhead, if_pos hdestructive] at hahead
      obtain ⟨-, hknown, made, hmade, hall⟩ := flushing_dependable hahead hindex
      refine ⟨accounted_of_subset (hback.trans hknown), made, hsame.trans hmade, ?_⟩
      intro revision hrevision
      rw [hall revision hrevision]
      exact .flushed hdestructive batch.isListedBy_message hindex
    · rw [FlushingAhead, hnot, if_neg Bool.false_ne_true] at hahead
      obtain ⟨rfl, rfl⟩ := hahead
      refine ⟨hindex.mono hmore (.refl _) hback, [], ?_, by simp⟩
      rw [hsame, List.append_nil]
  | @batched completion answer state₁ after staged staging hnot hstaging hx =>
    obtain rfl := (behaves_dependable files).staging hstaging
    have hstaged : Accounted known (runs ++ [completion]) (batch ++ [completion.entry])
        (r.add (if staged then completion.artifacts.toFinset else ∅)).index := by
      have hbefore := hindex.mono (List.subset_append_left runs [completion])
        (List.subset_append_left batch [completion.entry]) subset_rfl
      have hown := (accounted_staged known completion staged).mono
        (List.subset_append_right runs [completion])
        (List.subset_append_right batch [completion.entry]) subset_rfl
      exact hbefore.union hown
    obtain ⟨hafter, hrevisions⟩ := stageStore_dependable hfiles hx hstaged
    refine ⟨hafter, [], ?_, by simp⟩
    rw [hrevisions, List.append_nil]
    rfl
  | @alone completion answer batch' state₁ state₂ state₃ after staged staging result hdestructive
      hflushing hstaging hstore hx =>
    obtain ⟨-, hknown, made, hmade, hall⟩ := flushing_dependable hflushing hindex
    obtain rfl := (behaves_dependable files).staging hstaging
    -- after the flush only this completion's artifacts are new
    have hstaged : Accounted known [completion] [completion.entry]
        (state₁.add (if staged then completion.artifacts.toFinset else ∅)).index :=
      (accounted_of_subset hknown).union (accounted_staged known completion staged)
    obtain ⟨hown, hrevisions⟩ := stageStore_dependable hfiles hstore hstaged
    obtain ⟨⟨revision, rfl⟩, hnothing, made', hmade', hall'⟩ := commit_dependable hx
    refine ⟨?_, made ++ made', ?_, fun revision hrevision => ?_⟩
    · rw [hnothing]
      exact accounted_of_subset (Finset.empty_subset known)
    · rw [hmade', hrevisions, ← List.append_assoc, ← hmade]
      rfl
    · rcases List.mem_append.mp hrevision with hflush | hcommit
      · rw [hall revision hflush]
        exact .flushed hdestructive batch.isListedBy_message hindex
      · rw [hall' revision hcommit]
        refine .alone rfl hdestructive completion.entry.isToldBy_message fun path hpath hnew => ?_
        obtain ⟨run, hrun, -, hartifact⟩ := hown path hpath hnew
        rw [List.mem_singleton.mp hrun] at hartifact
        exact hartifact

namespace Coordinator

variable {settings : Settings}

/-! ## Every run -/

/-- What a turn leaves in the index is accounted for, and so is what it has put into revisions. -/
theorem accounted_of_leads {t : Turn} {c between : Coordinator} {files known : Finset String}
    {runs : List PhaseRun} {before after : Repository} (hfiles : files ⊆ known)
    (hturn : (submit settings t.now t.command c).Leads t.log (.done (t.reply, between)))
    (hworld : (dependable files).Takes before t.log after)
    (hindex : Accounted known runs c.batch before.index) :
    Accounted known (runs ++ completions [t]) between.batch after.index ∧
      ∃ made, after.revisions = before.revisions ++ made ∧
        ∀ revision ∈ made, Made known runs c.batch t.command t.reply revision := by
  have hacts := acts_of_leads (behaves_dependable files).still hturn hworld
  rw [completions, List.flatMap_singleton]
  exact accounted_of_acts hfiles hacts hindex

/-- A run from an index in which everything is accounted for. -/
theorem accounted_of_serves {c c' : Coordinator} {turns : List Turn} {files known : Finset String}
    {runs : List PhaseRun} {before after : Repository} (hfiles : files ⊆ known)
    (hturns : Serves settings c turns c')
    (hworld : (dependable files).Takes before (talk turns) after)
    (hindex : Accounted known runs c.batch before.index) :
    ∃ made, after.revisions = before.revisions ++ made ∧ ∀ revision ∈ made,
      ∃ earlier t later between, turns = earlier ++ t :: later ∧
        Serves settings c earlier between ∧
        Made known (runs ++ completions earlier) between.batch t.command t.reply revision := by
  -- over the turns, with the phase runs that were accepted before left open
  induction hturns generalizing before runs with
  | idle c =>
    cases hworld
    exact ⟨[], by simp⟩
  | @turn c between c' t turns hturn _ ih =>
    rw [talk_cons, Script.World.takes_append] at hworld
    obtain ⟨middle, hthis, hlater⟩ := hworld
    obtain ⟨hindex', made, hmade, hall⟩ := accounted_of_leads hfiles hturn hthis hindex
    obtain ⟨made', hmade', hall'⟩ := ih hlater hindex'
    refine ⟨made ++ made', by rw [hmade', hmade, List.append_assoc], fun revision hrevision => ?_⟩
    rcases List.mem_append.mp hrevision with hnow | hthen
    · refine ⟨[], t, turns, c, rfl, .idle c, ?_⟩
      rw [show completions [] = [] from rfl, List.append_nil]
      exact hall revision hnow
    · obtain ⟨earlier, u, later, between', rfl, hearlier, hrevision'⟩ := hall' revision hthen
      refine ⟨t :: earlier, u, later, between', rfl, .turn hturn hearlier, ?_⟩
      rw [List.append_assoc, ← completions_append] at hrevision'
      exact hrevision'

/-- No artifact is in a revision that does not list it. On a dependable version control, every
    revision that a run has made is the flush of a batch, and then each of its paths, but for the
    store's files and what was in the index from the start, is an artifact of a completion that was
    accepted before and has its entry in that batch; or it is that of a destructive completion that
    was accepted, and then each of those paths is an artifact of this completion. Either way the
    completion has a line in the message of the revision. -/
theorem no_foreign_artifacts {c : Coordinator} {turns : List Turn} {files start : Finset String}
    {after : Repository} (hturns : Serves settings {} turns c)
    (hworld : (dependable files).Takes { index := start } (talk turns) after) :
    ∀ revision ∈ after.revisions, ∃ earlier t later between, turns = earlier ++ t :: later ∧
      Serves settings {} earlier between ∧
      Made (files ∪ start) (completions earlier) between.batch t.command t.reply revision ∧
      ∀ path ∈ revision.paths, path ∉ files ∪ start → ∃ run ∈ completions (earlier ++ [t]),
        path ∈ run.artifacts ∧ run.entry.HasLineIn revision.message := by
  have hindex : Accounted (files ∪ start) [] [] start :=
    accounted_of_subset Finset.subset_union_right
  obtain ⟨made, hmade, hall⟩ :=
    accounted_of_serves Finset.subset_union_left hturns hworld hindex
  rw [List.nil_append] at hmade
  rw [hmade]
  intro revision hrevision
  obtain ⟨earlier, t, later, between, hsplit, hearlier, hrevision⟩ := hall revision hrevision
  refine ⟨earlier, t, later, between, hsplit, hearlier, hrevision, fun path hpath hnew => ?_⟩
  rw [completions_append, completions, completions, List.flatMap_singleton]
  exact hrevision.hasLine hpath hnew

/-- A completion that was accepted ahead of a destructive one, whose report comes with a flush. -/
theorem no_foreign_artifacts_rehearsed :
    let commands := [(⟨1, 0⟩, .ingest [{ title := "Follow up" }]), (⟨2, 0⟩, .promote "WRK-2"),
      (⟨3, 0⟩, .completePhase ⟨"WRK-2", "research", false, .complete, ["docs/notes.md"]⟩),
      (⟨4, 0⟩, .promote "WRK-2"),
      (⟨5, 0⟩, .completePhase ⟨"WRK-2", "prd", true, .complete, ["docs/prd.md"]⟩)]
    let turns := rehearsedTurns {} {} .sample commands
    let after := Repository.replay {"tasks.json"} {} (talk turns)
    after.revisions.map Revision.paths
        = [{"docs/notes.md", "tasks.json"}, {"docs/prd.md", "tasks.json"}] ∧
      ∀ revision ∈ after.revisions, ∃ earlier t later between, turns = earlier ++ t :: later ∧
        Serves {} {} earlier between ∧
        Made ({"tasks.json"} ∪ ∅) (completions earlier) between.batch t.command t.reply revision ∧
        ∀ path ∈ revision.paths, path ∉ ({"tasks.json"} ∪ ∅ : Finset String) →
          ∃ run ∈ completions (earlier ++ [t]),
            path ∈ run.artifacts ∧ run.entry.HasLineIn revision.message := by
  intro commands turns after
  have hsmooth : ∀ x ∈ talk turns, x.smooth = true := by decide +kernel
  have hturns := serves_rehearsedTurns {} {} .sample commands
  have hworld := (Repository.takes_replay {"tasks.json"} {} hsmooth).1
  exact ⟨by decide +kernel, no_foreign_artifacts hturns hworld⟩

end Coordinator

end Backlog
