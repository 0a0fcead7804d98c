/-
  How long staged artifacts stay in the index.

  Program: a completion that is refused in its transaction takes its artifacts out of the index
  again.  It takes out all the paths that it reported, whoever had put them there.

  Specification: while version control does not fail, an artifact of an accepted completion stays in
  the index until a revision is made, or until a completion that reports the same path is refused
  (`accepted_artifact_stays`).  What a refused completion does to the index is stated exactly: what
  its own flush has left stays as it is, or loses the paths that the completion reported
  (`rejected_index`).

  The second of these events is not harmless.  A path that two completions report is lost from the
  next revision if the second one is refused, and `accepted_artifact_may_vanish` is such a run.
-/
import Backlog.Proofs.Coordinator.Rehearsed
import Backlog.Proofs.Tracker.Repository

namespace Backlog

open Repository (Behaves unfailing behaves_unfailing)

/-! ## Paths that stay -/

namespace Repository

/-- Revisions are only ever added, and if none was then the path is still in the index. -/
structure Retains (path : String) (r after : Repository) : Prop where
  grown : r.revisions.length ≤ after.revisions.length
  stays : path ∈ r.index → path ∈ after.index ∨ r.revisions.length < after.revisions.length

variable {files : Finset String} {W : Surroundings Repository} {path : String}
  {r between after : Repository}

theorem Retains.refl (path : String) (r : Repository) : Retains path r r := ⟨le_rfl, .inl⟩

theorem Retains.trans (h : Retains path r between) (h' : Retains path between after) :
    Retains path r after where
  grown := h.grown.trans h'.grown
  stays := by
    intro hpath
    have hgrown := h.grown
    have hgrown' := h'.grown
    rcases h.stays hpath with hstill | hmade
    · rcases h'.stays hstill with hstill' | hmade'
      · exact .inl hstill'
      · exact .inr (by omega)
    · exact .inr (by omega)

theorem retains_add (path : String) (r : Repository) (paths : Finset String) :
    Retains path r (r.add paths) :=
  ⟨le_rfl, fun hpath => .inl (Finset.mem_union_left _ hpath)⟩

theorem retains_remove {paths : Finset String} (r : Repository) (h : path ∉ paths) :
    Retains path r (r.remove paths) :=
  ⟨le_rfl, fun hpath => .inl (Finset.mem_sdiff.mpr ⟨hpath, h⟩)⟩

theorem retains_commit (path : String) (r : Repository) (message : String) :
    Retains path r (r.commit message) := by
  have hlength : (r.commit message).revisions.length = r.revisions.length + 1 :=
    List.length_append
  exact ⟨by omega, fun _ => .inr (by omega)⟩

/-- Taking out what was just put in leaves the rest. -/
theorem remove_add (r : Repository) (paths : Finset String) :
    (r.add paths).remove paths = r.remove paths := by
  rw [remove, remove, add, Finset.union_sdiff_right]

/-- A flush leaves the repository alone, or makes a revision of the batch. -/
theorem Behaves.flushing {batch batch' : Batch} (hW : Behaves files W)
    (h : Flushing W batch r batch' after) : after = r ∨ after = r.commit batch.message := by
  cases h with
  | empty => exact .inl rfl
  | asked _ hx =>
    rcases hW.commit hx with ⟨-, hmade⟩ | ⟨-, hsame⟩
    · exact .inr hmade
    · exact .inl hsame

theorem Behaves.retains_flushing {batch batch' : Batch} (hW : Behaves files W)
    (h : Flushing W batch r batch' after) : Retains path r after := by
  rcases hW.flushing h with rfl | rfl
  · exact .refl path _
  · exact retains_commit path r _

theorem Behaves.retains_stageStore {answer : Except TrackerFault Unit} (hW : Behaves files W)
    (hx : W r .stageStore answer after) : Retains path r after := by
  obtain ⟨changed, -, rfl⟩ := hW _ _ _ _ hx
  exact retains_add path r changed

theorem Behaves.retains_commit {message : String}
    {answer : Except TrackerFault (Option String)} (hW : Behaves files W)
    (hx : W r (.commit message) answer after) : Retains path r after := by
  rcases hW.commit hx with ⟨-, rfl⟩ | ⟨-, rfl⟩
  · exact Repository.retains_commit path r message
  · exact .refl path _

end Repository

open Repository (Retains)

/-! ## One command -/

variable {files : Finset String} {path : String} {batch batch' : Batch} {r after : Repository}

/-- Artifacts are staged if version control does not fail. -/
theorem staging_unfailing {paths : List String} {staged : Bool}
    (h : Staging (unfailing files) paths r staged after) :
    (staged = false ∧ paths = [] ∧ after = r) ∨ (staged = true ∧ after = r.add paths.toFinset) := by
  cases h with
  | nothing hempty => exact .inl ⟨rfl, hempty, rfl⟩
  | failed hx => cases hx.2
  | staged hx => exact .inr ⟨rfl, hx.1⟩

/-- What a completion that is refused does to the index: it may have made a revision of the batch
    first, if it is a destructive one, and then the index is left alone or loses the paths that the
    completion has reported. -/
theorem rejected_index {completion : PhaseRun} {e : CommandError}
    (h : Acts (unfailing files) batch r (.completePhase completion) (.error e) batch' after) :
    ∃ flushed, (flushed = r ∨ completion.destructive = true ∧ flushed = r.commit batch.message) ∧
      (after = flushed ∨ after = flushed.remove completion.artifacts.toFinset) := by
  cases h with
  | refused => exact ⟨r, .inl rfl, .inl rfl⟩
  | @rejected _ _ _ flushed state₂ _ staged hahead hstaging hunstaging =>
    refine ⟨flushed, ?_, ?_⟩
    · rcases Bool.eq_false_or_eq_true completion.destructive with hdestructive | hnot
      · rw [FlushingAhead, if_pos hdestructive] at hahead
        rcases (behaves_unfailing files).flushing hahead with hsame | hmade
        · exact .inl hsame
        · exact .inr ⟨hdestructive, hmade⟩
      · rw [FlushingAhead, hnot, if_neg Bool.false_ne_true] at hahead
        exact .inl hahead.2
    · rcases staging_unfailing hstaging with ⟨rfl, -, rfl⟩ | ⟨rfl, rfl⟩
      · cases hunstaging
        exact .inl rfl
      · cases hunstaging with
        | @asked answer after hx =>
          rcases answer with fault | ⟨⟩
          · cases hx.2
          · right
            rw [← Repository.remove_add]
            exact hx.1

/-- A path stays in the index over a command, unless a revision is made or this is a completion that
    reports the path and is refused. -/
theorem retains_of_acts {command : Command} {reply : Except CommandError command.Answer}
    (h : Acts (unfailing files) batch r command reply batch' after)
    (hrejected : ∀ completion, command = .completePhase completion → path ∈ completion.artifacts →
      command.completion? reply = some completion) : Retains path r after := by
  have hW := behaves_unfailing files
  cases h with
  | refused => exact .refl path r
  | idle => exact .refl path r
  | joined _ hx => exact hW.retains_stageStore hx
  | flushed hflushing => exact hW.retains_flushing hflushing
  | @rejected completion e _ _ _ _ _ hahead hstaging hunstaging =>
    -- it has not reported the path, so it does not take it out
    have hother : path ∉ completion.artifacts.toFinset := by
      intro hpath
      cases hrejected completion rfl (List.mem_toFinset.mp hpath)
    obtain ⟨flushed, hflushed, hafter⟩ := rejected_index (e := e) (.rejected hahead hstaging hunstaging)
    have hflush : Retains path r flushed := by
      rcases hflushed with rfl | ⟨-, rfl⟩
      · exact .refl path _
      · exact Repository.retains_commit path r _
    rcases hafter with rfl | rfl
    · exact hflush
    · exact hflush.trans (Repository.retains_remove flushed hother)
  | batched _ hstaging hstore =>
    obtain rfl := hW.staging hstaging
    exact (Repository.retains_add path r _).trans (hW.retains_stageStore hstore)
  | @alone _ _ _ state₁ _ _ _ _ _ _ _ hflushing hstaging hstore hx =>
    obtain rfl := hW.staging hstaging
    exact (((hW.retains_flushing hflushing).trans (Repository.retains_add path state₁ _)).trans
      (hW.retains_stageStore hstore)).trans (hW.retains_commit hx)

/-- The artifacts of an accepted completion that joins the batch are in the index. -/
theorem staged_of_acts {command : Command} {reply : Except CommandError command.Answer}
    {completion : PhaseRun} (h : Acts (unfailing files) batch r command reply batch' after)
    (haccepted : command.completion? reply = some completion)
    (hbatched : completion.destructive = false) (hpath : path ∈ completion.artifacts) :
    path ∈ after.index := by
  cases h with
  | refused => cases command <;> cases haccepted
  | rejected => cases haccepted
  | idle hnot =>
    rw [Command.completion?_eq_none hnot] at haccepted
    cases haccepted
  | joined hnot _ =>
    rw [Command.completion?_eq_none hnot] at haccepted
    cases haccepted
  | flushed => cases haccepted
  | alone hdestructive =>
    cases haccepted
    rw [hbatched] at hdestructive
    cases hdestructive
  | batched _ hstaging hstore =>
    cases haccepted
    obtain ⟨changed, -, rfl⟩ := hstore.1
    rcases staging_unfailing hstaging with ⟨-, hempty, -⟩ | ⟨-, rfl⟩
    · rw [hempty] at hpath
      cases hpath
    · exact Finset.mem_union_left _ (Finset.mem_union_right _ (List.mem_toFinset.mpr hpath))

namespace Coordinator

variable {settings : Settings}

/-! ## Every run -/

/-- A path stays in the index over a run, unless a revision is made or a completion that reports the
    path is refused. -/
theorem retains_of_serves {c c' : Coordinator} {turns : List Turn}
    (hturns : Serves settings c turns c')
    (hworld : (unfailing files).Takes r (talk turns) after)
    (hrejected : ∀ t ∈ turns, ∀ completion, t.command = .completePhase completion →
      path ∈ completion.artifacts → t.command.completion? t.reply = some completion) :
    Retains path r after := by
  induction hturns generalizing r with
  | idle c =>
    cases hworld
    exact .refl path _
  | @turn c between c' t turns hturn _ ih =>
    rw [talk_cons, Script.World.takes_append] at hworld
    obtain ⟨middle, hthis, hlater⟩ := hworld
    have hacts := acts_of_leads (behaves_unfailing files).still hturn hthis
    have hnow : Retains path r middle :=
      retains_of_acts hacts (hrejected t List.mem_cons_self)
    exact hnow.trans (ih hlater fun u hu => hrejected u (List.mem_cons_of_mem _ hu))

/-- An artifact that was staged by an accepted completion stays in the index until a revision is made,
    whatever commands are served meanwhile, but for completions that report the same path and are
    refused. -/
theorem accepted_artifact_stays {c c' : Coordinator} {t : Turn} {later : List Turn}
    {completion : PhaseRun} {before between : Repository}
    (hturns : Serves settings c (t :: later) c')
    (haccepted : t.command.completion? t.reply = some completion)
    (hbatched : completion.destructive = false) (hpath : path ∈ completion.artifacts)
    (hturn : (unfailing files).Takes before t.log between)
    (hlater : (unfailing files).Takes between (talk later) after)
    (hrevisions : after.revisions = between.revisions)
    (hrejected : ∀ u ∈ later, ∀ other, u.command = .completePhase other →
      path ∈ other.artifacts → u.command.completion? u.reply = some other) :
    path ∈ after.index := by
  cases hturns with
  | turn hthis hrest =>
    have hacts := acts_of_leads (behaves_unfailing files).still hthis hturn
    have hstaged : path ∈ between.index := staged_of_acts hacts haccepted hbatched hpath
    rcases (retains_of_serves hrest hlater hrejected).stays hstaged with hstill | hmade
    · exact hstill
    · rw [hrevisions] at hmade
      exact absurd hmade (lt_irrefl _)

/-! ## Two completions that report the same path -/

/-- The report that a phase is complete, always with the same artifact. -/
def report (phase : String) : Command :=
  .completePhase ⟨"WRK-2", phase, false, .complete, ["docs/plan.md"]⟩

/-- A rehearsal with an item that was promoted into its first phase. -/
def promoted : Coordinator × Rehearsal :=
  rehearsedAfter {} {} .sample [(⟨1, 0⟩, .ingest [{ title := "Follow up" }]), (⟨2, 0⟩, .promote "WRK-2")]

/-- The first of two reports. -/
def firstReport : Turn := Turn.rehearsed {} ⟨3, 0⟩ (report "research") promoted.1 promoted.2

/-- What follows on it: the item is promoted into its next phase. -/
def onward : List (Stamp × Command) := [(⟨3, 0⟩, report "research"), (⟨4, 0⟩, .promote "WRK-2")]

/-- The rehearsal after that, with a store whose lock is not free for so many tries. -/
def resumed (busy : Nat) : Coordinator × Rehearsal :=
  let after := rehearsedAfter {} promoted.1 promoted.2 onward
  (after.1, { after.2 with lockFailures := busy })

/-- The turns after the first report, of which the last is the second report. -/
def laterTurns (busy : Nat) : List Turn :=
  (rehearsedTurns {} promoted.1 promoted.2 onward).tail
    ++ [Turn.rehearsed {} ⟨5, 0⟩ (report "prd") (resumed busy).1 (resumed busy).2]

theorem serves_reports (busy : Nat) :
    ∃ c, Serves {} promoted.1 (firstReport :: laterTurns busy) c := by
  have honward : Serves {} promoted.1 (rehearsedTurns {} promoted.1 promoted.2 onward)
      (resumed busy).1 := serves_rehearsedTurns {} promoted.1 promoted.2 onward
  exact ⟨_, honward.append (serves_rehearsed {} ⟨5, 0⟩ _ (resumed busy).1 (resumed busy).2)⟩

/-- An accepted artifact does not always stay in the index until a revision is made. -/
theorem accepted_artifact_may_vanish :
    ¬ ∀ (settings : Settings) (c c' : Coordinator) (t : Turn) (later : List Turn)
        (completion : PhaseRun) (path : String) (files : Finset String)
        (before between after : Repository),
        Serves settings c (t :: later) c' → t.command.completion? t.reply = some completion →
        completion.destructive = false → path ∈ completion.artifacts →
        (unfailing files).Takes before t.log between →
        (unfailing files).Takes between (talk later) after →
        after.revisions = between.revisions → path ∈ after.index := by
  intro hstays
  let between := Repository.replay {"tasks.json"} {} firstReport.log
  let after := Repository.replay {"tasks.json"} between (talk (laterTurns 3))
  obtain ⟨c, hturns⟩ := serves_reports 3
  have hsmooth : ∀ x ∈ firstReport.log, x.smooth = true := by decide +kernel
  have hsmooth' : ∀ x ∈ talk (laterTurns 3), x.smooth = true := by decide +kernel
  have hgone : "docs/plan.md" ∉ after.index := by decide +kernel
  refine hgone (hstays {} promoted.1 c firstReport (laterTurns 3)
    ⟨"WRK-2", "research", false, .complete, ["docs/plan.md"]⟩ "docs/plan.md" {"tasks.json"} {}
    between after hturns rfl rfl List.mem_cons_self
    (Repository.takes_replay {"tasks.json"} {} hsmooth).2
    (Repository.takes_replay {"tasks.json"} between hsmooth').2 ?_)
  decide +kernel

/-- If the second report is accepted too, the artifact stays. -/
theorem accepted_artifact_stays_rehearsed :
    "docs/plan.md" ∈ (Repository.replay {"tasks.json"}
      (Repository.replay {"tasks.json"} {} firstReport.log) (talk (laterTurns 0))).index := by
  obtain ⟨c, hturns⟩ := serves_reports 0
  have hsmooth : ∀ x ∈ firstReport.log, x.smooth = true := by decide +kernel
  have hsmooth' : ∀ x ∈ talk (laterTurns 0), x.smooth = true := by decide +kernel
  have haccepted : ∀ u ∈ laterTurns 0, ∀ other, u.command = .completePhase other →
      "docs/plan.md" ∈ other.artifacts → u.command.completion? u.reply = some other := by
    intro u hu other hcommand _
    rcases List.mem_append.mp hu with hpromotion | hreport
    · rw [List.mem_singleton.mp hpromotion] at hcommand
      have hpromote : Command.promote "WRK-2" = .completePhase other := hcommand
      cases hpromote
    · rw [List.mem_singleton.mp hreport] at hcommand ⊢
      have hsecond : report "prd" = .completePhase other := hcommand
      cases hsecond
      rfl
  exact accepted_artifact_stays hturns rfl rfl List.mem_cons_self
    (Repository.takes_replay {"tasks.json"} {} hsmooth).2
    (Repository.takes_replay {"tasks.json"} _ hsmooth').2 (by decide +kernel) haccepted

end Coordinator

end Backlog
