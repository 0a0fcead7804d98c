/-
  An item on its way through a pipeline.

  Program: promotions and completions move an item, blocks and unblocks take it aside and back, and
  the commands in between are about other items or other sides of this one.

  Specification: an item that starts as a new one runs the phases of its pipeline one after the other,
  each once, whatever is reported, refused, blocked or tried again on the way.  It is done only once
  all of them are completed, every reply says where the item is, and while it is neither done nor
  blocked either its promotion is accepted or the completion of its phase, and never both
  (`route_exact`).

  One command moves the item by at most one place (`leaves_of_applied`), and the run follows by
  induction.  What must not happen to the item is that someone sets its place by hand, or takes it
  out of the active set (`Command.KeepsTo`).
-/
import Backlog.Proofs.Coordinator.Rehearsed
import Backlog.Proofs.Coordinator.Working
import Backlog.Proofs.Item.Standing

namespace Backlog

/-! ## Commands that keep an item on its route -/

/-- The command does not set the place of the item by hand, and does not take the item away. -/
def Command.KeepsTo (id : String) : Command → Prop
  | .update other updates => other = id → ∀ u ∈ updates, u.keepsPlace = true
  | .archive other => other ≠ id
  | .merge source _ => source ≠ id
  | .snapshot | .promote _ | .startPhase .. | .completePhase _ | .flush | .ingest _ | .unblock .. =>
    True

/-- The phases of an item that these runs have completed. -/
def finished (id : String) (runs : List PhaseRun) : List String :=
  (runs.filter fun run => run.item = id ∧ run.outcome = .complete).map PhaseRun.phase

theorem finished_append (id : String) (xs ys : List PhaseRun) :
    finished id (xs ++ ys) = finished id xs ++ finished id ys := by
  rw [finished, List.filter_append, List.map_append]
  rfl

theorem finished_singleton (id : String) (run : PhaseRun) :
    finished id [run] = if run.item = id ∧ run.outcome = .complete then [run.phase] else [] := by
  by_cases hrun : run.item = id ∧ run.outcome = .complete
  · rw [if_pos hrun]
    simp [finished, hrun]
  · rw [if_neg hrun]
    simpa [finished] using hrun

/-- What a reply says about an item agrees with what is read back from it. -/
def Command.Agrees (set : Pipelines) (id : String) (item : Item) :
    (command : Command) → Except CommandError command.Answer → Prop
  | .promote other, .ok progress => other = id → Progress.Agrees set item progress
  | .completePhase run, .ok answer => run.item = id → answer.status = item.status ∧
      (run.outcome = .complete ↔ answer.progress.isSome = true) ∧
      ∀ progress, answer.progress = some progress → progress.Agrees set item
  | _, _ => True

variable {settings : Coordinator.Settings} {now : Stamp} {id : String} {items : List Item}
  {item : Item} {P : Pipeline} {completed : List String}

/-! ## One command -/

/-- The item is at this place of its pipeline. -/
structure Item.OnRoute (set : Pipelines) (P : Pipeline) (completed : List String) (item : Item) :
    Prop where
  resolves : set.resolve? item.pipelineType = some P
  place : item.course.At P completed

/-- What the course of an item keeps, its place on the route keeps. -/
theorem Item.OnRoute.of_course {set : Pipelines} {after : Item} (h : item.OnRoute set P completed)
    (hcourse : after.course = item.course) : after.OnRoute set P completed where
  resolves := by
    rw [show after.pipelineType = item.pipelineType from congrArg Course.type hcourse]
    exact h.resolves
  place := by
    rw [hcourse]
    exact h.place

/-- After the command the item is at this place, and the reply agrees with it. -/
def Command.Leaves (set : Pipelines) (P : Pipeline) (id : String) (completed : List String)
    (command : Command) (reply : Except CommandError command.Answer) (items : List Item) : Prop :=
  ∃ item, findItem id items = some item ∧ item.OnRoute set P completed ∧
    command.Agrees set id item reply

namespace Coordinator

/-- A command that is about another item, or another side of this one. -/
theorem leaves_of_course {command : Command} {reply : Except CommandError command.Answer}
    {after : List Item} {item' : Item} (h : item.OnRoute settings.pipelines P completed)
    (hafter : findItem id after = some item') (hcourse : item'.course = item.course)
    (hcompletes : finished id (command.completion? reply).toList = [])
    (hagrees : command.Agrees settings.pipelines id item' reply) :
    command.Leaves settings.pipelines P id
      (completed ++ finished id (command.completion? reply).toList) reply after := by
  rw [hcompletes, List.append_nil]
  exact ⟨item', hafter, h.of_course hcourse, hagrees⟩

/-- What an accepted command leaves of an item on its route. -/
theorem leaves_of_decide (hP : P.WellNamed) {command : Command} {answer : command.Answer}
    {head : Option String} {archived : List String} {d : Decision command.Value}
    (hkeeps : command.KeepsTo id) (hfound : findItem id items = some item)
    (h : item.OnRoute settings.pipelines P completed)
    (hd : command.decide settings now head items archived = .ok d)
    (htells : command.Tells head d.value answer) :
    command.Leaves settings.pipelines P id
      (completed ++ finished id (command.completion? (.ok answer)).toList) (.ok answer) d.items := by
  cases command with
  | snapshot =>
    cases hd
    exact leaves_of_course h hfound rfl rfl trivial
  | flush =>
    cases hd
    exact leaves_of_course h hfound rfl rfl trivial
  | update other updates =>
    rcases findItem_of_ofChange (Item.identity_applyAll now updates) hd hfound with
      ⟨rfl, changed, hchange, hafter⟩ | ⟨-, hafter⟩
    · obtain ⟨hplace, htype⟩ :=
        Item.at_applyUpdates (hkeeps rfl) h.place (Item.applyAll_inv hchange).1
      refine ⟨changed, hafter, ⟨htype ▸ h.resolves, ?_⟩, trivial⟩
      exact (List.append_nil completed).symm ▸ hplace
    · exact leaves_of_course h hafter rfl rfl trivial
  | promote other =>
    rcases findItem_of_ofChange (Item.identity_promote now settings.pipelines) hd hfound with
      ⟨rfl, changed, hchange, hafter⟩ | ⟨hne, hafter⟩
    · obtain ⟨hplace, hagrees, htype⟩ := Item.at_promote hP h.resolves h.place hchange
      refine ⟨changed, hafter, ⟨htype ▸ h.resolves, ?_⟩, ?_⟩
      · exact (List.append_nil completed).symm ▸ hplace
      · rintro -
        obtain rfl : answer = d.value := htells
        exact hagrees
    · exact leaves_of_course h hafter rfl rfl fun hid => absurd hid hne
  | startPhase other revision =>
    rcases findItem_of_ofChange (Item.identity_startPhase now (revision.or head)) hd hfound with
      ⟨rfl, changed, hchange, hafter⟩ | ⟨-, hafter⟩
    · have hcourse := Item.course_startPhase now (revision.or head) item
      rw [hchange] at hcourse
      exact leaves_of_course h hafter hcourse rfl trivial
    · exact leaves_of_course h hafter rfl rfl trivial
  | completePhase run =>
    obtain ⟨hstatus, hprogress, -⟩ := htells
    rcases findItem_of_ofChange (Item.identity_recordOutcome now run.phase run.outcome
      settings.pipelines) hd hfound with ⟨hid, changed, hchange, hafter⟩ | ⟨hne, hafter⟩
    · obtain ⟨hplace, hshown, hcomplete, hagrees, htype⟩ :=
        Item.at_recordOutcome hP h.resolves h.place hchange
      refine ⟨changed, hafter, ⟨htype ▸ h.resolves, ?_⟩, ?_⟩
      · -- a run that is not complete leaves the item where it is
        rw [show Command.completion? (.completePhase run) (.ok answer) = some run from rfl,
          Option.toList_some, finished_singleton]
        simpa only [hid, true_and] using hplace
      · rintro -
        rw [hstatus, hprogress]
        exact ⟨hshown, hcomplete, hagrees⟩
    · refine leaves_of_course h hafter rfl ?_ fun hid => absurd hid hne
      rw [show Command.completion? (.completePhase run) (.ok answer) = some run from rfl,
        Option.toList_some, finished_singleton, if_neg fun hrun => hne hrun.1]
  | archive other =>
    obtain ⟨retired, hretire, -⟩ := Decision.eq_of_ofRetirement hd
    have hafter := (findItem_retireItem_of_ne hkeeps hretire).trans hfound
    exact leaves_of_course h hafter rfl rfl trivial
  | ingest drafts =>
    obtain ⟨created, -, rfl⟩ := Decision.eq_of_ofCreation hd
    have hafter : findItem id (items ++ created) = some item := by
      rw [findItem, List.find?_append, show items.find? _ = some item from hfound, Option.some_or]
    exact leaves_of_course h hafter rfl rfl trivial
  | merge source target =>
    obtain ⟨retired, hfold, -⟩ := Decision.eq_of_ofRetirement hd
    obtain ⟨leaving, hafter⟩ := findItem_foldInto hkeeps hfound hfold
    have hcourse := Item.course_merged now source target leaving item
    exact leaves_of_course h hafter hcourse rfl trivial
  | unblock other context =>
    rcases findItem_of_ofChange (Item.identity_unblock now context) hd hfound with
      ⟨rfl, changed, hchange, hafter⟩ | ⟨-, hafter⟩
    · obtain ⟨hplace, htype⟩ := Item.at_unblock h.place hchange
      refine ⟨changed, hafter, ⟨htype ▸ h.resolves, ?_⟩, trivial⟩
      exact (List.append_nil completed).symm ▸ hplace
    · exact leaves_of_course h hafter rfl rfl trivial

/-- One command moves the item by at most one place, and its reply says where to. -/
theorem leaves_of_applied (hP : P.WellNamed) {command : Command}
    {reply : Except CommandError command.Answer} {after : List Item} (hkeeps : command.KeepsTo id)
    (hfound : findItem id items = some item) (h : item.OnRoute settings.pipelines P completed)
    (happlied : Applied settings now items command reply after) :
    command.Leaves settings.pipelines P id
      (completed ++ finished id (command.completion? reply).toList) reply after := by
  cases happlied with
  | @refused e =>
    refine leaves_of_course h hfound rfl ?_ ?_
    · cases command <;> rfl
    · cases command <;> trivial
  | unwritten hreads =>
    cases command with
    | completePhase run => cases hreads
    | promote other => cases hreads
    | _ => exact leaves_of_course h hfound rfl rfl trivial
  | decided hd htells => exact leaves_of_decide hP hkeeps hfound h hd htells

/-! ## Whole runs -/

/-- After any turns the item is at the place to which the completed phases lead. -/
theorem onRoute_of_serves (hP : P.WellNamed) {c c' : Coordinator} {turns : List Turn}
    {start after : Contents} (hturns : Serves settings c turns c')
    (hkeeps : ∀ t ∈ turns, t.command.KeepsTo id)
    (hstore : Script.World.Takes Contents.Answers start (talk turns) after)
    (hfound : findItem id start.active = some item) (h : item.OnRoute settings.pipelines P []) :
    ∃ item', findItem id after.active = some item' ∧
      item'.OnRoute settings.pipelines P (finished id (completions turns)) := by
  refine keeps_of_serves (I := fun earlier items => ∃ item, findItem id items = some item ∧
    item.OnRoute settings.pipelines P (finished id (completions earlier))) ?_ hturns hstore
    ⟨item, hfound, h⟩
  rintro earlier t ht items changed happlied ⟨item, hfound, hplace⟩
  obtain ⟨item', hfound', hplace', -⟩ := leaves_of_applied hP (hkeeps t ht) hfound hplace happlied
  refine ⟨item', hfound', ?_⟩
  have hlast : completions [t] = (t.command.completion? t.reply).toList :=
    List.flatMap_singleton _ t
  rw [completions_append, finished_append, hlast]
  exact hplace'

/-! ## What an item waits for -/

section

variable {c : Coordinator} {contents : Contents}

/-- A change that the item refuses is decided by no command. -/
theorem ofChange_ne_of_findItem {α : Type} {change : Change α} {d : Decision α}
    (hchange : change.KeepsIdentity) (hfound : findItem id items = some item)
    (hrefused : ∀ a changed, change item ≠ (.ok a, changed)) :
    Decision.ofChange (changeItem id change items) ≠ .ok d := by
  intro hd
  rcases findItem_of_ofChange hchange hd hfound with ⟨-, changed, hstep, -⟩ | ⟨hne, -⟩
  · exact hrefused _ _ hstep
  · exact hne rfl

/-- A change that the item accepts is decided. -/
theorem ofChange_of_findItem {α : Type} {change : Change α} {a : α} {changed : Item}
    (hfound : findItem id items = some item) (hstep : change item = (.ok a, changed)) :
    ∃ d, Decision.ofChange (changeItem id change items) = .ok d := by
  obtain ⟨after, hafter⟩ := changeItem_of_findItem hfound hstep
  exact ⟨_, by rw [hafter]; rfl⟩

/-- What the coordinator accepts for an item: its promotion, or the completion of its phase, and not
    both. -/
def Awaits (settings : Settings) (c : Coordinator) (contents : Contents) (item : Item) : Prop :=
  (item.phase = none ∧ Accepts settings c (.promote item.id) contents ∧
    ∀ run : PhaseRun, run.item = item.id → Refuses settings c (.completePhase run) contents) ∨
  ∃ phase, item.phase = some phase ∧ Refuses settings c (.promote item.id) contents ∧
    ∀ run : PhaseRun, run.item = item.id →
      if run.phase = phase then Accepts settings c (.completePhase run) contents
      else Refuses settings c (.completePhase run) contents

theorem refuses_completePhase {run : PhaseRun} (hfound : findItem run.item contents.active = some item)
    (hphase : item.phase ≠ some run.phase) : Refuses settings c (.completePhase run) contents := by
  refine refuses_of_decide rfl fun now head archived d => ?_
  refine ofChange_ne_of_findItem (Item.identity_recordOutcome now run.phase run.outcome
    settings.pipelines) hfound fun recorded changed hrecord => ?_
  obtain ⟨-, pool, hpool, -⟩ := Item.recordOutcome_course hrecord
  obtain ⟨-, -, hrunning, -⟩ := Item.runningPool_eq_ok_iff.mp hpool
  exact hphase hrunning

/-- An item on its route that is neither done nor blocked waits for one of the two. -/
theorem awaits_of_onRoute (hrunning : c.running = true)
    (hfound : findItem item.id contents.active = some item)
    (h : item.OnRoute settings.pipelines P completed) (hdone : item.status ≠ .done)
    (hblocked : item.status ≠ .blocked) : Awaits settings c contents item := by
  have hpipeline : item.pipeline settings.pipelines = .ok P := Item.pipeline_of_resolve? h.resolves
  rcases Item.waits_or_runs h.place hdone hblocked with
    ⟨hphase, pool, hpool⟩ | ⟨pool, phase, hpool, hphase, hrun, hindex⟩
  · -- before a pool there is no phase to report
    refine .inl ⟨hphase, ?_, ?_⟩
    · refine accepts_promote hrunning fun now => ?_
      exact ofChange_of_findItem hfound (Item.promote_of_entered? now hpipeline hpool)
    · intro run hitem
      refine refuses_completePhase (hitem ▸ hfound) ?_
      rw [hphase]
      rintro ⟨⟩
  · -- in a pool there is nothing to be promoted into
    refine .inr ⟨phase, hphase, ?_, ?_⟩
    · refine refuses_of_decide rfl fun now head archived d => ?_
      refine ofChange_ne_of_findItem (Item.identity_promote now settings.pipelines) hfound
        fun progress changed hpromote => ?_
      rw [Item.promote_of_not_entered? now hpipeline hpool] at hpromote
      cases hpromote
    · intro run hitem
      rw [← hitem] at hfound
      split
      · next hname =>
        rw [← hname] at hrun hindex
        refine accepts_completePhase hrunning hfound hrun fun now => ?_
        obtain ⟨recorded, changed, hrecord⟩ :=
          Item.recordOutcome_ok now run.outcome hrun hpipeline hindex
        exact ofChange_of_findItem hfound hrecord
      · next hname =>
        refine refuses_completePhase hfound ?_
        rw [hphase]
        exact fun heq => hname (Option.some.inj heq).symm

end

/-! ## The route -/

/-- An item that starts as a new one runs the phases of its pipeline in order, each once. It is done
    only after all of them, every reply says where it is, and until then it can go on. -/
theorem route_exact (hP : P.WellNamed) {c c' : Coordinator} {turns : List Turn}
    {start after : Contents} {draft : Draft} {created : Stamp}
    (hturns : Serves settings c turns c') (hkeeps : ∀ t ∈ turns, t.command.KeepsTo id)
    (hstore : Script.World.Takes Contents.Answers start (talk turns) after)
    (hstart : findItem id start.active = some (draft.item id created))
    (hset : settings.pipelines.resolve? (draft.item id created).pipelineType = some P) :
    ∃ item, findItem id after.active = some item ∧
      finished id (completions turns) <+: P.route ∧
      (item.status = .done → finished id (completions turns) = P.route) ∧
      (c'.running = true → item.status ≠ .done → item.status ≠ .blocked →
        Awaits settings c' after item) ∧
      ∀ (earlier later : List Turn) (t : Turn) (between : Contents),
        turns = earlier ++ t :: later →
        Script.World.Takes Contents.Answers start (talk (earlier ++ [t])) between →
        ∃ reached, findItem id between.active = some reached ∧
          t.command.Agrees settings.pipelines id reached t.reply := by
  have hnew : (draft.item id created).OnRoute settings.pipelines P [] := ⟨hset, Item.at_draft ..⟩
  obtain ⟨item, hfound, hroute⟩ := onRoute_of_serves hP hturns hkeeps hstore hstart hnew
  refine ⟨item, hfound, hroute.place.prefix_route, ?_, ?_, ?_⟩
  · intro hdone
    have hplace := hroute.place
    have hopen : item.status ≠ .blocked := by
      rw [hdone]
      rintro ⟨⟩
    rw [Course.At, Item.standing_eq_status hopen, hdone] at hplace
    exact hplace.eq_route_of_done
  · intro hrunning hdone hblocked
    obtain rfl : item.id = id := id_of_findItem hfound
    exact awaits_of_onRoute hrunning hfound hroute hdone hblocked
  · -- every turn is the last one of some run
    rintro earlier later t between rfl hbetween
    obtain ⟨before, hearlier, hlast⟩ := hturns.of_append
    rw [talk_append] at hbetween
    obtain ⟨middle, htalk, hlog⟩ := Script.World.takes_append.mp hbetween
    obtain ⟨moved, hleft, hplace⟩ := onRoute_of_serves hP hearlier
      (fun u hu => hkeeps u (List.mem_append_left _ hu)) htalk hstart hnew
    cases hlast with
    | turn hturn _ =>
      rw [talk_cons, talk_nil, List.append_nil] at hlog
      have hkeep := hkeeps t (List.mem_append_right _ List.mem_cons_self)
      obtain ⟨reached, hreached, -, hagrees⟩ :=
        leaves_of_applied hP hkeep hleft hplace (applied_of_leads hturn hlog)
      exact ⟨reached, hreached, hagrees⟩

/-- A way to the second phase of the main pool, with detours: a phase that is not running is reported,
    a block is set and taken back, and a phase fails and is tried again. -/
def detour : List (Stamp × Command) :=
  [(⟨1, 0⟩, .promote "WRK-1"),
   (⟨2, 0⟩, .completePhase ⟨"WRK-1", "design", false, .complete, []⟩),
   (⟨3, 0⟩, .update "WRK-1" [.setBlocked "waiting" none]),
   (⟨4, 0⟩, .unblock "WRK-1" none),
   (⟨5, 0⟩, .completePhase ⟨"WRK-1", "research", false, .complete, []⟩),
   (⟨6, 0⟩, .promote "WRK-1"),
   (⟨7, 0⟩, .completePhase ⟨"WRK-1", "prd", false, .failed "no network", []⟩),
   (⟨8, 0⟩, .unblock "WRK-1" (some "try again")),
   (⟨9, 0⟩, .completePhase ⟨"WRK-1", "prd", false, .complete, []⟩)]

theorem keepsTo_detour : ∀ t ∈ rehearsedTurns {} {} .fresh detour, t.command.KeepsTo "WRK-1" := by
  simp [rehearsedTurns, detour, Turn.rehearsed, Command.KeepsTo, Update.keepsPlace]

theorem wellNamed_feature : Pipeline.feature.WellNamed where
  distinct := by
    intro pool
    cases pool <;> decide
  proper := by
    intro pool
    cases pool <;> decide

/-- On the way with detours two phases were completed, and the third can be. -/
theorem route_exact_rehearsed :
    let turns := rehearsedTurns {} {} .fresh detour
    let ended := rehearsedAfter {} {} .fresh detour
    finished "WRK-1" (completions turns) = ["research", "prd"] ∧
      ["research", "prd"] <+: Pipeline.feature.route ∧
      ∃ item, findItem "WRK-1" ended.2.contents.active = some item ∧
        Awaits {} ended.1 ended.2.contents item := by
  intro turns ended
  have hfinished : finished "WRK-1" (completions turns) = ["research", "prd"] := by decide +kernel
  obtain ⟨item, hfound, hprefix, -, hawaits, -⟩ :=
    route_exact (P := .feature) wellNamed_feature (serves_rehearsedTurns {} {} .fresh detour)
      keepsTo_detour (takes_rehearsedTurns {} {} .fresh detour) rfl (by decide +kernel)
  have hstatus : (findItem "WRK-1" ended.2.contents.active).map Item.status = some .inProgress := by
    decide +kernel
  rw [hfound, Option.map_some, Option.some.injEq] at hstatus
  refine ⟨hfinished, hfinished ▸ hprefix, item, hfound, hawaits (by decide +kernel) ?_ ?_⟩
  · rw [hstatus]
    rintro ⟨⟩
  · rw [hstatus]
    rintro ⟨⟩

end Coordinator

end Backlog
