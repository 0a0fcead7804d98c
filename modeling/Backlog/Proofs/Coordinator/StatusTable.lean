/-
  Completions and the table of status changes.

  Program: a completion puts an item into the status of its recorded pool, or of the end of that pool.

  Specification: in a run from a store in which the item is new, or not there yet, an accepted
  completion keeps its status or changes it as the table allows, and an item that is scoping does not
  get into the main pool that way, nor one in progress back into scoping
  (`completion_follows_table`).

  That takes care about updates: one that names a status in which a phase runs, or a pool, has to
  leave the two in step (`Command.LeavesInStep`).  Nothing in the program sees to it, so in general
  a completion may leave the table (`completion_may_leave_table`).
-/
import Backlog.Proofs.Coordinator.Applied
import Backlog.Proofs.Coordinator.Rehearsed
import Backlog.Proofs.Item.InStep

namespace Backlog

/-- If the command was an accepted update of the item that names a running status or a pool, then the
    two are in step in the item that it answers with. -/
def Command.LeavesInStep (id : String) :
    (command : Command) → Except CommandError command.Answer → Prop
  | .update other updates, .ok item => other = id → (∃ u ∈ updates, u.places = true) →
      (show Item from item).course.InStep
  | _, _ => True

instance (id : String) : (command : Command) → (reply : Except CommandError command.Answer) →
    Decidable (command.LeavesInStep id reply)
  | .update other updates, .ok item => inferInstanceAs (Decidable
      (other = id → (∃ u ∈ updates, u.places = true) → (show Item from item).course.InStep))
  | .update .., .error _ => .isTrue trivial
  | .snapshot, _ | .promote _, _ | .startPhase .., _ | .completePhase _, _ | .flush, _
  | .archive _, _ | .ingest _, _ | .merge .., _ | .unblock .., _ => .isTrue trivial

/-- The items with this ID are in step. -/
def InStep (id : String) (items : List Item) : Prop := ∀ item ∈ items, item.id = id → item.course.InStep

variable {settings : Coordinator.Settings} {now : Stamp} {id : String} {items : List Item}

/-! ## One command -/

/-- A change that leaves the item in step leaves all items in step. -/
theorem inStep_of_ofChange {α : Type} {other : String} {change : Change α} {d : Decision α}
    (hidentity : change.KeepsIdentity)
    (hchange : ∀ item changed, other = id → change item = (.ok d.value, changed) →
      item.course.InStep → changed.course.InStep)
    (hd : Decision.ofChange (changeItem other change items) = .ok d) (h : InStep id items) :
    InStep id d.items := by
  obtain ⟨hchanged, -⟩ := Decision.eq_of_ofChange hd
  refine forall_changeItem (fun item changed hother hstep hitem hid => ?_) hchanged h
  have hsame := Item.id_eq_of_identity (hidentity item)
  rw [hstep] at hsame
  have hitemid : item.id = id := hsame.symm.trans hid
  exact hchange item changed (hother.symm.trans hitemid) hstep (hitem hitemid)

/-- What a command decides leaves the items in step. -/
theorem inStep_of_decide {command : Command} {answer : command.Answer} {head : Option String}
    {archived : List String} {d : Decision command.Value}
    (hleaves : command.LeavesInStep id (.ok answer))
    (hd : command.decide settings now head items archived = .ok d)
    (htells : command.Tells head d.value answer) (h : InStep id items) : InStep id d.items := by
  cases command with
  | snapshot =>
    cases hd
    exact h
  | flush =>
    cases hd
    exact h
  | update other updates =>
    refine inStep_of_ofChange (Item.identity_applyAll now updates)
      (fun item changed hid hstep hitem => ?_) hd h
    obtain ⟨happly, hvalue⟩ := Item.applyAll_inv hstep
    by_cases hplaces : ∃ u ∈ updates, u.places = true
    · -- the answer is the item as it is stored from now on
      obtain rfl : answer = d.value := htells
      rw [← hvalue]
      exact hleaves hid hplaces
    · refine Item.inStep_applyUpdates (fun u hu => ?_) hitem happly
      exact Bool.eq_false_iff.mpr fun hplace => hplaces ⟨u, hu, hplace⟩
  | promote other =>
    exact inStep_of_ofChange (Item.identity_promote now settings.pipelines)
      (fun _ _ _ hstep _ => Item.inStep_promote hstep) hd h
  | startPhase other revision =>
    refine inStep_of_ofChange (Item.identity_startPhase now (revision.or head))
      (fun item changed _ hstep hitem => ?_) hd h
    have hcourse := Item.course_startPhase now (revision.or head) item
    rw [hstep] at hcourse
    rw [hcourse]
    exact hitem
  | completePhase run =>
    exact inStep_of_ofChange
      (Item.identity_recordOutcome now run.phase run.outcome settings.pipelines)
      (fun _ _ _ hstep hitem => Item.inStep_recordOutcome hitem hstep) hd h
  | archive other =>
    obtain ⟨retired, hretire, -⟩ := Decision.eq_of_ofRetirement hd
    exact forall_retireItem hretire h
  | ingest drafts =>
    obtain ⟨created, hcreated, rfl⟩ := Decision.eq_of_ofCreation hd
    refine List.forall_mem_append.mpr ⟨h, ?_⟩
    exact forall_createItems (fun draft id' _ => Item.inStep_draft draft id' now) hcreated
  | merge source target =>
    obtain ⟨retired, hfold, -⟩ := Decision.eq_of_ofRetirement hd
    refine forall_foldInto (fun leaving item hitem hid => ?_) (fun item hitem hid => ?_) hfold h
    · rw [Item.course_absorb]
      exact hitem ((Item.id_eq_of_identity (Item.identity_absorb now leaving item)).symm.trans hid)
    · rw [Item.course_retarget]
      exact hitem
        ((Item.id_eq_of_identity (Item.identity_retarget now source target item)).symm.trans hid)
  | unblock other context =>
    exact inStep_of_ofChange (Item.identity_unblock now context)
      (fun _ _ _ hstep hitem => Item.inStep_unblock hitem hstep) hd h

namespace Coordinator

theorem inStep_of_applied {command : Command} {reply : Except CommandError command.Answer}
    {after : List Item} (hleaves : command.LeavesInStep id reply)
    (happlied : Applied settings now items command reply after) (h : InStep id items) :
    InStep id after := by
  cases happlied with
  | refused => exact h
  | unwritten => exact h
  | decided hd htells => exact inStep_of_decide hleaves hd htells h

/-! ## Whole runs -/

theorem inStep_of_serves {c c' : Coordinator} {turns : List Turn} {start after : Contents}
    (hturns : Serves settings c turns c')
    (hleaves : ∀ t ∈ turns, t.command.LeavesInStep id t.reply)
    (hstore : Script.World.Takes Contents.Answers start (talk turns) after)
    (h : InStep id start.active) : InStep id after.active :=
  keeps_of_serves (I := fun _ => InStep id)
    (fun _ t ht _ _ happlied hitems => inStep_of_applied (hleaves t ht) happlied hitems)
    hturns hstore h

/-! ## Completions -/

/-- The status stays, or changes as the table allows, within the statuses of one pool and its end. -/
def FollowsTable (before after : Status) : Prop :=
  (after = before ∨ before.mayBecome after = true) ∧
    (before = .scoping ∧ (after = .scoping ∨ after = .ready) ∨
      before = .inProgress ∧ (after = .inProgress ∨ after = .done))

instance (before after : Status) : Decidable (FollowsTable before after) := by
  unfold FollowsTable
  infer_instance

/-- What was recorded of an accepted completion. -/
theorem recorded_of_applied {run : PhaseRun} {answer : Completion} {after : List Item}
    (happlied : Applied settings now items (.completePhase run) (.ok answer) after) :
    ∃ item item' recorded, findItem run.item items = some item ∧ findItem run.item after = some item' ∧
      item.recordOutcome now run.phase run.outcome settings.pipelines = (.ok recorded, item') ∧
      answer.status = recorded.status := by
  cases happlied with
  | unwritten hreads => cases hreads
  | decided hd htells =>
    obtain ⟨hchanged, -⟩ := Decision.eq_of_ofChange hd
    obtain ⟨item, item', hfound, hrecord, hafter⟩ := findItem_changeItem
      (Item.identity_recordOutcome now run.phase run.outcome settings.pipelines) hchanged
    exact ⟨item, item', _, hfound, hafter, hrecord, htells.1⟩

/-- A completion of an item that is in step follows the table. -/
theorem followsTable_of_inStep {set : Pipelines} {phase : String} {item item' : Item}
    {recorded : Recorded} (hstep : item.course.InStep)
    (hrecord : item.recordOutcome now phase .complete set = (.ok recorded, item')) :
    FollowsTable item.status item'.status := by
  obtain ⟨usual, husual, hiff⟩ := Item.recordOutcome_status_iff hrecord
  have hopen : item.status ≠ .blocked := by
    intro hblocked
    rw [hblocked] at husual
    cases husual
  have hstanding : item.course.standing = item.status := Course.standing_of_ne hopen
  have hstatus := hiff.mpr (hstep usual (by rw [hstanding]; exact husual))
  -- the status before is that of the pool, so two changes are left for each pool
  generalize item.status = before at husual
  rcases hstatus with h | h
  · rw [h]
    cases before <;> cases husual <;> decide
  · rw [h]
    cases before <;> cases husual <;> decide

/-- In a run in which no update puts status and pool of an item out of step, every completion of it
    follows the table. -/
theorem completion_follows_table {c c' c'' : Coordinator} {turns : List Turn}
    {start between after : Contents} {run : PhaseRun} {answer : Completion} {log : List Exchange}
    (hturns : Serves settings c turns c')
    (hstore : Script.World.Takes Contents.Answers start (talk turns) between)
    (hnew : ∀ item ∈ start.active, item.id = run.item →
      ∃ draft created, item = Draft.item draft run.item created)
    (hleaves : ∀ t ∈ turns, t.command.LeavesInStep run.item t.reply)
    (hsubmit : (submit settings now (.completePhase run) c').Leads log (.done (.ok answer, c'')))
    (hlog : Script.World.Takes Contents.Answers between log after)
    (hcomplete : run.outcome = .complete) :
    ∃ item item', findItem run.item between.active = some item ∧
      findItem run.item after.active = some item' ∧ answer.status = item'.status ∧
      FollowsTable item.status item'.status := by
  have hstart : InStep run.item start.active := by
    intro item hitem hid
    obtain ⟨draft, created, rfl⟩ := hnew item hitem hid
    exact Item.inStep_draft draft run.item created
  have hbetween : InStep run.item between.active := inStep_of_serves hturns hleaves hstore hstart
  let t : Turn := { now, command := .completePhase run, log, reply := .ok answer }
  obtain ⟨item, item', recorded, hfound, hafter, hrecord, hanswer⟩ :=
    recorded_of_applied (applied_of_leads (t := t) hsubmit hlog)
  have hstep : item.course.InStep :=
    hbetween item (List.mem_of_find?_eq_some hfound) (id_of_findItem hfound)
  have hstatus : recorded.status = item'.status := (Item.recordOutcome_course hrecord).1
  rw [hcomplete] at hrecord
  exact ⟨item, item', hfound, hafter, hanswer.trans hstatus, followsTable_of_inStep hstep hrecord⟩

/-- Into the first main phase, back to ready, and then by hand into a status. -/
def byHand (status : Status) : List (Stamp × Command) :=
  [(⟨1, 0⟩, .promote "WRK-1"),
   (⟨2, 0⟩, .completePhase ⟨"WRK-1", "research", false, .complete, []⟩),
   (⟨3, 0⟩, .promote "WRK-1"),
   (⟨4, 0⟩, .update "WRK-1" [.transition .ready]),
   (⟨5, 0⟩, .update "WRK-1" [.transition status])]

/-- The report of the first main phase. -/
def firstMain : PhaseRun := ⟨"WRK-1", "prd", false, .complete, []⟩

/-- What is left after these commands. -/
def betweenByHand (status : Status) : Coordinator × Rehearsal :=
  rehearsedAfter {} {} .fresh (byHand status)

/-- What comes of the report then. -/
def afterByHand (status : Status) : (Except CommandError Completion × Coordinator) × Rehearsal :=
  rehearsed {} ⟨6, 0⟩ (.completePhase firstMain) (betweenByHand status).1 (betweenByHand status).2

/-- What is asked and answered meanwhile. -/
def logByHand (status : Status) : List Exchange :=
  rehearsedLog {} ⟨6, 0⟩ (.completePhase firstMain) (betweenByHand status).1 (betweenByHand status).2

theorem leads_afterByHand {status : Status} {answer : Completion}
    (h : (afterByHand status).1.1.toOption = some answer) :
    (submit {} ⟨6, 0⟩ (.completePhase firstMain) (betweenByHand status).1).Leads (logByHand status)
      (.done (.ok answer, (afterByHand status).1.2)) := by
  have hleads : (submit {} ⟨6, 0⟩ (.completePhase firstMain) (betweenByHand status).1).Leads
      (logByHand status) (.done (afterByHand status).1) := leads_rehearsed ..
  generalize (afterByHand status).1 = ended at h hleads ⊢
  obtain ⟨reply, c⟩ := ended
  cases reply with
  | error e => cases h
  | ok a =>
    cases h
    exact hleads

theorem new_of_mem_fresh : ∀ item ∈ Rehearsal.fresh.contents.active, item.id = firstMain.item →
    ∃ draft created, item = Draft.item draft firstMain.item created := by
  intro item hitem _
  rw [List.mem_singleton.mp hitem]
  exact ⟨{ title := "Add caching" }, ⟨0, 0⟩, rfl⟩

/-- Back in progress, the item goes on in progress. -/
theorem completion_follows_table_rehearsed :
    ∃ item item',
      findItem "WRK-1" (betweenByHand .inProgress).2.contents.active = some item ∧
        findItem "WRK-1" (afterByHand .inProgress).2.contents.active = some item' ∧
        FollowsTable item.status item'.status := by
  have haccepted : (afterByHand .inProgress).1.1.toOption
      = some ⟨.inProgress, some (.entered { name := "design" } .main), false, .batched⟩ := by
    decide +kernel
  obtain ⟨item, item', hitem, hitem', -, hfollows⟩ :=
    completion_follows_table (serves_rehearsedTurns {} {} .fresh (byHand .inProgress))
      (takes_rehearsedTurns {} {} .fresh (byHand .inProgress)) new_of_mem_fresh (by decide +kernel)
      (leads_afterByHand haccepted) (takes_rehearsed ..) rfl
  exact ⟨item, item', hitem, hitem', hfollows⟩

/-- Put back into scoping by hand, an item that was in the main pool leaves the table. -/
theorem completion_may_leave_table :
    ¬ ∀ (settings : Settings) (now : Stamp) (c c' c'' : Coordinator) (turns : List Turn)
        (start between after : Contents) (run : PhaseRun) (answer : Completion) (log : List Exchange),
        Serves settings c turns c' →
        Script.World.Takes Contents.Answers start (talk turns) between →
        (∀ item ∈ start.active, item.id = run.item →
          ∃ draft created, item = Draft.item draft run.item created) →
        (submit settings now (.completePhase run) c').Leads log (.done (.ok answer, c'')) →
        Script.World.Takes Contents.Answers between log after → run.outcome = .complete →
        ∃ item item', findItem run.item between.active = some item ∧
          findItem run.item after.active = some item' ∧ FollowsTable item.status item'.status := by
  intro hfollows
  have haccepted : (afterByHand .scoping).1.1.toOption
      = some ⟨.inProgress, some (.entered { name := "design" } .main), false, .batched⟩ := by
    decide +kernel
  obtain ⟨item, item', hitem, hitem', htable⟩ :=
    hfollows _ _ _ _ _ _ _ _ _ firstMain _ _ (serves_rehearsedTurns {} {} .fresh (byHand .scoping))
      (takes_rehearsedTurns {} {} .fresh (byHand .scoping)) new_of_mem_fresh
      (leads_afterByHand haccepted) (takes_rehearsed ..) rfl
  have hscoping : (findItem "WRK-1" (betweenByHand .scoping).2.contents.active).map Item.status
      = some .scoping := by decide +kernel
  have hprogress : (findItem "WRK-1" (afterByHand .scoping).2.contents.active).map Item.status
      = some .inProgress := by decide +kernel
  have hstatus : item.status = .scoping := Option.some.inj ((congrArg _ hitem).symm.trans hscoping)
  have hstatus' : item'.status = .inProgress := Option.some.inj ((congrArg _ hitem').symm.trans hprogress)
  rw [hstatus, hstatus'] at htable
  revert htable
  decide

end Coordinator

end Backlog
