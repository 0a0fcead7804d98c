/-
  How an item leaves its last two statuses.

  Program: done and blocked items stay in the active set, where every command may find them.

  Specification: whatever is served, an item that is done stays done, and one that is blocked stays
  blocked until it is unblocked.  That never fails, and restores the status that the item had when it
  was last blocked from another one, whatever happened to it since (`blocked_until_unblocked`).

  All of it is said of lives, so what is left is to find the life of the item in the run.
-/
import Backlog.Proofs.Coordinator.History
import Backlog.Proofs.Coordinator.Rehearsed

namespace Backlog

/-- An unblock goes back to the status that is recorded. -/
theorem Item.unblock_of_blockedFrom {item : Item} {restored : Status} (now : Stamp)
    (context : Option String) (hblocked : item.status = .blocked)
    (hrestored : item.blockedFrom = some restored) :
    ∃ freed, item.unblock now context = (.ok restored, freed) ∧ freed.status = restored := by
  obtain ⟨freed, hunblock, hcourse⟩ := Item.unblock_course now context hblocked hrestored
  exact ⟨freed, hunblock, congrArg Course.status hcourse⟩

/-- New items are not blocked. -/
theorem Item.status_draft_ne_blocked (draft : Draft) (id : String) (created : Stamp) :
    (draft.item id created).status ≠ .blocked := by
  have hnew : (draft.item id created).status = .new :=
    congrArg Course.status (Item.course_draft draft id created)
  rw [hnew]
  rintro ⟨⟩

namespace Coordinator

variable {settings : Settings} {id : String}

/-- As long as an item is active, done is final, and blocked is left by an unblock alone, which always
    succeeds and goes back to where the item was blocked. -/
theorem blocked_until_unblocked {c c' : Coordinator} {turns : List Turn} {start after : Contents}
    {draft : Draft} {created : Stamp} (hturns : Serves settings c turns c')
    (hstore : Script.World.Takes Contents.Answers start (talk turns) after)
    (hstart : findItem id start.active = some (draft.item id created))
    (hstays : ∀ t ∈ turns, t.removes id = false) :
    ∃ item, findItem id after.active = some item ∧
      (∀ (earlier later : List Turn) (between : Contents), turns = earlier ++ later →
        Script.World.Takes Contents.Answers start (talk earlier) between →
        ∃ reached, findItem id between.active = some reached ∧
          (reached.status = .done → item.status = .done) ∧
          (reached.status = .blocked → (∀ t ∈ later, t.unblocks id = false) →
            item.status = .blocked)) ∧
      (item.status = .blocked →
        ∃ restored, lastBlockedFrom (moments id start.active turns) = some restored ∧
          ∀ now context, ∃ freed,
            item.unblock now context = (.ok restored, freed) ∧ freed.status = restored) := by
  obtain ⟨item, hfound, hlife⟩ := life_of_serves hturns hstore hstays hstart
  refine ⟨item, hfound, ?_, ?_⟩
  · rintro earlier later between rfl hbetween
    obtain ⟨c'', hearlier, hlater⟩ := hturns.of_append
    obtain ⟨reached, hreached, -⟩ := life_of_serves hearlier hbetween
      (fun t ht => hstays t (List.mem_append_left later ht)) hstart
    -- the later turns begin with the items that the earlier ones have left
    rw [talk_append] at hstore
    obtain ⟨middle, hfirst, hrest⟩ := Script.World.takes_append.mp hstore
    have hmiddle : findItem id middle.active = some reached := by
      rw [Contents.active_of_takes hfirst, ← Contents.active_of_takes hbetween]
      exact hreached
    obtain ⟨last, hlast, hlife⟩ := life_of_serves hlater hrest
      (fun t ht => hstays t (List.mem_append_right earlier ht)) hmiddle
    obtain rfl : item = last := Option.some.inj (hfound.symm.trans hlast)
    refine ⟨reached, hreached, hlife.done, fun hblocked hnone => ?_⟩
    exact hlife.blocked hblocked fun m hm context => event_ne_unblocked hnone hm context
  · intro hblocked
    obtain ⟨restored, hlast, hfrom⟩ :=
      hlife.blockedFrom (Item.status_draft_ne_blocked draft id created) hblocked
    exact ⟨restored, hlast, fun now context => item.unblock_of_blockedFrom now context hblocked hfrom⟩

/-- An item is blocked in its first phase, given an answer, moved to another pool by hand and blocked
    again. -/
def interrupted : List (Stamp × Command) :=
  [(⟨1, 0⟩, .promote "WRK-1"),
   (⟨2, 0⟩, .completePhase ⟨"WRK-1", "research", false, .blocked "which one?" .clarification, []⟩),
   (⟨3, 0⟩, .update "WRK-1" [.setUnblockContext (some " the second "), .setPhasePool (some .main)]),
   (⟨4, 0⟩, .update "WRK-1" [.setBlocked "not that one" none])]

/-- It goes back to its first phase. -/
theorem blocked_until_unblocked_rehearsed :
    ∃ item, findItem "WRK-1" (rehearsedAfter {} {} .fresh interrupted).2.contents.active = some item ∧
      item.status = .blocked ∧
      ∀ now context, ∃ freed,
        item.unblock now context = (.ok .scoping, freed) ∧ freed.status = .scoping := by
  have hstays : ∀ t ∈ rehearsedTurns {} {} .fresh interrupted, t.removes "WRK-1" = false := by
    decide +kernel
  obtain ⟨item, hfound, -, hunblock⟩ :=
    blocked_until_unblocked (serves_rehearsedTurns {} {} .fresh interrupted)
      (takes_rehearsedTurns {} {} .fresh interrupted) rfl hstays
  have hstatus : (findItem "WRK-1"
      (rehearsedAfter {} {} .fresh interrupted).2.contents.active).map Item.status = some .blocked := by
    decide +kernel
  rw [hfound, Option.map_some, Option.some.injEq] at hstatus
  have hscoping : lastBlockedFrom (moments "WRK-1" Rehearsal.fresh.contents.active
      (rehearsedTurns {} {} .fresh interrupted)) = some .scoping := by
    decide +kernel
  obtain ⟨restored, hlast, hfreed⟩ := hunblock hstatus
  obtain rfl : restored = .scoping := Option.some.inj (hlast.symm.trans hscoping)
  exact ⟨item, hfound, hstatus, hfreed⟩

end Coordinator

end Backlog
