/-
  The answer of a blocked item.

  Program: a plan unblocks an item with the answer that it carries.  The answer is written by an
  update, and kept or taken away by blocks, unblocks and phase runs.

  Specification: no plan unblocks an item with an answer that is older than the last block.  The answer
  that an item was unblocked with can be read until its phase is complete, and no longer
  (`answer_after_last_block`).

  A plan names items by their IDs, so what it says of an item can be told only if no other has its ID.
  An item is created with an ID that no other has (`fresh_createItems`), and none gets it later
  (`count_ids_of_serves`).
-/
import Backlog.Proofs.Coordinator.Unblocking
import Backlog.Proofs.Schedule.Plans

namespace Backlog

namespace Coordinator

variable {settings : Settings} {id : String}

/-- A plan unblocks an item with an answer that was given since it was last blocked.  The item keeps
    the answer that it was unblocked with until it is blocked again, is given another or completes its
    phase, and has none right after that. -/
theorem answer_after_last_block {c c' : Coordinator} {turns : List Turn} {start after : Contents}
    {draft : Draft} {created : Stamp} (hturns : Serves settings c turns c')
    (hstore : Script.World.Takes Contents.Answers start (talk turns) after)
    (hstart : findItem id start.active = some (draft.item id created))
    (hstays : ∀ t ∈ turns, t.removes id = false) :
    ∃ item, findItem id after.active = some item ∧
      ((ids start.active).count id = 1 → ∀ running limits set context,
        Action.unblock id context ∈ (Schedule.tick after.active running limits set).actions →
          ∃ earlier b since, moments id start.active turns = earlier ++ b :: since ∧
            b.blocks = true ∧ (∀ m ∈ since, m.blocks = false) ∧ GivenIn since context) ∧
      (∀ earlier u later context text,
        moments id start.active turns = earlier ++ u :: later → u.event = .unblocked context →
          (Item.notBlank context).or u.before.unblockContext = some text →
            (∀ m ∈ later, m.resets = false) → item.unblockContext = some text) ∧
      ∀ m ∈ moments id start.active turns, m.event = .ran .complete →
        m.after.unblockContext = none := by
  obtain ⟨item, hfound, hlife⟩ := life_of_serves hturns hstore hstays hstart
  refine ⟨item, hfound, ?_, ?_, ?_⟩
  · intro hunique running limits set context haction
    -- the item that the plan is about is the one that is found
    obtain ⟨blocked, hmem, hid, hstatus, hcontext⟩ := Schedule.blocked_of_unblock haction
    have hcount := count_ids_of_serves hturns hstore (Nat.le_of_eq hunique)
    obtain rfl : item = blocked :=
      Option.some.inj (hfound.symm.trans (findItem_of_count hcount hmem hid))
    obtain ⟨since, hsince⟩ := hlife.answer (Item.status_draft_ne_blocked draft id created) hstatus
    obtain ⟨earlier, b, hmoments, hblocks⟩ := hsince.blocked
    exact ⟨earlier, b, since, hmoments, hblocks, hsince.calm, hsince.given context hcontext⟩
  · intro earlier u later context text hmoments hevent htext hlater
    rw [hmoments] at hlife
    obtain ⟨-, hunblock, hrest⟩ := hlife.split
    obtain ⟨-, hopen, hcontext⟩ := hunblock.frees hevent
    calc item.unblockContext = u.after.unblockContext := hrest.unblockContext hopen hlater
      _ = (Item.notBlank context).or u.before.unblockContext := hcontext
      _ = some text := htext
  · intro m hm hevent
    obtain ⟨earlier, later, hmoments⟩ := List.append_of_mem hm
    rw [hmoments] at hlife
    exact hlife.split.2.1.unblockContext_of_ran hevent

/-- The item that was blocked twice is given another answer. -/
def answered : List (Stamp × Command) :=
  interrupted ++ [(⟨5, 0⟩, .update "WRK-1" [.setUnblockContext (some "\tthe third ")])]

/-- And it is unblocked. -/
def resumedWithAnswer : List (Stamp × Command) := answered ++ [(⟨6, 0⟩, .unblock "WRK-1" none)]

/-- A plan unblocks the item with the second answer, and it is the second answer that is read
    afterwards. -/
theorem answer_after_last_block_rehearsed :
    (∃ earlier b since,
      moments "WRK-1" Rehearsal.fresh.contents.active (rehearsedTurns {} {} .fresh answered)
        = earlier ++ b :: since ∧
      b.blocks = true ∧ (∀ m ∈ since, m.blocks = false) ∧ GivenIn since "the third") ∧
    ∃ item, findItem "WRK-1" (rehearsedAfter {} {} .fresh resumedWithAnswer).2.contents.active = some item ∧
      item.unblockContext = some "the third" := by
  constructor
  · have hstays : ∀ t ∈ rehearsedTurns {} {} .fresh answered, t.removes "WRK-1" = false := by
      decide +kernel
    obtain ⟨item, hfound, hplan, -, -⟩ :=
      answer_after_last_block (serves_rehearsedTurns {} {} .fresh answered)
        (takes_rehearsedTurns {} {} .fresh answered) rfl hstays
    refine hplan (by decide) Dict.empty {} default "the third" ?_
    have hstanding : (findItem "WRK-1"
        (rehearsedAfter {} {} .fresh answered).2.contents.active).map
          (Schedule.standing (rehearsedAfter {} {} .fresh answered).2.contents.active Dict.empty)
        = some (.act (.unblock "WRK-1" "the third")) := by
      decide +kernel
    rw [hfound, Option.map_some, Option.some.injEq] at hstanding
    rw [Schedule.actions_tick]
    refine List.mem_append_left _ (Schedule.mem_actions_signals.mpr ⟨item, ?_, hstanding⟩)
    exact Schedule.mem_byAge.mpr (List.mem_of_find?_eq_some hfound)
  · have hstays : ∀ t ∈ rehearsedTurns {} {} .fresh resumedWithAnswer, t.removes "WRK-1" = false := by
      decide +kernel
    obtain ⟨item, hfound, -, hkept, -⟩ :=
      answer_after_last_block (serves_rehearsedTurns {} {} .fresh resumedWithAnswer)
        (takes_rehearsedTurns {} {} .fresh resumedWithAnswer) rfl hstays
    -- the last moment is the unblock
    have hlast : (moments "WRK-1" Rehearsal.fresh.contents.active
        (rehearsedTurns {} {} .fresh resumedWithAnswer)).getLast?.map
          (fun m => (m.event, m.before.unblockContext))
        = some (.unblocked none, some "the third") := by
      decide +kernel
    obtain ⟨u, hu, hunblock⟩ := Option.map_eq_some_iff.mp hlast
    obtain ⟨hevent, hcontext⟩ := Prod.mk.inj hunblock
    obtain ⟨earlier, hmoments⟩ := List.getLast?_eq_some_iff.mp hu
    exact ⟨item, hfound, hkept earlier u [] none "the third" hmoments hevent hcontext
      fun _ hm => absurd hm List.not_mem_nil⟩

end Coordinator

end Backlog
