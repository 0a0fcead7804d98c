/-
  Which entries a change of an item writes.

  Program: every change writes a few extension entries, and most of them only one.

  Specification: an entry that is not among those a change is about is as it was
  (`extension?_applyUpdate`, `extension?_proceed`, …), whether the change was accepted or not.

  This says nothing of what is written, so it holds of entries that nobody can read.
-/
import Backlog.Proofs.Item.Identity

namespace Backlog

namespace Item

variable {now : Stamp} {key : Key}

/-- The entries that an update is not about are as before. -/
theorem extension?_applyUpdate (now : Stamp) (u : Update) (item : Item) (h : key ∉ u.keys) :
    (applyUpdate now u item).2.extension? key = item.extension? key := by
  rcases written_or_set now u item with hwritten | hset
  · exact hwritten.extension? h
  · exact hset.extension? key

theorem extension?_proceed (status : Status) (pool : Pool) (next : Option Phase) (item : Item)
    (h : key ∉ [Key.status, .phase, .phasePool]) :
    (item.proceed now status pool next).2.extension? key = item.extension? key :=
  (written_proceed status pool next).extension? h

theorem extension?_promote (now : Stamp) (set : Pipelines) (item : Item)
    (h : key ∉ [Key.status, .phase, .phasePool]) :
    (item.promote now set).2.extension? key = item.extension? key :=
  (written_promote set).extension? h

theorem extension?_startPhase (now : Stamp) (revision : Option String) (item : Item)
    (h : key ≠ .lastPhaseCommit) :
    (item.startPhase now revision).2.extension? key = item.extension? key :=
  (written_startPhase revision).extension? (mt List.mem_singleton.mp h)

/-! ## Merges -/

theorem extension?_absorb (now : Stamp) (source target : Item) (h : key ≠ .description) :
    (absorb now source target).extension? key = target.extension? key := by
  simp only [absorb, extension?_touch]
  split
  · rfl
  · exact (Written.same.setStructured List.mem_cons_self _).extension? (mt List.mem_singleton.mp h)

theorem extension?_redirect (now : Stamp) (source target : String) (item : Item) (key : Key) :
    (item.redirect now source target).extension? key = item.extension? key := by
  unfold redirect
  split <;> rfl

theorem extension?_merged (now : Stamp) (source target : String) (leaving item : Item)
    (h : key ≠ .description) :
    (merged now source target leaving item).extension? key = item.extension? key := by
  unfold merged
  split
  · exact extension?_absorb now leaving item h
  · exact extension?_redirect now source target item key

end Item

end Backlog
