/-
  What no change does to an item.

  An item keeps the ID and the time it was made with.  All writes keep them (`Written.identity`,
  `FieldSet.identity`), and so does whatever is made of writes.
-/
import Backlog.Merge.Items
import Backlog.Proofs.Item.Writes

namespace Backlog

namespace Item

/-- What an item is told apart by for good: its ID and when it was made. -/
def identity (item : Item) : String × Stamp := (item.id, item.createdAt)

theorem id_eq_of_identity {a b : Item} (h : a.identity = b.identity) : a.id = b.id :=
  congrArg Prod.fst h

/-! ## Writes -/

theorem Written.identity {now : Stamp} {keys : List Key} {item after : Item}
    (h : Written now keys item after) : after.identity = item.identity :=
  congrArg (fun p : Particulars => (p.id, p.createdAt)) h.particulars

theorem FieldSet.identity {now : Stamp} {item after : Item} (h : FieldSet now item after) :
    after.identity = item.identity := by
  cases h <;> rfl

theorem identity_setText (now : Stamp) (key : Key) (value : Option String) (item : Item) :
    (item.setText now key value).identity = item.identity :=
  (Written.same.setText List.mem_cons_self value : Written now [key] item _).identity

/-! ## Taking in another item -/

theorem identity_absorb (now : Stamp) (source target : Item) :
    (absorb now source target).identity = target.identity := by
  simp only [absorb]
  split <;> rfl

theorem identity_redirect (now : Stamp) (source target : String) (item : Item) :
    (item.redirect now source target).identity = item.identity := by
  unfold redirect
  split <;> rfl

/-- Depend on the target instead of the source, but not on itself. -/
def retarget (now : Stamp) (source target : String) (item : Item) : Item :=
  if item.id = target then item else item.redirect now source target

theorem identity_retarget (now : Stamp) (source target : String) (item : Item) :
    (item.retarget now source target).identity = item.identity := by
  unfold retarget
  split
  · rfl
  · exact identity_redirect now source target item

/-- What a merge makes of an item that stays: the target takes in the one that leaves, and others depend
    on the target instead. -/
def merged (now : Stamp) (source target : String) (leaving item : Item) : Item :=
  if item.id = target then absorb now leaving item else item.redirect now source target

/-! ## Checked changes -/

theorem identity_applyUpdate (now : Stamp) (u : Update) (item : Item) :
    (applyUpdate now u item).2.identity = item.identity := by
  rcases written_or_set now u item with hwritten | hset
  · exact hwritten.identity
  · exact hset.identity

theorem identity_applyUpdates (now : Stamp) (updates : List Update) (item : Item) :
    (applyUpdates now updates item).2.identity = item.identity := by
  induction updates generalizing item with
  | nil => rfl
  | cons u us ih =>
    have hu := identity_applyUpdate now u item
    simp only [applyUpdates]
    split
    · next hstep => rw [ih, ← hu, hstep]
    · next hstep => rw [← hu, hstep]

theorem identity_applyAll (now : Stamp) (updates : List Update) (item : Item) :
    (applyAll now updates item).2.identity = item.identity :=
  identity_applyUpdates now updates item

theorem identity_unblock (now : Stamp) (context : Option String) (item : Item) :
    (unblock now context item).2.identity = item.identity :=
  (written_unblock context).identity

theorem identity_promote (now : Stamp) (set : Pipelines) (item : Item) :
    (promote now set item).2.identity = item.identity :=
  (written_promote set).identity

theorem identity_recordOutcome (now : Stamp) (phase : String) (outcome : RunOutcome)
    (set : Pipelines) (item : Item) :
    (item.recordOutcome now phase outcome set).2.identity = item.identity :=
  (written_recordOutcome phase outcome set).identity

theorem identity_startPhase (now : Stamp) (revision : Option String) (item : Item) :
    (item.startPhase now revision).2.identity = item.identity :=
  (written_startPhase revision).identity

end Item

/-- A new item has the ID and the time that it is made with. -/
theorem Draft.identity_item (draft : Draft) (id : String) (now : Stamp) :
    (draft.item id now).identity = (id, now) :=
  (Item.written_draft draft id).identity

end Backlog
