/-
  Changes and the time of the last write.

  Program: a write takes the time that it happens at and puts it into the item, some through `touch`,
  some through the writes of entries.  Removing an entry that is not there is no write.

  Specification: an item is as it was after whatever is done to it, or its last write has the time of
  the deed (`Stamped`).  So an active item is after every run one of those at its start, with nothing
  changed, or its last write has the time of a turn (`no_silent_change`).

  The crux is that this composes (`Stamped.trans`): each write is looked at once (`Written.stamped`),
  and what is made of writes needs no look at their order or at how many of them there are.
-/
import Backlog.Proofs.Coordinator.Deeds
import Mathlib.Data.List.Forall2

namespace Backlog

namespace Item

/-- The item is as it was, or its last write has this time. -/
def Stamped (now : Stamp) (item after : Item) : Prop := after = item ∨ after.updatedAt = now

variable {now : Stamp} {item between after : Item}

theorem Stamped.refl (now : Stamp) (item : Item) : Stamped now item item := .inl rfl

theorem Stamped.trans (h : Stamped now item between) (h' : Stamped now between after) :
    Stamped now item after := by
  rcases h' with rfl | hnow
  · exact h
  · exact .inr hnow

theorem Stamped.updatedAt (h : Stamped now item after) (hitem : item.updatedAt = now) :
    after.updatedAt = now := by
  rcases h with rfl | hnow
  · exact hitem
  · exact hnow

/-! ## Writes -/

theorem stamped_touch (now : Stamp) (item changed : Item) : Stamped now item (changed.touch now) :=
  .inr rfl

/-- Each of the writes leaves its time, but the removal of an entry that is not there. -/
theorem Written.stamped {keys : List Key} (h : Written now keys item after) :
    Stamped now item after := by
  induction h with
  | same => exact .refl now item
  | removeEntry _ _ ih =>
    unfold Item.removeEntry
    split
    · exact stamped_touch now item _
    · exact ih
  | setNative | blockNative | unblockNative | setEntry => exact stamped_touch now item _
  | setStructured => exact .inr rfl

theorem FieldSet.stamped (h : FieldSet now item after) : Stamped now item after := by
  cases h with
  | same => exact .refl now item
  | title | priority | tags | dependencies => exact stamped_touch now item _

section

variable (now : Stamp) (item : Item)

/-! ## Changes -/

theorem stamped_applyUpdate (u : Update) : Stamped now item (applyUpdate now u item).2 := by
  rcases written_or_set now u item with hwritten | hset
  · exact hwritten.stamped
  · exact hset.stamped

theorem stamped_setMergeInto (target : Option String) :
    Stamped now item (item.setMergeInto now target) :=
  (Written.same.setText List.mem_cons_self target : Written now [.mergeInto] item _).stamped

theorem stamped_absorb (source : Item) : Stamped now item (absorb now source item) :=
  stamped_touch now item _

theorem stamped_redirect (source target : String) :
    Stamped now item (item.redirect now source target) := by
  unfold redirect
  split
  · exact stamped_touch now item _
  · exact .refl now item

theorem stamped_retarget (source target : String) :
    Stamped now item (item.retarget now source target) := by
  unfold retarget
  split
  · exact .refl now item
  · exact stamped_redirect now item source target

end

end Item

/-! ## Merges -/

/-- Changing the first item with an ID does to each item what the change does, or nothing. -/
theorem forall₂_changeFirst {R : Item → Item → Prop} {change : Item → Item} (id : String)
    (hsame : ∀ item, R item item) (hchange : ∀ item, R item (change item)) (items : List Item) :
    List.Forall₂ R items (changeFirst id change items) := by
  induction items with
  | nil => exact .nil
  | cons item items ih =>
    simp only [changeFirst]
    split
    · exact .cons (hchange item) (List.forall₂_same.mpr fun other _ => hsame other)
    · exact .cons (hsame item) ih

/-- What may have become of an item: it is the same one, and as it was or written at this time. -/
structure Item.Becomes (now : Stamp) (item after : Item) : Prop where
  identity : after.identity = item.identity
  stamped : item.Stamped now after

/-- A merge silently changes neither the items that stay nor the one that leaves. -/
theorem becomes_foldInto {now : Stamp} {items after : List Item} {source target : String}
    {retired : Item} (h : foldInto now items source target = .ok (retired, after)) :
    ∃ leaving staying, (leaving :: staying).Perm items ∧
      List.Forall₂ (Item.Becomes now) (leaving :: staying) (retired :: after) := by
  obtain ⟨leaving, hfound, rfl, rfl⟩ := foldInto_inv h
  refine ⟨leaving, items.eraseP fun i => i.id == source, perm_of_find? hfound, .cons ⟨?_, ?_⟩ ?_⟩
  · exact Item.identity_setText ..
  · exact Item.stamped_setMergeInto now leaving none
  · -- whoever stays may first take the other one in, and then be made to depend on the target
    rw [List.forall₂_map_right_iff]
    have htaken : List.Forall₂ (Item.Becomes now) _ _ := forall₂_changeFirst target
      (fun item => ⟨rfl, .refl now item⟩)
      (fun item => ⟨Item.identity_absorb now leaving item, Item.stamped_absorb now item leaving⟩)
      (items.eraseP fun i => i.id == source)
    refine htaken.imp fun item taken h => ⟨?_, ?_⟩
    · exact (Item.identity_retarget now source target taken).trans h.identity
    · exact h.stamped.trans (Item.stamped_retarget now taken source target)

/-! ## Deeds and new items -/

/-- When the deed was done. -/
def Deed.time : Deed → Stamp
  | .update now _ | .promote now _ | .advance now _ _ | .record now _ _ _ | .start now _
  | .unblock now _ | .absorb now _ | .redirect now _ _ => now

theorem Deed.stamped_on (deed : Deed) (item : Item) : item.Stamped deed.time (deed.on item) := by
  cases deed with
  | update now u => exact Item.stamped_applyUpdate now item u
  | promote now set => exact (Item.written_promote set).stamped
  | advance now phase set => exact (Item.written_advance phase set).stamped
  | record now phase outcome set => exact (Item.written_recordOutcome phase outcome set).stamped
  | start now revision => exact (Item.written_startPhase revision).stamped
  | unblock now context => exact (Item.written_unblock context).stamped
  | absorb now source => exact Item.stamped_absorb now item source
  | redirect now source target => exact Item.stamped_redirect now item source target

theorem Command.Does.time {settings : Coordinator.Settings} {now : Stamp} {head : Option String}
    {item : Item} {command : Command} {deed : Deed} (h : command.Does settings now head item deed) :
    deed.time = now := by
  cases h <;> rfl

/-- A new item has the time that it is made at. -/
theorem Draft.updatedAt_item (draft : Draft) (id : String) (now : Stamp) :
    (draft.item id now).updatedAt = now :=
  (Item.written_draft draft id).stamped.updatedAt rfl

/-! ## Runs -/

namespace Coordinator

/-- After a run each active item is one from its start, unchanged, or was last written in one of its
    turns. -/
theorem stamped_of_serves {settings : Settings} {c c' : Coordinator} {turns : List Turn}
    {start after : Contents} (hturns : Serves settings c turns c')
    (hstore : Script.World.Takes Contents.Answers start (talk turns) after) :
    ∀ item ∈ after.active, item ∈ start.active ∨ ∃ t ∈ turns, item.updatedAt = t.now := by
  refine forall_of_serves ?_ ?_ hturns hstore fun item hitem => .inl hitem
  · intro t ht head item deed hdoes hitem
    have hstamped := deed.stamped_on item
    rw [hdoes.time] at hstamped
    rcases hstamped with hsame | hnow
    · rwa [hsame]
    · exact .inr ⟨t, ht, hnow⟩
  · exact fun t ht draft id => .inr ⟨t, ht, draft.updatedAt_item id t.now⟩

end Coordinator

namespace Item

/-! ## Whatever is done -/

/-- Whatever is done to an item, accepted or refused, it is the item it was or its last write has the
    time of it; and so are the items of a merge, the one that leaves included. After a run each active
    item is one from its start, or was last written in one of its turns. -/
theorem no_silent_change (now : Stamp) (item : Item) :
    (∀ u, item.Stamped now (applyUpdate now u item).2) ∧
    (∀ set, item.Stamped now (promote now set item).2) ∧
    (∀ phase set, item.Stamped now (advance now phase set item).2) ∧
    (∀ phase outcome set, item.Stamped now (recordOutcome now phase outcome set item).2) ∧
    (∀ reason blockedType, item.Stamped now (setBlocked now reason blockedType item).2) ∧
    (∀ context, item.Stamped now (unblock now context item).2) ∧
    (∀ source, item.Stamped now (absorb now source item)) ∧
    (∀ source target, item.Stamped now (item.redirect now source target)) ∧
    item.Stamped now (item.setMergeInto now none) ∧
    (∀ items source target retired after, foldInto now items source target = .ok (retired, after) →
      ∃ leaving staying, (leaving :: staying).Perm items ∧
        List.Forall₂ (Becomes now) (leaving :: staying) (retired :: after)) ∧
    ∀ (settings : Coordinator.Settings) (c c' : Coordinator) (turns : List Coordinator.Turn)
        (start after : Contents), Coordinator.Serves settings c turns c' →
      Script.World.Takes Contents.Answers start (Coordinator.talk turns) after →
      ∀ item ∈ after.active, item ∈ start.active ∨ ∃ t ∈ turns, item.updatedAt = t.now :=
  ⟨stamped_applyUpdate now item, fun set => (written_promote set).stamped,
    fun phase set => (written_advance phase set).stamped,
    fun phase outcome set => (written_recordOutcome phase outcome set).stamped,
    fun reason blockedType => (written_setBlocked reason blockedType).stamped,
    fun context => (written_unblock context).stamped, stamped_absorb now item, stamped_redirect now item,
    stamped_setMergeInto now item none, fun _ _ _ _ _ => becomes_foldInto,
    fun _ _ _ _ _ _ => Coordinator.stamped_of_serves⟩

/-- An item to merge into, one that asks to be merged into it, one that depends on that, and one that
    has to do with none of them. -/
def signalledSample : List Item :=
  [dependent "WRK-1" [], (dependent "WRK-2" ["WRK-9"]).setMergeInto ⟨0, 0⟩ (some "WRK-1"),
    dependent "WRK-3" ["WRK-2"], dependent "WRK-4" []]

/-- Of two items one is promoted. -/
def promotion : List (Stamp × Command) :=
  [(⟨1, 0⟩, .ingest [{ title := "Add paging" }]), (⟨2, 0⟩, .promote "WRK-1")]

/-- The merge writes all of them but the last, and so has each of them the time that it should have; and
    so has each of two items one of which is promoted after the other was made. -/
theorem no_silent_change_signalled :
    ∃ retired after, foldInto ⟨1, 0⟩ signalledSample "WRK-2" "WRK-1" = .ok (retired, after) ∧
      (retired :: after).map updatedAt = [⟨1, 0⟩, ⟨1, 0⟩, ⟨1, 0⟩, ⟨0, 0⟩] ∧
      (∃ leaving staying, (leaving :: staying).Perm signalledSample ∧
        List.Forall₂ (Becomes ⟨1, 0⟩) (leaving :: staying) (retired :: after)) ∧
      (Coordinator.rehearsedAfter {} {} .fresh promotion).2.contents.active.map updatedAt
        = [⟨2, 0⟩, ⟨1, 0⟩] ∧
      ∀ item ∈ (Coordinator.rehearsedAfter {} {} .fresh promotion).2.contents.active,
        item ∈ Rehearsal.fresh.contents.active ∨
          ∃ t ∈ Coordinator.rehearsedTurns {} {} .fresh promotion, item.updatedAt = t.now := by
  have htimes : (foldInto ⟨1, 0⟩ signalledSample "WRK-2" "WRK-1").toOption.map
      (fun merged => (merged.1 :: merged.2).map updatedAt) = some [⟨1, 0⟩, ⟨1, 0⟩, ⟨1, 0⟩, ⟨0, 0⟩] := by
    decide +kernel
  cases hfold : foldInto ⟨1, 0⟩ signalledSample "WRK-2" "WRK-1" with
  | error e =>
    rw [hfold] at htimes
    cases htimes
  | ok merged =>
    obtain ⟨retired, after⟩ := merged
    rw [hfold] at htimes
    obtain ⟨-, -, -, -, -, -, -, -, -, hmerge, hruns⟩ := no_silent_change ⟨1, 0⟩ Draft.sample
    exact ⟨retired, after, rfl, Option.some.inj htimes, hmerge _ _ _ _ _ hfold, by decide +kernel,
      hruns {} _ _ _ _ _ (Coordinator.serves_rehearsedTurns {} {} .fresh promotion)
        (Coordinator.takes_rehearsedTurns {} {} .fresh promotion)⟩

end Item

end Backlog
