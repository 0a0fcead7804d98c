/-
  Items that refer to themselves.

  Program: an item's own ID is left out wherever dependencies are written, and an update that asks to
  merge an item into itself is refused.  That check is made of the ID as it was given, which is stored
  trimmed.

  Specification: no item ever depends on itself, and none asks to be merged into itself either
  (`RefersToOthers`), as long as no update gives its ID between blanks (`Update.pads`).  Such an update
  is accepted, and that is the only way there is (`mergeInto_updated_iff`).  So it is with single items
  and merges, and with all active items in every run (`refers_to_others`).

  The crux is that of all writes one writes the merge signal and four write dependencies; whatever else
  is done, both are what they were (`RefersToOthers.of_written`).
-/
import Backlog.Proofs.Coordinator.Deeds
import Backlog.Proofs.Merge.Result

namespace Backlog

/-- Whether an update asks to merge the item with the ID into itself and is not refused, since there
    are blanks around the ID: what is compared is another text, but what is stored is the ID. -/
def Update.pads (id : String) : Update → Bool
  | .setMergeInto (some text) => text ≠ id ∧ Item.notBlank (some (Text.trim text)) = some id
  | _ => false

namespace Item

/-- The item is none of its own dependencies. -/
def DependsOnOthers (item : Item) : Prop := item.id ∉ item.dependencies

/-- The item neither depends on itself nor asks to be merged into itself. -/
structure RefersToOthers (item : Item) : Prop where
  dependencies : item.DependsOnOthers
  mergeInto : item.mergeInto ≠ some item.id

variable {now : Stamp} {keys : List Key} {item after : Item}

/-! ## Writes -/

theorem DependsOnOthers.of_written (h : item.DependsOnOthers) (hwritten : Written now keys item after) :
    after.DependsOnOthers := by
  rw [DependsOnOthers, hwritten.id_eq, hwritten.dependencies_eq]
  exact h

/-- The item itself is left out of dependencies that are set. -/
theorem DependsOnOthers.of_fieldSet (h : item.DependsOnOthers) (hset : FieldSet now item after) :
    after.DependsOnOthers := by
  cases hset with
  | dependencies dependencies =>
    show item.id ∉ dependencies.filter (· ≠ item.id)
    simp
  | same | title | priority | tags => exact h

/-- Writes that are not about the merge signal leave what an item refers to. -/
theorem RefersToOthers.of_written (h : item.RefersToOthers) (hwritten : Written now keys item after)
    (hkey : .mergeInto ∉ keys) : after.RefersToOthers := by
  refine ⟨h.dependencies.of_written hwritten, ?_⟩
  rw [hwritten.id_eq, mergeInto_congr (hwritten.extension? hkey)]
  exact h.mergeInto

/-! ## Updates -/

theorem dependsOnOthers_applyUpdate (h : item.DependsOnOthers) (now : Stamp) (u : Update) :
    (applyUpdate now u item).2.DependsOnOthers := by
  rcases written_or_set now u item with hwritten | hset
  · exact h.of_written hwritten
  · exact h.of_fieldSet hset

/-- Of the updates only the one about the merge signal is. -/
theorem mergeInto_applyUpdate (now : Stamp) {u : Update} (item : Item)
    (hu : ∀ target, u ≠ .setMergeInto target) :
    (applyUpdate now u item).2.mergeInto = item.mergeInto := by
  have hkey : .mergeInto ∉ u.keys := by
    cases u with
    | setMergeInto target => exact absurd rfl (hu target)
    | transition status =>
      simp only [Update.keys]
      split <;> decide
    | _ => simp [Update.keys]
  exact mergeInto_congr (extension?_applyUpdate now u item hkey)

theorem refersToOthers_applyUpdate (h : item.RefersToOthers) (now : Stamp) {u : Update}
    (hu : u.pads item.id = false) : (applyUpdate now u item).2.RefersToOthers := by
  refine ⟨dependsOnOthers_applyUpdate h.dependencies now u, ?_⟩
  rw [id_eq_of_identity (identity_applyUpdate now u item)]
  by_cases hmerge : ∃ target, u = .setMergeInto target
  · obtain ⟨target, rfl⟩ := hmerge
    simp only [applyUpdate]
    split
    · exact h.mergeInto
    · next hother =>
      -- what is read is the trimmed text, and that is the ID only if it was padded
      rw [mergeInto_setMergeInto]
      cases target with
      | none => rintro ⟨⟩
      | some text => exact fun hself => of_decide_eq_false hu ⟨fun heq => hother (heq ▸ rfl), hself⟩
  · rw [mergeInto_applyUpdate now item fun target heq => hmerge ⟨target, heq⟩]
    exact h.mergeInto

/-- An update that pads the ID of an item is accepted, and the item asks to be merged into itself. -/
theorem applyUpdate_of_pads (now : Stamp) {u : Update} (hu : u.pads item.id = true) :
    ∃ after, item.applyUpdate now u = (.ok (), after) ∧ after.mergeInto = some item.id := by
  unfold Update.pads at hu
  split at hu
  · next text =>
    obtain ⟨hother, hstored⟩ := of_decide_eq_true hu
    have haccepted : ¬ some text = some item.id := fun heq => hother (Option.some.inj heq)
    refine ⟨item.setMergeInto now (some text), by rw [applyUpdate, if_neg haccepted], ?_⟩
    exact (mergeInto_setMergeInto now (some text) item).trans hstored
  · cases hu

/-! ## Merges and new items -/

theorem dependsOnOthers_absorb (h : item.DependsOnOthers) (now : Stamp) (source : Item) :
    (absorb now source item).DependsOnOthers := by
  rw [DependsOnOthers, id_eq_of_identity (identity_absorb now source item), mem_dependencies_absorb]
  rintro ⟨-, hown | ⟨-, hne⟩⟩
  · exact h hown
  · exact hne rfl

/-- Whoever is not the target may be made to depend on it. -/
theorem dependsOnOthers_redirect (h : item.DependsOnOthers) (now : Stamp) (source : String)
    {target : String} (hne : item.id ≠ target) : (item.redirect now source target).DependsOnOthers := by
  rw [DependsOnOthers, id_eq_of_identity (identity_redirect now source target item),
    mem_dependencies_redirect]
  rintro (⟨-, hown⟩ | ⟨heq, -⟩)
  · exact h hown
  · exact hne heq

theorem refersToOthers_absorb (h : item.RefersToOthers) (now : Stamp) (source : Item) :
    (absorb now source item).RefersToOthers := by
  refine ⟨dependsOnOthers_absorb h.dependencies now source, ?_⟩
  rw [id_eq_of_identity (identity_absorb now source item),
    mergeInto_congr (extension?_absorb now source item (by decide))]
  exact h.mergeInto

theorem refersToOthers_redirect (h : item.RefersToOthers) (now : Stamp) (source : String)
    {target : String} (hne : item.id ≠ target) : (item.redirect now source target).RefersToOthers := by
  refine ⟨dependsOnOthers_redirect h.dependencies now source hne, ?_⟩
  rw [id_eq_of_identity (identity_redirect now source target item),
    mergeInto_congr (extension?_redirect now source target item .mergeInto)]
  exact h.mergeInto

theorem refersToOthers_draft (draft : Draft) (id : String) (now : Stamp) :
    (draft.item id now).RefersToOthers := by
  have hplain : (draft.plain id now).RefersToOthers := by
    refine ⟨?_, ?_⟩
    · show id ∉ draft.dependencies.filter (· ≠ id)
      simp
    · have hnone : (draft.plain id now).extension? .mergeInto = none := rfl
      rw [mergeInto, inspectText_none hnone]
      rintro ⟨⟩
  exact hplain.of_written (written_draft draft id) (by decide)

end Item

/-- A merge of items that refer to others leaves such items, and retires one. -/
theorem refersToOthers_foldInto {now : Stamp} {items after : List Item} {source target : String}
    {retired : Item} (h : foldInto now items source target = .ok (retired, after))
    (hitems : ∀ item ∈ items, item.RefersToOthers) :
    ∀ item ∈ retired :: after, item.RefersToOthers := by
  refine List.forall_mem_cons.mpr ⟨?_, ?_⟩
  · obtain ⟨leaving, hfound, rfl, -⟩ := foldInto_inv h
    have hleaving := hitems leaving (List.mem_of_find?_eq_some hfound)
    have hwritten : Item.Written now [.mergeInto] leaving (leaving.setMergeInto now none) :=
      Item.Written.same.setText (by decide) none
    refine ⟨hleaving.dependencies.of_written hwritten, ?_⟩
    rw [Item.mergeInto_setMergeInto]
    rintro ⟨⟩
  · refine forall_foldInto (fun leaving item hitem => Item.refersToOthers_absorb hitem now leaving)
      (fun item hitem => ?_) h hitems
    unfold Item.retarget
    split
    · exact hitem
    · next hne => exact Item.refersToOthers_redirect hitem now source hne

/-! ## Runs -/

namespace Command.Does

variable {settings : Coordinator.Settings} {now : Stamp} {head : Option String} {item : Item}
  {command : Command} {deed : Deed}

theorem dependsOnOthers (hdoes : command.Does settings now head item deed) (h : item.DependsOnOthers) :
    (deed.on item).DependsOnOthers := by
  cases hdoes with
  | @update _ _ u => exact Item.dependsOnOthers_applyUpdate h now u
  | promote => exact h.of_written (Item.written_promote _)
  | start => exact h.of_written (Item.written_startPhase _)
  | record => exact h.of_written (Item.written_recordOutcome _ _ _)
  | unblock => exact h.of_written (Item.written_unblock _)
  | absorb leaving => exact Item.dependsOnOthers_absorb h now leaving
  | @redirect source target hne => exact Item.dependsOnOthers_redirect h now source hne

theorem refersToOthers (hdoes : command.Does settings now head item deed) (h : item.RefersToOthers)
    (hpads : ∀ id updates, command = .update id updates → ∀ u ∈ updates, u.pads id = false) :
    (deed.on item).RefersToOthers := by
  cases hdoes with
  | @update id updates u hid hu =>
    exact Item.refersToOthers_applyUpdate h now (hid ▸ hpads id updates rfl u hu)
  | promote => exact h.of_written (Item.written_promote _) (by decide)
  | start => exact h.of_written (Item.written_startPhase _) (by decide)
  | record => exact h.of_written (Item.written_recordOutcome _ _ _) (by decide)
  | unblock => exact h.of_written (Item.written_unblock _) (by decide)
  | absorb leaving => exact Item.refersToOthers_absorb h now leaving
  | @redirect source target hne => exact Item.refersToOthers_redirect h now source hne

end Command.Does

namespace Coordinator

variable {settings : Settings} {c c' : Coordinator} {turns : List Turn} {start after : Contents}

/-- No run makes an active item depend on itself. -/
theorem dependsOnOthers_of_serves (hturns : Serves settings c turns c')
    (hstore : Script.World.Takes Contents.Answers start (talk turns) after)
    (h : ∀ item ∈ start.active, item.DependsOnOthers) : ∀ item ∈ after.active, item.DependsOnOthers :=
  forall_of_serves (fun _ _ _ _ _ hdoes => hdoes.dependsOnOthers)
    (fun t _ draft id => (Item.refersToOthers_draft draft id t.now).dependencies) hturns hstore h

/-- A run makes no active item refer to itself as long as no update pads the ID of its item. -/
theorem refersToOthers_of_serves (hturns : Serves settings c turns c')
    (hstore : Script.World.Takes Contents.Answers start (talk turns) after)
    (hpads : ∀ t ∈ turns, ∀ id updates, t.command = .update id updates →
      ∀ u ∈ updates, u.pads id = false)
    (h : ∀ item ∈ start.active, item.RefersToOthers) : ∀ item ∈ after.active, item.RefersToOthers :=
  forall_of_serves (fun t ht _ _ _ hdoes hitem => hdoes.refersToOthers hitem (hpads t ht))
    (fun t _ draft id => Item.refersToOthers_draft draft id t.now) hturns hstore h

end Coordinator

/-! ## Items and merges -/

/-- The deeds of updates. -/
def Deed.ofUpdates (updates : List (Stamp × Update)) : List Deed :=
  updates.map fun u => .update u.1 u.2

/-- The new item that a draft describes after updates, accepted or refused, in turn. -/
def Draft.updated (draft : Draft) (id : String) (created : Stamp) (updates : List (Stamp × Update)) :
    Item :=
  (draft.item id created).after (Deed.ofUpdates updates)

namespace Item

variable {item : Item}

theorem id_after (item : Item) (deeds : List Deed) : (item.after deeds).id = item.id :=
  after_keeps (I := fun i => i.id = item.id)
    (fun i deed hi => (id_eq_of_identity (deed.identity_on i)).trans hi) rfl deeds

theorem dependsOnOthers_ofUpdates (h : item.DependsOnOthers) (updates : List (Stamp × Update)) :
    (item.after (Deed.ofUpdates updates)).DependsOnOthers := by
  refine after_keeps_of_mem (I := DependsOnOthers) (fun i deed hdeed hi => ?_) h
  obtain ⟨u, -, rfl⟩ := List.mem_map.mp hdeed
  exact dependsOnOthers_applyUpdate hi u.1 u.2

theorem refersToOthers_ofUpdates (h : item.RefersToOthers) {updates : List (Stamp × Update)}
    (hpads : ∀ u ∈ updates, u.2.pads item.id = false) :
    (item.after (Deed.ofUpdates updates)).RefersToOthers := by
  -- the ID stays, so what is known of the updates is known with the item at hand
  refine (after_keeps_of_mem (I := fun i => i.id = item.id ∧ i.RefersToOthers) ?_ ⟨rfl, h⟩).2
  rintro i deed hdeed ⟨hid, hi⟩
  obtain ⟨u, hu, rfl⟩ := List.mem_map.mp hdeed
  exact ⟨(id_eq_of_identity (Deed.identity_on _ i)).trans hid,
    refersToOthers_applyUpdate hi u.1 (hid ▸ hpads u hu)⟩

end Item

namespace Draft

variable {draft : Draft} {id : String} {created : Stamp}

theorem id_updated (draft : Draft) (id : String) (created : Stamp) (updates : List (Stamp × Update)) :
    (draft.updated id created updates).id = id :=
  (Item.id_after (draft.item id created) (Deed.ofUpdates updates)).trans (draft.id_item id created)

theorem dependsOnOthers_updated (draft : Draft) (id : String) (created : Stamp)
    (updates : List (Stamp × Update)) : (draft.updated id created updates).DependsOnOthers :=
  Item.dependsOnOthers_ofUpdates (Item.refersToOthers_draft draft id created).dependencies updates

theorem refersToOthers_updated (draft : Draft) (created : Stamp) {updates : List (Stamp × Update)}
    (hpads : ∀ u ∈ updates, u.2.pads id = false) : (draft.updated id created updates).RefersToOthers :=
  Item.refersToOthers_ofUpdates (Item.refersToOthers_draft draft id created) fun u hu =>
    (draft.id_item id created).symm ▸ hpads u hu

theorem updated_concat (draft : Draft) (id : String) (created : Stamp) (past : List (Stamp × Update))
    (u : Stamp × Update) : draft.updated id created (past ++ [u])
      = ((draft.updated id created past).applyUpdate u.1 u.2).2 := by
  simp only [updated, Deed.ofUpdates, Item.after, List.map_append, List.foldl_append]
  rfl

/-- Whether a new item asks to be merged into itself at some time, by the updates it is given. -/
theorem mergeInto_updated_iff (updates : List (Stamp × Update)) :
    (∀ past, past <+: updates → (draft.updated id created past).mergeInto ≠ some id) ↔
      ∀ u ∈ updates, u.2.pads id = false := by
  refine ⟨fun hothers u hu => ?_, fun hpads past hpast => ?_⟩
  · cases hpads : u.2.pads id with
    | false => rfl
    | true =>
      -- right after this update the item asks for it
      obtain ⟨past, rest, rfl⟩ := List.append_of_mem hu
      have hid := id_updated draft id created past
      obtain ⟨after, hstep, hself⟩ := Item.applyUpdate_of_pads u.1 (hid.symm ▸ hpads)
      refine absurd ?_ (hothers (past ++ [u]) ⟨rest, List.append_assoc past [u] rest⟩)
      rw [updated_concat, hstep, hself, hid]
  · have hrefers := refersToOthers_updated draft created fun u hu => hpads u (hpast.subset hu)
    have hother := hrefers.mergeInto
    rwa [id_updated] at hother

end Draft

/-- A new item that is given updates in turn, whatever of them is accepted, does not depend on itself,
    and it asks to be merged into itself at some time exactly if one of them pads its ID. A merge of
    items that do neither leaves such items. A run makes no active item depend on itself, and as long
    as no update pads the ID of its item, it makes none ask for that either. -/
theorem refers_to_others (draft : Draft) (id : String) (created now : Stamp)
    (updates : List (Stamp × Update)) (items : List Item) (source target : String) :
    (draft.updated id created updates).id = id ∧
    id ∉ (draft.updated id created updates).dependencies ∧
    ((∀ past, past <+: updates → (draft.updated id created past).mergeInto ≠ some id) ↔
      ∀ u ∈ updates, u.2.pads id = false) ∧
    (∀ retired after, foldInto now items source target = .ok (retired, after) →
      (∀ item ∈ items, item.RefersToOthers) → ∀ item ∈ retired :: after, item.RefersToOthers) ∧
    ∀ (settings : Coordinator.Settings) (c c' : Coordinator) (turns : List Coordinator.Turn)
        (start after : Contents), Coordinator.Serves settings c turns c' →
      Script.World.Takes Contents.Answers start (Coordinator.talk turns) after →
      ((∀ item ∈ start.active, item.DependsOnOthers) → ∀ item ∈ after.active, item.DependsOnOthers) ∧
      ((∀ t ∈ turns, ∀ id updates, t.command = .update id updates →
          ∀ u ∈ updates, u.pads id = false) →
        (∀ item ∈ start.active, item.RefersToOthers) → ∀ item ∈ after.active, item.RefersToOthers) := by
  refine ⟨draft.id_updated id created updates, ?_, Draft.mergeInto_updated_iff updates,
    fun _ _ => refersToOthers_foldInto, fun _ _ _ _ _ _ hturns hstore =>
      ⟨Coordinator.dependsOnOthers_of_serves hturns hstore,
        Coordinator.refersToOthers_of_serves hturns hstore⟩⟩
  have hothers := draft.dependsOnOthers_updated id created updates
  rwa [Item.DependsOnOthers, Draft.id_updated] at hothers

/-- A new item is given itself as a dependency, and then as the item to merge it into; that is left out
    of the first update, and the second one is refused. -/
def selfishUpdates : List (Stamp × Update) :=
  [(⟨1, 0⟩, .setDependencies ["WRK-1", "WRK-2"]), (⟨2, 0⟩, .setMergeInto (some "WRK-1")),
    (⟨3, 0⟩, .setMergeInto (some " WRK-2"))]

/-- Two new items. -/
def freshPair : List Item := [Draft.sample, Draft.item { title := "Add paging" } "WRK-2" ⟨0, 0⟩]

/-- Of two items each is made to depend on the other and the first also on itself; it asks to be merged
    into the other one, but that is merged into it. -/
def entangled : List (Stamp × Command) :=
  [(⟨1, 0⟩, .ingest [{ title := "Add paging", dependencies := ["WRK-1"] }]),
    (⟨2, 0⟩, .update "WRK-1" [.setDependencies ["WRK-1", "WRK-2"], .setMergeInto (some " WRK-2")]),
    (⟨3, 0⟩, .merge "WRK-2" "WRK-1")]

theorem pads_entangled : ∀ t ∈ Coordinator.rehearsedTurns {} {} .fresh entangled,
    ∀ id updates, t.command = .update id updates → ∀ u ∈ updates, u.pads id = false := by
  intro t ht id updates hcommand
  simp only [entangled, Coordinator.rehearsedTurns, List.mem_cons, List.not_mem_nil, or_false] at ht
  rcases ht with rfl | rfl | rfl
  · cases hcommand
  · cases hcommand
    decide +kernel
  · cases hcommand

theorem refers_to_others_selfish :
    (Draft.updated { title := "Add caching" } "WRK-1" ⟨0, 0⟩ selfishUpdates).dependencies = ["WRK-2"] ∧
    (∀ past, past <+: selfishUpdates →
      (Draft.updated { title := "Add caching" } "WRK-1" ⟨0, 0⟩ past).mergeInto ≠ some "WRK-1") ∧
    (∃ retired after, foldInto ⟨4, 0⟩ freshPair "WRK-2" "WRK-1" = .ok (retired, after) ∧
      ∀ item ∈ retired :: after, item.RefersToOthers) ∧
    (Coordinator.rehearsedAfter {} {} .fresh entangled).2.contents.active.map
      (fun item => (item.id, item.dependencies, item.mergeInto)) = [("WRK-1", [], some "WRK-2")] ∧
    ∀ item ∈ (Coordinator.rehearsedAfter {} {} .fresh entangled).2.contents.active,
      item.RefersToOthers := by
  obtain ⟨-, -, hmerge, hfolded, hruns⟩ := refers_to_others { title := "Add caching" } "WRK-1" ⟨0, 0⟩
    ⟨4, 0⟩ selfishUpdates freshPair "WRK-2" "WRK-1"
  refine ⟨by decide +kernel, hmerge.mpr (by decide +kernel), ?_, by decide +kernel, ?_⟩
  · have haccepted : (foldInto ⟨4, 0⟩ freshPair "WRK-2" "WRK-1").isOk = true := by decide +kernel
    cases hfold : foldInto ⟨4, 0⟩ freshPair "WRK-2" "WRK-1" with
    | error e =>
      rw [hfold] at haccepted
      cases haccepted
    | ok merged =>
      refine ⟨merged.1, merged.2, rfl, hfolded _ _ hfold ?_⟩
      refine List.forall_mem_cons.mpr ⟨Item.refersToOthers_draft .., ?_⟩
      exact List.forall_mem_cons.mpr
        ⟨Item.refersToOthers_draft .., fun _ h => absurd h List.not_mem_nil⟩
  · refine (hruns {} _ _ _ _ _ (Coordinator.serves_rehearsedTurns {} {} .fresh entangled)
      (Coordinator.takes_rehearsedTurns {} {} .fresh entangled)).2 pads_entangled ?_
    intro item hitem
    rw [List.mem_singleton.mp hitem]
    exact Item.refersToOthers_draft ..

/-- To merge the first item of a store into itself is refused, but accepted with a blank before its ID;
    and then the item asks for it. -/
theorem self_merge_may_slip_in :
    (Draft.sample.applyUpdate ⟨1, 0⟩ (.setMergeInto (some "WRK-1"))).1.toOption = none ∧
    (Draft.sample.applyUpdate ⟨1, 0⟩ (.setMergeInto (some " WRK-1"))).1.toOption = some () ∧
    ¬ ∀ (stem : String) (known : List String) (source next : IdSource) (id : String) (draft : Draft)
        (created : Stamp) (updates : List (Stamp × Update)),
      IdSource.make stem known = .ok source → source.fresh = (.ok id, next) →
      (draft.updated id created updates).mergeInto ≠ some id := by
  refine ⟨by decide +kernel, by decide +kernel, fun hall => ?_⟩
  refine hall "WRK" [] ⟨"WRK", [], 1⟩ ⟨"WRK", ["WRK-1"], 2⟩ "WRK-1" { title := "Add caching" } ⟨0, 0⟩
    [(⟨1, 0⟩, .setMergeInto (some " WRK-1"))] (by rfl) (by rfl) ?_
  decide +kernel

end Backlog
