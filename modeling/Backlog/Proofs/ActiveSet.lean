/-
  Where the items of an active set go.

  A change to the active set loses no ID: one item is changed in its place, one is handed over to
  be archived and the rest stays, or new items come after the old ones.  `ids` is the view in which
  this is said; a list that hands an item over is a permutation of the list before it.  `findItem` is
  the view of one item, and `forall_changeItem` and its like are for what holds of all of them.

  Which item a change is about, and what stays around it, is said once (`changeItem_inv`,
  `retireItem_inv`, `foldInto_inv`); the rest follows from that.
-/
import Backlog.Coordinator.ActiveSet
import Backlog.Proofs.Item.Identity

namespace Backlog

/-- The IDs of items. -/
def ids (items : List Item) : List String := items.map Item.id

@[simp] theorem ids_cons (item : Item) (items : List Item) :
    ids (item :: items) = item.id :: ids items := rfl

@[simp] theorem ids_append (xs ys : List Item) : ids (xs ++ ys) = ids xs ++ ids ys :=
  List.map_append

/-! ## One item in its place -/

/-- A change after which an item still is the item it was. -/
def Change.KeepsIdentity {α : Type} (change : Change α) : Prop :=
  ∀ item, (change item).2.identity = item.identity

/-- The item that is changed is the first one with the ID; the others stay around it. -/
theorem changeItem_inv {α : Type} {id : String} {change : Change α} {items after : List Item} {a : α}
    (h : changeItem id change items = .ok (a, after)) :
    ∃ before item changed behind, items = before ++ item :: behind ∧
      after = before ++ changed :: behind ∧ (∀ i ∈ before, i.id ≠ id) ∧ item.id = id ∧
      change item = (.ok a, changed) := by
  induction items generalizing after with
  | nil => cases h
  | cons first items ih =>
    simp only [changeItem] at h
    split at h
    · -- the item itself
      next hid =>
      split at h
      · next changed hstep =>
        cases h
        exact ⟨[], first, changed, items, rfl, rfl, by simp, hid, hstep⟩
      · cases h
    · -- an item before it
      next hid =>
      cases hrest : changeItem id change items with
      | error e =>
        rw [hrest] at h
        cases h
      | ok r =>
        rw [hrest] at h
        cases h
        obtain ⟨before, item, changed, behind, rfl, hafter, hbefore, hitem⟩ := ih hrest
        refine ⟨first :: before, item, changed, behind, rfl, ?_, ?_, hitem⟩
        · exact congrArg (first :: ·) hafter
        · exact List.forall_mem_cons.mpr ⟨hid, hbefore⟩

theorem ids_changeItem {α : Type} {id : String} {change : Change α} (hchange : change.KeepsIdentity)
    {items after : List Item} {a : α} (h : changeItem id change items = .ok (a, after)) :
    ids after = ids items := by
  obtain ⟨before, item, changed, behind, rfl, rfl, -, -, hstep⟩ := changeItem_inv h
  have hid := Item.id_eq_of_identity (hchange item)
  rw [hstep] at hid
  rw [ids_append, ids_append, ids_cons, ids_cons, hid]

/-- A change that is refused is no reason to stop or to try again. -/
theorem category_changeItem {α : Type} {id : String} {change : Change α} {items : List Item}
    {e : CommandError} (h : changeItem id change items = .error e) : e.category = .skip := by
  induction items with
  | nil =>
    cases h
    rfl
  | cons item items ih =>
    simp only [changeItem] at h
    split at h
    · split at h
      · cases h
      · cases h
        rfl
    · cases hrest : changeItem id change items with
      | error e' =>
        rw [hrest] at h
        cases h
        exact ih hrest
      | ok r =>
        rw [hrest] at h
        cases h

/-! ## One item handed over -/

/-- The item that is handed over is the first one with the ID, and it is done. -/
theorem retireItem_inv {id : String} {items after : List Item} {retired : Item}
    (h : retireItem id items = .ok (retired, after)) :
    ∃ before behind, items = before ++ retired :: behind ∧ after = before ++ behind ∧
      retired.id = id ∧ retired.status = .done := by
  induction items generalizing after with
  | nil => cases h
  | cons first items ih =>
    simp only [retireItem] at h
    split at h
    · next hid =>
      split at h
      · next hdone =>
        cases h
        exact ⟨[], items, rfl, rfl, hid, hdone⟩
      · cases h
    · cases hrest : retireItem id items with
      | error e =>
        rw [hrest] at h
        cases h
      | ok r =>
        rw [hrest] at h
        cases h
        obtain ⟨before, behind, rfl, hafter, hretired⟩ := ih hrest
        exact ⟨first :: before, behind, rfl, congrArg (first :: ·) hafter, hretired⟩

theorem perm_retireItem {id : String} {items after : List Item} {retired : Item}
    (h : retireItem id items = .ok (retired, after)) : (retired :: after).Perm items := by
  obtain ⟨before, behind, rfl, rfl, -⟩ := retireItem_inv h
  exact List.perm_middle.symm

theorem category_retireItem {id : String} {items : List Item} {e : CommandError}
    (h : retireItem id items = .error e) : e.category = .skip := by
  induction items with
  | nil =>
    cases h
    rfl
  | cons item items ih =>
    simp only [retireItem] at h
    split at h
    · split at h
      · cases h
      · cases h
        rfl
    · cases hrest : retireItem id items with
      | error e' =>
        rw [hrest] at h
        cases h
        exact ih hrest
      | ok r =>
        rw [hrest] at h
        cases h

theorem ids_changeFirst {id : String} {change : Item → Item}
    (hchange : ∀ item, (change item).identity = item.identity) (items : List Item) :
    ids (changeFirst id change items) = ids items := by
  induction items with
  | nil => rfl
  | cons item items ih =>
    simp only [changeFirst]
    split
    · rw [ids_cons, ids_cons, Item.id_eq_of_identity (hchange item)]
    · rw [ids_cons, ids_cons, ih]

theorem perm_of_find? {p : Item → Bool} {items : List Item} {found : Item}
    (h : items.find? p = some found) : (found :: items.eraseP p).Perm items := by
  induction items with
  | nil => cases h
  | cons item items ih =>
    cases hp : p item with
    | true =>
      rw [List.find?_cons_of_pos hp] at h
      cases h
      rw [List.eraseP_cons_of_pos hp]
    | false =>
      rw [List.find?_cons_of_neg (by simp [hp])] at h
      rw [List.eraseP_cons_of_neg (by simp [hp])]
      exact (List.Perm.swap item found _).trans ((ih h).cons item)

/-- What a merge makes of the items: the source goes, the target takes it in, and whoever depended on
    the source depends on the target. -/
theorem foldInto_inv {now : Stamp} {items after : List Item} {source target : String}
    {retired : Item} (h : foldInto now items source target = .ok (retired, after)) :
    ∃ leaving, items.find? (fun i => i.id == source) = some leaving ∧
      retired = leaving.setMergeInto now none ∧
      after = (changeFirst target (Item.absorb now leaving)
        (items.eraseP fun i => i.id == source)).map (Item.retarget now source target) := by
  simp only [foldInto] at h
  split at h
  · cases h
  · split at h
    · cases h
    · next leaving hfound =>
      split at h
      · cases h
      · split at h
        · cases h
        · cases h
          exact ⟨leaving, hfound, rfl, rfl⟩

theorem ids_map {change : Item → Item} (hchange : ∀ item, (change item).identity = item.identity)
    (items : List Item) : ids (items.map change) = ids items := by
  rw [ids, List.map_map]
  exact List.map_congr_left fun item _ => Item.id_eq_of_identity (hchange item)

theorem perm_ids_foldInto {now : Stamp} {items after : List Item} {source target : String}
    {retired : Item} (h : foldInto now items source target = .ok (retired, after)) :
    (ids (retired :: after)).Perm (ids items) := by
  obtain ⟨leaving, hfound, rfl, rfl⟩ := foldInto_inv h
  have hid : (leaving.setMergeInto now none).id = leaving.id :=
    Item.id_eq_of_identity (Item.identity_setText ..)
  rw [ids_cons, hid, ids_map (Item.identity_retarget now source target),
    ids_changeFirst (fun item => Item.identity_absorb now leaving item)]
  exact (perm_of_find? hfound).map Item.id

theorem category_foldInto {now : Stamp} {items : List Item} {source target : String}
    {e : CommandError} (h : foldInto now items source target = .error e) : e.category = .skip := by
  simp only [foldInto] at h
  split at h
  · cases h
    rfl
  · split at h
    · cases h
      rfl
    · split at h
      · cases h
        rfl
      · split at h
        · cases h
          rfl
        · cases h

/-! ## Finding an item again -/

/-- The first item with an ID. -/
def findItem (id : String) (items : List Item) : Option Item := items.find? fun i => i.id == id

theorem id_of_findItem {id : String} {items : List Item} {item : Item}
    (h : findItem id items = some item) : item.id = id := by
  rw [findItem] at h
  have hid := List.find?_some h
  exact beq_iff_eq.mp hid

theorem findItem_cons_of_eq {id : String} {item : Item} (items : List Item) (h : item.id = id) :
    findItem id (item :: items) = some item := by
  subst h
  exact List.find?_cons_of_pos (beq_self_eq_true item.id)

theorem findItem_cons_of_ne {id : String} {item : Item} (items : List Item) (h : item.id ≠ id) :
    findItem id (item :: items) = findItem id items :=
  List.find?_cons_of_neg fun hid => h (beq_iff_eq.mp hid)

theorem findItem_cons (id : String) (item : Item) (items : List Item) :
    findItem id (item :: items) = if item.id = id then some item else findItem id items := by
  split
  · next hid => exact findItem_cons_of_eq items hid
  · next hid => exact findItem_cons_of_ne items hid

theorem findItem_append (id : String) (xs ys : List Item) :
    findItem id (xs ++ ys) = (findItem id xs).or (findItem id ys) :=
  List.find?_append

theorem findItem_eq_none {id : String} {items : List Item} (h : ∀ item ∈ items, item.id ≠ id) :
    findItem id items = none := by
  rw [findItem, List.find?_eq_none]
  exact fun item hitem hid => h item hitem (beq_iff_eq.mp hid)

/-- An item is found by its ID if no other item has it. -/
theorem findItem_of_count {id : String} {items : List Item} {item : Item}
    (hunique : (ids items).count id ≤ 1) (hitem : item ∈ items) (hid : item.id = id) :
    findItem id items = some item := by
  induction items with
  | nil => cases hitem
  | cons first rest ih =>
    rw [ids_cons, List.count_cons] at hunique
    rcases List.mem_cons.mp hitem with rfl | hitem
    · exact findItem_cons_of_eq rest hid
    · have hpos : 0 < (ids rest).count id :=
        List.count_pos_iff.mpr (hid ▸ List.mem_map_of_mem hitem)
      have hne : first.id ≠ id := by
        intro heq
        rw [if_pos (beq_iff_eq.mpr heq)] at hunique
        omega
      rw [findItem_cons_of_ne rest hne]
      exact ih (Nat.le_of_add_right_le hunique) hitem

theorem findItem_of_mem {items : List Item} {item : Item} (hdistinct : (ids items).Nodup)
    (hitem : item ∈ items) : findItem item.id items = some item :=
  findItem_of_count (List.nodup_iff_count.mp hdistinct item.id) hitem rfl

theorem eq_of_id_eq {items : List Item} {x y : Item} (hdistinct : (ids items).Nodup)
    (hx : x ∈ items) (hy : y ∈ items) (hid : x.id = y.id) : x = y := by
  have hfound := findItem_of_mem hdistinct hx
  rw [hid, findItem_of_mem hdistinct hy] at hfound
  exact (Option.some.inj hfound).symm

/-- Where IDs are distinct, an item is found wherever it is stored. -/
theorem findItem_of_perm {items others : List Item} (hperm : items.Perm others)
    (hdistinct : (ids items).Nodup) (id : String) : findItem id items = findItem id others := by
  cases hfound : findItem id items with
  | some found =>
    obtain rfl := id_of_findItem hfound
    have hdistinct' : (ids others).Nodup := (hperm.map Item.id).nodup_iff.mp hdistinct
    have hmem : found ∈ others := hperm.mem_iff.mp (List.mem_of_find?_eq_some hfound)
    exact (findItem_of_mem hdistinct' hmem).symm
  | none =>
    have hnone := List.find?_eq_none.mp hfound
    refine (findItem_eq_none fun i hi heq => ?_).symm
    exact hnone i (hperm.mem_iff.mpr hi) (beq_iff_eq.mpr heq)

/-- The item that is changed is the one that is found, and so it is afterwards. -/
theorem findItem_changeItem {α : Type} {id : String} {change : Change α}
    (hchange : change.KeepsIdentity) {items after : List Item} {a : α}
    (h : changeItem id change items = .ok (a, after)) :
    ∃ item changed, findItem id items = some item ∧ change item = (.ok a, changed) ∧
      findItem id after = some changed := by
  obtain ⟨before, item, changed, behind, rfl, rfl, hbefore, hid, hstep⟩ := changeItem_inv h
  have hsame := Item.id_eq_of_identity (hchange item)
  rw [hstep] at hsame
  refine ⟨item, changed, ?_, hstep, ?_⟩
  · rw [findItem_append, findItem_eq_none hbefore, findItem_cons_of_eq behind hid, Option.none_or]
  · rw [findItem_append, findItem_eq_none hbefore, findItem_cons_of_eq behind (hsame.trans hid),
      Option.none_or]

/-- Other items are found as they were. -/
theorem findItem_changeItem_of_ne {α : Type} {id other : String} {change : Change α}
    (hchange : change.KeepsIdentity) (hne : other ≠ id) {items after : List Item} {a : α}
    (h : changeItem other change items = .ok (a, after)) : findItem id after = findItem id items := by
  obtain ⟨before, item, changed, behind, rfl, rfl, -, rfl, hstep⟩ := changeItem_inv h
  have hsame := Item.id_eq_of_identity (hchange item)
  rw [hstep] at hsame
  rw [findItem_append, findItem_append, findItem_cons_of_ne behind hne,
    findItem_cons_of_ne behind (hsame ▸ hne)]

/-- A change of the first item with the ID is made if it is accepted. -/
theorem changeItem_of_findItem {α : Type} {id : String} {change : Change α} {items : List Item}
    {item changed : Item} {a : α} (hfound : findItem id items = some item)
    (hstep : change item = (.ok a, changed)) :
    ∃ after, changeItem id change items = .ok (a, after) := by
  induction items with
  | nil => cases hfound
  | cons first items ih =>
    by_cases hid : first.id = id
    · rw [findItem_cons_of_eq items hid] at hfound
      cases hfound
      exact ⟨changed :: items, by simp only [changeItem, if_pos hid, hstep]⟩
    · rw [findItem_cons_of_ne items hid] at hfound
      obtain ⟨after, hafter⟩ := ih hfound
      exact ⟨first :: after, by rw [changeItem, if_neg hid, hafter]; rfl⟩

/-- An item that is handed over leaves the others where they are. -/
theorem findItem_retireItem_of_ne {id other : String} (hne : other ≠ id) {items after : List Item}
    {retired : Item} (h : retireItem other items = .ok (retired, after)) :
    findItem id after = findItem id items := by
  obtain ⟨before, behind, rfl, rfl, rfl, -⟩ := retireItem_inv h
  rw [findItem_append, findItem_append, findItem_cons_of_ne behind hne]

theorem findItem_eraseP_of_ne {id other : String} (hne : other ≠ id) (items : List Item) :
    findItem id (items.eraseP fun i => i.id == other) = findItem id items := by
  induction items with
  | nil => rfl
  | cons item items ih =>
    by_cases hid : item.id = other
    · have hfirst : (item :: items).eraseP (fun i => i.id == other) = items := by simp [hid]
      rw [hfirst, findItem_cons_of_ne items fun h => hne (hid.symm.trans h)]
    · have hlater : (item :: items).eraseP (fun i => i.id == other)
          = item :: items.eraseP fun i => i.id == other := by simp [hid]
      rw [hlater, findItem_cons, findItem_cons, ih]

theorem findItem_map {id : String} {change : Item → Item}
    (hchange : ∀ item, (change item).identity = item.identity) (items : List Item) :
    findItem id (items.map change) = (findItem id items).map change := by
  induction items with
  | nil => rfl
  | cons item items ih =>
    rw [List.map_cons, findItem_cons, findItem_cons, Item.id_eq_of_identity (hchange item), ih]
    split <;> rfl

/-- Changing the first item with some ID changes at most the item that is found. -/
theorem findItem_changeFirst {id other : String} {change : Item → Item}
    (hchange : ∀ item, (change item).identity = item.identity) (items : List Item) :
    findItem id (changeFirst other change items)
      = (findItem id items).map fun item => if other = id then change item else item := by
  induction items with
  | nil => rfl
  | cons item items ih =>
    have hsame := Item.id_eq_of_identity (hchange item)
    simp only [changeFirst]
    split
    · -- the first item with the other ID
      next hother =>
      rw [findItem_cons, findItem_cons, hsame, hother]
      split
      · rfl
      · exact Option.map_id'.symm
    · next hother =>
      rw [findItem_cons, findItem_cons, ih]
      split
      · next hid =>
        have hne : ¬ other = id := fun h => hother (hid.trans h.symm)
        rw [Option.map_some, if_neg hne]
      · rfl

/-- What a merge makes of the item that is found, unless it is the source. -/
theorem findItem_foldInto {now : Stamp} {id source target : String} {items after : List Item}
    {item retired : Item} (hne : source ≠ id) (hfound : findItem id items = some item)
    (h : foldInto now items source target = .ok (retired, after)) :
    ∃ leaving, findItem id after = some (Item.merged now source target leaving item) := by
  obtain ⟨leaving, -, -, rfl⟩ := foldInto_inv h
  have hid : item.id = id := id_of_findItem hfound
  refine ⟨leaving, ?_⟩
  rw [findItem_map (Item.identity_retarget now source target),
    findItem_changeFirst (fun i => Item.identity_absorb now leaving i),
    findItem_eraseP_of_ne hne, hfound, Option.map_some, Option.map_some, Item.merged, hid]
  by_cases htarget : target = id
  · have hsame : (Item.absorb now leaving item).id = target := by
      rw [Item.id_eq_of_identity (Item.identity_absorb now leaving item), hid, htarget]
    rw [if_pos htarget, if_pos htarget.symm, Item.retarget, if_pos hsame]
  · rw [if_neg htarget, if_neg (Ne.symm htarget), Item.retarget, hid, if_neg (Ne.symm htarget)]

/-! ## What holds of every item -/

section

variable {p : Item → Prop} {items after : List Item}

/-- What the change keeps of the item that it is made on, holds of every item afterwards. -/
theorem forall_changeItem {α : Type} {id : String} {change : Change α} {a : α}
    (hchange : ∀ item changed, item.id = id → change item = (.ok a, changed) → p item → p changed)
    (h : changeItem id change items = .ok (a, after)) (hitems : ∀ item ∈ items, p item) :
    ∀ item ∈ after, p item := by
  obtain ⟨before, item, changed, behind, rfl, rfl, -, hid, hstep⟩ := changeItem_inv h
  obtain ⟨hbefore, hrest⟩ := List.forall_mem_append.mp hitems
  obtain ⟨hitem, hbehind⟩ := List.forall_mem_cons.mp hrest
  have hchanged : p changed := hchange item changed hid hstep hitem
  exact List.forall_mem_append.mpr ⟨hbefore, List.forall_mem_cons.mpr ⟨hchanged, hbehind⟩⟩

theorem forall_retireItem {id : String} {retired : Item}
    (h : retireItem id items = .ok (retired, after)) (hitems : ∀ item ∈ items, p item) :
    ∀ item ∈ after, p item :=
  fun item hitem => hitems item ((perm_retireItem h).subset (List.mem_cons_of_mem _ hitem))

theorem forall_changeFirst (id : String) {change : Item → Item}
    (hchange : ∀ item, p item → p (change item)) (hitems : ∀ item ∈ items, p item) :
    ∀ item ∈ changeFirst id change items, p item := by
  induction items with
  | nil => exact hitems
  | cons item items ih =>
    obtain ⟨hfirst, hothers⟩ := List.forall_mem_cons.mp hitems
    simp only [changeFirst]
    split
    · exact List.forall_mem_cons.mpr ⟨hchange item hfirst, hothers⟩
    · exact List.forall_mem_cons.mpr ⟨hfirst, ih hothers⟩

theorem forall_foldInto {now : Stamp} {source target : String} {retired : Item}
    (habsorb : ∀ leaving item, p item → p (Item.absorb now leaving item))
    (hretarget : ∀ item, p item → p (item.retarget now source target))
    (h : foldInto now items source target = .ok (retired, after)) (hitems : ∀ item ∈ items, p item) :
    ∀ item ∈ after, p item := by
  obtain ⟨leaving, -, -, rfl⟩ := foldInto_inv h
  have hothers : ∀ item ∈ items.eraseP fun i => i.id == source, p item :=
    fun item hitem => hitems item (List.mem_of_mem_eraseP hitem)
  have hmerged := forall_changeFirst target (habsorb leaving) hothers
  exact List.forall_mem_map.mpr fun item hitem => hretarget item (hmerged item hitem)

/-- Items that are created are those that drafts describe. -/
theorem forall_draftItems {now : Stamp} {source : IdSource} {drafts : List Draft} {created : List Item}
    (hdraft : ∀ (draft : Draft) id, p (draft.item id now))
    (h : draftItems now source drafts = .ok created) : ∀ item ∈ created, p item := by
  induction drafts generalizing source created with
  | nil =>
    cases h
    exact fun _ hitem => absurd hitem List.not_mem_nil
  | cons draft drafts ih =>
    simp only [draftItems] at h
    split at h
    · cases h
    · next id source' _ =>
      cases hrest : draftItems now source' drafts with
      | error e =>
        rw [hrest] at h
        cases h
      | ok others =>
        rw [hrest] at h
        cases h
        exact List.forall_mem_cons.mpr ⟨hdraft draft id, ih hrest⟩

theorem forall_createItems {now : Stamp} {stem : String} {archived : List String}
    {drafts : List Draft} {created : List Item}
    (hdraft : ∀ (draft : Draft) id, p (draft.item id now))
    (h : createItems now stem items archived drafts = .ok created) : ∀ item ∈ created, p item := by
  simp only [createItems] at h
  split at h
  · cases h
  · next source _ =>
    cases hdrafts : draftItems now source drafts with
    | error e =>
      rw [hdrafts] at h
      cases h
    | ok items =>
      rw [hdrafts] at h
      cases h
      exact forall_draftItems hdraft hdrafts

end

end Backlog
