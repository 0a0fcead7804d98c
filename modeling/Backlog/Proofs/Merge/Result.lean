/-
  What a merge makes of the items.

  Program: `foldInto` takes the source out of the list, has the target absorb it, and redirects whoever
  depended on the source.

  Specification: the list is the old one without the source (`IsMerge`).  The target has the
  dependencies and tags of both, each new one once, the higher priority and both descriptions
  (`TakesIn`); whoever depended on the source depends on the target, as often as before or else once,
  and no one else is touched (`Redirects`); the source is handed over without its merge signal
  (`Retires`).  A merge that fails leaves the active items alone.

  Where IDs are distinct, the three rewrites of the program are one map over the items that stay
  (`mergedItems`), with the search for cycles as the only other thing that a merge does (`foldInto_eq`).
  Everything else is a fact about that map.
-/
import Backlog.Proofs.Batch
import Backlog.Proofs.Coordinator.Applied
import Backlog.Proofs.Coordinator.Rehearsed
import Backlog.Proofs.Item.Course
import Backlog.Proofs.Item.Entries

namespace Backlog

variable {now : Stamp} {items after : List Item} {source target : String} {leaving retired item : Item}

/-! ## A merge as one map -/

/-- The items that stay when one of them is merged into another. -/
def mergedItems (now : Stamp) (items : List Item) (source target : String) (leaving : Item) :
    List Item :=
  (items.filter fun i => i.id ≠ source).map (Item.merged now source target leaving)

theorem Item.id_merged (now : Stamp) (source target : String) (leaving item : Item) :
    (Item.merged now source target leaving item).id = item.id := by
  unfold Item.merged
  split
  · exact Item.id_eq_of_identity (Item.identity_absorb now leaving item)
  · exact Item.id_eq_of_identity (Item.identity_redirect now source target item)

theorem ids_mergedItems (now : Stamp) (items : List Item) (source target : String) (leaving : Item) :
    ids (mergedItems now items source target leaving) = (ids items).filter (· ≠ source) := by
  have hids : ids (mergedItems now items source target leaving)
      = (items.filter fun i => i.id ≠ source).map Item.id := by
    rw [mergedItems, ids, List.map_map]
    exact List.map_congr_left fun i _ => Item.id_merged now source target leaving i
  rw [hids, ids, List.filter_map]
  rfl

theorem nodup_ids_mergedItems (hdistinct : (ids items).Nodup) :
    (ids (mergedItems now items source target leaving)).Nodup := by
  rw [ids_mergedItems]
  exact hdistinct.sublist List.filter_sublist

theorem mem_mergedItems {i : Item} : i ∈ mergedItems now items source target leaving ↔
    ∃ j ∈ items, j.id ≠ source ∧ Item.merged now source target leaving j = i := by
  simp only [mergedItems, List.mem_map, List.mem_filter, decide_eq_true_eq, and_assoc]

/-- Where IDs are distinct, no item but the first one with the source's ID is taken out. -/
theorem eraseP_eq_filter (hdistinct : (ids items).Nodup) (id : String) :
    (items.eraseP fun i => i.id == id) = items.filter fun i => i.id ≠ id := by
  induction items with
  | nil => rfl
  | cons first rest ih =>
    obtain ⟨hnew, hrest⟩ := List.nodup_cons.mp hdistinct
    by_cases hid : first.id = id
    · have hothers : ∀ i ∈ rest, i.id ≠ id := by
        rintro i hi rfl
        exact hnew (hid ▸ List.mem_map_of_mem hi)
      rw [List.eraseP_cons_of_pos (by simp [hid]), List.filter_cons_of_neg (by simp [hid])]
      exact (List.filter_eq_self.mpr fun i hi => decide_eq_true (hothers i hi)).symm
    · rw [List.eraseP_cons_of_neg (by simp [hid]), List.filter_cons_of_pos (by simp [hid]), ih hrest]

/-- Where IDs are distinct, the one item that absorbs the source is not also redirected. -/
theorem map_retarget_changeFirst (hdistinct : (ids items).Nodup) :
    (changeFirst target (Item.absorb now leaving) items).map (Item.retarget now source target)
      = items.map (Item.merged now source target leaving) := by
  induction items with
  | nil => rfl
  | cons first rest ih =>
    obtain ⟨hnew, hrest⟩ := List.nodup_cons.mp hdistinct
    by_cases hid : first.id = target
    · have hsame : (Item.absorb now leaving first).id = target :=
        (Item.id_eq_of_identity (Item.identity_absorb now leaving first)).trans hid
      rw [changeFirst, if_pos hid, List.map_cons, List.map_cons, Item.retarget, if_pos hsame,
        Item.merged, if_pos hid]
      refine congrArg _ (List.map_congr_left fun i hi => ?_)
      have hother : i.id ≠ target := by
        rintro rfl
        exact hnew (hid ▸ List.mem_map_of_mem hi)
      rw [Item.retarget, if_neg hother, Item.merged, if_neg hother]
    · rw [changeFirst, if_neg hid, List.map_cons, List.map_cons, ih hrest, Item.retarget, if_neg hid,
        Item.merged, if_neg hid]

/-- A merge of two different items that are there fails for a cycle, or gives the items merged. -/
theorem foldInto_eq (hdistinct : (ids items).Nodup) (hne : source ≠ target)
    (hleaving : findItem source items = some leaving) (htarget : target ∈ ids items) :
    foldInto now items source target =
      match cycleThrough? (mergedItems now items source target leaving) target with
      | some cycle => .error (.dependencyCycle target cycle)
      | none => .ok (leaving.setMergeInto now none, mergedItems now items source target leaving) := by
  have hany : items.any (fun i => i.id == target) = true := by
    obtain ⟨i, hi, hid⟩ := List.mem_map.mp htarget
    exact List.any_eq_true.mpr ⟨i, hi, beq_iff_eq.mpr hid⟩
  have hfound : items.find? (fun i => i.id == source) = some leaving := hleaving
  have hothers : (ids (items.eraseP fun i => i.id == source)).Nodup := by
    rw [eraseP_eq_filter hdistinct]
    exact hdistinct.sublist (List.filter_sublist.map Item.id)
  have hmerged : ((changeFirst target (Item.absorb now leaving)
      (items.eraseP fun i => i.id == source)).map fun i =>
        if i.id = target then i else i.redirect now source target)
      = mergedItems now items source target leaving := by
    rw [mergedItems, ← eraseP_eq_filter hdistinct]
    exact map_retarget_changeFirst hothers
  cases hsearch : cycleThrough? (mergedItems now items source target leaving) target <;>
    simp only [foldInto, if_neg hne, hfound, hany, Bool.not_true, Bool.false_eq_true, if_false,
      hmerged, hsearch]

/-- A merge that succeeds has merged two different items that are there. -/
theorem foldInto_ok (hdistinct : (ids items).Nodup)
    (h : foldInto now items source target = .ok (retired, after)) :
    source ≠ target ∧ target ∈ ids items ∧ ∃ leaving, findItem source items = some leaving ∧
      retired = leaving.setMergeInto now none ∧
      after = mergedItems now items source target leaving := by
  have hne : source ≠ target := by
    rintro rfl
    simp [foldInto] at h
  obtain ⟨leaving, hfound, hretired, -⟩ := foldInto_inv h
  have htarget : target ∈ ids items := by
    by_cases hthere : target ∈ ids items
    · exact hthere
    · have hany : items.any (fun i => i.id == target) = false :=
        List.any_eq_false.mpr fun i hi hid => hthere (beq_iff_eq.mp hid ▸ List.mem_map_of_mem hi)
      simp [foldInto, hne, hfound, hany] at h
  refine ⟨hne, htarget, leaving, hfound, hretired, ?_⟩
  rw [foldInto_eq hdistinct hne hfound htarget] at h
  split at h
  · cases h
  · cases h
    rfl

/-! ## Lists united -/

/-- Uniting two lists adds what the first lacks of the second, in order and each text once. -/
theorem Item.union_eq (xs ys : List String) :
    Item.union xs ys = xs ++ (ys.filter fun y => y ∉ xs).eraseDups :=
  foldl_adjoin xs ys

/-! ## The target -/

namespace Item

/-- What an item becomes when it takes in another. -/
structure TakesIn (now : Stamp) (source target joined : Item) : Prop where
  dependencies : joined.dependencies = target.dependencies.filter (· ≠ source.id) ++
    (source.dependencies.filter fun d =>
      d ≠ source.id ∧ d ≠ target.id ∧ d ∉ target.dependencies).eraseDups
  tags : joined.tags = target.tags ++ (source.tags.filter (· ∉ target.tags)).eraseDups
  priority : joined.priority = max target.priority source.priority
  /-- Both descriptions are joined part by part, unless that comes to nothing. -/
  described : (target.fullDescription.join source.fullDescription).isEmpty = false →
    joined.structured = some (target.fullDescription.join source.fullDescription) ∧
    joined.description
      = notBlank (some (target.fullDescription.join source.fullDescription).context)
  undescribed : (target.fullDescription.join source.fullDescription).isEmpty = true →
    joined.extensions = target.extensions ∧ joined.description = target.description
  entries : ∀ key, key ≠ Key.description.name → joined.extensions.get? key = target.extensions.get? key
  rest : joined = { target with
    dependencies := joined.dependencies, tags := joined.tags, priority := joined.priority,
    description := joined.description, extensions := joined.extensions, updatedAt := now }

theorem takesIn_absorb (now : Stamp) (source target : Item) :
    TakesIn now source target (absorb now source target) := by
  refine ⟨?_, ?_, ?_, ?_, ?_, ?_, ?_⟩
  · -- what is added is no dependency on the source, so the last filter keeps it
    have hunion : (absorb now source target).dependencies
        = (union target.dependencies (source.dependencies.filter fun d =>
            d ≠ target.id ∧ d ≠ source.id)).filter (· ≠ source.id) := by
      simp only [absorb]
      split <;> rfl
    have hadded : (source.dependencies.filter fun d => d ≠ target.id ∧ d ≠ source.id).filter
          (fun d => d ∉ target.dependencies)
        = source.dependencies.filter fun d =>
            d ≠ source.id ∧ d ≠ target.id ∧ d ∉ target.dependencies := by
      rw [List.filter_filter]
      refine List.filter_congr fun d _ => ?_
      by_cases hs : d = source.id <;> by_cases ht : d = target.id <;> simp [hs, ht]
    rw [hunion, union_eq, hadded, List.filter_append]
    refine congrArg _ (List.filter_eq_self.mpr fun d hd => ?_)
    exact decide_eq_true (of_decide_eq_true (List.mem_filter.mp (List.mem_eraseDups.mp hd)).2).1
  · rw [← union_eq]
    simp only [absorb]
    split <;> rfl
  · simp only [absorb]
    split <;> rfl
  · intro hjoined
    simp only [absorb, hjoined, Bool.false_eq_true, if_false]
    constructor
    · refine structured_of_entry ?_
      rw [extension?_touch]
      exact (extension?_setEntry now ..).trans (if_pos rfl)
    · rw [notBlank, Option.filter_some]
      show (if Text.isBlank _ then none else some _) = _
      split <;> simp_all
  · intro hjoined
    simp only [absorb, hjoined, if_true]
    exact ⟨rfl, rfl⟩
  · intro key hkey
    simp only [absorb]
    split
    · rfl
    · exact (Dict.get?_insert ..).trans (if_neg hkey)
  · simp only [absorb]
    split <;> rfl

/-! ## Everyone else -/

/-- What becomes of an item that is neither the source nor the target. -/
structure Redirects (now : Stamp) (source target : String) (item moved : Item) : Prop where
  untouched : source ∉ item.dependencies → moved = item
  /-- The target takes the place of the source, once where it was no dependency before. -/
  counts : source ∈ item.dependencies → ∀ d, moved.dependencies.count d =
    if d = source then 0
    else if d = target then max 1 (item.dependencies.count target)
    else item.dependencies.count d
  ordered : item.dependencies.filter (· ≠ source) <+: moved.dependencies
  rest : source ∈ item.dependencies →
    moved = { item with dependencies := moved.dependencies, updatedAt := now }

/-- Whoever does not depend on the source is left alone. -/
theorem redirect_of_not_mem (now : Stamp) (target : String) (h : source ∉ item.dependencies) :
    item.redirect now source target = item := by
  have hcontains : item.dependencies.contains source = false := by simpa using h
  simp only [redirect, hcontains, Bool.false_eq_true, if_false]

theorem redirects_redirect (now : Stamp) (hne : source ≠ target) (item : Item) :
    Redirects now source target item (item.redirect now source target) := by
  by_cases hdepends : source ∈ item.dependencies
  · have hcontains : item.dependencies.contains source = true := List.contains_iff_mem.mpr hdepends
    have hredirect : item.redirect now source target = { item with
        dependencies :=
          if target ∈ item.dependencies then item.dependencies.filter (· ≠ source)
          else item.dependencies.filter (· ≠ source) ++ [target]
        updatedAt := now } := by
      have hothers : (item.dependencies.filter (· ≠ source)).contains target
          = decide (target ∈ item.dependencies) := by simp [Ne.symm hne]
      simp only [redirect, hcontains, if_true, hothers, decide_eq_true_eq]
      rfl
    rw [hredirect]
    refine ⟨fun hnot => absurd hdepends hnot, fun _ d => ?_, ?_, fun _ => rfl⟩
    · have hkept : ∀ other, other ≠ source →
          (item.dependencies.filter (· ≠ source)).count other = item.dependencies.count other :=
        fun other hother => List.count_filter (decide_eq_true hother)
      show (if _ then _ else _ : List String).count d = _
      split
      · next htarget =>
        have hpos : 0 < item.dependencies.count target := List.count_pos_iff.mpr htarget
        split
        · next hd => exact List.count_eq_zero.mpr (by simp [hd])
        · next hd =>
          rw [hkept d hd]
          split
          · next ht =>
            rw [ht]
            omega
          · rfl
      · next htarget =>
        have hzero : item.dependencies.count target = 0 := List.count_eq_zero.mpr htarget
        rw [List.count_append]
        split
        · next hd =>
          subst hd
          rw [List.count_eq_zero.mpr (by simp), List.count_eq_zero.mpr (by simp [hne])]
        · next hd =>
          rw [hkept d hd]
          split
          · next ht => rw [ht, hzero, List.count_singleton_self]; rfl
          · next ht => rw [List.count_eq_zero.mpr (by simp [ht] : d ∉ [target]), Nat.add_zero]
    · show _ <+: (if _ then _ else _ : List String)
      split
      · exact List.prefix_refl _
      · exact List.prefix_append _ _
  · have hall : item.dependencies.filter (· ≠ source) = item.dependencies :=
      List.filter_eq_self.mpr fun d hd => decide_eq_true fun heq => hdepends (heq ▸ hd)
    rw [redirect_of_not_mem now target hdepends]
    exact ⟨fun _ => rfl, fun hd => absurd hd hdepends, ⟨[], by rw [List.append_nil, hall]⟩,
      fun hd => absurd hd hdepends⟩

theorem mem_dependencies_absorb {source target : Item} {d : String} :
    d ∈ (absorb now source target).dependencies ↔
      d ≠ source.id ∧ (d ∈ target.dependencies ∨ d ∈ source.dependencies ∧ d ≠ target.id) := by
  rw [(takesIn_absorb now source target).dependencies]
  by_cases hs : d = source.id <;> by_cases ht : d ∈ target.dependencies <;>
    simp [List.mem_eraseDups, hs, ht, and_comm]

/-- Whoever depended on the source depends on the target instead, and on all others as before. -/
theorem mem_dependencies_redirect {d : String} :
    d ∈ (item.redirect now source target).dependencies ↔
      d ≠ source ∧ d ∈ item.dependencies ∨ d = target ∧ source ∈ item.dependencies := by
  by_cases hdepends : source ∈ item.dependencies
  · have hcontains : item.dependencies.contains source = true := List.contains_iff_mem.mpr hdepends
    simp only [redirect, hcontains, if_true]
    show d ∈ (if _ then _ else _) ↔ _
    split
    · -- the target was among the others already
      next htarget =>
      have hmem : target ∈ item.dependencies.filter (· ≠ source) := List.contains_iff_mem.mp htarget
      constructor
      · intro hd
        exact .inl (by simpa [and_comm] using hd)
      · rintro (hd | ⟨rfl, -⟩)
        · simpa [and_comm] using hd
        · exact hmem
    · simp [hdepends, and_comm]
  · rw [redirect_of_not_mem now target hdepends]
    constructor
    · intro hd
      exact .inl ⟨fun hs => hdepends (hs ▸ hd), hd⟩
    · rintro (⟨-, hd⟩ | ⟨-, hd⟩)
      · exact hd
      · exact absurd hd hdepends

/-! ## The source -/

end Item

/-! ## The merge as a whole -/

namespace Coordinator

end Coordinator

open Coordinator (submit)

/-- Items with dependencies on each other, twice, and on items that are not there. -/
def tangledSample : List Item :=
  [dependent "WRK-1" ["WRK-2", "OLD-1"],
    dependent "WRK-2" ["WRK-1", "OLD-2", "OLD-1", "OLD-2"],
    dependent "WRK-3" ["WRK-2", "WRK-1", "WRK-2", "OLD-1"],
    dependent "WRK-4" ["OLD-1"]]

end Backlog
