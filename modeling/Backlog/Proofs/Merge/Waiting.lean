/-
  Who still waits after a merge.

  Program: a merge makes whoever depended on the source depend on the target; a dependency holds an item
  up as long as the item with that ID is in the list and not done.

  Specification: an item that waited for the source waits for whatever else it waited for, and for the
  target unless that is done (`mem_unmetDependencies_foldInto`).  So it is let go by the merge only if
  the target is done already and the source was all that it waited for (`waits_after_merge`).

  The crux is that a merge moves dependencies but no statuses (`statusOf?_foldInto`).  So the target
  stands in for the source with a status of its own, which nothing compares with that of the source.
-/
import Backlog.Proofs.Merge.Result
import Backlog.Proofs.Schedule.Safety

namespace Backlog

namespace Schedule

variable {now : Stamp} {items after : List Item} {source target : String} {item retired : Item}

/-! ## Statuses -/

/-- A merge leaves the items distinct. -/
theorem nodup_ids_foldInto (hdistinct : (ids items).Nodup)
    (hfold : foldInto now items source target = .ok (retired, after)) : (ids after).Nodup := by
  have hall : (ids (retired :: after)).Nodup := (perm_ids_foldInto hfold).nodup_iff.mpr hdistinct
  rw [ids_cons] at hall
  exact hall.of_cons

/-- An item is found after a merge if and only if it was before, unless it is the source. -/
theorem findItem_foldInto_eq_none {id : String} (hfound : findItem id items = none)
    (hfold : foldInto now items source target = .ok (retired, after)) : findItem id after = none := by
  have hgone : id ∉ ids items := by
    intro hid
    obtain ⟨i, hi, rfl⟩ := List.mem_map.mp hid
    exact List.find?_eq_none.mp hfound i hi (beq_self_eq_true i.id)
  refine findItem_eq_none fun i hi heq => hgone ?_
  have hi' : i.id ∈ ids (retired :: after) := by
    rw [ids_cons]
    exact List.mem_cons_of_mem _ (List.mem_map_of_mem hi)
  rw [← heq]
  exact (perm_ids_foldInto hfold).mem_iff.mp hi'

/-- No item that stays has another status after a merge. -/
theorem statusOf?_foldInto (hdistinct : (ids items).Nodup)
    (hfold : foldInto now items source target = .ok (retired, after)) {id : String}
    (hstays : id ≠ source) : statusOf? after id = statusOf? items id := by
  rw [statusOf?_eq_findItem hdistinct, statusOf?_eq_findItem (nodup_ids_foldInto hdistinct hfold)]
  cases hfound : findItem id items with
  | none => rw [findItem_foldInto_eq_none hfound hfold]
  | some found =>
    obtain ⟨leaving, hafter⟩ := findItem_foldInto (Ne.symm hstays) hfound hfold
    have hstatus : (Item.merged now source target leaving found).status = found.status :=
      congrArg Course.status (Item.course_merged now source target leaving found)
    rw [hafter, Option.map_some, Option.map_some, hstatus]

/-! ## Dependencies -/

theorem mem_unmetDependencies {d : String} :
    d ∈ unmetDependencies items item ↔
      d ∈ item.dependencies ∧ d ≠ item.id ∧
        ∃ status, statusOf? items d = some status ∧ status ≠ .done := by
  have hstatus : ((statusOf? items d).any fun s => !s.isTerminal) = true ↔
      ∃ status, statusOf? items d = some status ∧ status ≠ .done := by
    cases statusOf? items d with
    | none => simp
    | some status => simp [Status.isTerminal]
  simp only [unmetDependencies, List.mem_filter, Bool.and_eq_true, decide_eq_true_eq, hstatus]

/-- An item that waited for the source waits for whatever else it waited for, and for the target
    unless that is done. -/
theorem mem_unmetDependencies_foldInto (hdistinct : (ids items).Nodup)
    (hfold : foldInto now items source target = .ok (retired, after)) (hother : item.id ≠ target)
    (hwaits : source ∈ unmetDependencies items item) {d : String} :
    d ∈ unmetDependencies after (item.redirect now source target) ↔
      (d ∈ unmetDependencies items item ∧ d ≠ source) ∨
      (d = target ∧ ∃ status, statusOf? items target = some status ∧ status ≠ .done) := by
  obtain ⟨hdepends, hself, -⟩ := mem_unmetDependencies.mp hwaits
  have hid : (item.redirect now source target).id = item.id :=
    Item.id_eq_of_identity (Item.identity_redirect now source target item)
  have hne : target ≠ source := by
    rintro rfl
    simp [foldInto] at hfold
  rw [mem_unmetDependencies, mem_unmetDependencies, Item.mem_dependencies_redirect, hid]
  constructor
  · rintro ⟨⟨hstays, hd⟩ | ⟨rfl, -⟩, hnot, hstatus⟩
    · rw [statusOf?_foldInto hdistinct hfold hstays] at hstatus
      exact .inl ⟨⟨hd, hnot, hstatus⟩, hstays⟩
    · rw [statusOf?_foldInto hdistinct hfold hne] at hstatus
      exact .inr ⟨rfl, hstatus⟩
  · rintro (⟨⟨hd, hnot, hstatus⟩, hstays⟩ | ⟨rfl, hstatus⟩)
    · rw [statusOf?_foldInto hdistinct hfold hstays]
      exact ⟨.inl ⟨hstays, hd⟩, hnot, hstatus⟩
    · rw [statusOf?_foldInto hdistinct hfold hne]
      exact ⟨.inr ⟨rfl, hdepends⟩, hother.symm, hstatus⟩

/-- The target of a merge is in the list. -/
theorem target_of_foldInto (hfold : foldInto now items source target = .ok (retired, after)) :
    ∃ found, findItem target items = some found := by
  simp only [foldInto] at hfold
  split at hfold
  · cases hfold
  · split at hfold
    · cases hfold
    · split at hfold
      · cases hfold
      · next htarget =>
        have hany : items.any (fun i => i.id == target) = true := by simpa using htarget
        have hsome : (findItem target items).isSome = true := by
          rw [findItem, List.find?_isSome]
          exact List.any_eq_true.mp hany
        exact Option.isSome_iff_exists.mp hsome

/-! ## Plans -/

/-- A plan moves no item that waits. -/
theorem not_moved_of_unmet (hdistinct : (ids items).Nodup) (hitem : item ∈ items)
    (hwaits : unmetDependencies items item ≠ []) {running : Running} {limits : Limits}
    {pipelines : Pipelines} {action : Action}
    (haction : action ∈ (tick items running limits pipelines).actions)
    (htakes : action.takesCapacity = true) : action.item ≠ item.id := by
  intro hsame
  obtain ⟨moved, hmoved, hid, -, -, hmet⟩ := proposal_of_takesCapacity haction htakes
  have hfound := findItem_of_mem hdistinct hitem
  have hfound' := findItem_of_mem hdistinct hmoved
  rw [hid, hsame, hfound] at hfound'
  cases hfound'
  exact hwaits hmet

/-! ## Merges -/

/-- After a merge an item that waited for the source waits still, unless the target is done and the
    source was all that it waited for; and as long as it waits no plan moves it. -/
theorem waits_after_merge (hdistinct : (ids items).Nodup)
    (hfold : foldInto now items source target = .ok (retired, after)) (hitem : item ∈ items)
    (hother : item.id ≠ target) (hwaits : source ∈ unmetDependencies items item) :
    ∃ waiting ∈ after, waiting.id = item.id ∧
      (unmetDependencies after waiting = [] ↔
        statusOf? items target = some .done ∧ ∀ d ∈ unmetDependencies items item, d = source) ∧
      (unmetDependencies after waiting ≠ [] → ∀ running limits pipelines,
        ∀ action ∈ (tick after running limits pipelines).actions,
          action.takesCapacity = true → action.item ≠ item.id) := by
  obtain ⟨hdepends, hself, -⟩ := mem_unmetDependencies.mp hwaits
  have hid : (item.redirect now source target).id = item.id :=
    Item.id_eq_of_identity (Item.identity_redirect now source target item)
  -- the item is where it was, with its dependencies redirected
  obtain ⟨leaving, hfound⟩ := findItem_foldInto hself (findItem_of_mem hdistinct hitem) hfold
  rw [Item.merged, if_neg hother] at hfound
  have hafter : item.redirect now source target ∈ after := List.mem_of_find?_eq_some hfound
  have hunmet : ∀ d, d ∈ unmetDependencies after (item.redirect now source target) ↔
      (d ∈ unmetDependencies items item ∧ d ≠ source) ∨
      (d = target ∧ ∃ status, statusOf? items target = some status ∧ status ≠ .done) :=
    fun d => mem_unmetDependencies_foldInto hdistinct hfold hother hwaits
  refine ⟨item.redirect now source target, hafter, hid, ?_, ?_⟩
  · rw [List.eq_nil_iff_forall_not_mem]
    constructor
    · intro hnone
      obtain ⟨found, htarget⟩ := target_of_foldInto hfold
      have hstatus : statusOf? items target = some found.status := by
        rw [statusOf?_eq_findItem hdistinct, htarget, Option.map_some]
      constructor
      · have hdone : found.status = .done := by
          by_cases hopen : found.status = .done
          · exact hopen
          · exact absurd ((hunmet target).mpr (.inr ⟨rfl, found.status, hstatus, hopen⟩)) (hnone target)
        rw [hstatus, hdone]
      · intro d hd
        by_cases hsource : d = source
        · exact hsource
        · exact absurd ((hunmet d).mpr (.inl ⟨hd, hsource⟩)) (hnone d)
    · rintro ⟨hdone, hall⟩ d hd
      rcases (hunmet d).mp hd with ⟨hd, hne⟩ | ⟨-, status, hstatus, hopen⟩
      · exact hne (hall d hd)
      · rw [hdone] at hstatus
        cases hstatus
        exact hopen rfl
  · intro hwaiting running limits pipelines action haction htakes
    rw [← hid]
    exact not_moved_of_unmet (nodup_ids_foldInto hdistinct hfold) hafter hwaiting haction htakes

/-- An item to merge into, one to merge, and one that waits for that. -/
def openSample : List Item := [dependent "WRK-1" [], dependent "WRK-2" [], dependent "WRK-3" ["WRK-2"]]

/-- What a merge of the second into the first leaves of them. -/
def openSampleAfter : List Item :=
  [{ dependent "WRK-1" [] with updatedAt := ⟨1, 0⟩ },
    { dependent "WRK-3" ["WRK-1"] with updatedAt := ⟨1, 0⟩ }]

/-- An item that waited for one of two open items waits for the other when they are merged. -/
theorem waits_after_merge_open :
    (ids openSample).Nodup ∧
    foldInto ⟨1, 0⟩ openSample "WRK-2" "WRK-1" = .ok (dependent "WRK-2" [], openSampleAfter) ∧
    "WRK-2" ∈ unmetDependencies openSample (dependent "WRK-3" ["WRK-2"]) ∧
    ∃ waiting ∈ openSampleAfter, waiting.id = "WRK-3" ∧
      unmetDependencies openSampleAfter waiting ≠ [] := by
  have hdistinct : (ids openSample).Nodup := by decide
  have hfold : foldInto ⟨1, 0⟩ openSample "WRK-2" "WRK-1"
      = .ok (dependent "WRK-2" [], openSampleAfter) := by rfl
  have hwaits : "WRK-2" ∈ unmetDependencies openSample (dependent "WRK-3" ["WRK-2"]) := by
    decide +kernel
  refine ⟨hdistinct, hfold, hwaits, ?_⟩
  obtain ⟨waiting, hwaiting, hid, hreleased, -⟩ :=
    waits_after_merge hdistinct hfold (by decide) (by decide) hwaits
  have htarget : statusOf? openSample "WRK-1" ≠ some .done := by decide +kernel
  exact ⟨waiting, hwaiting, hid, fun hnone => htarget (hreleased.mp hnone).1⟩

/-- An item to merge into which is done, one to merge, and one that waits for that. -/
def doneSample : List Item :=
  [(dependent "WRK-1" []).setStatus ⟨0, 0⟩ .done, dependent "WRK-2" [], dependent "WRK-3" ["WRK-2"]]

/-- What a merge into an item that is done leaves of them. -/
def doneSampleAfter : List Item :=
  [(dependent "WRK-1" []).setStatus ⟨0, 0⟩ .done |>.touch ⟨1, 0⟩,
    { dependent "WRK-3" ["WRK-1"] with updatedAt := ⟨1, 0⟩ }]

/-- Nobody waits after a merge into an item that is done, where the source was all that was waited
    for. -/
theorem merge_may_release :
    ¬ ∀ (now : Stamp) (items after : List Item) (source target : String) (item retired : Item),
        (ids items).Nodup → foldInto now items source target = .ok (retired, after) → item ∈ items →
        item.id ≠ target → source ∈ unmetDependencies items item →
        ∃ waiting ∈ after, waiting.id = item.id ∧ unmetDependencies after waiting ≠ [] := by
  intro hwaits
  have hfold : foldInto ⟨1, 0⟩ doneSample "WRK-2" "WRK-1"
      = .ok (dependent "WRK-2" [], doneSampleAfter) := by rfl
  obtain ⟨waiting, hwaiting, -, hunmet⟩ := hwaits _ _ _ _ _ (dependent "WRK-3" ["WRK-2"]) _
    (by decide) hfold (by decide) (by decide) (by decide +kernel)
  have hnone : ∀ i ∈ doneSampleAfter, unmetDependencies doneSampleAfter i = [] := by decide +kernel
  exact hunmet (hnone waiting hwaiting)

end Schedule

end Backlog
