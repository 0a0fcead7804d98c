/-
  What is left of a plan when a finished item is archived.

  Program: a done item is archived, or passed over while it is in flight.  The plan looks at it in two
  more places: an item that depends on it does not wait, and one that is to be merged into it is.

  Specification: once the item has left the active set, the plan is what it was without the item's own
  part of it (`archival_spares_others`): the same actions, and the same reasons for having none, in the
  same order.

  An item that is not there counts as done, so nobody who waits can tell the difference
  (`unmetDependencies_erase`).  Only a merge can, so no other item may be waiting to be merged into the
  one that leaves.
-/
import Backlog.Proofs.Schedule.Order
import Mathlib.Data.List.Basic

namespace Backlog

namespace Schedule

variable {items others : List Item} {running : Running} {limits : Limits} {pipelines : Pipelines}
  {item finished : Item}

/-! ## Who looks at the item that leaves -/

/-- The standing of an item tells whether another one is there only if it is to be merged into it. -/
theorem standing_erase (hfinished : finished ∈ items) (hunnamed : item.mergeInto ≠ some finished.id)
    (running : Running) :
    standing (items.erase finished) running item = standing items running item := by
  rw [standing_of_perm (List.perm_cons_erase hfinished) running item]
  cases hmerge : item.mergeInto with
  | none => simp only [standing, hmerge]
  | some target =>
    have hother : (finished.id == target) = false := by
      rw [beq_eq_false_iff_ne]
      rintro rfl
      exact hunnamed hmerge
    simp only [standing, hmerge, List.any_cons, hother, Bool.false_or]

/-- No item that stays has the ID of the one that leaves. -/
theorem id_ne_of_mem_erase (hdistinct : (ids items).Nodup) (hfinished : finished ∈ items)
    (hitem : item ∈ items.erase finished) : item.id ≠ finished.id := by
  have hperm := (List.perm_cons_erase hfinished).map Item.id
  obtain ⟨hgone, -⟩ := List.nodup_cons.mp (hperm.nodup_iff.mp hdistinct)
  intro hid
  exact hgone (hid ▸ List.mem_map_of_mem hitem)

theorem nodup_erase (hdistinct : (ids items).Nodup) : (ids (items.erase finished)).Nodup :=
  hdistinct.sublist (List.erase_sublist.map Item.id)

/-- To wait for an item that is done is to wait for nothing, and so is to wait for one that is not
    there. -/
theorem unmetDependencies_erase (hdistinct : (ids items).Nodup) (hfinished : finished ∈ items)
    (hdone : finished.status = .done) (item : Item) :
    unmetDependencies (items.erase finished) item = unmetDependencies items item := by
  rw [unmetDependencies, unmetDependencies]
  refine List.filter_congr fun d _ => ?_
  rw [statusOf?_eq_findItem (nodup_erase hdistinct), statusOf?_eq_findItem hdistinct,
    findItem_of_perm (List.perm_cons_erase hfinished) hdistinct, findItem_cons]
  split
  · next hid =>
    have hnone : findItem d (items.erase finished) = none :=
      findItem_eq_none fun i hi heq =>
        id_ne_of_mem_erase hdistinct hfinished hi (heq.trans hid.symm)
    simp [hnone, hdone, Status.isTerminal]
  · rfl

/-! ## The plan around it -/

/-- An item that leaves, leaves the others in their order of age. -/
theorem byAge_erase (hdistinct : (ids items).Nodup) (hfinished : finished ∈ items) :
    ∃ before behind, byAge items = before ++ finished :: behind ∧
      byAge (items.erase finished) = before ++ behind := by
  obtain ⟨before, behind, hsplit⟩ := List.append_of_mem (mem_byAge.mpr hfinished)
  refine ⟨before, behind, hsplit, ?_⟩
  have hsorted : (before ++ behind).Pairwise Older := by
    have hall := pairwise_byAge hdistinct
    rw [hsplit] at hall
    exact hall.sublist ((List.sublist_cons_self finished behind).append_left before)
  have hsame : (finished :: byAge (items.erase finished)).Perm (finished :: (before ++ behind)) :=
    calc (finished :: byAge (items.erase finished)).Perm (finished :: items.erase finished) :=
        (byAge_perm _).cons finished
      _ |>.Perm items := (List.perm_cons_erase hfinished).symm
      _ |>.Perm (byAge items) := (byAge_perm items).symm
      _ |>.Perm (finished :: (before ++ behind)) := hsplit ▸ List.perm_middle
  exact List.Perm.eq_of_pairwise (fun a b _ _ hab hba => absurd hba hab.asymm)
    (pairwise_byAge (nodup_erase hdistinct)) hsorted hsame.cons_inv

theorem signals_congr {ordered : List Item}
    (h : ∀ i ∈ ordered, standing items running i = standing others running i) :
    signals items running ordered = signals others running ordered := by
  rw [signals, signals, Plan.mk.injEq]
  exact ⟨List.filterMap_congr fun i hi => by rw [h i hi],
    List.filterMap_congr fun i hi => by rw [h i hi]⟩

theorem actions_append (a b : Plan) : (a ++ b).actions = a.actions ++ b.actions := rfl

theorem skipped_append (a b : Plan) : (a ++ b).skipped = a.skipped ++ b.skipped := rfl

theorem plan_append_assoc (a b c : Plan) : a ++ b ++ c = a ++ (b ++ c) := by
  show Plan.append (Plan.append a b) c = Plan.append a (Plan.append b c)
  simp only [Plan.append, List.append_assoc]

theorem signals_append (xs ys : List Item) :
    signals items running (xs ++ ys) = signals items running xs ++ signals items running ys := by
  show _ = Plan.append _ _
  simp only [signals, Plan.append, List.filterMap_append]

/-- An item that is no candidate leaves no gap in the order of the offers. -/
theorem candidates_erase {before behind : List Item} (hsplit : byAge items = before ++ finished :: behind)
    (hleft : byAge (items.erase finished) = before ++ behind)
    (hsame : ∀ i ∈ before ++ behind,
      standing (items.erase finished) running i = standing items running i)
    (hfinished : standing items running finished ≠ .candidate) :
    candidates (items.erase finished) running pipelines = candidates items running pipelines := by
  have hopen : (byAge (items.erase finished)).filter
        (fun i => standing (items.erase finished) running i = .candidate)
      = (byAge items).filter fun i => standing items running i = .candidate := by
    rw [hleft, hsplit, List.filter_append, List.filter_append, List.filter_cons,
      if_neg (by simpa using hfinished), ← List.filter_append, ← List.filter_append]
    exact List.filter_congr fun i hi => by rw [hsame i hi]
  simp only [candidates, hopen]

/-- The plan without the item is the plan with it, but for what the item itself has in it.  That comes
    behind other signals, none of which is about the item. -/
theorem tick_erase (hdistinct : (ids items).Nodup) (hfinished : finished ∈ items)
    (hdone : finished.status = .done)
    (hunnamed : ∀ i ∈ items, i ≠ finished → i.mergeInto ≠ some finished.id) (running : Running)
    (limits : Limits) (pipelines : Pipelines) :
    ∃ before behind : Plan,
      tick items running limits pipelines = before ++ signals items running [finished] ++ behind ∧
      tick (items.erase finished) running limits pipelines = before ++ behind ∧
      (∀ action ∈ before.actions, action.item ≠ finished.id) ∧
      ∀ skip ∈ before.skipped, skip.1 ≠ finished.id := by
  obtain ⟨before, behind, hsplit, hleft⟩ := byAge_erase hdistinct hfinished
  have hmem : ∀ i ∈ before ++ behind, i ∈ items.erase finished := fun i hi =>
    mem_byAge.mp (hleft ▸ hi)
  have hother : ∀ i ∈ before ++ behind, i.id ≠ finished.id := fun i hi =>
    id_ne_of_mem_erase hdistinct hfinished (hmem i hi)
  have hsame : ∀ i ∈ before ++ behind,
      standing (items.erase finished) running i = standing items running i := fun i hi =>
    standing_erase hfinished
      (hunnamed i (List.mem_of_mem_erase (hmem i hi)) fun heq => hother i hi (heq ▸ rfl)) running
  have hcandidate : standing items running finished ≠ .candidate := fun h =>
    (standing_eq_candidate_iff.mp h).unfinished hdone
  refine ⟨signals items running before, signals items running behind
    ++ offerAll items pipelines (.left limits running) (candidates items running pipelines),
    ?whole, ?rest, ?actions, ?skipped⟩
  case whole =>
    rw [tick, hsplit, ← List.singleton_append, signals_append, signals_append,
      plan_append_assoc, plan_append_assoc, plan_append_assoc]
  case rest =>
    rw [tick, hleft, signals_congr hsame, signals_append,
      candidates_erase hsplit hleft hsame hcandidate,
      offerAll_congr (unmetDependencies_erase hdistinct hfinished hdone), plan_append_assoc]
  case actions =>
    intro action haction
    obtain ⟨i, hi, hstanding⟩ := mem_actions_signals.mp haction
    obtain ⟨-, hitem, -⟩ := signal_of_standing hstanding
    rw [hitem]
    exact hother i (List.mem_append_left _ hi)
  case skipped =>
    rintro ⟨id, reason⟩ hskip
    obtain ⟨i, hi, rfl, -⟩ := mem_skipped_signals.mp hskip
    exact hother i (List.mem_append_left _ hi)

theorem erase_middle {α : Type} [BEq α] [LawfulBEq α] {before : List α} {a : α} (h : a ∉ before)
    (behind : List α) : (before ++ [a] ++ behind).erase a = before ++ behind := by
  rw [List.append_assoc, List.erase_append_right _ h, List.singleton_append, List.erase_cons_head]

/-- Archiving a done item takes this one out and leaves all others. -/
theorem retireItem_erase (hdistinct : (ids items).Nodup) (hfinished : finished ∈ items)
    (hdone : finished.status = .done) :
    retireItem finished.id items = .ok (finished, items.erase finished) := by
  induction items with
  | nil => cases hfinished
  | cons first rest ih =>
    obtain ⟨hfirst, hrest⟩ := List.nodup_cons.mp hdistinct
    rcases List.mem_cons.mp hfinished with rfl | hfinished
    · rw [retireItem, if_pos rfl, if_pos hdone, List.erase_cons_head]
    · have hid : first.id ≠ finished.id := fun heq => hfirst (heq ▸ List.mem_map_of_mem hfinished)
      have hne : ¬ (first == finished) = true := fun heq => hid (congrArg Item.id (eq_of_beq heq))
      rw [retireItem, if_neg hid, ih hrest hfinished, List.erase_cons_tail hne]
      rfl

/-- An item that is done may leave the active set without a trace in the plan, as long as no other is
    to be merged into it.  Gone is what the plan says of the item itself: that it is to be archived, or
    is passed over because it is in flight. -/
theorem archival_spares_others (hdistinct : (ids items).Nodup) (hfinished : finished ∈ items)
    (hdone : finished.status = .done)
    (hunnamed : ∀ i ∈ items, i ≠ finished → i.mergeInto ≠ some finished.id) (running : Running)
    (limits : Limits) (pipelines : Pipelines) :
    retireItem finished.id items = .ok (finished, items.erase finished) ∧
      (running.contains finished.id = false →
        .archive finished.id ∈ (tick items running limits pipelines).actions ∧
        tick (items.erase finished) running limits pipelines
          = { actions :=
                (tick items running limits pipelines).actions.erase (.archive finished.id)
              skipped := (tick items running limits pipelines).skipped }) ∧
      (running.contains finished.id = true →
        (finished.id, .alreadyRunning) ∈ (tick items running limits pipelines).skipped ∧
        tick (items.erase finished) running limits pipelines
          = { actions := (tick items running limits pipelines).actions
              skipped := (tick items running limits pipelines).skipped.erase
                (finished.id, .alreadyRunning) }) := by
  obtain ⟨before, behind, hwhole, hrest, hactions, hskipped⟩ :=
    tick_erase hdistinct hfinished hdone hunnamed running limits pipelines
  rw [hwhole, hrest]
  refine ⟨retireItem_erase hdistinct hfinished hdone, fun hidle => ?_, fun hbusy => ?_⟩
  · have hown : signals items running [finished] = { actions := [.archive finished.id] } := by
      simp [signals, standing, hidle, hdone]
    have hfirst : Action.archive finished.id ∉ before.actions := fun h => hactions _ h rfl
    refine ⟨?_, ?_⟩
    · simp [actions_append, hown]
    · rw [Plan.mk.injEq]
      simp only [actions_append, skipped_append, hown, erase_middle hfirst, List.append_nil, and_self]
  · have hown : signals items running [finished]
        = { skipped := [(finished.id, .alreadyRunning)] } := by
      simp [signals, standing, hbusy]
    have hfirst : (finished.id, SkipReason.alreadyRunning) ∉ before.skipped := fun h =>
      hskipped _ h rfl
    refine ⟨?_, ?_⟩
    · simp [skipped_append, hown]
    · rw [Plan.mk.injEq]
      simp only [actions_append, skipped_append, hown, erase_middle hfirst, List.append_nil, and_self]

/-- A done item, one that waits for it, and one that waits for that one. -/
def chained : List Item :=
  [Draft.sample.setStatus ⟨0, 0⟩ .done,
   { Draft.sample with id := "WRK-2", dependencies := ["WRK-1"] },
   { Draft.sample with id := "WRK-3", dependencies := ["WRK-2"] }]

theorem tick_chained : tick chained .empty {} default
    = { actions := [.archive "WRK-1", .promote "WRK-2" .new]
        skipped := [("WRK-3", .unmetDependencies ["WRK-2"])] } := by
  have hage : byAge chained = chained := byAge_of_pairwise (by decide +kernel)
  rw [tick, candidates, hage, byKeyDown_of_pairwise (by decide +kernel),
    byKeyDown_of_pairwise (by decide +kernel), byKeyDown_of_pairwise (by decide +kernel)]
  decide +kernel

/-- Without the first item the second one is promoted, and the third one waits, as before. -/
theorem archival_spares_others_chained :
    (ids chained).Nodup ∧ chained[0].status = .done ∧
      (∀ i ∈ chained, i ≠ chained[0] → i.mergeInto ≠ some "WRK-1") ∧
      tick (chained.erase chained[0]) .empty {} default
        = { actions := [.promote "WRK-2" .new]
            skipped := [("WRK-3", .unmetDependencies ["WRK-2"])] } := by
  have hdistinct : (ids chained).Nodup := by decide
  have hdone : chained[0].status = .done := by decide
  have hunnamed : ∀ i ∈ chained, i ≠ chained[0] → i.mergeInto ≠ some "WRK-1" := by decide
  obtain ⟨-, hidle, -⟩ := archival_spares_others hdistinct (List.getElem_mem _) hdone hunnamed
    .empty {} default
  refine ⟨hdistinct, hdone, hunnamed, ?_⟩
  rw [(hidle rfl).2, tick_chained]
  decide

end Schedule

end Backlog
