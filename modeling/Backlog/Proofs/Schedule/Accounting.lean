/-
  What becomes of each item.

  Program: an item is passed over, gets its signal, or is a candidate; each candidate is given a slot
  or passed over.

  Specification: the plan names every item once, as the subject of an action or among those passed
  over.  A blocked item without an answer is the only one that it does not name (`named_once`).

  Both parts of a plan are lists told apart: each entry gives an action or a reason, about its own
  item (`perm_told_apart`).  The four lists of candidates are the open items told apart by status
  (`perm_candidates`).
-/
import Backlog.Proofs.Schedule.Order

namespace Backlog

/-- The IDs that a plan names: of what is done, then of what is passed over. -/
def Plan.named (plan : Plan) : List String :=
  plan.actions.map Action.item ++ plan.skipped.map Prod.fst

namespace Schedule

variable {items : List Item} {running : Running} {item : Item}

/-! ## Lists told apart -/

/-- Two parts of a list are all of it, if what each entry is known by is in one of them. -/
theorem perm_told_apart {α β : Type} {f g key : α → Option β} {l : List α}
    (h : ∀ a ∈ l, f a = none ∧ g a = key a ∨ g a = none ∧ f a = key a) :
    (l.filterMap f ++ l.filterMap g).Perm (l.filterMap key) := by
  induction l with
  | nil => exact .refl _
  | cons a l ih =>
    obtain ⟨ha, hl⟩ := List.forall_mem_cons.mp h
    have hrest := ih hl
    rcases ha with ⟨hnone, hsome⟩ | ⟨hnone, hsome⟩
    · cases hkey : key a with
      | none => simpa [hnone, hsome, hkey] using hrest
      | some b =>
        simp only [List.filterMap_cons, hnone, hsome, hkey]
        exact List.perm_middle.trans (hrest.cons b)
    · cases hkey : key a with
      | none => simpa [hnone, hsome, hkey] using hrest
      | some b =>
        simp only [List.filterMap_cons, hnone, hsome, hkey]
        exact hrest.cons b

/-! ## Candidates -/

theorem count_filter_status (status : Status) (items : List Item) (item : Item) :
    (items.filter fun i => i.status = status).count item
      = if item.status = status then items.count item else 0 := by
  split
  · next h => exact List.count_filter (by simpa using h)
  · next h =>
    rw [List.count_eq_zero]
    intro hmem
    exact h (by simpa using (List.mem_filter.mp hmem).2)

/-- The candidates are the open items, each as often as it is there. -/
theorem perm_candidates (items : List Item) (running : Running) (pipelines : Pipelines) :
    (candidates items running pipelines).Perm
      (items.filter fun i => standing items running i = .candidate) := by
  have hopen : ((byAge items).filter fun i => standing items running i = .candidate).Perm
      (items.filter fun i => standing items running i = .candidate) := (byAge_perm items).filter _
  refine List.Perm.trans ?_ hopen
  rw [List.perm_iff_count]
  intro item
  simp only [candidates, List.count_append, (byKeyDown_perm _ _).count_eq, count_filter_status]
  have hclosed (h : item.status = .done ∨ item.status = .blocked) :
      ((byAge items).filter fun i => standing items running i = .candidate).count item = 0 := by
    rw [List.count_eq_zero, List.mem_filter, decide_eq_true_eq, standing_eq_candidate_iff]
    rintro ⟨-, hopen⟩
    exact h.elim hopen.unfinished hopen.unblocked
  cases hstatus : item.status with
  | done => simpa using (hclosed (.inl hstatus)).symm
  | blocked => simpa using (hclosed (.inr hstatus)).symm
  | _ => simp

/-! ## Slots -/

/-- Each item that is offered a slot is named once for it. -/
theorem perm_named_offerAll (items : List Item) (pipelines : Pipelines) (free : Capacity)
    (offered : List Item) :
    (offerAll items pipelines free offered).named.Perm (ids offered) := by
  have hkeys : (decisions items pipelines free offered).filterMap (fun d => some d.1.id)
      = ids offered :=
    calc (decisions items pipelines free offered).filterMap (fun d => some d.1.id)
      _ = (decisions items pipelines free offered).map (fun d => d.1.id) := by
          rw [← List.filterMap_eq_map']
      _ = ids ((decisions items pipelines free offered).map Prod.fst) := by
          rw [ids, List.map_map]
          rfl
      _ = ids offered := by rw [map_fst_decisions]
  rw [Plan.named, offerAll_eq, List.map_filterMap, List.map_filterMap, ← hkeys]
  refine perm_told_apart fun d hd => ?_
  obtain ⟨item, decision⟩ := d
  cases decision with
  | ok action =>
    obtain ⟨-, hproposal, -⟩ := granted_of_mem_decisions hd
    exact .inr ⟨rfl, congrArg some (proposal_takes hproposal).1⟩
  | error reason => exact .inl ⟨rfl, rfl⟩

/-! ## Signals -/

theorem ids_filter (p : Item → Bool) (items : List Item) :
    ids (items.filter p) = items.filterMap fun i => if p i then some i.id else none := by
  induction items with
  | nil => rfl
  | cons first rest ih => cases hp : p first <;> simp [hp, ih]

/-- Whether what becomes of an item is settled before any slot is given away. -/
def Standing.isSettled : Standing → Bool
  | .act _ | .skip _ => true
  | .rest | .candidate => false

/-- Each item that is settled by a signal, or passed over for the want of one, is named once. -/
theorem perm_named_signals (items : List Item) (running : Running) (ordered : List Item) :
    (signals items running ordered).named.Perm
      (ids (ordered.filter fun i => (standing items running i).isSettled)) := by
  rw [Plan.named, signals, List.map_filterMap, List.map_filterMap, ids_filter]
  refine perm_told_apart fun i _ => ?_
  cases hstanding : standing items running i with
  | act action =>
    obtain ⟨-, hid, -⟩ := signal_of_standing hstanding
    exact .inr ⟨rfl, congrArg some hid⟩
  | skip reason => exact .inl ⟨rfl, rfl⟩
  | rest | candidate => exact .inl ⟨rfl, rfl⟩

/-- Only blocked items that are not in flight and have no answer are at rest. -/
theorem standing_eq_rest_iff (items : List Item) :
    standing items running item = .rest ↔
      item.status = .blocked ∧ running.contains item.id = false ∧ item.unblockContext = none := by
  constructor
  · intro h
    have hstands := stands items running item
    rw [h] at hstands
    cases hstands with
    | waiting hidle hblocked hcontext => exact ⟨hblocked, hidle, hcontext⟩
  · rintro ⟨hblocked, hidle, hcontext⟩
    simp [standing, hblocked, hidle, hcontext]

/-! ## Plans -/

theorem perm_named_append (a b : Plan) : (a ++ b).named.Perm (a.named ++ b.named) := by
  show ((a.actions ++ b.actions).map Action.item ++ (a.skipped ++ b.skipped).map Prod.fst).Perm _
  rw [List.map_append, List.map_append, List.append_assoc, Plan.named, Plan.named, List.append_assoc]
  exact (List.perm_append_comm_assoc _ _ _).append_left _

/-- A plan names each item that is not at rest as often as it is there, and nothing else. -/
theorem perm_named_tick (items : List Item) (running : Running) (limits : Limits)
    (pipelines : Pipelines) :
    (tick items running limits pipelines).named.Perm
      (ids (items.filter fun i => standing items running i ≠ .rest)) := by
  have hsignals : (signals items running (byAge items)).named.Perm
      (ids (items.filter fun i => (standing items running i).isSettled)) :=
    (perm_named_signals items running _).trans (((byAge_perm items).filter _).map _)
  have hslots : (offerAll items pipelines (.left limits running)
      (candidates items running pipelines)).named.Perm
      (ids (items.filter fun i => standing items running i = .candidate)) :=
    (perm_named_offerAll items pipelines _ _).trans ((perm_candidates items running pipelines).map _)
  refine (perm_named_append _ _).trans ((hsignals.append hslots).trans ?_)
  rw [ids_filter, ids_filter, ids_filter]
  refine perm_told_apart fun i _ => ?_
  cases standing items running i with
  | act | skip => exact .inr ⟨rfl, rfl⟩
  | rest | candidate => exact .inl ⟨rfl, rfl⟩

/-- Of items with distinct IDs a plan names every one exactly once, in what is done or in what is
    passed over; except blocked ones that are not in flight and have no answer, which it does not
    name. It names nothing else. -/
theorem named_once (hdistinct : (ids items).Nodup) (running : Running) (limits : Limits)
    (pipelines : Pipelines) :
    (∀ item ∈ items, (tick items running limits pipelines).named.count item.id =
      if item.status = .blocked ∧ running.contains item.id = false ∧ item.unblockContext = none
      then 0 else 1) ∧
    ∀ id ∈ (tick items running limits pipelines).named, id ∈ ids items := by
  have hperm := perm_named_tick items running limits pipelines
  have hsub : (ids (items.filter fun i => standing items running i ≠ .rest)).Sublist (ids items) :=
    List.filter_sublist.map _
  refine ⟨fun item hitem => ?_, fun id hid => hsub.subset (hperm.mem_iff.mp hid)⟩
  have hnamed : item.id ∈ ids (items.filter fun i => standing items running i ≠ .rest) ↔
      standing items running item ≠ .rest := by
    constructor
    · intro hid
      obtain ⟨other, hother, hsame⟩ := List.mem_map.mp hid
      obtain ⟨hother, hstirs⟩ := List.mem_filter.mp hother
      obtain rfl : other = item := eq_of_id_eq hdistinct hother hitem hsame
      simpa using hstirs
    · intro hstirs
      exact List.mem_map_of_mem (List.mem_filter.mpr ⟨hitem, by simpa using hstirs⟩)
  rw [hperm.count_eq, (hdistinct.sublist hsub).count]
  simp only [hnamed, ← standing_eq_rest_iff items, ite_not]

/-- A done item, one that waits for an answer, one that has it, one to be merged into one that is not
    there, one to be assessed again, and a new one. -/
def assorted : List Item :=
  [Draft.sample.setStatus ⟨0, 0⟩ .done,
   { (Draft.sample.setBlocked ⟨0, 0⟩ (some "which?") none).2 with id := "WRK-2" },
   { (Draft.sample.setBlocked ⟨0, 0⟩ (some "which?") none).2.setUnblockContext ⟨0, 0⟩
      (some "this") with id := "WRK-3" },
   { Draft.sample.setMergeInto ⟨0, 0⟩ (some "WRK-9") with id := "WRK-4" },
   { Draft.sample.setTriageRequested ⟨0, 0⟩ true with id := "WRK-5" },
   { Draft.sample with id := "WRK-6" }]

/-- Only the item that waits for an answer is not named. Nor is the merge target that is not there. -/
theorem named_once_assorted :
    (ids assorted).Nodup ∧
      ["WRK-1", "WRK-2", "WRK-3", "WRK-4", "WRK-5", "WRK-6"].map
        (tick assorted .empty {} default).named.count = [1, 0, 1, 1, 1, 1] ∧
      "WRK-9" ∉ (tick assorted .empty {} default).named := by
  have hdistinct : (ids assorted).Nodup := by decide
  obtain ⟨hcounts, honly⟩ := named_once hdistinct .empty {} default
  refine ⟨hdistinct, ?_, fun h => absurd (honly _ h) (by decide)⟩
  have hids : ["WRK-1", "WRK-2", "WRK-3", "WRK-4", "WRK-5", "WRK-6"] = assorted.map Item.id := by
    decide
  rw [hids, List.map_map]
  exact (List.map_congr_left hcounts).trans (by decide +kernel)

end Schedule

end Backlog
