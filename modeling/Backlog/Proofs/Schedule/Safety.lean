/-
  What a tick never does.

  Program: slots are given away one after the other, each to the next candidate that may have it.

  Specification: a plan never puts more into flight than the limits allow, unless that much is in
  flight already; what it puts into flight is an item that nothing keeps from being worked on and that
  waits for no other; and it touches nothing that is in flight (`tick_within_limits`).

  One slot given is one slot less (`offer_inv`), so the two budgets follow by induction over the
  candidates (`taken_add_remaining`).  That the items waited for are done is the only part that looks
  at an item by its ID, and so the only one that needs the IDs to be distinct.
-/
import Backlog.Proofs.ActiveSet
import Backlog.Proofs.Schedule.Plans

namespace Backlog

namespace Schedule

variable {items : List Item} {running : Running} {limits : Limits} {pipelines : Pipelines}
  {item : Item} {action : Action}

/-! ## Budgets -/

/-- Of the slots of either kind, those that are used and those that are left are all there are. -/
theorem taken_add_remaining (items : List Item) (pipelines : Pipelines) (free : Capacity)
    (offered : List Item) :
    (offerAll items pipelines free offered).actions.length
        + (remaining items pipelines free offered).wip = free.wip ∧
      (offerAll items pipelines free offered).actions.countP Action.isDestructive
        + (remaining items pipelines free offered).exclusive = free.exclusive := by
  induction offered generalizing free with
  | nil => exact ⟨Nat.zero_add _, Nat.zero_add _⟩
  | cons first rest ih =>
    cases hoffer : offer items pipelines free first with
    | mk decision left =>
      rw [remaining_cons hoffer]
      obtain ⟨hwip, hexclusive⟩ := ih left
      obtain ⟨action, rfl, rfl, -, -, hfree, hopen⟩ | ⟨reason, rfl, rfl, -⟩ := offer_inv hoffer
      · -- the slot given, and what is used of those left then
        rw [offerAll_cons_ok hoffer, List.length_cons, List.countP_cons]
        have hone : (free.after action).wip = free.wip - 1 := rfl
        refine ⟨by omega, ?_⟩
        cases hdestructive : action.isDestructive with
        | true =>
          have hpos := hopen hdestructive
          have hleft : (free.after action).exclusive = free.exclusive - 1 := by
            simp [Capacity.after, hdestructive]
          simp only [if_true]
          omega
        | false =>
          have hleft : (free.after action).exclusive = free.exclusive := by
            simp [Capacity.after, hdestructive]
          simp only [Bool.false_eq_true, if_false]
          omega
      · rw [offerAll_cons_error hoffer]
        exact ⟨hwip, hexclusive⟩

theorem takesCapacity_of_mem {free : Capacity} {offered : List Item}
    (h : action ∈ (offerAll items pipelines free offered).actions) : action.takesCapacity = true := by
  obtain ⟨item, hdecision⟩ := mem_actions_offerAll.mp h
  obtain ⟨-, hproposal, -⟩ := granted_of_mem_decisions hdecision
  exact (proposal_takes hproposal).2

/-- The actions that take a slot are what candidates do, in the order of the offers. -/
theorem filter_actions_tick (items : List Item) (running : Running) (limits : Limits)
    (pipelines : Pipelines) :
    (tick items running limits pipelines).actions.filter Action.takesCapacity
      = (offerAll items pipelines (.left limits running)
          (candidates items running pipelines)).actions := by
  have hsignals : (signals items running (byAge items)).actions.filter Action.takesCapacity = [] := by
    rw [List.filter_eq_nil_iff]
    intro action haction htakes
    obtain ⟨item, -, hstanding⟩ := mem_actions_signals.mp haction
    obtain ⟨-, -, hnot, -⟩ := signal_of_standing hstanding
    rw [htakes] at hnot
    cases hnot
  rw [actions_tick, List.filter_append, hsignals, List.nil_append, List.filter_eq_self]
  exact fun _ => takesCapacity_of_mem

theorem takesCapacity_of_isDestructive (h : action.isDestructive = true) :
    action.takesCapacity = true := by
  cases action with
  | runPhase => rfl
  | _ => cases h

/-- What a tick uses of the free slots, and what it leaves of them. -/
theorem countP_takesCapacity_add (items : List Item) (running : Running) (limits : Limits)
    (pipelines : Pipelines) :
    (tick items running limits pipelines).actions.countP Action.takesCapacity
        + (remaining items pipelines (.left limits running)
            (candidates items running pipelines)).wip
      = limits.maxWip - running.size := by
  rw [List.countP_eq_length_filter, filter_actions_tick]
  exact (taken_add_remaining items pipelines (.left limits running) _).1

theorem countP_isDestructive_add (items : List Item) (running : Running) (limits : Limits)
    (pipelines : Pipelines) :
    (tick items running limits pipelines).actions.countP Action.isDestructive
        + (remaining items pipelines (.left limits running)
            (candidates items running pipelines)).exclusive
      = limits.maxExclusive - running.destructiveCount := by
  have hboth : ∀ action ∈ (tick items running limits pipelines).actions,
      action.isDestructive = true ↔ (action.isDestructive && action.takesCapacity) = true := by
    intro action _
    rw [Bool.and_eq_true]
    exact ⟨fun h => ⟨h, takesCapacity_of_isDestructive h⟩, And.left⟩
  rw [List.countP_congr hboth, ← List.countP_filter, filter_actions_tick]
  exact (taken_add_remaining items pipelines (.left limits running) _).2

/-- The slots that a tick uses are free ones. -/
theorem countP_takesCapacity_le (items : List Item) (running : Running) (limits : Limits)
    (pipelines : Pipelines) :
    (tick items running limits pipelines).actions.countP Action.takesCapacity
      ≤ limits.maxWip - running.size :=
  Nat.le_of_add_right_le (Nat.le_of_eq (countP_takesCapacity_add items running limits pipelines))

theorem countP_isDestructive_le (items : List Item) (running : Running) (limits : Limits)
    (pipelines : Pipelines) :
    (tick items running limits pipelines).actions.countP Action.isDestructive
      ≤ limits.maxExclusive - running.destructiveCount :=
  Nat.le_of_add_right_le (Nat.le_of_eq (countP_isDestructive_add items running limits pipelines))

/-! ## Dependencies -/

theorem statusOf?_of_mem (hdistinct : (ids items).Nodup) (hitem : item ∈ items) :
    statusOf? items item.id = some item.status := by
  have hreverse : (ids items.reverse).Nodup := by
    rw [ids, List.map_reverse]
    exact (List.reverse_perm (ids items)).nodup_iff.mpr hdistinct
  have hfound : findItem item.id items.reverse = some item :=
    findItem_of_mem hreverse (List.mem_reverse.mpr hitem)
  rw [statusOf?, show items.reverse.find? _ = some item from hfound]
  rfl

/-- Where IDs are distinct it does not matter which item with an ID is asked. -/
theorem statusOf?_eq_findItem (hdistinct : (ids items).Nodup) (id : String) :
    statusOf? items id = (findItem id items).map Item.status := by
  cases hfound : findItem id items with
  | some found =>
    obtain rfl := id_of_findItem hfound
    exact statusOf?_of_mem hdistinct (List.mem_of_find?_eq_some hfound)
  | none =>
    have hnone : ∀ i ∈ items, ¬ (i.id == id) = true := List.find?_eq_none.mp hfound
    have hreverse : items.reverse.find? (fun i => i.id == id) = none := by
      rw [List.find?_eq_none]
      intro i hi
      exact hnone i (List.mem_reverse.mp hi)
    rw [statusOf?, hreverse, Option.map_none]

/-- An item without unmet dependencies waits for nothing that is there. -/
theorem done_of_unmetDependencies (hdistinct : (ids items).Nodup)
    (hmet : unmetDependencies items item = []) {other : Item} (hother : other ∈ items)
    (hdepends : other.id ∈ item.dependencies) (hne : other.id ≠ item.id) : other.status = .done := by
  have hnot := List.filter_eq_nil_iff.mp hmet other.id hdepends
  rw [statusOf?_of_mem hdistinct hother] at hnot
  simpa [hne, Status.isTerminal] using hnot

/-! ## Plans -/

/-- Nothing keeps the item from being worked on, and it waits for no other. -/
structure MayStart (items : List Item) (running : Running) (item : Item) : Prop where
  idle : running.contains item.id = false
  standing : item.status ∈ [Status.new, .ready, .scoping, .inProgress]
  unmerged : item.mergeInto = none
  untriaged : item.triageRequested = false
  waits : ∀ other ∈ items, other.id ∈ item.dependencies → other.id ≠ item.id → other.status = .done

theorem mayStart_of_open (hdistinct : (ids items).Nodup) (hopen : IsOpen running item)
    (hmet : unmetDependencies items item = []) : MayStart items running item where
  idle := hopen.idle
  standing := by
    cases hstatus : item.status with
    | done => exact absurd hstatus hopen.unfinished
    | blocked => exact absurd hstatus hopen.unblocked
    | _ => decide
  unmerged := hopen.unmerged
  untriaged := hopen.untriaged
  waits := fun _ hother => done_of_unmetDependencies hdistinct hmet hother

/-- A plan keeps to the limits as far as what is in flight does. It touches nothing that is in flight,
    and of items with distinct IDs it moves only those that may start. -/
theorem tick_within_limits (items : List Item) (running : Running) (limits : Limits)
    (pipelines : Pipelines) :
    running.size + (tick items running limits pipelines).actions.countP Action.takesCapacity
        ≤ max limits.maxWip running.size ∧
      running.destructiveCount
          + (tick items running limits pipelines).actions.countP Action.isDestructive
        ≤ max limits.maxExclusive running.destructiveCount ∧
      (∀ action ∈ (tick items running limits pipelines).actions,
        running.contains action.item = false) ∧
      ((ids items).Nodup → ∀ action ∈ (tick items running limits pipelines).actions,
        action.takesCapacity = true →
          ∃ item, findItem action.item items = some item ∧ MayStart items running item) := by
  have hwip := countP_takesCapacity_le items running limits pipelines
  have hexclusive := countP_isDestructive_le items running limits pipelines
  refine ⟨by omega, by omega, ?_, ?_⟩
  · intro action haction
    exact idle_of_mem_actions haction
  · intro hdistinct action haction htakes
    obtain ⟨item, hitem, hid, hopen, -, hmet⟩ := proposal_of_takesCapacity haction htakes
    refine ⟨item, ?_, mayStart_of_open hdistinct hopen hmet⟩
    rw [← hid]
    exact findItem_of_mem hdistinct hitem

/-- The plan of the sample promotes one item and runs a phase of another, and both may start. -/
theorem tick_within_limits_sample :
    sampleRunning.size
        + (tick sample sampleRunning {} default).actions.countP Action.takesCapacity ≤ 3 ∧
      (ids sample).Nodup ∧
      Action.runPhase "WRK-2" "build" .main true ∈ (tick sample sampleRunning {} default).actions ∧
      ∃ item, findItem "WRK-2" sample = some item ∧ MayStart sample sampleRunning item := by
  obtain ⟨hwip, -, -, hstart⟩ := tick_within_limits sample sampleRunning {} default
  have hdistinct : (ids sample).Nodup := by decide
  have hrun : Action.runPhase "WRK-2" "build" .main true
      ∈ (tick sample sampleRunning {} default).actions := by
    rw [tick_sample]
    decide
  have hlimit : max ({} : Limits).maxWip sampleRunning.size = 3 := by decide
  rw [hlimit] at hwip
  exact ⟨hwip, hdistinct, hrun, hstart hdistinct _ hrun rfl⟩

end Schedule

end Backlog
