/-
  Who gets a slot.

  Program: the candidates are offered slots one after the other, each from what those before it left.

  Specification: slots go to candidates in the order of their turns, and whoever goes without one
  while a later candidate gets one could not have used it.  No slot stays free for which somebody was
  turned away (`turns_are_kept`).  More slots only mean that what was granted before is followed by
  more (`raising_wip_adds`).

  The crux is that both budgets only fall (`remaining_le`): where a later candidate still finds a
  slot of a kind, there was one for everybody before it.
-/
import Backlog.Proofs.Schedule.Order

namespace Backlog

namespace Schedule

variable {items : List Item} {running : Running} {limits : Limits} {pipelines : Pipelines}
  {x y : Item} {action : Action} {free more : Capacity} {offered : List Item}

/-! ## Budgets fall -/

/-- As long as there are slots, it does not matter how many. -/
theorem offer_congr (hfree : 0 < free.wip) (hmore : 0 < more.wip)
    (hexclusive : free.exclusive = more.exclusive) (item : Item) :
    (offer items pipelines free item).1 = (offer items pipelines more item).1 := by
  cases hproposal : proposal pipelines item with
  | none => rw [offer_of_no_proposal hproposal, offer_of_no_proposal hproposal]
  | some action =>
    by_cases hmet : unmetDependencies items item = []
    · by_cases hopen : action.isDestructive = true → 0 < free.exclusive
      · rw [offer_of_free hproposal hmet hfree hopen,
          offer_of_free hproposal hmet hmore (hexclusive ▸ hopen)]
      · obtain ⟨hdestructive, hnone⟩ := Classical.not_imp.mp hopen
        have hshut := Nat.eq_zero_of_not_pos hnone
        rw [offer_of_not_exclusive hproposal hmet hfree hdestructive hshut,
          offer_of_not_exclusive hproposal hmet hmore hdestructive (hexclusive ▸ hshut)]
    · rw [offer_of_unmet hproposal hmet, offer_of_unmet hproposal hmet]

/-- The slots go to the first of those that would get one if there were more. -/
theorem actions_take (items : List Item) (pipelines : Pipelines) (offered : List Item)
    (hwip : free.wip ≤ more.wip) (hexclusive : free.exclusive = more.exclusive) :
    (offerAll items pipelines free offered).actions
      = (offerAll items pipelines more offered).actions.take free.wip := by
  induction offered generalizing free more with
  | nil => exact List.take_nil.symm
  | cons first rest ih =>
    rcases Nat.eq_zero_or_pos free.wip with hfull | hfree
    · -- there is nothing left to give
      obtain ⟨hlength, -⟩ := taken_add_remaining items pipelines free (first :: rest)
      rw [hfull, List.take_zero]
      exact List.eq_nil_of_length_eq_zero (by omega)
    · -- both give the same to the first one, and are left as they were to each other
      have hsame : (offer items pipelines free first).1 = (offer items pipelines more first).1 :=
        offer_congr hfree (Nat.lt_of_lt_of_le hfree hwip) hexclusive first
      cases hdecision : (offer items pipelines free first).1 with
      | ok action =>
        have hrest : (offerAll items pipelines (free.after action) rest).actions
            = (offerAll items pipelines (more.after action) rest).actions.take (free.wip - 1) :=
          ih (Nat.sub_le_sub_right hwip 1) (congrArg (· - _) hexclusive)
        rw [offerAll_cons_ok (offer_of_granted hdecision),
          offerAll_cons_ok (offer_of_granted (hsame.symm.trans hdecision)), List.take_cons hfree, hrest]
      | error reason =>
        rw [offerAll_cons_error (offer_of_error hdecision),
          offerAll_cons_error (offer_of_error (hsame.symm.trans hdecision))]
        exact ih hwip hexclusive

/-! ## Plans -/

/-- Two items in a destructive phase, and two new ones. -/
def contended : List Item :=
  [Draft.sample.enter ⟨0, 0⟩ .inProgress .main ⟨"build", true⟩,
   { Draft.sample.enter ⟨0, 0⟩ .inProgress .main ⟨"build", true⟩ with id := "WRK-2" },
   { Draft.sample with id := "WRK-3" },
   { Draft.sample with id := "WRK-4" }]

theorem tick_contended : tick contended .empty { maxWip := 2 } default
    = { actions := [.runPhase "WRK-1" "build" .main true, .promote "WRK-3" .new]
        skipped := [("WRK-2", .exclusiveLimit), ("WRK-4", .wipLimit)] } := by
  have hage : byAge contended = contended := byAge_of_pairwise (by decide +kernel)
  rw [tick, candidates, hage, byKeyDown_of_pairwise (by decide +kernel),
    byKeyDown_of_pairwise (by decide +kernel), byKeyDown_of_pairwise (by decide +kernel)]
  decide +kernel

/-- A higher limit on the work in progress adds actions behind those that there were. A lower one
    leaves the first of those that take a slot. -/
theorem raising_wip_adds (items : List Item) (running : Running) (limits : Limits)
    (pipelines : Pipelines) {m n : Nat} (h : m ≤ n) :
    (tick items running { limits with maxWip := m } pipelines).actions
        <+: (tick items running { limits with maxWip := n } pipelines).actions ∧
      (tick items running { limits with maxWip := m } pipelines).actions.filter Action.takesCapacity
        = ((tick items running { limits with maxWip := n } pipelines).actions.filter
            Action.takesCapacity).take (m - running.size) := by
  have htake : (offerAll items pipelines (.left { limits with maxWip := m } running)
      (candidates items running pipelines)).actions
        = (offerAll items pipelines (.left { limits with maxWip := n } running)
            (candidates items running pipelines)).actions.take (m - running.size) :=
    actions_take items pipelines _ (Nat.sub_le_sub_right h _) rfl
  constructor
  · rw [actions_tick, actions_tick, htake, List.prefix_append_right_inj]
    exact List.take_prefix _ _
  · rw [filter_actions_tick, filter_actions_tick]
    exact htake

/-- With one slot the sample does the first of the two things that it does with two. -/
theorem raising_wip_adds_contended :
    1 ≤ 2 ∧ (tick contended .empty { maxWip := 1 } default).actions
        <+: [.runPhase "WRK-1" "build" .main true, .promote "WRK-3" .new] ∧
      (tick contended .empty { maxWip := 1 } default).actions.filter Action.takesCapacity
        = [.runPhase "WRK-1" "build" .main true] := by
  have hraised := raising_wip_adds contended .empty {} default (m := 1) (n := 2) (by decide)
  rw [tick_contended] at hraised
  exact ⟨by decide, hraised.1, hraised.2⟩

end Schedule

end Backlog
