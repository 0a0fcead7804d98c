/-
  The recorded pool and the status.

  Program: a completion goes by the pool that is recorded for an item, whatever its status; the status
  counts only where no pool is recorded.  Updates may set both.

  Specification: where the two are in step (`Course.InStep`), a completion leaves the status as it is or
  takes the item out of its pool; where they are not, it never does (`recordOutcome_status_iff`).
  Promotions, completions, blocks and unblocks leave them in step.  The same holds for updates, but
  not for those that name a running status or a pool (`Update.places`).
-/
import Backlog.Proofs.Item.Moves

namespace Backlog

/-- The recorded pool is the one whose phases run in the status, unless none is recorded. -/
def Course.InStep (c : Course) : Prop :=
  ∀ usual, Pool.ofStatus? c.standing = some usual → c.pool.getD usual = usual

/-- Whether an update names a status in which a phase runs, or a pool. -/
def Update.places : Update → Bool
  | .transition status => (Pool.ofStatus? status).isSome
  | .setPhasePool pool => pool.isSome
  | .setPhase _ | .setPipelineType _ | .setBlocked .. | .setUnblockContext _ | .assess ..
  | .setDescription _ | .setTriageRequested _ | .setMergeInto _ | .setDependencies _ | .addTag _
  | .removeTag _ | .setTitle _ | .setPriority _ => false

namespace Course

variable {c : Course}

/-- Where no phase runs there is nothing to be in step with. -/
theorem inStep_of_idle (h : Pool.ofStatus? c.standing = none) : c.InStep := by
  intro usual husual
  rw [h] at husual
  cases husual

instance (c : Course) : Decidable c.InStep :=
  match h : Pool.ofStatus? c.standing with
  | none => .isTrue (inStep_of_idle h)
  | some usual => decidable_of_iff (c.pool.getD usual = usual)
      ⟨fun hpool _ hother => Option.some.inj (h.symm.trans hother) ▸ hpool, fun hstep => hstep usual h⟩

theorem inStep_of_no_pool (h : c.pool = none) : c.InStep := by
  intro usual _
  rw [h, Option.getD_none]

theorem inStep_block (h : c.InStep) : c.block.InStep := by
  rw [InStep, standing_block, pool_block]
  exact h

/-- Going on sets both. -/
theorem inStep_proceed (c : Course) (pool : Pool) (next : Option Phase) :
    (c.proceed pool next).InStep := by
  cases next with
  | none => exact inStep_of_no_pool rfl
  | some phase =>
    intro usual husual
    have hstanding : (c.proceed pool (some phase)).standing = pool.status :=
      standing_of_ne (by cases pool <;> rintro ⟨⟩)
    rw [hstanding] at husual
    cases pool <;> cases husual <;> rfl

end Course

namespace Item

variable {now : Stamp} {set : Pipelines} {item after : Item}

/-! ## Changes that leave them in step -/

theorem inStep_draft (draft : Draft) (id : String) (now : Stamp) :
    (draft.item id now).course.InStep := by
  rw [course_draft]
  exact Course.inStep_of_no_pool rfl

theorem inStep_promote {progress : Progress} (h : item.promote now set = (.ok progress, after)) :
    after.course.InStep := by
  obtain ⟨pipeline, pool, -, -, -, hcourse⟩ := promote_course h
  rw [hcourse]
  exact Course.inStep_proceed item.course pool _

theorem inStep_recordOutcome {phase : String} {outcome : RunOutcome} {recorded : Recorded}
    (hstep : item.course.InStep) (h : item.recordOutcome now phase outcome set = (.ok recorded, after)) :
    after.course.InStep := by
  obtain ⟨-, pool, -, ⟨-, pipeline, -, -, -, hcourse⟩ | ⟨-, -, hcourse⟩⟩ := recordOutcome_course h
  · rw [hcourse]
    exact Course.inStep_proceed item.course pool _
  · rw [hcourse]
    exact Course.inStep_block hstep

theorem inStep_unblock {context : Option String} {restored : Status} (hstep : item.course.InStep)
    (h : item.unblock now context = (.ok restored, after)) : after.course.InStep := by
  obtain ⟨hstanding, -, hpool, -⟩ := unblock_keeps h
  rw [Course.InStep, hstanding, show after.course.pool = item.course.pool from hpool]
  exact hstep

/-- What a status change that is asked for makes of the course. -/
theorem transition_course {dst : Status} (h : item.transition now dst = (.ok (), after)) :
    after.course = item.course ∨ after.course = item.course.block ∨
      dst ≠ .blocked ∧ after.course = { item.course with status := dst } := by
  rcases transition_inv h with ⟨-, rfl⟩ | ⟨-, -, hblock⟩ | ⟨hdst, -, rfl⟩
  · exact .inl rfl
  · exact .inr (.inl (setBlocked_inv hblock))
  · exact .inr (.inr ⟨hdst, course_setStatus now dst item⟩)

theorem inStep_applyUpdate {u : Update} (hu : u.places = false) (hstep : item.course.InStep)
    (h : item.applyUpdate now u = (.ok (), after)) : after.course.InStep := by
  cases hsteers : u.steers with
  | false =>
    have hcourse : after.course = item.course := by
      rw [← course_applyUpdate now item hsteers, h]
    rw [hcourse]
    exact hstep
  | true =>
    cases u with
    | transition status =>
      have hidle : Pool.ofStatus? status = none := by
        simpa [Update.places] using hu
      -- no phase runs in the new status, and a block hides the old one only
      simp only [applyUpdate] at h
      split at h
      · cases h
      · rcases transition_course h with hcourse | hcourse | ⟨hne, hcourse⟩
        · rw [hcourse]
          exact hstep
        · rw [hcourse]
          exact Course.inStep_block hstep
        · rw [hcourse]
          exact Course.inStep_of_idle (by rw [Course.standing_of_ne hne]; exact hidle)
    | setPhase phase =>
      cases h
      rw [course_setPhase]
      exact hstep
    | setPhasePool pool =>
      obtain rfl : pool = none := by simpa [Update.places] using hu
      cases h
      rw [course_setPhasePool]
      exact Course.inStep_of_no_pool rfl
    | setPipelineType name =>
      cases h
      rw [course_setPipelineType]
      exact hstep
    | setBlocked reason blockedType =>
      rw [setBlocked_inv h]
      exact Course.inStep_block hstep
    | _ => cases hsteers

theorem inStep_applyUpdates {updates : List Update} (hupdates : ∀ u ∈ updates, u.places = false)
    (hstep : item.course.InStep) (h : item.applyUpdates now updates = (.ok (), after)) :
    after.course.InStep :=
  applyUpdates_keeps (I := fun item => item.course.InStep)
    (fun u hu _ _ hupdate hitem => inStep_applyUpdate (hupdates u hu) hitem hupdate) h hstep

/-! ## Completions -/

/-- A completion keeps an item in the statuses of a pool, or takes it out at its end, exactly if the
    pool is the recorded one. -/
theorem recordOutcome_status_iff {phase : String} {recorded : Recorded}
    (h : item.recordOutcome now phase .complete set = (.ok recorded, after)) :
    ∃ usual, Pool.ofStatus? item.status = some usual ∧
      ((after.status = usual.status ∨ after.status = usual.exit) ↔
        item.phasePool.getD usual = usual) := by
  obtain ⟨-, pool, hpool, ⟨-, pipeline, -, -, -, hcourse⟩ | ⟨hnot, -⟩⟩ := recordOutcome_course h
  · obtain ⟨usual, husual, -, rfl⟩ := runningPool_eq_ok_iff.mp hpool
    have hstatus := status_proceed item.course (item.phasePool.getD usual)
      (pipeline.next? (item.phasePool.getD usual) phase)
    rw [← hcourse] at hstatus
    refine ⟨usual, husual, ?_⟩
    generalize item.phasePool.getD usual = pool at hstatus
    generalize hafter : after.course.status = status at hstatus
    rw [show after.status = status from hafter]
    -- the two pools share no status
    rcases hstatus with rfl | rfl <;> cases pool <;> cases usual <;> decide
  · exact absurd rfl hnot

end Item

end Backlog
