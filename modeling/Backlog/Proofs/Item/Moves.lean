/-
  How an item moves along its pipeline.

  Program: promotion and completion make an item proceed in a pool, into a phase or out of the pool;
  a phase run that is not complete blocks it.

  Specification: each of these changes is accepted in known cases (`promote_of_entered?`,
  `recordOutcome_ok`), and what an accepted one makes of the course is a function of the course before
  (`promote_course`, `advance_course`, `recordOutcome_course`).

  Nothing after this module looks into how an item is written.
-/
import Backlog.Proofs.Item.Course

namespace Backlog

/-! ## Entering and leaving a pool -/

namespace Pool

/-- The status of an item that has left the pool. -/
def exit : Pool → Status
  | .pre => .ready
  | .main => .done

/-- The pool that an item of this status is promoted into. -/
def entered? : Status → Option Pool
  | .new => some .pre
  | .ready => some .main
  | .scoping | .inProgress | .done | .blocked => none

/-- Where an item lands that goes on to a phase of the pool, or leaves it. -/
def progress (pool : Pool) : Option Phase → Progress
  | some phase => .entered phase pool
  | none => match pool with
    | .pre => .ready
    | .main => .done

theorem progress_eq_entered_iff {pool other : Pool} {next : Option Phase} {phase : Phase} :
    pool.progress next = .entered phase other ↔ next = some phase ∧ other = pool := by
  cases next with
  | none => cases pool <;> simp [progress]
  | some current => simp [progress, eq_comm]

end Pool

/-- The course of an item that goes on to a phase of a pool, or leaves it. -/
def Course.proceed (c : Course) (pool : Pool) : Option Phase → Course
  | some phase =>
    { c with status := pool.status, phase := Item.notBlank (some (Text.trim phase.name)),
             pool := some pool }
  | none => { c with status := pool.exit, phase := none, pool := none }

namespace Item

variable {now : Stamp} {set : Pipelines} {item after : Item} {pool : Pool} {phase : String}

theorem proceed_course (now : Stamp) (pool : Pool) (next : Option Phase) (item : Item) :
    (item.proceed now pool.status pool next).1 = pool.progress next ∧
    (item.proceed now pool.status pool next).2.course = item.course.proceed pool next := by
  cases next with
  | some phase => simp [proceed, enter, Pool.progress, Course.proceed]
  | none =>
    have hblank : notBlank none = none := rfl
    cases pool <;> simp [proceed, leave, Pool.progress, Course.proceed, Pool.exit, hblank]

theorem status_proceed (c : Course) (pool : Pool) (next : Option Phase) :
    (c.proceed pool next).status = pool.status ∨ (c.proceed pool next).status = pool.exit := by
  cases next with
  | none => exact .inr rfl
  | some phase => exact .inl rfl

/-! ## Promotion -/

theorem promote_of_entered? (now : Stamp) {pipeline : Pipeline}
    (hpipeline : item.pipeline set = .ok pipeline) (hpool : Pool.entered? item.status = some pool) :
    item.promote now set
      = (.ok (item.proceed now pool.status pool (pipeline.first? pool)).1,
        (item.proceed now pool.status pool (pipeline.first? pool)).2) := by
  simp only [promote, hpipeline]
  cases hstatus : item.status with
  | new =>
    rw [hstatus] at hpool
    cases hpool
    rfl
  | ready =>
    rw [hstatus] at hpool
    cases hpool
    rfl
  | _ =>
    rw [hstatus] at hpool
    cases hpool

theorem promote_of_not_entered? (now : Stamp) {pipeline : Pipeline}
    (hpipeline : item.pipeline set = .ok pipeline) (hpool : Pool.entered? item.status = none) :
    item.promote now set = (.error (.notPromotable item.status), item) := by
  simp only [promote, hpipeline]
  cases hstatus : item.status with
  | new =>
    rw [hstatus] at hpool
    cases hpool
  | ready =>
    rw [hstatus] at hpool
    cases hpool
  | _ => rfl

/-- What an accepted promotion does. -/
theorem promote_course {progress : Progress}
    (h : item.promote now set = (.ok progress, after)) :
    ∃ pipeline pool, item.pipeline set = .ok pipeline ∧ Pool.entered? item.status = some pool ∧
      progress = pool.progress (pipeline.first? pool) ∧
      after.course = item.course.proceed pool (pipeline.first? pool) := by
  cases hpipeline : item.pipeline set with
  | error e =>
    simp only [promote, hpipeline] at h
    cases h
  | ok pipeline =>
    cases hpool : Pool.entered? item.status with
    | none =>
      rw [promote_of_not_entered? now hpipeline hpool] at h
      cases h
    | some pool =>
      rw [promote_of_entered? now hpipeline hpool] at h
      cases h
      obtain ⟨hprogress, hcourse⟩ := proceed_course now pool (pipeline.first? pool) item
      exact ⟨pipeline, pool, rfl, rfl, hprogress, hcourse⟩

/-! ## Completion -/

theorem runningPool_eq_ok_iff : item.runningPool phase = .ok pool ↔
    ∃ usual, Pool.ofStatus? item.status = some usual ∧ item.phase = some phase ∧
      pool = item.phasePool.getD usual := by
  rw [runningPool]
  cases Pool.ofStatus? item.status with
  | none => simp
  | some usual =>
    cases item.phase with
    | none => simp
    | some current =>
      by_cases hphase : current = phase
      · simp [hphase, eq_comm]
      · simp [hphase]

theorem advance_of_runningPool (now : Stamp) {pipeline : Pipeline}
    (hpipeline : item.pipeline set = .ok pipeline) (hpool : item.runningPool phase = .ok pool)
    (hindex : (pipeline.index? pool phase).isSome = true) :
    item.advance now phase set
      = (.ok ((item.setUnblockContext now none).proceed now pool.status pool
          (pipeline.next? pool phase)).1,
        ((item.setUnblockContext now none).proceed now pool.status pool
          (pipeline.next? pool phase)).2) := by
  have hsome : ¬ (pipeline.index? pool phase).isNone = true := by
    rw [Option.isNone_iff_eq_none]
    intro hnone
    rw [hnone] at hindex
    cases hindex
  simp only [advance, hpool, hpipeline, if_neg hsome]

/-- What an accepted completion does. -/
theorem advance_course {progress : Progress}
    (h : item.advance now phase set = (.ok progress, after)) :
    ∃ pipeline pool, item.pipeline set = .ok pipeline ∧ item.runningPool phase = .ok pool ∧
      (pipeline.index? pool phase).isSome = true ∧
      progress = pool.progress (pipeline.next? pool phase) ∧
      after.course = item.course.proceed pool (pipeline.next? pool phase) := by
  cases hpool : item.runningPool phase with
  | error e =>
    simp only [advance, hpool] at h
    cases h
  | ok pool =>
    cases hpipeline : item.pipeline set with
    | error e =>
      simp only [advance, hpool, hpipeline] at h
      cases h
    | ok pipeline =>
      cases hindex : pipeline.index? pool phase with
      | none =>
        simp only [advance, hpool, hpipeline, hindex] at h
        cases h
      | some i =>
        have hsome : (pipeline.index? pool phase).isSome = true := by rw [hindex]; rfl
        rw [advance_of_runningPool now hpipeline hpool hsome] at h
        cases h
        obtain ⟨hprogress, hcourse⟩ := proceed_course now pool (pipeline.next? pool phase)
          (item.setUnblockContext now none)
        -- the answer that unblocked the item is no part of its course
        have hcontext : (item.setUnblockContext now none).course = item.course :=
          (spares_setText now .unblockContext item none).course (by decide)
        rw [hcontext] at hcourse
        exact ⟨pipeline, pool, rfl, rfl, hsome, hprogress, hcourse⟩

/-! ## Phase runs -/

theorem blockInPhase_course (now : Stamp) (reason : String) (blockedType : Option BlockType)
    (hpool : item.runningPool phase = .ok pool) :
    ∃ after, item.blockInPhase now phase reason blockedType = (.ok (), after) ∧
      after.course = item.course.block := by
  have hopen : item.status ≠ .done := by
    obtain ⟨usual, husual, -⟩ := runningPool_eq_ok_iff.mp hpool
    intro hdone
    rw [hdone] at husual
    cases husual
  simp only [blockInPhase, hpool]
  exact setBlocked_course now (some reason) blockedType hopen

/-- A run that is not complete blocks an item that is running its phase. -/
theorem recordOutcome_blocks (now : Stamp) (set : Pipelines) {outcome : RunOutcome}
    (houtcome : outcome ≠ .complete) (hpool : item.runningPool phase = .ok pool) :
    ∃ after, item.recordOutcome now phase outcome set
        = (.ok ⟨after.status, none, item.lastPhaseCommit⟩, after) ∧
      after.course = item.course.block := by
  cases outcome with
  | complete => exact absurd rfl houtcome
  | blocked reason blockedType =>
    obtain ⟨after, hblock, hcourse⟩ := blockInPhase_course now reason (some blockedType) hpool
    exact ⟨after, by simp only [recordOutcome, hblock], hcourse⟩
  | failed reason =>
    obtain ⟨after, hblock, hcourse⟩ :=
      blockInPhase_course now s!"phase {phase} failed: {reason}" none hpool
    exact ⟨after, by simp only [recordOutcome, hblock], hcourse⟩

/-- A run of a phase that the item is not running is refused. -/
theorem recordOutcome_of_not_running (now : Stamp) (set : Pipelines) {outcome : RunOutcome}
    {e : Refusal} (hpool : item.runningPool phase = .error e) :
    item.recordOutcome now phase outcome set = (.error e, item) := by
  cases outcome <;> simp only [recordOutcome, advance, blockInPhase, hpool]

/-- A run is accepted if the item is running the phase, and it is a phase of its pipeline should it
    be complete. -/
theorem recordOutcome_ok (now : Stamp) (outcome : RunOutcome) {pipeline : Pipeline}
    (hpool : item.runningPool phase = .ok pool) (hpipeline : item.pipeline set = .ok pipeline)
    (hindex : (pipeline.index? pool phase).isSome = true) :
    ∃ recorded after, item.recordOutcome now phase outcome set = (.ok recorded, after) := by
  by_cases houtcome : outcome = .complete
  · subst houtcome
    have hadvance := advance_of_runningPool now hpipeline hpool hindex
    exact ⟨_, _, by simp only [recordOutcome, hadvance]; rfl⟩
  · obtain ⟨after, hrecord, -⟩ := recordOutcome_blocks now set houtcome hpool
    exact ⟨_, after, hrecord⟩

/-- What an accepted phase run does: it leads along the pipeline if it is complete, and blocks the
    item if not. -/
theorem recordOutcome_course {outcome : RunOutcome} {recorded : Recorded}
    (h : item.recordOutcome now phase outcome set = (.ok recorded, after)) :
    recorded.status = after.status ∧ ∃ pool, item.runningPool phase = .ok pool ∧
      ((outcome = .complete ∧ ∃ pipeline, item.pipeline set = .ok pipeline ∧
          (pipeline.index? pool phase).isSome = true ∧
          recorded.progress = some (pool.progress (pipeline.next? pool phase)) ∧
          after.course = item.course.proceed pool (pipeline.next? pool phase)) ∨
        (outcome ≠ .complete ∧ recorded.progress = none ∧ after.course = item.course.block)) := by
  cases hpool : item.runningPool phase with
  | error e =>
    rw [recordOutcome_of_not_running now set hpool] at h
    cases h
  | ok pool =>
    -- a complete run advances the item, any other blocks it
    by_cases houtcome : outcome = .complete
    · subst houtcome
      cases hadvance : item.advance now phase set with
      | mk result moved =>
        cases result with
        | error e =>
          simp only [recordOutcome, hadvance] at h
          cases h
        | ok progress =>
          simp only [recordOutcome, hadvance] at h
          cases h
          obtain ⟨pipeline, pool', hpipeline, hpool', hindex, hprogress, hcourse⟩ :=
            advance_course hadvance
          rw [hpool] at hpool'
          cases hpool'
          exact ⟨rfl, pool, rfl,
            .inl ⟨rfl, pipeline, hpipeline, hindex, congrArg some hprogress, hcourse⟩⟩
    · obtain ⟨blocked, hrecord, hcourse⟩ := recordOutcome_blocks now set houtcome hpool
      rw [hrecord] at h
      cases h
      exact ⟨rfl, pool, rfl, .inr ⟨houtcome, rfl, hcourse⟩⟩

/-! ## Unblocking -/

/-- What an accepted unblock does. -/
theorem unblock_inv {context : Option String} {restored : Status}
    (h : item.unblock now context = (.ok restored, after)) :
    item.status = .blocked ∧ item.blockedFrom = some restored ∧
      after.course = { item.course with status := restored, blockedFrom := none } := by
  by_cases hblocked : item.status = .blocked
  · cases hrestored : item.blockedFrom with
    | none =>
      simp only [unblock, hblocked, hrestored] at h
      cases h
    | some status =>
      obtain ⟨after', hunblock, hcourse⟩ := unblock_course now context hblocked hrestored
      rw [hunblock] at h
      cases h
      exact ⟨hblocked, rfl, hcourse⟩
  · simp only [unblock, if_pos hblocked] at h
    cases h

/-- An unblocked item is where it was blocked. -/
theorem unblock_keeps {context : Option String} {restored : Status}
    (h : item.unblock now context = (.ok restored, after)) :
    after.course.standing = item.course.standing ∧ after.phase = item.phase ∧
      after.phasePool = item.phasePool ∧ after.pipelineType = item.pipelineType := by
  obtain ⟨hblocked, hrestored, hcourse⟩ := unblock_inv h
  have hopen : restored ≠ .blocked := by
    rintro rfl
    cases isBlockable_of_blockedFrom hrestored
  have hstanding : item.course.standing = restored := by
    rw [Course.standing_of_blocked hblocked,
      show item.course.blockedFrom = some restored from hrestored, Option.getD_some]
  refine ⟨?_, congrArg Course.phase hcourse, congrArg Course.pool hcourse, congrArg Course.type hcourse⟩
  rw [hcourse, hstanding]
  exact Course.standing_of_ne hopen

/-! ## Updates -/

/-- A status change that is asked for has been made before, is a block, or is as the table allows. -/
theorem transition_inv {dst : Status} (h : item.transition now dst = (.ok (), after)) :
    (item.status = dst ∧ after = item) ∨
    (item.status ≠ dst ∧ dst = .blocked ∧ item.setBlocked now none none = (.ok (), after)) ∨
    (dst ≠ .blocked ∧ item.status.mayBecome dst = true ∧ after = item.setStatus now dst) := by
  simp only [transition] at h
  split at h
  · next hsame =>
    cases h
    exact .inl ⟨hsame, rfl⟩
  · next hother =>
    split at h
    · cases h
    · next hallowed =>
      split at h
      · next hdst => exact .inr (.inl ⟨hother, hdst, h⟩)
      · next hdst =>
        cases h
        exact .inr (.inr ⟨hdst, by simpa using hallowed, rfl⟩)

/-- What each update keeps, updates keep together. -/
theorem applyUpdates_keeps {I : Item → Prop} {updates : List Update}
    (hkeeps : ∀ u ∈ updates, ∀ item after, item.applyUpdate now u = (.ok (), after) → I item → I after)
    (h : item.applyUpdates now updates = (.ok (), after)) (hitem : I item) : I after := by
  induction updates generalizing item with
  | nil =>
    cases h
    exact hitem
  | cons u us ih =>
    simp only [applyUpdates] at h
    split at h
    · next between hupdate =>
      have hbetween : I between := hkeeps u List.mem_cons_self item between hupdate hitem
      exact ih (fun v hv => hkeeps v (List.mem_cons_of_mem _ hv)) h hbetween
    · cases h

/-- The answer to updates is the item after all of them. -/
theorem applyAll_inv {updates : List Update} {answer : Item}
    (h : item.applyAll now updates = (.ok answer, after)) :
    item.applyUpdates now updates = (.ok (), after) ∧ answer = after := by
  rw [applyAll] at h
  cases hupdates : item.applyUpdates now updates with
  | mk result changed =>
    rw [hupdates] at h
    cases result with
    | error e => cases h
    | ok u =>
      cases h
      exact ⟨rfl, rfl⟩

end Item

end Backlog
