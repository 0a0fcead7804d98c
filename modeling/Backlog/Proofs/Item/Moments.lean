/-
  What an item goes through.

  Program: an item is changed by updates, promotions, phase starts, phase runs and unblocks, and by
  merges, of which it is the target or a bystander.

  Specification: a `Moment` is one such change between what the item was and what it became, and a
  `Life` is a sequence of them, each beginning where the last one ended.  What a moment may do to the
  status, to the status to restore and to the answer of a blocked item is said once
  (`Moment.Happens.shift`); what a whole life keeps follows by induction (`Life.keeps`).

  Done is left by no moment and blocked only by an unblock.  The status to restore is set when the
  item goes from another status to blocked and stays until then, so it is told by the moments
  (`lastBlockedFrom`).
-/
import Backlog.Proofs.Item.Entries
import Backlog.Proofs.Item.Moves

namespace Backlog

/-! ## Moments -/

/-- What changes an item. -/
inductive Event where
  | updated (update : Update)
  | promoted
  | started
  | ran (outcome : RunOutcome)
  | unblocked (context : Option String)
  | merged
deriving DecidableEq

/-- A change of an item. -/
structure Moment where
  before : Item
  event : Event
  after : Item

namespace Moment

/-- The event leads from the one item to the other. -/
inductive Happens (set : Pipelines) : Moment → Prop where
  | updated {now : Stamp} {u : Update} {before after : Item} :
      before.applyUpdate now u = (.ok (), after) → Happens set ⟨before, .updated u, after⟩
  | promoted {now : Stamp} {progress : Progress} {before after : Item} :
      before.promote now set = (.ok progress, after) → Happens set ⟨before, .promoted, after⟩
  | started {now : Stamp} {revision : Option String} {before after : Item} :
      before.startPhase now revision = (.ok (), after) → Happens set ⟨before, .started, after⟩
  | ran {now : Stamp} {phase : String} {outcome : RunOutcome} {recorded : Recorded}
      {before after : Item} :
      before.recordOutcome now phase outcome set = (.ok recorded, after) →
      Happens set ⟨before, .ran outcome, after⟩
  | unblocked {now : Stamp} {context : Option String} {restored : Status} {before after : Item} :
      before.unblock now context = (.ok restored, after) →
      Happens set ⟨before, .unblocked context, after⟩
  | merged {now : Stamp} {source target : String} {leaving before : Item} :
      Happens set ⟨before, .merged, Item.merged now source target leaving before⟩

/-- The item is blocked, or is blocked again. -/
def blocks (m : Moment) : Bool :=
  match m.event with
  | .updated (.setBlocked ..) => true
  | .updated (.transition status) => status = .blocked ∧ m.before.status ≠ .blocked
  | .ran outcome => outcome ≠ .complete
  | _ => false

/-- An answer that was given before no longer counts: the item is blocked, the phase that needed the
    answer is complete, or there is another one. -/
def resets (m : Moment) : Bool :=
  m.blocks || match m.event with
    | .updated (.setUnblockContext _) | .ran .complete => true
    | _ => false

/-- What a moment does to the status, to the status to restore and to the answer. -/
inductive Shift (m : Moment) : Prop where
  | blocks : m.blocks = true → m.before.status ≠ .done → m.after.course = m.before.course.block →
      m.after.unblockContext = none → Shift m
  | answers {context : Option String} : m.event = .updated (.setUnblockContext context) →
      m.after.course = m.before.course →
      m.after.unblockContext = Item.notBlank (context.map Text.trim) → Shift m
  | completes : m.event = .ran .complete → m.before.status ≠ .done → m.before.status ≠ .blocked →
      m.after.status ≠ .blocked → m.after.unblockContext = none → Shift m
  | frees {context : Option String} : m.event = .unblocked context → m.before.status = .blocked →
      m.after.status ≠ .blocked →
      m.after.unblockContext = (Item.notBlank context).or m.before.unblockContext → Shift m
  /-- The status changes as the table and the pipeline allow. -/
  | moves : m.resets = false → m.before.status ≠ .done → m.before.status ≠ .blocked →
      m.after.status ≠ .blocked → m.after.unblockContext = m.before.unblockContext → Shift m
  | stays : m.resets = false → m.after.status = m.before.status →
      m.after.blockedFrom = m.before.blockedFrom →
      m.after.unblockContext = m.before.unblockContext → Shift m

end Moment

/-! ## The answer -/

namespace Item

variable {now : Stamp} {set : Pipelines} {item after : Item}

theorem unblockContext_of_none (h : item.extension? .unblockContext = none) :
    item.unblockContext = none := by
  rw [unblockContext, inspectText_none h]
  rfl

theorem unblockContext_of_text {text : Option String} (hblank : notBlank text = text)
    (h : item.extension? .unblockContext = text.map Json.text) : item.unblockContext = text := by
  rw [unblockContext, inspectText_of_entry h]
  exact hblank

/-- A block takes the answer away. -/
theorem unblockContext_setBlocked {reason : Option String} {blockedType : Option BlockType}
    (h : item.setBlocked now reason blockedType = (.ok (), after)) :
    item.status ≠ .done ∧ after.unblockContext = none := by
  by_cases hdone : item.status = .done
  · rw [setBlocked, if_pos hdone] at h
    cases h
  · rw [setBlocked_eq now reason blockedType hdone] at h
    cases h
    refine ⟨hdone, unblockContext_of_none ?_⟩
    rw [blockRecorded, extension?_removeEntry, if_pos rfl]

/-- However a phase run ends, the answer is used up or out of date. -/
theorem unblockContext_recordOutcome {phase : String} {outcome : RunOutcome} {recorded : Recorded}
    (h : item.recordOutcome now phase outcome set = (.ok recorded, after)) :
    after.unblockContext = none := by
  obtain ⟨-, pool, hpool, hway⟩ := recordOutcome_course h
  have hblock : ∀ reason blockedType,
      item.blockInPhase now phase reason blockedType = item.setBlocked now (some reason) blockedType := by
    intro reason blockedType
    simp only [blockInPhase, hpool]
  cases outcome with
  | complete =>
    obtain ⟨-, pipeline, hpipeline, hindex, -⟩ | ⟨hnot, -⟩ := hway
    · rw [recordOutcome, advance_of_runningPool now hpipeline hpool hindex] at h
      cases h
      refine unblockContext_of_none ?_
      rw [extension?_proceed _ _ _ _ (by decide), setUnblockContext, extension?_setText, if_pos rfl]
      rfl
    · exact absurd rfl hnot
  | blocked reason blockedType =>
    rw [recordOutcome, hblock] at h
    split at h
    · next hset =>
      cases h
      exact (unblockContext_setBlocked hset).2
    · cases h
  | failed reason =>
    rw [recordOutcome, hblock] at h
    split at h
    · next hset =>
      cases h
      exact (unblockContext_setBlocked hset).2
    · cases h

/-- An unblock keeps the answer, the one that it was given before the one that was recorded. -/
theorem unblockContext_unblock {context : Option String} {restored : Status}
    (h : item.unblock now context = (.ok restored, after)) :
    after.unblockContext = (notBlank context).or item.unblockContext := by
  obtain ⟨hblocked, hrestored, -⟩ := unblock_inv h
  have hblank : notBlank ((notBlank context).or item.unblockContext)
      = (notBlank context).or item.unblockContext := by
    cases hcontext : notBlank context with
    | none => exact notBlank_notBlank _
    | some text => rw [Option.some_or, ← hcontext, notBlank_notBlank]
  rw [unblock_eq now context hblocked hrestored] at h
  cases h
  refine unblockContext_of_text hblank ?_
  cases (notBlank context).or item.unblockContext with
  | none => exact extension?_forgetBlock now restored item .unblockContext
  | some text => exact (extension?_setEntry ..).trans (if_pos rfl)

end Item

/-! ## What one moment does -/

namespace Moment

variable {now : Stamp} {set : Pipelines} {before after : Item} {m : Moment}

/-- An update of something else. -/
theorem shift_of_update {u : Update} (h : before.applyUpdate now u = (.ok (), after))
    (hresets : Moment.resets ⟨before, .updated u, after⟩ = false)
    (hkey : Key.unblockContext ∉ u.keys) (hstatus : after.course.status = before.course.status)
    (hfrom : after.course.blockedFrom = before.course.blockedFrom) :
    Shift ⟨before, .updated u, after⟩ := by
  have hentry := Item.extension?_applyUpdate now u before hkey
  rw [h] at hentry
  exact .stays hresets hstatus hfrom (Item.unblockContext_congr hentry)

theorem shift_updated {u : Update} (h : before.applyUpdate now u = (.ok (), after)) :
    Shift ⟨before, .updated u, after⟩ := by
  cases hsteers : u.steers with
  | false =>
    have hcourse : after.course = before.course := by
      rw [← Item.course_applyUpdate now before hsteers, h]
    cases u with
    | setUnblockContext context =>
      refine .answers rfl hcourse ?_
      simp only [Item.applyUpdate] at h
      split at h
      · cases h
      · cases h
        exact Item.unblockContext_setUnblockContext now context before
    | transition | setPhase | setPhasePool | setPipelineType | setBlocked => cases hsteers
    | _ =>
      exact shift_of_update h rfl (by simp [Update.keys]) (congrArg Course.status hcourse)
        (congrArg Course.blockedFrom hcourse)
  | true =>
    cases u with
    | transition dst =>
      simp only [Item.applyUpdate] at h
      split at h
      · cases h
      · rcases Item.transition_inv h with ⟨hsame, rfl⟩ | ⟨hother, rfl, hblock⟩ | ⟨hdst, hallowed, rfl⟩
        · refine .stays ?_ rfl rfl rfl
          simp [resets, blocks, hsame]
        · obtain ⟨hopen, hcontext⟩ := Item.unblockContext_setBlocked hblock
          exact .blocks (by simp [blocks, hother]) hopen (Item.setBlocked_inv hblock) hcontext
        · have hbefore : before.status ≠ .done ∧ before.status ≠ .blocked := by
            constructor <;> intro hstatus <;> rw [hstatus] at hallowed <;> cases hallowed
          have hafter : (before.setStatus now dst).status ≠ .blocked := by
            rw [Item.status_setStatus]
            exact hdst
          refine .moves (by simp [resets, blocks, hdst]) hbefore.1 hbefore.2 hafter ?_
          refine Item.unblockContext_congr ?_
          rw [Item.extension?_setStatus, if_neg (by decide)]
    | setBlocked reason blockedType =>
      obtain ⟨hopen, hcontext⟩ := Item.unblockContext_setBlocked h
      exact .blocks rfl hopen (Item.setBlocked_inv h) hcontext
    | setPhase phase =>
      refine shift_of_update h rfl (by simp [Update.keys]) ?_ ?_ <;> cases h <;> rw [Item.course_setPhase]
    | setPhasePool pool =>
      refine shift_of_update h rfl (by simp [Update.keys]) ?_ ?_ <;> cases h <;> rw [Item.course_setPhasePool]
    | setPipelineType name =>
      refine shift_of_update h rfl (by simp [Update.keys]) ?_ ?_ <;> cases h <;> rw [Item.course_setPipelineType]
    | _ => cases hsteers

/-- An item that goes on in a pool, or leaves it, is not blocked. -/
theorem ne_blocked_of_proceed {pool : Pool} {next : Option Phase}
    (h : after.course = before.course.proceed pool next) : after.status ≠ .blocked := by
  rw [show after.status = after.course.status from rfl, h]
  rcases Item.status_proceed before.course pool next with hstatus | hstatus <;>
    rw [hstatus] <;> cases pool <;> rintro ⟨⟩

/-- An unblock frees the item, and keeps the answer. -/
theorem Happens.frees {context : Option String} (h : m.Happens set)
    (hevent : m.event = .unblocked context) :
    m.before.status = .blocked ∧ m.after.status ≠ .blocked ∧
      m.after.unblockContext = (Item.notBlank context).or m.before.unblockContext := by
  cases h with
  | @unblocked now context restored before after h =>
    cases hevent
    obtain ⟨hblocked, hrestored, hcourse⟩ := Item.unblock_inv h
    refine ⟨hblocked, ?_, Item.unblockContext_unblock h⟩
    rw [show after.status = restored from congrArg Course.status hcourse]
    rintro rfl
    cases Item.isBlockable_of_blockedFrom hrestored
  | _ => cases hevent

/-- A phase run that ends leaves no answer. -/
theorem Happens.unblockContext_of_ran {outcome : RunOutcome} (h : m.Happens set)
    (hevent : m.event = .ran outcome) : m.after.unblockContext = none := by
  cases h with
  | ran h => exact Item.unblockContext_recordOutcome h
  | _ => cases hevent

/-- Every moment is of one of these kinds. -/
theorem Happens.shift (h : m.Happens set) : m.Shift := by
  cases h with
  | updated h => exact shift_updated h
  | @promoted now progress before after h =>
    obtain ⟨pipeline, pool, -, hpool, -, hcourse⟩ := Item.promote_course h
    have hbefore : before.status ≠ .done ∧ before.status ≠ .blocked := by
      constructor <;> intro hstatus <;> rw [hstatus] at hpool <;> cases hpool
    have hkey : Key.unblockContext ∉ [Key.status, .phase, .phasePool] := by decide
    have hentry := Item.extension?_promote now set before hkey
    rw [h] at hentry
    exact .moves rfl hbefore.1 hbefore.2 (ne_blocked_of_proceed hcourse)
      (Item.unblockContext_congr hentry)
  | @started now revision before after h =>
    have hcourse := Item.course_startPhase now revision before
    have hkey : Key.unblockContext ≠ .lastPhaseCommit := by decide
    have hentry := Item.extension?_startPhase now revision before hkey
    rw [h] at hcourse hentry
    exact .stays rfl (congrArg Course.status hcourse) (congrArg Course.blockedFrom hcourse)
      (Item.unblockContext_congr hentry)
  | @ran now phase outcome recorded before after h =>
    have hcontext := Item.unblockContext_recordOutcome h
    obtain ⟨-, pool, hpool, hway⟩ := Item.recordOutcome_course h
    obtain ⟨usual, husual, -, -⟩ := Item.runningPool_eq_ok_iff.mp hpool
    have hbefore : before.status ≠ .done ∧ before.status ≠ .blocked := by
      constructor <;> intro hstatus <;> rw [hstatus] at husual <;> cases husual
    obtain ⟨rfl, pipeline, -, -, -, hcourse⟩ | ⟨houtcome, -, hcourse⟩ := hway
    · exact .completes rfl hbefore.1 hbefore.2 (ne_blocked_of_proceed hcourse) hcontext
    · exact .blocks (by simp [blocks, houtcome]) hbefore.1 hcourse hcontext
  | @unblocked now context restored before after h =>
    have hm : Happens set ⟨before, .unblocked context, after⟩ := .unblocked h
    obtain ⟨hblocked, hopen, hcontext⟩ := hm.frees rfl
    exact .frees rfl hblocked hopen hcontext
  | @merged now source target leaving before =>
    have hcourse := Item.course_merged now source target leaving before
    have hkey : Key.unblockContext ≠ .description := by decide
    have hentry := Item.extension?_merged now source target leaving before hkey
    exact .stays rfl (congrArg Course.status hcourse) (congrArg Course.blockedFrom hcourse)
      (Item.unblockContext_congr hentry)

end Moment

end Backlog
