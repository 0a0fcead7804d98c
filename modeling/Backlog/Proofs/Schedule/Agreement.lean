/-
  Who asks for the phase that an item is in, and that all get the same answer.

  Program: the phase that an item is in follows from the recorded phase and pool, the status and the
  pipeline.  It is worked out in five places: by the plan, which runs it; by a completion, which takes
  the item on from it; by the check that precedes a completion; and by the command line, which takes
  the usual flag from it.

  Specification: an item with a running status can be taken on from one phase, the one that the
  pipelines have as its current phase, and from none if they have none (`advance_ok_iff`).  What a plan
  runs is that phase, with the pool and the flag that everyone else sees (`current_phase_agreed`).

  Nothing is assumed of the item.  Its entries may be missing, misspelt or contradict each other.
-/
import Backlog.Cli.Run
import Backlog.Proofs.Coordinator.Working
import Backlog.Proofs.Item.Moves
import Backlog.Proofs.Schedule.Plans

namespace Backlog

/-! ## Phases of a pool -/

theorem Pipeline.name_of_phase? {pipeline : Pipeline} {pool : Pool} {name : String} {phase : Phase}
    (h : pipeline.phase? pool name = some phase) : phase.name = name := by
  simpa using List.find?_some h

/-- A name has a place in a pool exactly if it has a phase there. -/
theorem Pipeline.isSome_index? (pipeline : Pipeline) (pool : Pool) (name : String) :
    (pipeline.index? pool name).isSome = (pipeline.phase? pool name).isSome := by
  rw [index?, phase?, List.findIdx?_isSome, Bool.eq_iff_iff, List.find?_isSome, List.any_eq_true]

theorem Pool.ofStatus?_isSome_iff {status : Status} :
    (Pool.ofStatus? status).isSome = true ↔ status = .scoping ∨ status = .inProgress := by
  cases status <;> decide

namespace Item

variable {set : Pipelines} {item : Item} {usual : Pool} {name : String} {phase : Phase}

/-- The current phase of an item with a running status is the recorded one, as its pipeline has it in
    the pool that a completion goes by. -/
theorem currentPhase?_eq_some_iff (husual : Pool.ofStatus? item.status = some usual) :
    set.currentPhase? item = some phase ↔
      ∃ pipeline, item.phase = some phase.name ∧ item.pipeline set = .ok pipeline ∧
        pipeline.phase? (item.phasePool.getD usual) phase.name = some phase := by
  have hpool : item.phasePool.or (Pool.ofStatus? item.status)
      = some (item.phasePool.getD usual) := by
    rw [husual]
    cases item.phasePool <;> rfl
  rw [Pipelines.currentPhase?, Pipelines.place?, pipeline, hpool]
  cases hphase : item.phase with
  | none => simp
  | some recorded =>
    cases hpipeline : set.resolve? item.pipelineType with
    | none => simp
    | some pipeline =>
      constructor
      · intro h
        have hname : phase.name = recorded := Pipeline.name_of_phase? h
        exact ⟨pipeline, by rw [hname], rfl, by rw [hname]; exact h⟩
      · rintro ⟨_, hname, hpipeline, h⟩
        cases hname
        cases hpipeline
        exact h

/-- An item can be taken on from its current phase, and from no other. -/
theorem advance_ok_iff (now : Stamp) (husual : Pool.ofStatus? item.status = some usual) :
    (∃ progress after, item.advance now name set = (.ok progress, after)) ↔
      (set.currentPhase? item).map Phase.name = some name := by
  rw [Option.map_eq_some_iff]
  constructor
  · rintro ⟨progress, after, h⟩
    obtain ⟨pipeline, pool, hpipeline, hpool, hindex, -⟩ := advance_course h
    obtain ⟨usual', husual', hphase, rfl⟩ := runningPool_eq_ok_iff.mp hpool
    obtain rfl : usual = usual' := Option.some.inj (husual.symm.trans husual')
    rw [Pipeline.isSome_index?] at hindex
    obtain ⟨phase, hfound⟩ := Option.isSome_iff_exists.mp hindex
    have hname : phase.name = name := Pipeline.name_of_phase? hfound
    refine ⟨phase, (currentPhase?_eq_some_iff husual).mpr ⟨pipeline, ?_, hpipeline, ?_⟩, hname⟩
    · rw [hname]
      exact hphase
    · rw [hname]
      exact hfound
  · rintro ⟨phase, hcurrent, rfl⟩
    obtain ⟨pipeline, hphase, hpipeline, hfound⟩ := (currentPhase?_eq_some_iff husual).mp hcurrent
    have hpool : item.runningPool phase.name = .ok (item.phasePool.getD usual) :=
      runningPool_eq_ok_iff.mpr ⟨usual, husual, hphase, rfl⟩
    have hindex : (pipeline.index? (item.phasePool.getD usual) phase.name).isSome = true := by
      rw [Pipeline.isSome_index?, hfound]
      rfl
    exact ⟨_, _, advance_of_runningPool now hpipeline hpool hindex⟩

/-- A new or ready item can be promoted, if there is a pipeline for it. -/
theorem promote_ok (now : Stamp) (hdefault : (set.get? set.default).isSome = true)
    (hpool : (Pool.entered? item.status).isSome = true) :
    ∃ progress after, item.promote now set = (.ok progress, after) := by
  obtain ⟨pool, hpool⟩ := Option.isSome_iff_exists.mp hpool
  obtain ⟨usual, husual⟩ := Option.isSome_iff_exists.mp hdefault
  obtain ⟨pipeline, hpipeline⟩ : ∃ pipeline, set.resolve? item.pipelineType = some pipeline := by
    rw [Pipelines.resolve?, husual]
    cases item.pipelineType.bind set.get? <;> exact ⟨_, rfl⟩
  have hpipeline : item.pipeline set = .ok pipeline := by rw [Item.pipeline, hpipeline]
  exact ⟨_, _, promote_of_entered? now hpipeline hpool⟩

end Item

namespace Schedule

variable {items : List Item} {running : Running} {limits : Limits} {set : Pipelines} {item : Item}
  {id phase : String} {pool : Pool} {destructive : Bool}

/-! ## Proposals -/

/-- An item that runs a phase runs its current one, in the pool that a completion goes by. -/
theorem proposal_runPhase (h : proposal set item = some (.runPhase id phase pool destructive)) :
    ∃ usual current, Pool.ofStatus? item.status = some usual ∧ set.currentPhase? item = some current ∧
      current.name = phase ∧ current.destructive = destructive ∧ pool = item.phasePool.getD usual := by
  rw [proposal] at h
  split at h
  · next hstatus =>
    obtain ⟨current, hcurrent, haction⟩ := Option.map_eq_some_iff.mp h
    cases haction
    rw [hstatus]
    exact ⟨.pre, current, rfl, hcurrent, rfl, rfl, rfl⟩
  · next hstatus =>
    obtain ⟨current, hcurrent, haction⟩ := Option.map_eq_some_iff.mp h
    cases haction
    rw [hstatus]
    exact ⟨.main, current, rfl, hcurrent, rfl, rfl, rfl⟩
  · cases h

/-- An item that proposes nothing has a running status, but no current phase. -/
theorem proposal_eq_none (h : proposal set item = none) :
    (∃ usual, Pool.ofStatus? item.status = some usual) ∧ set.currentPhase? item = none := by
  rw [proposal] at h
  split at h
  · next hstatus =>
    rw [hstatus]
    exact ⟨⟨.pre, rfl⟩, Option.map_eq_none_iff.mp h⟩
  · next hstatus =>
    rw [hstatus]
    exact ⟨⟨.main, rfl⟩, Option.map_eq_none_iff.mp h⟩
  · cases h

/-- An open item that proposes a promotion is new or ready. -/
theorem proposal_promote {src : Status} (hopen : IsOpen running item)
    (h : proposal set item = some (.promote id src)) :
    item.status = src ∧ (Pool.entered? item.status).isSome = true := by
  rw [proposal] at h
  cases hstatus : item.status with
  | new | ready =>
    rw [hstatus] at h
    cases h
    exact ⟨rfl, rfl⟩
  | scoping | inProgress =>
    rw [hstatus] at h
    obtain ⟨_, -, haction⟩ := Option.map_eq_some_iff.mp h
    cases haction
  | done => exact absurd hstatus hopen.unfinished
  | blocked => exact absurd hstatus hopen.unblocked

/-! ## Plans -/

/-- Whoever looks at the item sees it run this phase: a completion accepts it, and the pool and the
    flag are these. -/
structure Runs (set : Pipelines) (item : Item) (phase : String) (pool : Pool)
    (destructive : Bool) : Prop where
  running : item.runningPool phase = .ok pool
  accepted : ∀ now, ∃ progress after, item.advance now phase set = (.ok progress, after)
  flagged : set.isDestructive item = destructive
  /-- The check that precedes a completion. -/
  checked : ∀ settings contents, settings.pipelines = set →
    findItem item.id contents.active = some item →
      Script.Results Contents.works (Coordinator.precheck settings item.id phase)
        (fun configured after => after = contents ∧ configured = .ok destructive) contents
  /-- The flag of a completion that was given none. -/
  usual : ∀ items, findItem item.id items = some item →
    Cli.exclusiveByDefault set items item.id phase = destructive

theorem runs_of_currentPhase? {usual : Pool} {current : Phase}
    (husual : Pool.ofStatus? item.status = some usual)
    (hcurrent : set.currentPhase? item = some current) :
    Runs set item current.name (item.phasePool.getD usual) current.destructive := by
  obtain ⟨pipeline, hphase, -, -⟩ := (Item.currentPhase?_eq_some_iff husual).mp hcurrent
  have hpool : item.runningPool current.name = .ok (item.phasePool.getD usual) :=
    Item.runningPool_eq_ok_iff.mpr ⟨usual, husual, hphase, rfl⟩
  have hdestructive : set.isDestructive item = current.destructive := by
    rw [Pipelines.isDestructive, hcurrent, Option.any_some]
  refine ⟨hpool, fun now => ?_, hdestructive, ?_, ?_⟩
  · rw [Item.advance_ok_iff now husual, hcurrent]
    rfl
  · rintro settings contents rfl hfound
    rw [← hdestructive]
    exact Coordinator.results_precheck hfound hpool
  · intro items hfound
    rw [Cli.exclusiveByDefault, show items.find? _ = some item from hfound, Option.bind_some, hcurrent,
      Option.any_some, beq_self_eq_true, Bool.true_and]

/-- The plan, the completion, the check before it and the command line agree on the phase that an item
    is in, and plans only promote what can be promoted. -/
theorem current_phase_agreed (set : Pipelines) :
    (∀ item : Item, item.status = .scoping ∨ item.status = .inProgress → ∀ now name,
      (∃ progress after, item.advance now name set = (.ok progress, after)) ↔
        (set.currentPhase? item).map Phase.name = some name) ∧
    ∀ items running limits,
      (∀ id phase pool destructive,
        Action.runPhase id phase pool destructive ∈ (tick items running limits set).actions →
          ∃ item ∈ items, item.id = id ∧ Runs set item phase pool destructive) ∧
      (∀ id, (id, SkipReason.noRunnablePhase) ∈ (tick items running limits set).skipped →
        ∃ item ∈ items, item.id = id ∧
          ∀ now phase progress after, item.advance now phase set ≠ (.ok progress, after)) ∧
      ((set.get? set.default).isSome = true → ∀ id src,
        Action.promote id src ∈ (tick items running limits set).actions →
          ∃ item ∈ items, item.id = id ∧ item.status = src ∧
            ∀ now, ∃ progress after, item.promote now set = (.ok progress, after)) := by
  refine ⟨?_, fun items running limits => ⟨?_, ?_, ?_⟩⟩
  · intro item hstatus now name
    obtain ⟨usual, husual⟩ :=
      Option.isSome_iff_exists.mp (Pool.ofStatus?_isSome_iff.mpr hstatus)
    exact Item.advance_ok_iff now husual
  · intro id phase pool destructive haction
    obtain ⟨item, hitem, hid, -, hproposal, -⟩ := proposal_of_takesCapacity haction rfl
    obtain ⟨usual, current, husual, hcurrent, rfl, rfl, rfl⟩ := proposal_runPhase hproposal
    exact ⟨item, hitem, hid, runs_of_currentPhase? husual hcurrent⟩
  · intro id hskipped
    obtain ⟨item, hitem, hid, -, hproposal⟩ := mem_skipped_noRunnablePhase hskipped
    obtain ⟨⟨usual, husual⟩, hcurrent⟩ := proposal_eq_none hproposal
    refine ⟨item, hitem, hid, fun now phase progress after hadvance => ?_⟩
    have hsome := (Item.advance_ok_iff now husual).mp ⟨progress, after, hadvance⟩
    rw [hcurrent] at hsome
    cases hsome
  · intro hdefault id src haction
    obtain ⟨item, hitem, hid, hopen, hproposal, -⟩ := proposal_of_takesCapacity haction rfl
    obtain ⟨hstatus, hpool⟩ := proposal_promote hopen hproposal
    exact ⟨item, hitem, hid, hstatus, fun now => Item.promote_ok now hdefault hpool⟩

/-- The sample plan runs a phase in which everyone sees the item, and promotes a ready item. -/
theorem current_phase_agreed_sample :
    (∃ item ∈ sample, item.id = "WRK-2" ∧ Runs default item "build" .main true) ∧
      (∃ item ∈ sample, item.id = "WRK-3" ∧
        ∀ now phase progress after, item.advance now phase default ≠ (.ok progress, after)) ∧
      (∃ item ∈ sample, item.id = "WRK-1" ∧ item.status = .ready ∧
        ∀ now, ∃ progress after, item.promote now default = (.ok progress, after)) ∧
      ∃ item ∈ sample, item.id = "WRK-2" ∧ item.status = .inProgress ∧
        ((∃ progress after, item.advance ⟨1, 0⟩ "build" default = (.ok progress, after)) ↔
          (Pipelines.currentPhase? default item).map Phase.name = some "build") := by
  obtain ⟨hphases, hplan⟩ := current_phase_agreed default
  obtain ⟨hruns, hskips, hpromotes⟩ := hplan sample sampleRunning {}
  rw [tick_sample] at hruns hskips hpromotes
  refine ⟨hruns _ _ _ _ (by decide), hskips _ (by decide),
    hpromotes (by decide) _ _ (by decide), ?_⟩
  obtain ⟨item, hitem, hid⟩ : ∃ item ∈ sample, item.id = "WRK-2" ∧ item.status = .inProgress := by
    decide
  exact ⟨item, hitem, hid.1, hid.2, hphases item (.inr hid.2) ⟨1, 0⟩ "build"⟩

end Schedule

end Backlog
