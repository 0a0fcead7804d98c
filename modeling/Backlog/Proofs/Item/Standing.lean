/-
  An item as a position on a route.

  Program: status, phase and pool of an item are three entries, and nothing in the program says how
  they belong together.

  Specification: an item that started as a new one is at one of four kinds of places on the route of
  its pipeline (`Standing`): before the first phase, in a phase of a pool, between the pools, or
  at the end.  What it has completed is the part of the route before that place.

  The crux is `standing_proceed`: wherever a pool is split into phases that are completed and phases
  that are not, going on from there leads to a place, with the same phases completed.  Promotion is
  the case in which none is completed, completion the one in which one more is.
-/
import Backlog.Proofs.Item.Moves

namespace Backlog

/-! ## Routes -/

namespace Pipeline

/-- The names of the phases of a pool. -/
def names (P : Pipeline) (pool : Pool) : List String := (P.pool pool).map Phase.name

/-- The names of all phases, in the order in which an item runs them. -/
def route (P : Pipeline) : List String := P.names .pre ++ P.names .main

/-- The names of the phases that are run before a pool is entered. -/
def passed (P : Pipeline) : Pool → List String
  | .pre => []
  | .main => P.names .pre

/-- The phases of each pool have distinct names, none of them blank or with blank space around. -/
structure WellNamed (P : Pipeline) : Prop where
  distinct : ∀ pool, (P.names pool).Nodup
  proper : ∀ pool, ∀ phase ∈ P.pool pool,
    Text.isBlank phase.name = false ∧ Text.trim phase.name = phase.name

variable {P : Pipeline} {pool : Pool} {before after : List Phase} {phase : Phase}

/-- The phases in front of a phase have other names. -/
theorem ne_of_mem_before (hdistinct : (P.names pool).Nodup)
    (hsplit : P.pool pool = before ++ phase :: after) {other : Phase} (hother : other ∈ before) :
    other.name ≠ phase.name := by
  rw [names, hsplit, List.map_append, List.map_cons] at hdistinct
  obtain ⟨-, -, hdisjoint⟩ := List.nodup_append.mp hdistinct
  exact hdisjoint _ (List.mem_map_of_mem hother) _ List.mem_cons_self

/-- A phase is found by its name. -/
theorem index?_split (hdistinct : (P.names pool).Nodup)
    (hsplit : P.pool pool = before ++ phase :: after) :
    P.index? pool phase.name = some before.length := by
  have hbefore : before.findIdx? (fun p => p.name == phase.name) = none := by
    rw [List.findIdx?_eq_none_iff]
    intro other hother
    simpa using ne_of_mem_before hdistinct hsplit hother
  rw [index?, hsplit, List.findIdx?_append, hbefore, List.findIdx?_cons, if_pos (beq_self_eq_true _)]
  simp

/-- The next phase is the one behind it. -/
theorem next?_split (hdistinct : (P.names pool).Nodup)
    (hsplit : P.pool pool = before ++ phase :: after) :
    P.next? pool phase.name = after.head? := by
  rw [next?, index?_split hdistinct hsplit, Option.bind_some, hsplit,
    List.getElem?_append_right (by omega), List.head?_eq_getElem?]
  simp

theorem phase?_split (hdistinct : (P.names pool).Nodup)
    (hsplit : P.pool pool = before ++ phase :: after) :
    P.phase? pool phase.name = some phase := by
  rw [phase?, hsplit, List.find?_eq_some_iff_append]
  refine ⟨beq_self_eq_true _, before, after, rfl, fun other hother => ?_⟩
  simpa using ne_of_mem_before hdistinct hsplit hother

end Pipeline

/-! ## Places -/

/-- The place that status, phase and pool name, when these phases have been completed. -/
inductive Standing (P : Pipeline) (completed : List String) :
    Status → Option String → Option Pool → Prop
  /-- No phase was entered yet. -/
  | new : completed = [] → Standing P completed .new none none
  /-- In a phase; those in front of it are completed. -/
  | running {pool : Pool} {before after : List Phase} {phase : Phase} :
      P.pool pool = before ++ phase :: after →
      completed = P.passed pool ++ before.map Phase.name →
      Standing P completed pool.status (some phase.name) (some pool)
  /-- All pre-phases are completed. -/
  | ready : completed = P.names .pre → Standing P completed .ready none none
  /-- All phases are completed. -/
  | done : completed = P.route → Standing P completed .done none none

/-- The course of an item is at a place of the pipeline; a block hides no more than its status. -/
def Course.At (c : Course) (P : Pipeline) (completed : List String) : Prop :=
  Standing P completed c.standing c.phase c.pool

variable {P : Pipeline} {completed : List String} {c : Course} {pool : Pool}

namespace Standing

variable {status : Status} {phase : Option String} {place : Option Pool}

/-- What is completed is the beginning of the route. -/
theorem prefix_route (h : Standing P completed status phase place) : completed <+: P.route := by
  cases h with
  | new hnone => exact hnone ▸ List.nil_prefix
  | ready hpre => exact hpre ▸ List.prefix_append _ _
  | done hall => exact hall ▸ List.prefix_rfl
  | @running pool before after phase hsplit hcompleted =>
    rw [hcompleted]
    cases pool with
    | pre =>
      have hpre : P.names .pre = before.map Phase.name ++ (phase :: after).map Phase.name := by
        rw [Pipeline.names, hsplit, List.map_append]
      rw [Pipeline.route, hpre, List.append_assoc]
      exact List.prefix_append _ _
    | main =>
      have hmain : P.names .main = before.map Phase.name ++ (phase :: after).map Phase.name := by
        rw [Pipeline.names, hsplit, List.map_append]
      rw [Pipeline.route, hmain, ← List.append_assoc]
      exact List.prefix_append _ _

/-- Once an item is done, everything is completed. -/
theorem eq_route_of_done (h : Standing P completed .done phase place) : completed = P.route := by
  generalize hstatus : Status.done = status at h
  cases h with
  | new => cases hstatus
  | ready => cases hstatus
  | done hall => exact hall
  | @running pool => cases pool <;> cases hstatus

/-- Before an item is promoted into a pool, what comes before that pool is completed. -/
theorem eq_passed_of_entered? (h : Standing P completed status phase place)
    (hpool : Pool.entered? status = some pool) : completed = P.passed pool := by
  cases h with
  | new hnone =>
    cases hpool
    exact hnone
  | ready hpre =>
    cases hpool
    exact hpre
  | done => cases hpool
  | @running pool' => cases pool' <;> cases hpool

/-- An item that is not done waits to be promoted, or runs a phase. -/
theorem waits_or_runs (h : Standing P completed status phase place) (hdone : status ≠ .done) :
    (phase = none ∧ ∃ pool, Pool.entered? status = some pool) ∨
    ∃ pool before current after, P.pool pool = before ++ current :: after ∧
      status = pool.status ∧ phase = some current.name ∧ place = some pool := by
  cases h with
  | new => exact .inl ⟨rfl, .pre, rfl⟩
  | ready => exact .inl ⟨rfl, .main, rfl⟩
  | done => exact absurd rfl hdone
  | running hsplit => exact .inr ⟨_, _, _, _, hsplit, rfl, rfl, rfl⟩

/-- An item that has a phase is running it. -/
theorem split_of_phase {name : String} (h : Standing P completed status (some name) place) :
    ∃ pool before phase after, P.pool pool = before ++ phase :: after ∧
      completed = P.passed pool ++ before.map Phase.name ∧ phase.name = name ∧
      status = pool.status ∧ place = some pool := by
  cases h with
  | running hsplit hcompleted => exact ⟨_, _, _, _, hsplit, hcompleted, rfl, rfl, rfl⟩

end Standing

/-! ## Going on -/

theorem standing_of_proceed (c : Course) (pool : Pool) (next : Option Phase) :
    (c.proceed pool next).standing = next.elim pool.exit fun _ => pool.status := by
  cases next with
  | none => exact Course.standing_of_ne (by cases pool <;> rintro ⟨⟩)
  | some phase => exact Course.standing_of_ne (by cases pool <;> rintro ⟨⟩)

/-- An item that goes on to a phase is in it under its name. -/
theorem Pipeline.WellNamed.proceed (hP : P.WellNamed) (c : Course) {phase : Phase}
    (hphase : phase ∈ P.pool pool) : c.proceed pool (some phase)
      = { c with status := pool.status, phase := some phase.name, pool := some pool } := by
  obtain ⟨hname, htrim⟩ := hP.proper pool phase hphase
  rw [Course.proceed, htrim, Item.notBlank_some hname]

/-- Where a pool is split into what is completed and what is not, going on leads to a place. -/
theorem standing_proceed (hP : P.WellNamed) (c : Course) {before rest : List Phase}
    (hsplit : P.pool pool = before ++ rest)
    (hcompleted : completed = P.passed pool ++ before.map Phase.name) :
    (c.proceed pool rest.head?).At P completed := by
  rw [Course.At, standing_of_proceed]
  cases rest with
  | nil =>
    -- the pool is through
    rw [List.append_nil] at hsplit
    have hnames : before.map Phase.name = P.names pool := by rw [Pipeline.names, hsplit]
    rw [hnames] at hcompleted
    cases pool with
    | pre => exact .ready hcompleted
    | main => exact .done hcompleted
  | cons phase after =>
    have hmem : phase ∈ P.pool pool := by
      rw [hsplit]
      exact List.mem_append_right _ List.mem_cons_self
    rw [List.head?_cons, Option.elim_some, hP.proceed c hmem]
    exact .running hsplit hcompleted

/-! ## What a reply tells of it -/

/-- Where an item is said to have landed agrees with what is read back from it. -/
def Progress.Agrees (set : Pipelines) (item : Item) : Progress → Prop
  | .entered phase pool => item.status = pool.status ∧ item.phase = some phase.name ∧
      item.phasePool = some pool ∧ set.isDestructive item = phase.destructive
  | .ready => item.status = .ready ∧ item.phase = none ∧ item.phasePool = none ∧
      set.isDestructive item = false
  | .done => item.status = .done ∧ item.phase = none ∧ item.phasePool = none ∧
      set.isDestructive item = false

/-- Whether an update leaves an item at its place: it sets neither status nor phase, pool or pipeline
    type. A block only hides the status. -/
def Update.keepsPlace : Update → Bool
  | .transition _ | .setPhase _ | .setPhasePool _ | .setPipelineType _ => false
  | .setBlocked .. | .setUnblockContext _ | .assess .. | .setDescription _ | .setTriageRequested _
  | .setMergeInto _ | .setDependencies _ | .addTag _ | .removeTag _ | .setTitle _ | .setPriority _ =>
    true

namespace Item

variable {set : Pipelines} {item after : Item} {now : Stamp}

theorem isDestructive_of_phase (hset : set.resolve? item.pipelineType = some P) {phase : Phase}
    (hphase : item.phase = some phase.name) (hpool : item.phasePool = some pool)
    (hfound : P.phase? pool phase.name = some phase) :
    set.isDestructive item = phase.destructive := by
  have hplace : Pipelines.place? item = some (phase.name, pool) := by
    rw [Pipelines.place?, hphase, hpool]
    rfl
  have hcurrent : set.currentPhase? item = some phase := by
    rw [Pipelines.currentPhase?, hplace, hset]
    exact hfound
  rw [Pipelines.isDestructive, hcurrent]
  rfl

theorem isDestructive_of_no_phase (hphase : item.phase = none) :
    set.isDestructive item = false := by
  have hplace : Pipelines.place? item = none := by
    rw [Pipelines.place?, hphase]
    rfl
  have hcurrent : set.currentPhase? item = none := by
    rw [Pipelines.currentPhase?, hplace]
    rfl
  rw [Pipelines.isDestructive, hcurrent]
  rfl

/-- An item that went on in a pool has landed where the answer says. -/
theorem agrees_of_proceed (hP : P.WellNamed) (hset : set.resolve? item.pipelineType = some P)
    {before rest : List Phase} (hsplit : P.pool pool = before ++ rest)
    (hcourse : after.course = item.course.proceed pool rest.head?) :
    (pool.progress rest.head?).Agrees set after ∧ after.pipelineType = item.pipelineType := by
  have htype : after.pipelineType = item.pipelineType := by
    have hproceed : (item.course.proceed pool rest.head?).type = item.course.type := by
      cases rest <;> rfl
    exact (congrArg Course.type hcourse).trans hproceed
  refine ⟨?_, htype⟩
  rw [← htype] at hset
  cases rest with
  | nil =>
    have hphase : after.phase = none := congrArg Course.phase hcourse
    have hpool : after.phasePool = none := congrArg Course.pool hcourse
    have hstatus : after.status = pool.exit := congrArg Course.status hcourse
    have hdestructive : set.isDestructive after = false := isDestructive_of_no_phase hphase
    cases pool with
    | pre => exact ⟨hstatus, hphase, hpool, hdestructive⟩
    | main => exact ⟨hstatus, hphase, hpool, hdestructive⟩
  | cons phase behind =>
    have hmem : phase ∈ P.pool pool := by
      rw [hsplit]
      exact List.mem_append_right _ List.mem_cons_self
    rw [List.head?_cons, hP.proceed item.course hmem] at hcourse
    have hphase : after.phase = some phase.name := congrArg Course.phase hcourse
    have hpool : after.phasePool = some pool := congrArg Course.pool hcourse
    have hstatus : after.status = pool.status := congrArg Course.status hcourse
    exact ⟨hstatus, hphase, hpool,
      isDestructive_of_phase hset hphase hpool (P.phase?_split (hP.distinct pool) hsplit)⟩

/-! ## Steps along the route -/

theorem pipeline_of_resolve? (h : set.resolve? item.pipelineType = some P) :
    item.pipeline set = .ok P := by
  rw [pipeline, h]

theorem resolve?_of_pipeline (h : item.pipeline set = .ok P) :
    set.resolve? item.pipelineType = some P := by
  rw [pipeline] at h
  split at h
  · next hresolve =>
    cases h
    exact hresolve
  · cases h

theorem eq_of_pipeline {pipeline : Pipeline} (h : set.resolve? item.pipelineType = some P)
    (hpipeline : item.pipeline set = .ok pipeline) : pipeline = P := by
  rw [pipeline_of_resolve? h] at hpipeline
  exact (Except.ok.inj hpipeline).symm

/-- An item whose status counts is at the place that it names. -/
theorem standing_eq_status (h : item.status ≠ .blocked) : item.course.standing = item.status :=
  Course.standing_of_ne h

/-- A promotion completes nothing. -/
theorem at_promote (hP : P.WellNamed) (hset : set.resolve? item.pipelineType = some P)
    (h : item.course.At P completed) {progress : Progress}
    (hpromote : item.promote now set = (.ok progress, after)) :
    after.course.At P completed ∧ progress.Agrees set after ∧
      after.pipelineType = item.pipelineType := by
  obtain ⟨pipeline, pool, hpipeline, hpool, rfl, hcourse⟩ := promote_course hpromote
  obtain rfl := eq_of_pipeline hset hpipeline
  have hopen : item.status ≠ .blocked := by
    intro hblocked
    rw [hblocked] at hpool
    cases hpool
  have hcompleted : completed = pipeline.passed pool := by
    rw [Course.At, standing_eq_status hopen] at h
    exact h.eq_passed_of_entered? hpool
  have hsplit : pipeline.pool pool = [] ++ pipeline.pool pool := rfl
  refine ⟨?_, agrees_of_proceed hP hset hsplit hcourse⟩
  rw [hcourse]
  exact standing_proceed hP item.course hsplit (by rw [hcompleted, List.map_nil, List.append_nil])

/-- A running item is in the phase that it names, and that phase is one of its pipeline. -/
theorem split_of_runningPool (h : item.course.At P completed) {phase : String}
    (hpool : item.runningPool phase = .ok pool) :
    ∃ before current behind, P.pool pool = before ++ current :: behind ∧
      completed = P.passed pool ++ before.map Phase.name ∧ current.name = phase := by
  obtain ⟨usual, husual, hphase, rfl⟩ := runningPool_eq_ok_iff.mp hpool
  rw [Course.At, show item.course.phase = some phase from hphase] at h
  obtain ⟨pool, before, current, behind, hsplit, hcompleted, hname, -, hplace⟩ := h.split_of_phase
  have hrecorded : item.phasePool = some pool := hplace
  rw [hrecorded, Option.getD_some]
  exact ⟨before, current, behind, hsplit, hcompleted, hname⟩

/-- A phase run that is complete completes its phase, and any other nothing. -/
theorem at_recordOutcome (hP : P.WellNamed) (hset : set.resolve? item.pipelineType = some P)
    (h : item.course.At P completed) {phase : String} {outcome : RunOutcome} {recorded : Recorded}
    (hrecord : item.recordOutcome now phase outcome set = (.ok recorded, after)) :
    after.course.At P (completed ++ if outcome = .complete then [phase] else []) ∧
      recorded.status = after.status ∧
      (outcome = .complete ↔ recorded.progress.isSome = true) ∧
      (∀ progress, recorded.progress = some progress → progress.Agrees set after) ∧
      after.pipelineType = item.pipelineType := by
  obtain ⟨hstatus, pool, hpool, hcases⟩ := recordOutcome_course hrecord
  rcases hcases with ⟨rfl, pipeline, hpipeline, -, hprogress, hcourse⟩ | ⟨hnot, hnone, hcourse⟩
  · obtain rfl := eq_of_pipeline hset hpipeline
    obtain ⟨before, current, behind, hsplit, hcompleted, rfl⟩ := split_of_runningPool h hpool
    rw [Pipeline.next?_split (hP.distinct pool) hsplit] at hprogress hcourse
    -- the phase itself is behind the item from now on
    have hsplit' : pipeline.pool pool = (before ++ [current]) ++ behind := by
      rw [hsplit, List.append_assoc]
      rfl
    obtain ⟨hagrees, htype⟩ := agrees_of_proceed hP hset hsplit' hcourse
    refine ⟨?_, hstatus, ⟨fun _ => by rw [hprogress]; rfl, fun _ => rfl⟩, ?_, htype⟩
    · rw [hcourse, if_pos rfl]
      refine standing_proceed hP item.course hsplit' ?_
      rw [hcompleted, List.map_append, List.append_assoc]
      rfl
    · intro progress hsome
      rw [hprogress] at hsome
      cases hsome
      exact hagrees
  · refine ⟨?_, hstatus, ⟨fun h => absurd h hnot, fun hsome => ?_⟩, ?_, ?_⟩
    · rw [hcourse, if_neg hnot, List.append_nil, Course.At, Course.standing_block,
        Course.phase_block, Course.pool_block]
      exact h
    · rw [hnone] at hsome
      cases hsome
    · intro progress hsome
      rw [hnone] at hsome
      cases hsome
    · exact (congrArg Course.type hcourse).trans (Course.type_block item.course)

/-! ## Detours -/

/-- A block keeps the place, and so does whatever is not about the course. -/
theorem at_applyUpdate {u : Update} (hu : u.keepsPlace = true) (h : item.course.At P completed)
    (hupdate : item.applyUpdate now u = (.ok (), after)) :
    after.course.At P completed ∧ after.pipelineType = item.pipelineType := by
  cases hsteers : u.steers with
  | false =>
    have hcourse : after.course = item.course := by
      rw [← course_applyUpdate now item hsteers, hupdate]
    rw [hcourse]
    exact ⟨h, congrArg Course.type hcourse⟩
  | true =>
    cases u with
    | setBlocked reason blockedType =>
      have hcourse : after.course = item.course.block := setBlocked_inv hupdate
      refine ⟨?_, (congrArg Course.type hcourse).trans (Course.type_block item.course)⟩
      rw [hcourse, Course.At, Course.standing_block, Course.phase_block, Course.pool_block]
      exact h
    | transition status => cases hu
    | setPhase phase => cases hu
    | setPhasePool pool => cases hu
    | setPipelineType name => cases hu
    | _ => cases hsteers

theorem at_applyUpdates {updates : List Update} (hupdates : ∀ u ∈ updates, u.keepsPlace = true)
    (h : item.course.At P completed) (happly : item.applyUpdates now updates = (.ok (), after)) :
    after.course.At P completed ∧ after.pipelineType = item.pipelineType := by
  refine applyUpdates_keeps
    (I := fun i => i.course.At P completed ∧ i.pipelineType = item.pipelineType) ?_ happly ⟨h, rfl⟩
  rintro u hu before between hupdate ⟨hbefore, htype⟩
  obtain ⟨hbetween, hsame⟩ := at_applyUpdate (hupdates u hu) hbefore hupdate
  exact ⟨hbetween, hsame.trans htype⟩

/-- An unblocked item is at the place where it was blocked. -/
theorem at_unblock {context : Option String} {restored : Status} (h : item.course.At P completed)
    (hunblock : item.unblock now context = (.ok restored, after)) :
    after.course.At P completed ∧ after.pipelineType = item.pipelineType := by
  obtain ⟨hstanding, hphase, hpool, htype⟩ := unblock_keeps hunblock
  refine ⟨?_, htype⟩
  rw [Course.At, hstanding, show after.course.phase = item.course.phase from hphase,
    show after.course.pool = item.course.pool from hpool]
  exact h

/-! ## Where an item begins, and what it waits for -/

/-- A new item is at the beginning. -/
theorem at_draft (draft : Draft) (id : String) (now : Stamp) :
    (draft.item id now).course.At P [] := by
  rw [course_draft]
  exact .new rfl

/-- An item that is neither done nor blocked waits for a promotion, or runs a phase of its pipeline. -/
theorem waits_or_runs (h : item.course.At P completed) (hdone : item.status ≠ .done)
    (hblocked : item.status ≠ .blocked) :
    (item.phase = none ∧ ∃ pool, Pool.entered? item.status = some pool) ∨
    ∃ pool phase, Pool.entered? item.status = none ∧ item.phase = some phase ∧
      item.runningPool phase = .ok pool ∧ (P.index? pool phase).isSome = true := by
  rw [Course.At, standing_eq_status hblocked] at h
  rcases h.waits_or_runs hdone with
    hwaits | ⟨pool, before, current, behind, hsplit, hstatus, hphase, hplace⟩
  · exact .inl hwaits
  · refine .inr ⟨pool, current.name, ?_, hphase, ?_, ?_⟩
    · rw [hstatus]
      cases pool <;> rfl
    · have husual : Pool.ofStatus? item.status = some pool := by
        rw [hstatus]
        cases pool <;> rfl
      have hrecorded : item.phasePool = some pool := hplace
      exact runningPool_eq_ok_iff.mpr ⟨pool, husual, hphase, by rw [hrecorded, Option.getD_some]⟩
    · rw [Pipeline.index?, List.findIdx?_isSome, List.any_eq_true]
      have hmem : current ∈ P.pool pool := by
        rw [hsplit]
        exact List.mem_append_right _ List.mem_cons_self
      exact ⟨current, hmem, beq_self_eq_true _⟩

end Item

end Backlog
