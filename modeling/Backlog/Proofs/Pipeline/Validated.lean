/-
  What it is worth that a set of pipelines has no warnings.

  Program: `Pipelines.validate` looks at names as they are configured.  An item keeps the names of its
  phase and of its pipeline trimmed, and both are looked up as they are kept.

  Specification: without warnings there is a pipeline for every item, and an item that is put into a
  phase is in that phase, as all its readers tell it, if and only if the name of the phase has no blank
  space around (`validate_sound`).

  The crux is that a set without warnings has distinct names in each pool (`validate_eq_nil_iff`), so
  whoever looks for a name that is kept as it is configured finds the phase that it was taken from.  A
  name with blank space around is kept as another one (`warnings_miss_padding`).
-/
import Backlog.Proofs.Dict
import Backlog.Proofs.Item.Standing
import Backlog.Proofs.Schedule.Agreement

namespace Backlog

/-! ## Pipelines without warnings -/

/-- There are main phases, and the names of each pool are distinct and not blank. -/
structure Pipeline.IsValid (P : Pipeline) : Prop where
  main : P.phases ≠ []
  named : ∀ pool, ∀ phase ∈ P.pool pool, Text.isBlank phase.name = false
  distinct : ∀ pool, (P.names pool).Nodup

namespace Pipelines

variable {set : Pipelines}

theorem phaseWarnings_eq_nil_iff {pipeline : String} {pool : Pool} {seen : List String}
    {phases : List Phase} : phaseWarnings pipeline pool seen phases = [] ↔
      (∀ phase ∈ phases, Text.isBlank phase.name = false) ∧ (phases.map Phase.name).Nodup ∧
        ∀ phase ∈ phases, phase.name ∉ seen := by
  induction phases generalizing seen with
  | nil => simp [phaseWarnings]
  | cons first rest ih =>
    rw [phaseWarnings]
    split
    · next hblank => simp [hblank]
    · next hblank =>
      have hblank : Text.isBlank first.name = false := by simpa using hblank
      split
      · next hseen =>
        have hseen : first.name ∈ seen := by simpa using hseen
        simp [hseen]
      · next hnew =>
        have hnew : first.name ∉ seen := by simpa using hnew
        rw [ih, List.forall_mem_cons, List.forall_mem_cons, List.map_cons, List.nodup_cons]
        -- from here on the name of the first phase is taken
        constructor
        · rintro ⟨hnamed, hdistinct, hunseen⟩
          refine ⟨⟨hblank, hnamed⟩, ⟨fun hmem => ?_, hdistinct⟩, hnew, fun phase hphase h => ?_⟩
          · obtain ⟨phase, hphase, hname⟩ := List.mem_map.mp hmem
            exact hunseen phase hphase (hname ▸ List.mem_cons_self)
          · exact hunseen phase hphase (List.mem_cons_of_mem _ h)
        · rintro ⟨⟨-, hnamed⟩, ⟨hother, hdistinct⟩, -, hunseen⟩
          refine ⟨hnamed, hdistinct, fun phase hphase h => ?_⟩
          rcases List.mem_cons.mp h with h | h
          · exact hother (h ▸ List.mem_map_of_mem hphase)
          · exact hunseen phase hphase h

theorem pipelineWarnings_eq_nil_iff {name : String} {P : Pipeline} :
    pipelineWarnings name P = [] ↔ P.IsValid := by
  have hphases : ∀ pool, phaseWarnings name pool [] (P.pool pool) = [] ↔
      (∀ phase ∈ P.pool pool, Text.isBlank phase.name = false) ∧ (P.names pool).Nodup := by
    intro pool
    rw [phaseWarnings_eq_nil_iff, Pipeline.names]
    simp
  have hmain : (if P.isEmpty = true then [Warning.noPhases name]
      else if P.phases.isEmpty = true then [.noMainPhases name] else []) = [] ↔ P.phases ≠ [] := by
    rw [Pipeline.isEmpty]
    cases P.prePhases <;> cases P.phases <;> simp
  rw [pipelineWarnings, List.append_eq_nil_iff, List.append_eq_nil_iff, hmain,
    show P.prePhases = P.pool .pre from rfl, show P.phases = P.pool .main from rfl, hphases, hphases]
  constructor
  · rintro ⟨⟨hsome, hpre⟩, hmain⟩
    refine ⟨hsome, fun pool => ?_, fun pool => ?_⟩
    · cases pool with
      | pre => exact hpre.1
      | main => exact hmain.1
    · cases pool with
      | pre => exact hpre.2
      | main => exact hmain.2
  · rintro ⟨hsome, hnamed, hdistinct⟩
    exact ⟨⟨hsome, hnamed .pre, hdistinct .pre⟩, hnamed .main, hdistinct .main⟩

/-- There are no warnings if the default pipeline is there, and nothing is wrong with any. -/
theorem validate_eq_nil_iff : set.validate = [] ↔
    (set.get? set.default).isSome = true ∧ ∀ name P, set.get? name = some P → P.IsValid := by
  have hdefault : (if set.byName.contains set.default = true then []
      else [Warning.undefinedDefault set.default set.names]) = [] ↔
      (set.get? set.default).isSome = true := by
    rw [Dict.contains, get?]
    split <;> simp [*]
  rw [validate, List.append_eq_nil_iff, hdefault, List.flatMap_eq_nil_iff]
  refine and_congr_right fun _ => ⟨fun h name P hget => ?_, fun h entry hentry => ?_⟩
  · exact pipelineWarnings_eq_nil_iff.mp (h (name, P) (Dict.mem_entries_iff.mpr hget))
  · exact pipelineWarnings_eq_nil_iff.mpr (h _ _ (Dict.mem_entries_iff.mp hentry))

/-- Without warnings there is a pipeline for every item. -/
theorem resolve?_isSome (hdefault : (set.get? set.default).isSome = true) (type : Option String) :
    (set.resolve? type).isSome = true := by
  rw [resolve?, Option.isSome_or, hdefault, Bool.or_true]

/-- What an item resolves to is one of the set. -/
theorem get?_of_resolve? {type : Option String} {P : Pipeline} (h : set.resolve? type = some P) :
    ∃ name, set.get? name = some P := by
  rcases Option.or_eq_some_iff.mp h with hnamed | ⟨-, hdefault⟩
  · obtain ⟨name, -, hget⟩ := Option.bind_eq_some_iff.mp hnamed
    exact ⟨name, hget⟩
  · exact ⟨set.default, hdefault⟩

end Pipelines

/-! ## What an item reads back -/

/-- Where the names are distinct, a name is that of the phase at a place if that is where it is found. -/
theorem Pipeline.index?_eq_some_iff {P : Pipeline} {pool : Pool} (hdistinct : (P.names pool).Nodup)
    {place : Nat} {phase : Phase} (hplace : (P.pool pool)[place]? = some phase) {name : String} :
    P.index? pool name = some place ↔ name = phase.name := by
  obtain ⟨hlt, rfl⟩ := List.getElem?_eq_some_iff.mp hplace
  constructor
  · intro hindex
    obtain ⟨_, hname, -⟩ := List.findIdx?_eq_some_iff_getElem.mp hindex
    exact (beq_iff_eq.mp hname).symm
  · rintro rfl
    have hsplit : P.pool pool
        = (P.pool pool).take place ++ (P.pool pool)[place] :: (P.pool pool).drop (place + 1) := by
      rw [List.getElem_cons_drop, List.take_append_drop]
    rw [P.index?_split hdistinct hsplit, List.length_take_of_le (Nat.le_of_lt hlt)]

theorem Pipeline.phase?_eq_some_iff {P : Pipeline} {pool : Pool} (hdistinct : (P.names pool).Nodup)
    {phase : Phase} (hphase : phase ∈ P.pool pool) {name : String} :
    P.phase? pool name = some phase ↔ name = phase.name := by
  constructor
  · intro h
    exact (Pipeline.name_of_phase? h).symm
  · rintro rfl
    obtain ⟨before, after, hsplit⟩ := List.append_of_mem hphase
    exact P.phase?_split hdistinct hsplit

namespace Item

variable {set : Pipelines} {item after : Item} {P : Pipeline} {pool : Pool} {place : Nat} {phase : Phase}

/-- The item was put into the phase at this place of the pool.  That is what it reads back, and from
    where it can be taken on, if the name of the phase has no blank space around. -/
structure IsIn (set : Pipelines) (item : Item) (P : Pipeline) (pool : Pool) (place : Nat)
    (phase : Phase) : Prop where
  resolved : set.resolve? item.pipelineType = some P
  configured : (P.pool pool)[place]? = some phase
  placed : set.currentIndex? item = some place ↔ Text.trim phase.name = phase.name
  current : set.currentPhase? item = some phase ↔ Text.trim phase.name = phase.name
  goesOn : ∀ now, (item.advance now phase.name set).1 = .ok (pool.progress (P.pool pool)[place + 1]?) ↔
    Text.trim phase.name = phase.name

/-- An item that runs a phase of a pool is taken on from the one at a place if that is the one it
    names. -/
theorem advance_eq_ok_iff (now : Stamp) (hresolve : set.resolve? item.pipelineType = some P)
    (husual : Pool.ofStatus? item.status = some pool) (hpool : item.phasePool = some pool)
    {name : String} (hindex : P.index? pool name = some place) :
    (item.advance now name set).1 = .ok (pool.progress (P.pool pool)[place + 1]?) ↔
      item.phase = some name := by
  constructor
  · intro haccepted
    have hadvance : item.advance now name set
        = (.ok (pool.progress (P.pool pool)[place + 1]?), (item.advance now name set).2) :=
      Prod.ext haccepted rfl
    obtain ⟨_, _, -, hrunning, -⟩ := advance_course hadvance
    obtain ⟨_, -, hphase, -⟩ := runningPool_eq_ok_iff.mp hrunning
    exact hphase
  · intro hphase
    have hrunning : item.runningPool name = .ok pool :=
      runningPool_eq_ok_iff.mpr ⟨pool, husual, hphase, by rw [hpool, Option.getD_some]⟩
    have hnext : P.next? pool name = (P.pool pool)[place + 1]? := by
      rw [Pipeline.next?, hindex, Option.bind_some]
    rw [advance_of_runningPool now (pipeline_of_resolve? hresolve) hrunning (by rw [hindex]; rfl),
      (proceed_course now pool _ _).1, hnext]

/-- An item that goes on to a phase keeps its name trimmed. -/
theorem isIn_of_proceed (hP : P.IsValid) (hresolve : set.resolve? item.pipelineType = some P)
    (hplace : (P.pool pool)[place]? = some phase)
    (hcourse : after.course = item.course.proceed pool (some phase)) :
    IsIn set after P pool place phase := by
  have hmem : phase ∈ P.pool pool := List.mem_of_getElem? hplace
  have hblank : Text.isBlank (Text.trim phase.name) = false := by
    rw [Text.isBlank_trim]
    exact hP.named pool phase hmem
  rw [Course.proceed, notBlank_some hblank] at hcourse
  have hphase : after.phase = some (Text.trim phase.name) := congrArg Course.phase hcourse
  have hpool : after.phasePool = some pool := congrArg Course.pool hcourse
  have hstatus : after.status = pool.status := congrArg Course.status hcourse
  have htype : after.pipelineType = item.pipelineType := congrArg Course.type hcourse
  rw [← htype] at hresolve
  have hread : Pipelines.place? after = some (Text.trim phase.name, pool) := by
    rw [Pipelines.place?, hphase, hpool]
    rfl
  have husual : Pool.ofStatus? after.status = some pool := by
    rw [hstatus]
    cases pool <;> rfl
  -- each reader looks for the trimmed name
  refine ⟨hresolve, hplace, ?placed, ?current, fun now => ?goesOn⟩
  case placed =>
    rw [Pipelines.currentIndex?, hread, hresolve]
    exact P.index?_eq_some_iff (hP.distinct pool) hplace
  case current =>
    rw [Pipelines.currentPhase?, hread, hresolve]
    exact P.phase?_eq_some_iff (hP.distinct pool) hmem
  case goesOn =>
    have hindex : P.index? pool phase.name = some place :=
      (P.index?_eq_some_iff (hP.distinct pool) hplace).mpr rfl
    rw [advance_eq_ok_iff now hresolve husual hpool hindex, hphase, Option.some.injEq]

/-- What an item that asks for a pipeline by its name resolves to. -/
theorem resolve?_setPipelineType (now : Stamp) (item : Item) {name : String}
    (hget : set.get? name = some P) (hblank : Text.isBlank name = false)
    (htrim : Text.trim name = name) :
    set.resolve? (item.setPipelineType now (some name)).pipelineType = some P := by
  rw [pipelineType_setPipelineType, Option.map_some, htrim, notBlank_some hblank, Pipelines.resolve?,
    Option.bind_some, hget, Option.some_or]

/-- A promoted item that entered a phase entered the first one of its pool. -/
theorem isIn_of_promote (hvalid : ∀ name P, set.get? name = some P → P.IsValid) {now : Stamp}
    (hpromote : item.promote now set = (.ok (.entered phase pool), after)) :
    ∃ P, set.resolve? item.pipelineType = some P ∧ IsIn set after P pool 0 phase := by
  obtain ⟨P, pool', hpipeline, -, hprogress, hcourse⟩ := promote_course hpromote
  have hresolve : set.resolve? item.pipelineType = some P := resolve?_of_pipeline hpipeline
  obtain ⟨hfirst, rfl⟩ := Pool.progress_eq_entered_iff.mp hprogress.symm
  obtain ⟨_, hget⟩ := Pipelines.get?_of_resolve? hresolve
  rw [hfirst] at hcourse
  rw [Pipeline.first?, List.head?_eq_getElem?] at hfirst
  exact ⟨P, hresolve, isIn_of_proceed (hvalid _ P hget) hresolve hfirst hcourse⟩

/-- A completion that leads to a phase leads to the one behind the phase that was completed. -/
theorem isIn_of_advance (hvalid : ∀ name P, set.get? name = some P → P.IsValid) {now : Stamp}
    {name : String} (hadvance : item.advance now name set = (.ok (.entered phase pool), after)) :
    ∃ P place, set.resolve? item.pipelineType = some P ∧ P.index? pool name = some place ∧
      IsIn set after P pool (place + 1) phase := by
  obtain ⟨P, pool', hpipeline, -, hsome, hprogress, hcourse⟩ := advance_course hadvance
  have hresolve : set.resolve? item.pipelineType = some P := resolve?_of_pipeline hpipeline
  obtain ⟨hnext, rfl⟩ := Pool.progress_eq_entered_iff.mp hprogress.symm
  obtain ⟨place, hindex⟩ := Option.isSome_iff_exists.mp hsome
  obtain ⟨_, hget⟩ := Pipelines.get?_of_resolve? hresolve
  rw [hnext] at hcourse
  rw [Pipeline.next?, hindex, Option.bind_some] at hnext
  exact ⟨P, place, hresolve, hindex, isIn_of_proceed (hvalid _ P hget) hresolve hnext hcourse⟩

end Item

namespace Pipelines

variable {set : Pipelines}

/-- A set of pipelines without warnings has one for every item, and the one that is asked for by its
    name.  An item that promotion or completion put into the phase at a place of a pool is there, as
    its readers tell it, and can be taken on from there.  All this goes for names that stay as they are
    when they are kept: those of phases have to be trimmed, those of pipelines also not blank. -/
theorem validate_sound (hvalid : set.validate = []) :
    (∀ type, (set.resolve? type).isSome = true) ∧
    (∀ name P, set.get? name = some P → Text.isBlank name = false → Text.trim name = name →
      ∀ (item : Item) now,
        set.resolve? (item.setPipelineType now (some name)).pipelineType = some P) ∧
    (∀ (item after : Item) now phase pool,
      item.promote now set = (.ok (.entered phase pool), after) →
        ∃ P, set.resolve? item.pipelineType = some P ∧ after.IsIn set P pool 0 phase) ∧
    ∀ (item after : Item) now name phase pool,
      item.advance now name set = (.ok (.entered phase pool), after) →
        ∃ P place, set.resolve? item.pipelineType = some P ∧ P.index? pool name = some place ∧
          after.IsIn set P pool (place + 1) phase := by
  obtain ⟨hdefault, hvalid⟩ := validate_eq_nil_iff.mp hvalid
  refine ⟨resolve?_isSome hdefault, ?_, ?_, ?_⟩
  · intro name P hget hblank htrim item now
    exact Item.resolve?_setPipelineType now item hget hblank htrim
  · intro item after now phase pool hpromote
    exact Item.isIn_of_promote hvalid hpromote
  · intro item after now name phase pool hadvance
    exact Item.isIn_of_advance hvalid hadvance

/-- A pipeline of two phases. -/
def brief : Pipeline where
  phases := [⟨"build", true⟩, ⟨"review", false⟩]

/-- It is the default one beside the built-in one. -/
def short : Pipelines := make "short" (.ofList [("short", brief)])

def ready : Item := Draft.sample.setStatus ⟨0, 0⟩ .ready

/-- A ready item after its promotion. -/
def promoted (set : Pipelines) : Item := (ready.promote ⟨1, 0⟩ set).2

/-- The promoted item after its first phase. -/
def reviewed : Item := ((promoted short).advance ⟨2, 0⟩ "build" short).2

/-- In a set without warnings whose names are trimmed, an item finds itself in each phase in turn. -/
theorem validate_sound_short :
    short.validate = [] ∧
      short.resolve? (Draft.sample.setPipelineType ⟨0, 0⟩ (some "feature")).pipelineType
        = some .feature ∧
      short.currentPhase? (promoted short) = some ⟨"build", true⟩ ∧
      short.currentIndex? reviewed = some 1 ∧
      (reviewed.advance ⟨3, 0⟩ "review" short).1 = .ok .done := by
  have hvalid : short.validate = [] := by decide +kernel
  obtain ⟨-, hnamed, hpromote, hadvance⟩ := validate_sound hvalid
  obtain ⟨P, -, hbuilding⟩ := hpromote ready (promoted short) ⟨1, 0⟩ ⟨"build", true⟩ .main
    (Prod.ext (by decide +kernel) rfl)
  obtain ⟨Q, place, hresolve, hplace, hreviewing⟩ := hadvance (promoted short) reviewed ⟨2, 0⟩
    "build" ⟨"review", false⟩ .main (Prod.ext (by decide +kernel) rfl)
  have hbrief : short.resolve? (promoted short).pipelineType = some brief := by decide +kernel
  obtain rfl : Q = brief := Option.some.inj (hresolve.symm.trans hbrief)
  obtain rfl : place = 0 := Option.some.inj (hplace.symm.trans (by decide))
  exact ⟨hvalid, hnamed "feature" .feature (by decide +kernel) (by decide) (by decide) _ _,
    hbuilding.current.mpr (by decide), hreviewing.placed.mpr (by decide),
    (hreviewing.goesOn ⟨3, 0⟩).mpr (by decide)⟩

/-- Names with blank space in front: of a phase of the default pipeline, and of another pipeline. -/
def padded : Pipelines :=
  make "short" (.ofList [(" hotfix", brief), ("short", { phases := [⟨" build", false⟩] })])

/-- A set without warnings may put an item into a phase that it does not find itself in, nor can it be
    taken on from any; and an item that asks for a pipeline of the set may get another one. -/
theorem warnings_miss_padding :
    padded.validate = [] ∧
      ready.promote ⟨1, 0⟩ padded = (.ok (.entered ⟨" build", false⟩ .main), promoted padded) ∧
      padded.currentIndex? (promoted padded) = none ∧
      padded.currentPhase? (promoted padded) = none ∧
      (∀ now name progress after, (promoted padded).advance now name padded ≠ (.ok progress, after)) ∧
      padded.get? " hotfix" = some brief ∧
      padded.resolve? (Draft.sample.setPipelineType ⟨0, 0⟩ (some " hotfix")).pipelineType
        ≠ some brief := by
  have hcurrent : padded.currentPhase? (promoted padded) = none := by decide +kernel
  have hrunning : Pool.ofStatus? (promoted padded).status = some .main := by decide +kernel
  refine ⟨by decide +kernel, Prod.ext (by decide +kernel) rfl, by decide +kernel, hcurrent, ?_,
    by decide +kernel, by decide +kernel⟩
  intro now name progress after hadvance
  have hname := (Item.advance_ok_iff now hrunning).mp ⟨progress, after, hadvance⟩
  rw [hcurrent] at hname
  cases hname

end Pipelines

end Backlog
