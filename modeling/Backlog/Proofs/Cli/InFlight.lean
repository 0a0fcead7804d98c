/-
  The work that is declared to be in flight.

  Program: whoever asks what is next names the items that are being worked on.  From each the plan takes
  the phase that it is in, as everyone else tells it, and the pool that it has recorded.

  Specification: an item that is named, is in a phase and has recorded the pool is left alone and passed
  over as running, and it takes one of the slots; one that has recorded no pool might as well not be
  named (`declared_work_stays`).  Since the status tells the pool to all others, such an item may be
  started again (`declared_work_may_restart`).

  The crux is that the table of running work has the named items once each (`keys_runningOf`), so its
  size is their number.
-/
import Backlog.Cli.Run
import Backlog.Proofs.Dict
import Backlog.Proofs.Host.Folders
import Backlog.Proofs.Schedule.Safety

namespace Backlog.Cli

open Schedule (standing signals)

variable {set : Pipelines} {items : List Item} {names : List String} {id : String} {item : Item}

/-! ## The table of running work -/

/-- What the item with an ID is in, if it is in flight. -/
def phaseInFlight? (set : Pipelines) (items : List Item) (id : String) : Option RunningPhase := do
  let item ← findItem id items
  let phase ← set.currentPhase? item
  let pool ← item.phasePool
  return { phase := phase.name, pool, destructive := phase.destructive }

/-- The named items that are in flight, each once. -/
def inFlight (set : Pipelines) (items : List Item) (names : List String) : List String :=
  (names.filter fun id => (phaseInFlight? set items id).isSome).dedup

/-- Those of them whose phase is a destructive one. -/
def destructiveInFlight (set : Pipelines) (items : List Item) (names : List String) : List String :=
  (inFlight set items names).filter fun id => (findItem id items).any set.isDestructive

theorem runningOf_eq (set : Pipelines) (items : List Item) (names : List String) :
    runningOf set items names
      = .ofList (names.filterMap fun id => (phaseInFlight? set items id).map (id, ·)) := by
  rw [runningOf]
  congr 1
  refine List.filterMap_congr fun id _ => ?_
  rw [phaseInFlight?, findItem]
  cases items.find? fun i => i.id == id with
  | none => rfl
  | some item =>
    cases hphase : set.currentPhase? item with
    | none => simp [hphase]
    | some phase => cases hpool : item.phasePool <;> simp [hphase, hpool]

theorem get?_runningOf : (runningOf set items names).get? id
    = if id ∈ names then phaseInFlight? set items id else none := by
  rw [runningOf_eq, Dict.get?_ofList]

theorem keys_runningOf : (runningOf set items names).keys.Perm (inFlight set items names) := by
  rw [runningOf_eq]
  exact Dict.keys_ofList _ names

theorem contains_runningOf_iff :
    (runningOf set items names).contains id = true ↔ id ∈ inFlight set items names := by
  rw [← Dict.mem_keys_iff, keys_runningOf.mem_iff]

theorem size_runningOf : (runningOf set items names).size = (inFlight set items names).length :=
  Dict.size_eq_of_perm keys_runningOf

/-- The flag of the phase in flight is that of the item. -/
theorem destructive_phaseInFlight? {running : RunningPhase}
    (h : phaseInFlight? set items id = some running) :
    running.destructive = (findItem id items).any set.isDestructive := by
  obtain ⟨item, hitem, hrest⟩ := Option.bind_eq_some_iff.mp h
  obtain ⟨phase, hphase, hrest⟩ := Option.bind_eq_some_iff.mp hrest
  obtain ⟨pool, -, hrunning⟩ := Option.bind_eq_some_iff.mp hrest
  cases hrunning
  rw [hitem, Option.any_some, Pipelines.isDestructive, hphase, Option.any_some]

theorem destructiveCount_runningOf : (runningOf set items names).destructiveCount
    = (destructiveInFlight set items names).length := by
  rw [Running.destructiveCount, Dict.countP_values _ keys_runningOf, destructiveInFlight,
    ← List.countP_eq_length_filter]
  refine List.countP_congr fun id hid => ?_
  obtain ⟨running, hrunning⟩ := (Dict.contains_iff _ _).mp (contains_runningOf_iff.mpr hid)
  rw [hrunning, Option.any_some]
  rw [get?_runningOf] at hrunning
  split at hrunning
  · rw [destructive_phaseInFlight? hrunning]
  · cases hrunning

/-- A named item is in flight if it is in a phase and has recorded the pool. -/
theorem mem_inFlight_iff (hitem : findItem id items = some item) :
    id ∈ inFlight set items names ↔
      id ∈ names ∧ (set.currentPhase? item).isSome = true ∧ item.phasePool.isSome = true := by
  rw [inFlight, List.mem_dedup, List.mem_filter, phaseInFlight?, hitem, Option.bind_eq_bind,
    Option.bind_some]
  cases hphase : set.currentPhase? item with
  | none => simp
  | some phase => cases hpool : item.phasePool <;> simp

/-- An item that has recorded no pool might as well not be named. -/
theorem nextPlan_of_no_pool {settings : Settings} (hitem : findItem id items = some item)
    (hpool : item.phasePool = none) (maxWip : Option Nat) :
    nextPlan settings items names maxWip
      = nextPlan settings items (names.filter (· ≠ id)) maxWip := by
  have hsame : runningOf settings.allPipelines items names
      = runningOf settings.allPipelines items (names.filter (· ≠ id)) := by
    refine Dict.ext_get? fun other => ?_
    rw [get?_runningOf, get?_runningOf]
    by_cases hother : other = id
    · have hnone : phaseInFlight? settings.allPipelines items other = none := by
        rw [hother, phaseInFlight?, hitem, Option.bind_eq_bind, Option.bind_some, hpool]
        cases settings.allPipelines.currentPhase? item <;> rfl
      rw [hnone, ite_self, ite_self]
    · simp [hother]
  simp only [nextPlan, hsame]

/-! ## What is printed -/

/-- The machine after these warnings were logged. -/
def warned (m : Machine) (texts : List String) : Machine :=
  { m with logged := m.logged ++ texts.map fun text => (.warning, text) }

/-- The machine after these lines were printed. -/
def shown (m : Machine) (lines : List String) : Machine :=
  { m with printed := lines.foldl (fun printed line => printed ++ (line ++ "\n")) m.printed }

/-- A program within a session goes on from where its first step ended. -/
theorem run_bind_ok {α β : Type} {session between : Session} {m after : Machine} {step : InSession α}
    {rest : α → InSession β} {a : α}
    (h : m.run (step.run session).run = (.ok (a, between), after)) :
    m.run ((step >>= rest).run session).run = after.run ((rest a).run between).run := by
  rw [StateT.run_bind, Host.run_bind_ok h]

theorem run_warn (texts : List String) (session : Session) (m : Machine) :
    m.run ((texts.forM fun text => Host.warn text : InSession Unit).run session).run
      = (.ok ((), session), warned m texts) := by
  induction texts generalizing m with
  | nil =>
    rw [warned, List.map_nil, List.append_nil]
    rfl
  | cons text rest ih =>
    have hfirst : m.run ((Host.warn text : InSession Unit).run session).run
        = (.ok ((), session), warned m [text]) := rfl
    rw [List.forM_eq_forM, List.forM_cons, run_bind_ok hfirst]
    refine (ih _).trans ?_
    simp only [warned, List.map_cons, List.map_nil, List.append_assoc, List.singleton_append]

theorem run_print (lines : List String) (session : Session) (m : Machine) :
    m.run ((print lines).run session).run = (.ok ((), session), shown m lines) := by
  have hlines : m.run (Host.printLines lines) = ((), shown m lines) := by
    induction lines generalizing m with
    | nil => rfl
    | cons line rest ih =>
      rw [Host.printLines, List.forM_eq_forM, List.forM_cons, Machine.run_bind]
      exact ih _
  have htask : m.run (liftM (Host.printLines lines) : Host.Task Failure Unit).run
      = (.ok (), shown m lines) := Host.run_lift hlines
  show m.run ((liftM (Host.printLines lines) : Host.Task Failure Unit)
    >>= fun answer => pure (answer, session)).run = _
  rw [Host.run_bind_ok htask]
  rfl

/-- What `next` shows is the plan for the items that the coordinator answers with. -/
theorem run_next {session between : Session} {m after : Machine} {items : List Item}
    (hitems : m.run ((Session.require .snapshot).run session).run = (.ok (items, between), after))
    (verbose : Bool) (names : List String) (maxWip : Option Nat) (json : Bool) :
    m.run ((next verbose names maxWip json).run session).run
      = (.ok ((), between),
        shown (warned after (runningWarnings between.project.settings.allPipelines items names))
          (if json then [(nextPlan between.project.settings items names maxWip).toJson.pretty]
            else Report.plan verbose (nextPlan between.project.settings items names maxWip))) := by
  have hget : after.run ((get : InSession Session).run between).run
      = (.ok (between, between), after) := rfl
  unfold next
  refine (run_bind_ok hitems).trans ?_
  refine (run_bind_ok hget).trans ?_
  refine (run_bind_ok (run_warn _ between after)).trans ?_
  exact run_print _ between _

/-! ## What is in flight stays there -/

/-- An item that is named as in flight, is in a phase and has recorded the pool of that phase is not
    scheduled again.  The plan that is shown has no action for it, lists it as running, and has slots
    only for what is left by all that are in flight, of which it is one.  Whichever item has recorded no
    pool, the plan is as if that were not named. -/
theorem declared_work_stays (settings : Settings) (hdistinct : (ids items).Nodup)
    (hitem : item ∈ items) (hnamed : item.id ∈ names) {phase : Phase}
    (hphase : settings.allPipelines.currentPhase? item = some phase)
    (hpool : item.phasePool.isSome = true) (maxWip : Option Nat) :
    (∀ action ∈ (nextPlan settings items names maxWip).actions, action.item ≠ item.id) ∧
    (item.id, .alreadyRunning) ∈ (nextPlan settings items names maxWip).skipped ∧
    item.id ∈ inFlight settings.allPipelines items names ∧
    (nextPlan settings items names maxWip).actions.countP Action.takesCapacity
      ≤ maxWip.getD settings.limits.maxWip - (inFlight settings.allPipelines items names).length ∧
    (item.id ∈ destructiveInFlight settings.allPipelines items names ↔ phase.destructive = true) ∧
    (nextPlan settings items names maxWip).actions.countP Action.isDestructive
      ≤ settings.limits.maxExclusive
        - (destructiveInFlight settings.allPipelines items names).length ∧
    (∀ (session between : Session) (m after : Machine), between.project.settings = settings →
      m.run ((Session.require .snapshot).run session).run = (.ok (items, between), after) →
        ∀ verbose json, m.run ((next verbose names maxWip json).run session).run
          = (.ok ((), between), shown
              (warned after (runningWarnings settings.allPipelines items names))
              (if json then [(nextPlan settings items names maxWip).toJson.pretty]
                else Report.plan verbose (nextPlan settings items names maxWip)))) ∧
    ∀ other ∈ items, other.phasePool = none →
      nextPlan settings items names maxWip
        = nextPlan settings items (names.filter (· ≠ other.id)) maxWip := by
  have hfound : findItem item.id items = some item := findItem_of_mem hdistinct hitem
  have hmem : item.id ∈ inFlight settings.allPipelines items names :=
    (mem_inFlight_iff hfound).mpr ⟨hnamed, by rw [hphase]; rfl, hpool⟩
  have hbusy : (runningOf settings.allPipelines items names).contains item.id = true :=
    contains_runningOf_iff.mpr hmem
  refine ⟨?_, Schedule.mem_skipped_of_running hitem hbusy, hmem, ?_, ?_, ?_, ?_, ?_⟩
  · intro action haction hid
    have hidle := Schedule.idle_of_mem_actions haction
    rw [hid, hbusy] at hidle
    cases hidle
  · rw [← size_runningOf]
    exact Schedule.countP_takesCapacity_le _ _ _ _
  · rw [destructiveInFlight, List.mem_filter, hfound, Option.any_some, Pipelines.isDestructive, hphase,
      Option.any_some]
    exact and_iff_right hmem
  · rw [← destructiveCount_runningOf]
    exact Schedule.countP_isDestructive_le _ _ _ _
  · rintro session between m after rfl hitems verbose json
    exact run_next hitems verbose names maxWip json
  · intro other hother hnone
    exact nextPlan_of_no_pool (findItem_of_mem hdistinct hother) hnone maxWip

/-- An item that builds, and whether it has recorded the pool. -/
def building (pool : Option Pool) : Item :=
  ((Draft.sample.setStatus ⟨0, 0⟩ .inProgress).setPhase ⟨0, 0⟩ (some "build")).setPhasePool ⟨0, 0⟩ pool

/-- It, and a new item that is in no pool. -/
def buildingPair : List Item :=
  [building (some .main), Draft.item { title := "Add paging" } "WRK-2" ⟨0, 0⟩]

/-- Both are named.  So the one slot for destructive phases is taken by the first, and the second might as
    well not be named. -/
theorem declared_work_stays_building :
    (ids buildingPair).Nodup ∧
      (∀ action ∈ (nextPlan {} buildingPair ["WRK-1", "WRK-2"] none).actions, action.item ≠ "WRK-1") ∧
      ("WRK-1", .alreadyRunning) ∈ (nextPlan {} buildingPair ["WRK-1", "WRK-2"] none).skipped ∧
      destructiveInFlight ({} : Settings).allPipelines buildingPair ["WRK-1", "WRK-2"] = ["WRK-1"] ∧
      (nextPlan {} buildingPair ["WRK-1", "WRK-2"] none).actions.countP Action.isDestructive = 0 ∧
      nextPlan {} buildingPair ["WRK-1", "WRK-2"] none = nextPlan {} buildingPair ["WRK-1"] none := by
  have hdistinct : (ids buildingPair).Nodup := by decide
  have hnamed : (building (some .main)).id ∈ ["WRK-1", "WRK-2"] := by decide
  have hphase : ({} : Settings).allPipelines.currentPhase? (building (some .main))
      = some ⟨"build", true⟩ := by decide +kernel
  obtain ⟨hnone, hlisted, -, -, -, hexclusive, -, hunnamed⟩ :=
    declared_work_stays {} hdistinct List.mem_cons_self hnamed hphase (by decide +kernel) none
  have hone : destructiveInFlight ({} : Settings).allPipelines buildingPair ["WRK-1", "WRK-2"]
      = ["WRK-1"] := by decide +kernel
  rw [hone] at hexclusive
  have hnew := hunnamed _ (List.mem_cons_of_mem _ List.mem_cons_self) (by decide +kernel)
  exact ⟨hdistinct, hnone, hlisted, hone, Nat.le_zero.mp hexclusive, hnew⟩

/-- Without a recorded pool the item is in its phase as before, and it may be taken on from there, but
    it is run once more although it is named as in flight. -/
theorem declared_work_may_restart :
    ({} : Settings).allPipelines.currentPhase? (building none) = some ⟨"build", true⟩ ∧
      ((building none).advance ⟨1, 0⟩ "build" ({} : Settings).allPipelines).1
        = .ok (.entered ⟨"review", false⟩ .main) ∧
      runningWarnings ({} : Settings).allPipelines [building none] ["WRK-1"]
        = ["Running item has no current phase"] ∧
      nextPlan {} [building none] ["WRK-1"] none
        = { actions := [.runPhase "WRK-1" "build" .main true] } := by
  refine ⟨by decide +kernel, by decide +kernel, by decide +kernel, ?_⟩
  have hage : Schedule.byAge [building none] = [building none] :=
    Schedule.byAge_of_pairwise (List.pairwise_singleton _ _)
  rw [nextPlan, Schedule.tick, Schedule.candidates, hage,
    Schedule.byKeyDown_of_pairwise (by decide +kernel),
    Schedule.byKeyDown_of_pairwise (by decide +kernel),
    Schedule.byKeyDown_of_pairwise (by decide +kernel)]
  decide +kernel

end Backlog.Cli
