/-
  A store that is shared.

  Program: the coordinator and any number of editors use one store.  Their steps come in any order.
  The lock has one holder at a time, and an editor writes only while it is the holder.  Of the
  coordinator no such thing is assumed.

  Specification: `Legal` says which steps may come when, `run` what they leave.  `lastSaved` reads
  the active items off the saves alone, whoever made them, and that is what the store holds.

  A step of an editor that fails has no effect and is left out.
-/
import Backlog.Proofs.Store.Contents
import Mathlib.Data.List.Induction

namespace Backlog

/-! ## Parties and steps -/

/-- Who uses a store. -/
inductive Party where
  | coordinator
  | editor (n : Nat)
deriving DecidableEq

/-- What an editor does. -/
inductive Edit where
  | lock | unlock | load
  | save (items : List Item)
  | append (item : Item)

/-- A step of a party. -/
inductive Step where
  | own (x : Exchange)
  | edit (n : Nat) (e : Edit)

/-- What the coordinator was asked and answered in these steps. -/
def own (steps : List Step) : List Exchange :=
  steps.filterMap fun
    | .own x => some x
    | .edit .. => none

@[simp] theorem own_append (xs ys : List Step) : own (xs ++ ys) = own xs ++ own ys :=
  List.filterMap_append

/-- The items that a step saves. -/
def Step.saves : Step → Option (List Item)
  | .own ⟨.save items, .ok ()⟩ => some items
  | .edit _ (.save items) => some items
  | _ => none

/-- The items that the coordinator saves in a step. -/
def Step.ownSave : Step → Option (List Item)
  | .own ⟨.save items, .ok ()⟩ => some items
  | _ => none

theorem eq_of_ownSave {step : Step} {items : List Item} (h : step.ownSave = some items) :
    step = .own ⟨.save items, .ok ()⟩ := by
  cases step with
  | edit n e => cases h
  | own x =>
    obtain ⟨q, a⟩ := x
    cases q with
    | save items' =>
      rcases a with fault | ⟨⟩
      · cases h
      · cases h
        rfl
    | _ => cases h

/-- The items that were saved last, whoever saved them, and these ones if none were. -/
def lastSaved (items : List Item) (steps : List Step) : List Item :=
  steps.foldl (fun items step => step.saves.getD items) items

/-- A store with whoever holds its lock. -/
structure Shared where
  contents : Contents
  holder : Option Party

namespace Shared

/-! ## Steps -/

/-- The lock freed, if it is held by this party. -/
def release (s : Shared) (p : Party) : Shared :=
  if s.holder = some p then { s with holder := none } else s

/-- What an exchange of the coordinator does. -/
def afterOwn (s : Shared) : Exchange → Shared
  | ⟨.lock, .ok ()⟩ => { s with holder := some .coordinator }
  | ⟨.unlock, ()⟩ => s.release .coordinator
  | ⟨.save items, .ok ()⟩ => { s with contents := s.contents.replace items }
  | ⟨.append item, .ok ()⟩ => { s with contents := s.contents.file (some item) }
  | _ => s

/-- What an editor does. -/
def afterEdit (s : Shared) (n : Nat) : Edit → Shared
  | .lock => { s with holder := some (.editor n) }
  | .unlock => s.release (.editor n)
  | .load => s
  | .save items => { s with contents := s.contents.replace items }
  | .append item => { s with contents := s.contents.file (some item) }

/-- What a step does. -/
def after (s : Shared) : Step → Shared
  | .own x => s.afterOwn x
  | .edit n e => s.afterEdit n e

/-- Whether an exchange of the coordinator can take place: the lock is given if it is free, and what
    is read is what the store holds. -/
def AllowsOwn (s : Shared) : Exchange → Prop
  | ⟨.lock, .ok ()⟩ => s.holder = none
  | ⟨.load, .ok items⟩ => items = s.contents.active
  | ⟨.archivedIds, .ok known⟩ => known = ids s.contents.archive
  | _ => True

/-- Whether an editor may do something. -/
def AllowsEdit (s : Shared) (n : Nat) : Edit → Prop
  | .lock => s.holder = none
  | .save _ | .append _ => s.holder = some (.editor n)
  | .unlock | .load => True

/-- Whether a step may come next. -/
def Allows (s : Shared) : Step → Prop
  | .own x => s.AllowsOwn x
  | .edit n e => s.AllowsEdit n e

/-! ## Runs -/

/-- What a sequence of steps leaves. -/
def run (s : Shared) (steps : List Step) : Shared := steps.foldl after s

/-- Whether every step of a sequence may come when it does. -/
def Legal : Shared → List Step → Prop
  | _, [] => True
  | s, step :: steps => s.Allows step ∧ (s.after step).Legal steps

@[simp] theorem run_cons (s : Shared) (step : Step) (steps : List Step) :
    s.run (step :: steps) = (s.after step).run steps := rfl

@[simp] theorem run_append (s : Shared) (xs ys : List Step) : s.run (xs ++ ys) = (s.run xs).run ys :=
  List.foldl_append

theorem legal_append {s : Shared} {xs ys : List Step} :
    s.Legal (xs ++ ys) ↔ s.Legal xs ∧ (s.run xs).Legal ys := by
  induction xs generalizing s with
  | nil => exact ⟨fun h => ⟨trivial, h⟩, fun h => h.2⟩
  | cons x xs ih =>
    constructor
    · rintro ⟨hx, hrest⟩
      obtain ⟨hxs, hys⟩ := ih.mp hrest
      exact ⟨⟨hx, hxs⟩, hys⟩
    · rintro ⟨⟨hx, hxs⟩, hys⟩
      exact ⟨hx, ih.mpr ⟨hxs, hys⟩⟩

theorem active_after (s : Shared) (step : Step) :
    (s.after step).contents.active = step.saves.getD s.contents.active := by
  have hrelease : ∀ p, (s.release p).contents = s.contents := by
    intro p
    unfold release
    split <;> rfl
  cases step with
  | edit n e =>
    cases e with
    | unlock => exact congrArg Contents.active (hrelease _)
    | _ => rfl
  | own x =>
    obtain ⟨q, a⟩ := x
    cases q with
    | lock => rcases a with fault | ⟨⟩ <;> rfl
    | save items => rcases a with fault | ⟨⟩ <;> rfl
    | append item => rcases a with fault | ⟨⟩ <;> rfl
    | unlock => exact congrArg Contents.active (hrelease _)
    | _ => rfl

/-- The store holds the items that were saved last. -/
theorem active_run (s : Shared) (steps : List Step) :
    (s.run steps).contents.active = lastSaved s.contents.active steps := by
  induction steps generalizing s with
  | nil => rfl
  | cons step steps ih =>
    rw [run_cons, ih, active_after]
    rfl

/-! ## Steps of editors -/

theorem release_of_not_holder {s : Shared} {p : Party} (h : s.holder ≠ some p) :
    s.release p = s := if_neg h

/-- While the coordinator holds the lock, editors leave the store alone. -/
theorem run_edits_of_held {s : Shared} {steps : List Step} (hheld : s.holder = some .coordinator)
    (hlegal : s.Legal steps) (hedits : own steps = []) : s.run steps = s := by
  induction steps with
  | nil => rfl
  | cons step steps ih =>
    cases step with
    | own x => cases hedits
    | edit n e =>
      have hsame : s.after (.edit n e) = s := by
        -- what an editor may do without the lock changes nothing
        have hallows : s.AllowsEdit n e := hlegal.1
        cases e with
        | lock => exact absurd (hheld.symm.trans hallows) (by simp)
        | save items => exact absurd (hheld.symm.trans hallows) (by simp)
        | append item => exact absurd (hheld.symm.trans hallows) (by simp)
        | load => rfl
        | unlock =>
          refine release_of_not_holder ?_
          rw [hheld]
          simp
      rw [run_cons, hsame]
      refine ih ?_ hedits
      rw [← hsame]
      exact hlegal.2

/-- No editor takes the lock for the coordinator. -/
theorem not_held_edits {s : Shared} {steps : List Step} (hfree : s.holder ≠ some .coordinator)
    (hedits : own steps = []) : (s.run steps).holder ≠ some .coordinator := by
  induction steps generalizing s with
  | nil => exact hfree
  | cons step steps ih =>
    cases step with
    | own x => cases hedits
    | edit n e =>
      refine ih ?_ hedits
      cases e with
      | lock => simp [after, afterEdit]
      | unlock =>
        show (s.release _).holder ≠ _
        unfold release
        split
        · simp
        · exact hfree
      | load => exact hfree
      | save items => exact hfree
      | append item => exact hfree

/-! ## Calls -/

/-- The calls of the coordinator while it held the lock, or while it did not. -/
def calls (held : Bool) : Shared → List Step → List Call
  | _, [] => []
  | s, .own x :: steps =>
    (if decide (s.holder = some .coordinator) = held then [(s.contents, x)] else [])
      ++ (s.after (.own x)).calls held steps
  | s, .edit n e :: steps => (s.after (.edit n e)).calls held steps

@[simp] theorem calls_append (held : Bool) (s : Shared) (xs ys : List Step) :
    s.calls held (xs ++ ys) = s.calls held xs ++ (s.run xs).calls held ys := by
  induction xs generalizing s with
  | nil => rfl
  | cons x xs ih =>
    cases x with
    | own x =>
      rw [List.cons_append, calls, ih, ← List.append_assoc]
      rfl
    | edit n e => exact ih _

theorem calls_edits {held : Bool} {s : Shared} {steps : List Step} (hedits : own steps = []) :
    s.calls held steps = [] := by
  induction steps generalizing s with
  | nil => rfl
  | cons step steps ih =>
    cases step with
    | own x => cases hedits
    | edit n e => exact ih hedits

theorem calls_cons (held : Bool) (s : Shared) (step : Step) (steps : List Step) :
    s.calls held (step :: steps) = s.calls held [step] ++ (s.after step).calls held steps :=
  calls_append held s [step] steps

/-- A save of the coordinator is a call, made with the lock or without it. -/
theorem carriedOut_calls (s : Shared) (step : Step) :
    carriedOut (s.calls true [step]) ++ carriedOut (s.calls false [step])
      = (step.ownSave.map fun items => (s.contents, items, true)).toList := by
  have hown : ∀ x : Exchange, carriedOut [(s.contents, x)]
      = ((Step.own x).ownSave.map fun items => (s.contents, items, true)).toList := by
    rintro ⟨q, a⟩
    cases q with
    | save items => rcases a with fault | ⟨⟩ <;> rfl
    | _ => rfl
  cases step with
  | edit n e => rfl
  | own x =>
    rw [← hown]
    by_cases hheld : s.holder = some .coordinator
    · simp [calls, hheld, carriedOut, saves]
    · simp [calls, hheld, carriedOut, saves]

/-- If no save was a call, nothing was saved. -/
theorem ownSave_eq_none {s : Shared} {steps : List Step}
    (hheld : carriedOut (s.calls true steps) = []) (hloose : carriedOut (s.calls false steps) = []) :
    ∀ step ∈ steps, step.ownSave = none := by
  induction steps generalizing s with
  | nil => exact fun _ h => nomatch h
  | cons first steps ih =>
    rw [calls_cons, carriedOut_append, List.append_eq_nil_iff] at hheld hloose
    have hfirst := carriedOut_calls s first
    rw [hheld.1, hloose.1] at hfirst
    intro step hstep
    rcases List.mem_cons.mp hstep with rfl | hstep
    · cases hsave : step.ownSave with
      | none => rfl
      | some items =>
        rw [hsave] at hfirst
        cases hfirst
    · exact ih hheld.2 hloose.2 step hstep

/-- If one save was a call, made with the lock, then that save is the only one. -/
theorem split_of_saved_once {s : Shared} {steps : List Step} {c : Contents} {items : List Item}
    (hheld : carriedOut (s.calls true steps) = [(c, items, true)])
    (hloose : carriedOut (s.calls false steps) = []) :
    ∃ first second, steps = first ++ .own ⟨.save items, .ok ()⟩ :: second ∧
      (s.run first).contents = c ∧ ∀ step ∈ first ++ second, step.ownSave = none := by
  induction steps generalizing s with
  | nil => cases hheld
  | cons step steps ih =>
    rw [calls_cons, carriedOut_append] at hheld hloose
    obtain ⟨hloose₁, hloose₂⟩ := List.append_eq_nil_iff.mp hloose
    have hstep := carriedOut_calls s step
    rw [hloose₁, List.append_nil] at hstep
    cases hsave : step.ownSave with
    | none =>
      -- the save comes later
      rw [hsave] at hstep
      rw [hstep] at hheld
      obtain ⟨first, second, rfl, hrun, hothers⟩ := ih hheld hloose₂
      refine ⟨step :: first, second, rfl, hrun, fun other hother => ?_⟩
      rcases List.mem_cons.mp hother with rfl | hother
      · exact hsave
      · exact hothers other hother
    | some items' =>
      -- this is it, and none comes later
      rw [hsave] at hstep
      rw [hstep] at hheld
      obtain ⟨hthis, hlater⟩ := List.cons_eq_cons.mp hheld
      cases hthis
      exact ⟨[], steps, by rw [eq_of_ownSave hsave]; rfl, rfl, ownSave_eq_none hlater hloose₂⟩

/-- What the coordinator loads while it holds the lock. -/
theorem mem_loads_of_held {s : Shared} {first : List Step} (second : List Step) (items : List Item)
    (hheld : (s.run first).holder = some .coordinator) :
    items ∈ loads (s.calls true (first ++ .own ⟨.load, .ok items⟩ :: second)) := by
  have hcall : (s.run first).calls true [.own ⟨.load, .ok items⟩]
      = [((s.run first).contents, ⟨.load, .ok items⟩)] := by
    simp [calls, hheld]
  rw [calls_append, calls_cons, hcall, loads_append, loads_append]
  exact List.mem_append_right _ (List.mem_append_left _ List.mem_cons_self)

/-! ## The coordinator among editors -/

/-- The store as the coordinator meets it: before each of its exchanges the editors may take any
    steps that they may take. -/
def world (s : Shared) : Surroundings (List Step) := fun steps q a steps' =>
  ∃ meanwhile, own meanwhile = [] ∧ steps' = steps ++ meanwhile ++ [.own ⟨q, a⟩] ∧ s.Legal steps'

/-- Every legal sequence of steps is met that way, up to what the editors do at the end. -/
theorem takes_of_legal {s : Shared} {steps : List Step} (hlegal : s.Legal steps) :
    ∃ met rest, steps = met ++ rest ∧ own rest = [] ∧ s.world.Takes [] (own steps) met := by
  -- from the end, since the steps of editors join the next exchange of the coordinator
  induction steps using List.reverseRecOn with
  | nil => exact ⟨[], [], rfl, rfl, .stay _⟩
  | append_singleton steps step ih =>
    obtain ⟨met, rest, rfl, hedits, htakes⟩ := ih (legal_append.mp hlegal).1
    cases step with
    | edit n e =>
      refine ⟨met, rest ++ [.edit n e], List.append_assoc .., ?_, ?_⟩
      · rw [own_append, hedits]; rfl
      · rw [own_append (met ++ rest)]
        exact (List.append_nil (own (met ++ rest))).symm ▸ htakes
    | own x =>
      refine ⟨met ++ rest ++ [.own x], [], (List.append_nil _).symm, rfl, ?_⟩
      rw [own_append (met ++ rest)]
      exact Script.World.takes_append.mpr ⟨met, htakes, .step ⟨rest, hedits, rfl, hlegal⟩ (.stay _)⟩

variable {s : Shared} {steps steps' : List Step} {q : Request} {a : q.Answer}

/-- An exchange of the coordinator while it does not hold the lock. -/
theorem world_free (h : s.world steps q a steps') (hfree : (s.run steps).holder ≠ some .coordinator) :
    ∃ met : Shared, met.holder ≠ some .coordinator ∧ s.run steps' = met.afterOwn ⟨q, a⟩ ∧
      s.calls true steps' = s.calls true steps ∧
      s.calls false steps' = s.calls false steps ++ [(met.contents, ⟨q, a⟩)] := by
  obtain ⟨meanwhile, hedits, rfl, -⟩ := h
  have hmet := not_held_edits hfree hedits
  refine ⟨(s.run steps).run meanwhile, hmet, by rw [run_append, run_append]; rfl, ?_, ?_⟩
  · rw [calls_append, calls_append, calls_edits hedits, run_append]
    simp [calls, hmet]
  · rw [calls_append, calls_append, calls_edits hedits, run_append]
    simp [calls, hmet]

/-- An exchange of the coordinator while it holds the lock: no one else has changed anything. -/
theorem world_held (h : s.world steps q a steps') (hheld : (s.run steps).holder = some .coordinator) :
    (s.run steps).AllowsOwn ⟨q, a⟩ ∧ s.run steps' = (s.run steps).afterOwn ⟨q, a⟩ ∧
      s.calls true steps' = s.calls true steps ++ [((s.run steps).contents, ⟨q, a⟩)] ∧
      s.calls false steps' = s.calls false steps := by
  obtain ⟨meanwhile, hedits, rfl, hlegal⟩ := h
  obtain ⟨hlegal, hallows, -⟩ := legal_append.mp hlegal
  have hsame : (s.run steps).run meanwhile = s.run steps :=
    run_edits_of_held hheld (legal_append.mp hlegal).2 hedits
  rw [run_append, hsame] at hallows
  refine ⟨hallows, by rw [run_append, run_append, hsame]; rfl, ?_, ?_⟩
  · rw [calls_append, calls_append, calls_edits hedits, run_append, hsame]
    simp [calls, hheld]
  · rw [calls_append, calls_append, calls_edits hedits, run_append, hsame]
    simp [calls, hheld]

end Shared

end Backlog
