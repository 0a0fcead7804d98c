/-
  Runs in rehearsed surroundings.

  A rehearsal answers every request, so it gives a run of the coordinator for every list of
  commands.  Such a run is one like any other: the coordinator serves the commands in turn, and the
  items of the rehearsal are those of a store.
-/
import Backlog.Coordinator.Rehearsal
import Backlog.Proofs.Store.Contents

namespace Backlog

/-! ## The store of a rehearsal -/

/-- The items of a rehearsal. -/
def Rehearsal.contents (r : Rehearsal) : Contents := { active := r.active, archive := r.archive }

namespace Rehearsal

theorem contents_ofTracker {α : Type} {r : Rehearsal} {kind : RequestKind}
    {answer : Except TrackerFault α × Rehearsal} (h : answer.2.contents = r.contents) :
    (r.ofTracker kind answer).2.contents = r.contents := by
  unfold ofTracker
  split
  · rfl
  · exact h

theorem answers_respond (r : Rehearsal) (q : Request) :
    Contents.Answers r.contents q (r.respond q).1 (r.respond q).2.contents := by
  cases q with
  | lock =>
    show (r.ofStore .lock _).2.contents = r.contents
    unfold ofStore
    split
    · rfl
    · split <;> rfl
  | load =>
    show (r.ofStore .load _).2.contents = r.contents ∧
      ∀ items, (r.ofStore .load _).1 = .ok items → items = r.active
    unfold ofStore
    split
    · refine ⟨rfl, fun _ h => ?_⟩
      cases h
    · exact ⟨rfl, fun _ h => (Except.ok.inj h).symm⟩
  | archivedIds =>
    show (r.ofStore .archivedIds _).2.contents = r.contents ∧
      ∀ known, (r.ofStore .archivedIds _).1 = .ok known → known = ids r.archive
    unfold ofStore
    split
    · refine ⟨rfl, fun _ h => ?_⟩
      cases h
    · exact ⟨rfl, fun _ h => (Except.ok.inj h).symm⟩
  | save items =>
    simp only [respond, ofStore]
    split <;> rfl
  | append item =>
    simp only [respond, ofStore]
    split <;> rfl
  | stage paths => exact contents_ofTracker rfl
  | unstage paths => exact contents_ofTracker rfl
  | stageStore => exact contents_ofTracker rfl
  | commit message =>
    refine contents_ofTracker ?_
    split <;> rfl
  | head =>
    show (r.respond .head).2.contents = r.contents
    simp only [respond]
    split <;> rfl
  | unlock => rfl
  | pause ms => rfl
  | note d => rfl

/-- A rehearsal answers as a store does. -/
theorem answers (r : Rehearsal) (q : Request) :
    Contents.Answers r.contents q (r.answer q).1 (r.answer q).2.contents :=
  answers_respond { r with asked := q :: r.asked } q

end Rehearsal

/-! ## Rehearsed turns -/

namespace Coordinator

variable (settings : Settings) (now : Stamp) (command : Command) (c : Coordinator) (r : Rehearsal)

/-- What is asked and answered when a command is rehearsed. -/
def rehearsedLog : List Exchange := (submit settings now command c).exchanges Rehearsal.answer r

/-- The reply to a rehearsed command and the coordinator afterwards, and what is left to rehearse
    with. -/
def rehearsed : (Except CommandError command.Answer × Coordinator) × Rehearsal :=
  (submit settings now command c).run Rehearsal.answer r

/-- A rehearsed command as a turn. -/
def Turn.rehearsed : Turn :=
  { now, command, log := rehearsedLog settings now command c r,
    reply := (Coordinator.rehearsed settings now command c r).1.1 }

theorem leads_rehearsed : (submit settings now command c).Leads
    (rehearsedLog settings now command c r) (.done (rehearsed settings now command c r).1) :=
  Script.leads_exchanges ..

/-- The path of a rehearsed command that was accepted. -/
theorem leads_rehearsed_ok {answer : command.Answer}
    (h : (rehearsed settings now command c r).1.1.toOption = some answer) :
    (submit settings now command c).Leads (rehearsedLog settings now command c r)
      (.done (.ok answer, (rehearsed settings now command c r).1.2)) := by
  have hleads := leads_rehearsed settings now command c r
  generalize (rehearsed settings now command c r).1 = ended at h hleads ⊢
  obtain ⟨reply, after⟩ := ended
  cases reply with
  | error e => cases h
  | ok given =>
    cases h
    exact hleads

theorem serves_rehearsed : Serves settings c [Turn.rehearsed settings now command c r]
    (rehearsed settings now command c r).1.2 :=
  .turn (leads_rehearsed settings now command c r) (.idle _)

theorem takes_rehearsed : Script.World.Takes Contents.Answers r.contents
    (rehearsedLog settings now command c r) (rehearsed settings now command c r).2.contents :=
  Script.takes_exchanges Rehearsal.contents (fun r q => r.answers q) _ r

/-- The turns that serve these commands, one after the other. -/
def rehearsedTurns (settings : Settings) (c : Coordinator) (r : Rehearsal) :
    List (Stamp × Command) → List Turn
  | [] => []
  | (now, command) :: rest =>
    Turn.rehearsed settings now command c r ::
      rehearsedTurns settings (rehearsed settings now command c r).1.2
        (rehearsed settings now command c r).2 rest

/-- The coordinator after these commands, and what is left to rehearse with. -/
def rehearsedAfter (settings : Settings) (c : Coordinator) (r : Rehearsal) :
    List (Stamp × Command) → Coordinator × Rehearsal
  | [] => (c, r)
  | (now, command) :: rest =>
    rehearsedAfter settings (rehearsed settings now command c r).1.2
      (rehearsed settings now command c r).2 rest

theorem serves_rehearsedTurns (commands : List (Stamp × Command)) :
    Serves settings c (rehearsedTurns settings c r commands)
      (rehearsedAfter settings c r commands).1 := by
  induction commands generalizing c r with
  | nil => exact .idle c
  | cons next rest ih =>
    obtain ⟨now, command⟩ := next
    exact .turn (leads_rehearsed settings now command c r) (ih ..)

theorem takes_rehearsedTurns (commands : List (Stamp × Command)) :
    Script.World.Takes Contents.Answers r.contents (talk (rehearsedTurns settings c r commands))
      (rehearsedAfter settings c r commands).2.contents := by
  induction commands generalizing c r with
  | nil => exact .stay _
  | cons next rest ih =>
    obtain ⟨now, command⟩ := next
    exact Script.World.takes_append.mpr ⟨_, takes_rehearsed settings now command c r, ih ..⟩

end Coordinator

/-! ## A store to rehearse with -/

/-- An item that is done. -/
def Item.finished : Item := (Item.bare "WRK-1" "Add caching" ⟨0, 0⟩).setStatus ⟨0, 0⟩ .done

/-- A store with an item that is done. -/
def Rehearsal.sample : Rehearsal := { active := [Item.finished] }

/-- A store with a new item. -/
def Rehearsal.fresh : Rehearsal := { active := [Draft.sample] }

/-- The rehearsal goes on, but no save is carried out any more. -/
def Rehearsal.withoutSaves (r : Rehearsal) : Rehearsal :=
  { r with storeFault := fun kind => if kind = .save then some (.crashed none) else none }

end Backlog
