/-
  What an error leaves in the store.

  Specification: a command that is answered with an error has changed no active item.  Neither has
  it changed the archive, with one exception.  A command that retires an item writes the archive
  first, so each save that failed has left a further copy of that item there, while the item is
  still active.

  The exception is the price of losing nothing, and it is stated exactly: the archive grows by one
  copy for each failed save, by nothing else, and never for a command that retires nothing.
-/
import Backlog.Proofs.Coordinator.Lone
import Backlog.Proofs.Coordinator.Rehearsed

namespace Backlog

/-! ## Failed saves -/

/-- Whether the exchange is a save that failed. -/
def Exchange.isFailedSave (x : Exchange) : Bool := x.saved.any fun saved => !saved.2

/-- How many saves have failed. -/
def failedSaves (log : List Exchange) : Nat := log.countP Exchange.isFailedSave

/-- How many of these saves have failed. -/
def failures (made : List (Contents × List Item × Bool)) : Nat := made.countP fun save => !save.2.2

theorem failures_append (xs ys : List (Contents × List Item × Bool)) :
    failures (xs ++ ys) = failures xs + failures ys :=
  List.countP_append

theorem failures_saves (calls : List Call) :
    failures (saves calls) = failedSaves (calls.map Prod.snd) :=
  countP_saves (fun made => !made) calls

/-! ## Items in the archive again -/

namespace Contents

/-- The contents with so many copies of an item more in the archive, if there is one. -/
def refile (c : Contents) (retired : Option Item) (times : Nat) : Contents :=
  { c with archive := c.archive ++ (List.replicate times retired.toList).flatten }

theorem refile_zero (c : Contents) (retired : Option Item) : c.refile retired 0 = c := by
  rw [refile, List.replicate_zero, List.flatten_nil, List.append_nil]

theorem file_refile (c : Contents) (retired : Option Item) (times : Nat) :
    (c.refile retired times).file retired = c.refile retired (times + 1) := by
  rw [refile, refile, file, List.replicate_succ', List.flatten_concat, List.append_assoc]

end Contents

namespace Coordinator

variable {settings : Settings} {now : Stamp} {command : Command}

/-! ## One command -/

/-- Until a save is carried out, the store is what it was, but for a copy of the retired item in the
    archive for every save that failed. -/
theorem frame_refile (before : Contents) :
    Frame settings now command (Script.World.recorded Contents.Answers) (fun _ => True)
      (fun s => s.1 = before.refile (command.retires now before.active) (failures (saves s.2)))
      (fun _ result s => (∃ e, result = .error e) →
        s.1 = before.refile (command.retires now before.active) (failures (saves s.2))) := by
  refine Frame.lone (fun _ => True)
    (fun c made => c = before.refile (command.retires now before.active) (failures made))
    (fun _ result c made => (∃ e, result = .error e) →
      c = before.refile (command.retires now before.active) (failures made))
    (fun _ _ _ => trivial) (fun _ _ _ _ _ => trivial) (fun _ _ _ _ _ _ => trivial) ?_
  intro head c made ended c' calls h hsection
  have hnone : saves calls = [] →
      c = before.refile (command.retires now before.active) (failures (made ++ saves calls)) := by
    intro hsaves
    rw [hsaves, List.append_nil]
    exact h
  cases hsection with
  | unread _ hsaves => exact ⟨fun _ => hnone hsaves, fun _ _ => hnone hsaves⟩
  | unconsulted _ _ hsaves => exact ⟨fun _ => hnone hsaves, fun _ _ => hnone hsaves⟩
  | unfiled _ _ hsaves => exact ⟨fun _ => hnone hsaves, fun _ _ => hnone hsaves⟩
  | refused _ _ hsaves => exact ⟨fun _ => hnone hsaves, fun _ _ => hnone hsaves⟩
  | @unsaved d fault _ hd _ hsaves =>
    have hretired : d.retired = command.retires now before.active := by
      rw [Command.retired_eq_retires hd, h]
      rfl
    have hfiled : c.file d.retired
        = before.refile (command.retires now before.active) (failures (made ++ saves calls)) := by
      rw [hsaves, failures_append, h, hretired, Contents.file_refile]
      rfl
    exact ⟨fun _ => hfiled, fun _ _ => hfiled⟩
  | saved =>
    constructor
    · rintro ⟨e, he⟩
      cases he
    · intro _ hended
      cases hended

/-- Archiving the done item of a store in which no save is carried out. -/
def unsavedArchival : (Except CommandError Unit × Coordinator) × Rehearsal :=
  rehearsed {} ⟨1, 0⟩ (.archive "WRK-1") {} Rehearsal.sample.withoutSaves

/-- It is answered with an error, which halts the coordinator. -/
theorem leads_unsavedArchival :
    (submit {} ⟨1, 0⟩ (.archive "WRK-1") {}).Leads
      (rehearsedLog {} ⟨1, 0⟩ (.archive "WRK-1") {} Rehearsal.sample.withoutSaves)
      (.done (.error (.storeCrashed "archive_item panicked: non-string panic payload"),
        { running := false })) :=
  leads_rehearsed ..

/-- An error does not always leave the store as it was. -/
theorem error_may_leave_copy :
    ¬ ∀ (settings : Settings) (now : Stamp) (command : Command) (c c' : Coordinator)
        (e : CommandError) (log : List Exchange) (before after : Contents),
        (submit settings now command c).Leads log (.done (.error e, c')) →
        Script.World.Takes Contents.Answers before log after → after = before := by
  intro hunchanged
  have hsame := hunchanged _ _ _ _ _ _ _ _ _ leads_unsavedArchival (takes_rehearsed ..)
  -- the archive was empty, and has the item now
  have hgrown : unsavedArchival.2.contents.archive = [Item.finished] := by decide +kernel
  rw [show unsavedArchival.2.contents = _ from hsame] at hgrown
  cases hgrown

/-- An error leaves the active items as they were, and the archive too but for what the failed saves
    of a command that retires an item have left there: each of them a copy of the item, which is
    still active. -/
theorem error_leaves_store {c c' : Coordinator} {e : CommandError} {before after : Contents}
    {log : List Exchange}
    (hcommand : (submit settings now command c).Leads log (.done (.error e, c')))
    (hstore : Script.World.Takes Contents.Answers before log after) :
    after.active = before.active ∧
    after.archive = before.archive ++
      (List.replicate (failedSaves log) (command.retires now before.active).toList).flatten ∧
    ∀ item, command.retires now before.active = some item → item.id ∈ ids after.active := by
  obtain ⟨record, hrecorded, rfl⟩ := Script.World.takes_recorded hstore []
  have hstart : before = before.refile (command.retires now before.active) (failures (saves [])) :=
    (Contents.refile_zero ..).symm
  have hsettled := ((frame_refile before).ensures_submit c hstart).post_of_leads hcommand hrecorded
  have hafter : after = before.refile (command.retires now before.active)
      (failures (saves record)) := by
    rcases hsettled with ⟨h, -⟩ | ⟨-, head, result, h, hreports⟩
    · exact h
    · rcases result with e' | value
      · exact h ⟨e', rfl⟩
      · exact hreports.elim
  rw [failures_saves] at hafter
  have hactive : after.active = before.active := by rw [hafter]; rfl
  refine ⟨hactive, by rw [hafter]; rfl, fun item hitem => ?_⟩
  rw [hactive]
  exact Command.mem_ids_of_retires hitem

/-- The item that could not be taken out of the active ones has a copy in the archive. -/
theorem error_leaves_copy :
    unsavedArchival.1.1 = .error (.storeCrashed "archive_item panicked: non-string panic payload") ∧
    unsavedArchival.2.active = [Item.finished] ∧ unsavedArchival.2.archive = [Item.finished] := by
  obtain ⟨hactive, harchive, -⟩ := error_leaves_store leads_unsavedArchival (takes_rehearsed ..)
  have hfailed : failedSaves (rehearsedLog {} ⟨1, 0⟩ (.archive "WRK-1") {}
      Rehearsal.sample.withoutSaves) = 1 := by
    decide +kernel
  have hretires : (Command.archive "WRK-1").retires ⟨1, 0⟩ [Item.finished]
      = some Item.finished := by
    decide +kernel
  refine ⟨rfl, hactive, ?_⟩
  rw [hfailed, show (Command.archive "WRK-1").retires ⟨1, 0⟩
    Rehearsal.sample.withoutSaves.contents.active = _ from hretires] at harchive
  exact harchive

end Coordinator

end Backlog
