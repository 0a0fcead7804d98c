/-
  How often a command saves.

  Program: a transaction saves at its end, and is tried again only if its lock was not free.

  Specification: while no one else writes to the store, a command that was served has saved once if it
  was accepted and is one that writes, and else not at all (`savesMade_of_leads`).  So at each of its
  moments the active items are those from before it or those from after it (`active_of_moment`).

  The crux is that no try follows one that has saved.
-/
import Backlog.Proofs.Coordinator.History

namespace Backlog

/-! ## Saves that were carried out -/

/-- Whether the exchange is a save that was carried out. -/
def Exchange.isSave (x : Exchange) : Bool := x.saved.any fun saved => saved.2

/-- How many saves were carried out. -/
def savesMade (log : List Exchange) : Nat := log.countP Exchange.isSave

/-- How many of these saves were carried out. -/
def successes (made : List (Contents × List Item × Bool)) : Nat := made.countP fun save => save.2.2

theorem successes_append (xs ys : List (Contents × List Item × Bool)) :
    successes (xs ++ ys) = successes xs + successes ys :=
  List.countP_append

theorem successes_saves (calls : List Call) :
    successes (saves calls) = savesMade (calls.map Prod.snd) :=
  countP_saves (fun made => made) calls

/-- As long as nothing is saved the active items stay. -/
theorem activeAfter_of_savesMade {log : List Exchange} (h : savesMade log = 0) (items : List Item) :
    activeAfter items log = items := by
  have hexchange : ∀ x ∈ log, Exchange.activeAfter items x = items := by
    intro x hx
    have hnone : ¬ x.isSave = true := List.countP_eq_zero.mp h x hx
    unfold Exchange.activeAfter
    split
    · next saved hsaved => exact absurd (by rw [Exchange.isSave, hsaved]; rfl) hnone
    · rfl
  clear h
  induction log with
  | nil => rfl
  | cons x log ih =>
    rw [activeAfter, List.foldl_cons, hexchange x List.mem_cons_self]
    exact ih fun y hy => hexchange y (List.mem_cons_of_mem x hy)

namespace Coordinator

variable {settings : Settings} {now : Stamp} {command : Command}

/-! ## One command -/

/-- A transaction saves once if it is accepted, and else not at all. -/
theorem frame_saves :
    Frame settings now command (Script.World.recorded Contents.Answers) (fun _ => True)
      (fun s => successes (saves s.2) = 0)
      (fun _ result s => successes (saves s.2) = if result.isOk then 1 else 0) := by
  refine Frame.lone (fun _ => True) (fun _ made => successes made = 0)
    (fun _ result _ made => successes made = if result.isOk then 1 else 0)
    (fun _ _ _ => trivial) (fun _ _ _ _ _ => trivial) (fun _ _ _ _ _ _ => trivial) ?_
  intro head c made ended c' calls h hsection
  have hfailed : ∀ stop : Talk.Stop, successes (saves calls) = 0 →
      (successes (made ++ saves calls)
        = if (Talk.outcome (α := command.Value) command.operation (.error stop)).isOk then 1 else 0) ∧
      ∀ waitedMs,
        (.error stop : Except Talk.Stop command.Value) = .error (.error (.lockTimeout waitedMs)) →
        successes (made ++ saves calls) = 0 := by
    intro stop hsaves
    have hnone : successes (made ++ saves calls) = 0 := by rw [successes_append, h, hsaves]
    obtain ⟨e, he⟩ := Talk.outcome_error command.operation stop
    rw [he]
    exact ⟨hnone, fun _ _ => hnone⟩
  cases hsection with
  | unread _ hsaves => exact hfailed _ (by rw [hsaves]; rfl)
  | unconsulted _ _ hsaves => exact hfailed _ (by rw [hsaves]; rfl)
  | refused _ _ hsaves => exact hfailed _ (by rw [hsaves]; rfl)
  | unfiled _ _ hsaves => exact hfailed _ (by rw [hsaves]; rfl)
  | unsaved _ _ hsaves => exact hfailed _ (by rw [hsaves]; rfl)
  | saved _ _ hsaves =>
    constructor
    · rw [successes_append, h, hsaves]
      rfl
    · rintro _ ⟨⟩

/-- A command saves once if it is accepted and is one that writes, and else not at all. -/
theorem savesMade_of_leads {c c' : Coordinator} {reply : Except CommandError command.Answer}
    {log : List Exchange} {before after : Contents}
    (hcommand : (submit settings now command c).Leads log (.done (reply, c')))
    (hstore : Script.World.Takes Contents.Answers before log after) :
    savesMade log = if reply.isOk && command.writes then 1 else 0 := by
  obtain ⟨record, hrecorded, rfl⟩ := Script.World.takes_recorded hstore []
  have hframe := @frame_saves settings now command
  have hsettled := (hframe.ensures_submit c rfl).post_of_leads hcommand hrecorded
  rw [← successes_saves]
  rcases hsettled with ⟨hnone, ⟨e, he⟩ | ⟨hwrites, -⟩⟩ | ⟨hwrites, head, result, hmade, hreports⟩
  · rw [show reply = .error e from he]
    exact hnone
  · rw [hwrites, Bool.and_false]
    exact hnone
  · rw [hwrites, Bool.and_true, Command.isOk_of_reports hreports]
    exact hmade

/-- At each moment of a command the active items are those from before it or those from after it. -/
theorem active_of_moment {c c' : Coordinator} {reply : Except CommandError command.Answer}
    {first second : List Exchange} {before between after : Contents}
    (hcommand : (submit settings now command c).Leads (first ++ second) (.done (reply, c')))
    (hfirst : Script.World.Takes Contents.Answers before first between)
    (hsecond : Script.World.Takes Contents.Answers between second after) :
    between.active = before.active ∨ after.active = between.active := by
  have hmade := savesMade_of_leads hcommand
    (Script.World.takes_append.mpr ⟨between, hfirst, hsecond⟩)
  have hparts : savesMade (first ++ second) = savesMade first + savesMade second :=
    List.countP_append
  by_cases hsaved : savesMade first = 0
  · refine .inl ?_
    rw [Contents.active_of_takes hfirst, activeAfter_of_savesMade hsaved]
  · have hrest : savesMade second = 0 := by
      split at hmade <;> omega
    refine .inr ?_
    rw [Contents.active_of_takes hsecond, activeAfter_of_savesMade hrest]

end Coordinator

end Backlog
