/-
  A coordinator that has its store for itself.

  If no one else writes to the store, then what a command does to it is what its transactions do,
  one after the other, and nothing happens to the items in between.  So a statement about the items
  and the saves so far holds around a command if it is carried through every way in which a
  transaction may go (`Frame.lone`).
-/
import Backlog.Proofs.Coordinator.Section

namespace Backlog

open Talk (Stop StoreTask)
open Script (Keeps)

/-- What is seen of a store that no one else uses. -/
def View.lone : View (Script.World.recorded Contents.Answers) where
  contents := Prod.fst
  calls := Prod.snd
  Counts := fun _ => True
  step := fun _ _ _ _ _ _ hx => ⟨trivial, hx.1, hx.2⟩

/-- Outside of the transactions neither the items nor the saves change. -/
theorem eq_of_recorded {q : Request} {a : q.Answer} {before after : Contents × List Call}
    (hq : q.Quiet ∨ q = .lock ∨ q = .unlock)
    (h : Script.World.recorded Contents.Answers before q a after) :
    after.1 = before.1 ∧ saves after.2 = saves before.2 := by
  refine ⟨Contents.eq_of_answers_quiet hq h.1, ?_⟩
  have hcall : saves [(before.1, (⟨q, a⟩ : Exchange))] = [] := by
    simp only [saves, List.filterMap_cons, List.filterMap_nil, saved_eq_none hq, Option.map_none]
  rw [h.2, saves_append, hcall, List.append_nil]

/-- Quiet requests keep every statement about the items and the saves. -/
theorem keeps_recorded (I : Contents → List (Contents × List Item × Bool) → Prop) :
    Keeps (Script.World.recorded Contents.Answers) Request.Quiet fun s => I s.1 (saves s.2) := by
  intro s q a s' hq hx h
  obtain ⟨hcontents, hsaves⟩ := eq_of_recorded (.inl hq) hx
  rw [hcontents, hsaves]
  exact h

namespace Coordinator

variable {settings : Settings} {now : Stamp} {command : Command}

/-- A statement about the items and the saves is carried through a command if it is carried through
    every way in which its transaction may go, and back to where a further try starts from. -/
theorem Frame.lone (inv : Contents → Prop) (I : Contents → List (Contents × List Item × Bool) → Prop)
    (J : Option String → Except CommandError command.Value → Contents →
      List (Contents × List Item × Bool) → Prop)
    (hbefore : ∀ c made, I c made → inv c)
    (hafter : ∀ head result c made, J head result c made → inv c)
    (hpasses : ∀ head c made c', I c made →
      Section.Passes (decision settings now head command c) c c' → inv c')
    (hsection : ∀ head c made ended c' calls, I c made →
      Section command.readsArchive (decision settings now head command c) c ended c' calls →
        J head (Talk.outcome command.operation ended) c' (made ++ saves calls) ∧
        ∀ waitedMs, ended = .error (.error (.lockTimeout waitedMs)) → I c' (made ++ saves calls)) :
    Frame settings now command (Script.World.recorded Contents.Answers) (fun s => inv s.1)
      (fun s => I s.1 (saves s.2)) (fun head result s => J head result s.1 (saves s.2)) where
  keeps_before := keeps_recorded I
  keeps_after := fun head result => keeps_recorded (J head result)
  inv_before := fun s => hbefore _ _
  inv_after := fun head result s => hafter _ _ _ _
  ensures_transaction := by
    intro head s h
    refine Talk.ensures_withRetries (keeps_recorded I) (fun s => hbefore _ _) (fun s h => ?_) h
    refine Talk.ensures_locked (hbefore _ _ h) (fun fault busy hx => ?_) fun held hx => ?_
    · -- the lock was not free: as if nothing had been read
      obtain ⟨hcontents, hsaves⟩ := eq_of_recorded (.inr (.inl rfl)) hx
      have hnothing : Section command.readsArchive (decision settings now head command s.1) s.1
          (.error (.ofFault fault)) s.1 [] := .unread rfl rfl
      have hunread := hsection head _ _ _ _ [] h hnothing
      rw [show saves [] = [] from rfl, List.append_nil] at hunread
      rw [hcontents, hsaves]
      exact ⟨hbefore _ _ h, hunread⟩
    · -- taking the lock and freeing it change nothing, so only the section counts
      obtain ⟨hcontents, hsaves⟩ := eq_of_recorded (.inr (.inl rfl)) hx
      rw [← hcontents, ← hsaves] at h
      have htransact : (transact command.readsArchive (command.decide settings now head)).run.Ensures
          (Script.World.recorded Contents.Answers) (fun s => inv s.1)
          (View.lone.Ended held.2 command.readsArchive (decision settings now head command held.1)
            held.1) held :=
        View.ensures_transact View.lone trivial fun after _ hpassed =>
          hpasses head held.1 _ after.1 h hpassed
      refine htransact.mono fun ended held' _ hended after hx => ?_
      obtain ⟨-, calls, hcalls, hended⟩ := hended
      obtain ⟨hcontents', hsaves'⟩ := eq_of_recorded (.inr (.inr rfl)) hx
      have hcarried := hsection head _ _ _ _ calls h hended
      have hmade : saves after.2 = saves held.2 ++ saves calls := by
        rw [hsaves', ← saves_append]
        exact congrArg saves hcalls
      rw [hcontents', hmade]
      exact ⟨hafter _ _ _ _ hcarried.1, hcarried⟩

end Coordinator

end Backlog
