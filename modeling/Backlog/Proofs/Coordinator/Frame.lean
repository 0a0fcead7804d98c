/-
  What holds around a transaction.

  A command that changes the store is quiet, then runs its transaction, and is quiet again.  So to
  know what holds after a command it is enough to know what quiet requests keep and what the
  transaction brings about: `Frame` bundles these inputs, and `Frame.ensures_submit` derives from
  them what every command ensures.

  Of a command that was served, either no transaction was run, and then it was refused or is one
  that never writes, or what came of its transaction is what the reply reports (`Settled`).
-/
import Backlog.Proofs.Coordinator.Orderly

namespace Backlog

open Script (Keeps)

namespace Coordinator

variable {settings : Settings} {now : Stamp} {command : Command}

/-- A transaction leaves version control alone. -/
theorem only_transaction (command : Command) (head : Option String) :
    (command.transaction settings now head).Only Request.Calm := by
  have hsave : ∀ (d : Decision command.Value), (do
      Talk.StoreTask.retire d.retired
      Talk.StoreTask.save d.items
      return d.value : Talk.StoreTask command.Value).run.Only Request.Calm := by
    intro d
    cases hretired : d.retired with
    | none => exact ⟨trivial, fun a => by rcases a with fault | ⟨⟩ <;> trivial⟩
    | some item =>
      refine ⟨trivial, fun a => ?_⟩
      rcases a with fault | ⟨⟩
      · trivial
      · exact ⟨trivial, fun a => by rcases a with fault | ⟨⟩ <;> trivial⟩
  have hdecide : ∀ items archived, (do
      let d ← Talk.StoreTask.ofExcept (command.decide settings now head items archived)
      Talk.StoreTask.retire d.retired
      Talk.StoreTask.save d.items
      return d.value : Talk.StoreTask command.Value).run.Only Request.Calm := by
    intro items archived
    cases command.decide settings now head items archived with
    | error e => trivial
    | ok d => exact hsave d
  refine Talk.only_withRetries (fun _ => trivial) (fun _ => trivial)
    (Talk.only_locked trivial trivial ⟨trivial, fun a => ?_⟩)
  rcases a with fault | items
  · trivial
  · cases command.readsArchive with
    | false => exact hdecide items []
    | true =>
      refine ⟨trivial, fun a => ?_⟩
      rcases a with fault | archived
      · trivial
      · exact hdecide items archived

/-! ## The frame of a transaction -/

/-- What a command was settled with: it was refused or is one that neither writes nor gives out IDs,
    and no transaction was run, or it writes and its reply reports what came of its transaction. -/
def Settled {σ : Type} (command : Command) (I : σ → Prop)
    (J : Option String → Except CommandError command.Value → σ → Prop)
    (reply : Except CommandError command.Answer) (state : σ) : Prop :=
  (I state ∧ ((∃ e, reply = .error e) ∨
    command.writes = false ∧ ∀ answer, reply = .ok answer → command.issued answer = [])) ∨
  command.writes = true ∧ ∃ head result, J head result state ∧ command.Reports head result reply

/-- What holds before the transaction of a command, what it brings about, and that quiet requests
    keep both. -/
structure Frame {σ : Type} (settings : Settings) (now : Stamp) (command : Command)
    (W : Surroundings σ) (inv I : σ → Prop)
    (J : Option String → Except CommandError command.Value → σ → Prop) : Prop where
  keeps_before : Keeps W Request.Quiet I
  keeps_after : ∀ head result, Keeps W Request.Quiet (J head result)
  inv_before : ∀ state, I state → inv state
  inv_after : ∀ head result state, J head result state → inv state
  ensures_transaction : ∀ head state, I state →
    (command.transaction settings now head).Ensures W inv (J head) state

namespace Frame

variable {σ : Type} {W : Surroundings σ} {inv I : σ → Prop}
  {J : Option String → Except CommandError command.Value → σ → Prop}

/-- What an orderly program is settled with. -/
theorem ensures_orderly {S : Type} {s : Talk (Except CommandError command.Answer × S)} {state : σ}
    (F : Frame settings now command W inv I J) (hs : Orderly settings now command s)
    (h : I state) :
    s.Ensures W inv (fun p after => Settled command I J p.1 after) state := by
  induction hs generalizing state with
  | ends hspared _ => exact ⟨F.inv_before state h, .inl ⟨h, hspared⟩⟩
  | outside hq _ ih =>
    refine ⟨F.inv_before state h, fun answer after hx => ih answer ?_⟩
    exact F.keeps_before _ _ _ _ (Request.quiet_of_outside hq) hx h
  | looks _ _ ih =>
    refine ⟨F.inv_before state h, fun answer after hx => ih answer ?_⟩
    exact F.keeps_before _ Request.load _ _ trivial hx h
  | transacts head hwrites hk =>
    refine Script.ensures_bind.mpr ((F.ensures_transaction head state h).mono ?_)
    intro result after _ hJ
    have hkeeps : Keeps W Request.Outside (J head result) := fun state q answer after hq =>
      F.keeps_after head result state q answer after (Request.quiet_of_outside hq)
    refine ((hk result).ensures hkeeps (F.inv_after head result) hJ).mono ?_
    rintro p after - ⟨hJ, hreports⟩
    exact .inr ⟨hwrites, head, result, hJ, hreports⟩

/-- What a command is settled with when it is submitted. -/
theorem ensures_submit {state : σ} (F : Frame settings now command W inv I J) (c : Coordinator)
    (h : I state) :
    (submit settings now command c).Ensures W inv
      (fun p after => Settled command I J p.1 after) state := by
  cases hrunning : c.running with
  | true => exact F.ensures_orderly (orderly_submit command hrunning) h
  | false =>
    rw [submit, hrunning]
    exact ⟨F.inv_before state h, .inl ⟨h, .inl ⟨.halted, rfl⟩⟩⟩

end Frame

end Coordinator

end Backlog
