/-
  When a coordinator halts.

  Program: an error that a command ends in is written down, and if it is fatal the coordinator stops; from
  then on every command is refused at once.

  Specification: as long as the coordinator goes on, each command is carried out (`carried_of_leads`) and
  none is told that the coordinator has halted (`ne_halted_of_leads`).  An error that is not fatal leaves
  the coordinator as it was, and of version control only a completion has asked anything
  (`left_of_leads`).  There is one fatal error at most that is not the refusal (`countP_halts`), and after
  it nothing is asked any more (`halted_of_serves`).

  The crux is that a decision is never that the coordinator has halted, nor does a failure of the store
  say so (`Talk.Prompt.ne_halted`).
-/
import Backlog.Proofs.Coordinator.Attempts
import Backlog.Proofs.Coordinator.Orderly
import Backlog.Proofs.Coordinator.Staging

namespace Backlog

namespace Coordinator

variable {settings : Settings} {now : Stamp} {command : Command} {c c' : Coordinator}
  {reply : Except CommandError command.Answer} {log : List Exchange}

/-! ## A coordinator that goes on -/

/-- A command that is carried out is not told that the coordinator has halted. -/
theorem Orderly.ne_halted {S : Type} {s : Talk (Except CommandError command.Answer × S)}
    {p : Except CommandError command.Answer × S} (hs : Orderly settings now command s)
    (h : s.Leads log (.done p)) : p.1 ≠ .error .halted := by
  induction hs generalizing log with
  | ends _ hgoes =>
    cases h
    exact hgoes
  | outside _ _ ih =>
    cases h with
    | step h => exact ih _ h
  | looks _ _ ih =>
    cases h with
    | step h => exact ih _ h
  | transacts head _ hk =>
    obtain ⟨result, mid, last, rfl, hmid, hlast⟩ := Script.leads_bind.mp h
    obtain ⟨-, hreports⟩ := (hk result).of_leads hlast
    intro hreply
    rw [hreply] at hreports
    rcases result with e | value
    · obtain rfl : CommandError.halted = e := hreports
      exact (Talk.prompt_command settings now head command).ne_halted hmid rfl
    · exact hreports

theorem ne_halted_of_leads (hrunning : c.running = true)
    (h : (submit settings now command c).Leads log (.done (reply, c'))) : reply ≠ .error .halted :=
  (orderly_submit command hrunning).ne_halted h

/-- A command is carried out on the batch that is pending, and the error is written down if it ends in
    one. -/
def Carried (settings : Settings) (now : Stamp) (command : Command) (c : Coordinator)
    (log : List Exchange) (reply : Except CommandError command.Answer) (c' : Coordinator) : Prop :=
  ∃ own rest, log = own ++ rest ∧
    ((perform settings now command).run c.batch).Leads own (.done (reply, c'.batch)) ∧
    ∀ x ∈ rest, ∃ d, x.question = .note d

theorem carried_of_leads (hrunning : c.running = true)
    (h : (submit settings now command c).Leads log (.done (reply, c'))) :
    Carried settings now command c log reply c' := by
  unfold submit at h
  split at h
  · next hhalted =>
    rw [hrunning] at hhalted
    cases hhalted
  · obtain ⟨⟨given, batch⟩, own, rest, rfl, hperform, hrest⟩ := Script.leads_bind.mp h
    cases given with
    | ok answer =>
      cases hrest
      exact ⟨own, [], rfl, hperform, fun x hx => (by cases hx)⟩
    | error e =>
      have hrecover : (recover e { c with batch } >>= fun after => pure (.error e, after) :
          Talk (Except CommandError command.Answer × Coordinator)).Yields
          (fun q => ∃ d, q = .note d) fun p => p.1 = .error e ∧ p.2.batch = batch := by
        refine (yields_recover (fun d => ⟨d, rfl⟩) e { c with batch }).bind ?_
        rintro after rfl
        exact ⟨rfl, rfl⟩
      obtain ⟨hnotes, hreply, hbatch⟩ := hrecover.of_leads hrest
      obtain rfl : reply = .error e := hreply
      obtain rfl : c'.batch = batch := hbatch
      exact ⟨own, rest, rfl, hperform, hnotes⟩

/-! ## Errors that are not fatal -/

/-- What a command that ended in such an error leaves behind, apart from the store: the coordinator and
    version control as they were; or, if it was a completion, a flush ahead of a destructive phase, and
    artifacts that were staged and taken out of the index again. -/
inductive Left {σ : Type} (W : Surroundings σ) (c : Coordinator) (state : σ) :
    Command → Coordinator → σ → Prop
  | nothing {command : Command} : Left W c state command c state
  | completion {completion : PhaseRun} {batch : Batch} {state₁ state₂ after : σ} {staged : Bool} :
      FlushingAhead W completion.destructive c.batch state batch state₁ →
      Staging W completion.artifacts state₁ staged state₂ →
      Unstaging W completion.artifacts state₂ staged after →
      Left W c state (.completePhase completion) { c with batch } after

theorem left_of_leads {σ : Type} {W : Surroundings σ} {state after : σ} {e : CommandError}
    (hstill : Still W) (h : (submit settings now command c).Leads log (.done (.error e, c')))
    (hworld : W.Takes state log after) (hgoes : e.isFatal = false) :
    Left W c state command c' after := by
  have hrunning : c'.running = c.running := by
    rw [running_of_leads h, isFatalReply, hgoes, Bool.not_false, Bool.and_true]
  have hacts : Acts W c.batch state command (.error e) c'.batch after :=
    (results_submit hstill command c).post_of_leads h hworld
  obtain ⟨running, batch⟩ := c
  obtain ⟨running', batch'⟩ := c'
  obtain rfl : running' = running := hrunning
  cases hacts with
  | refused => exact .nothing
  | rejected hahead hstaging hunstaging => exact .completion hahead hstaging hunstaging

/-! ## A row of turns -/

/-- The coordinator goes on until a reply is fatal. -/
theorem running_of_serves {turns : List Turn} (h : Serves settings c turns c') :
    c'.running = (c.running && turns.all fun t => !isFatalReply t.reply) := by
  induction h with
  | idle c => exact (Bool.and_true _).symm
  | turn ht _ ih => rw [ih, running_of_leads ht, List.all_cons, Bool.and_assoc]

/-- After that nothing happens any more. -/
theorem halted_of_serves {turns : List Turn} (hhalted : c.running = false)
    (h : Serves settings c turns c') : ∀ t ∈ turns, t.reply = .error .halted ∧ t.log = [] := by
  induction h with
  | idle => exact fun _ ht => (by cases ht)
  | turn ht _ ih =>
    obtain ⟨hlog, hreply, hsame⟩ := halted_of_leads hhalted ht
    refine List.forall_mem_cons.mpr ⟨⟨hreply, hlog⟩, ih ?_⟩
    rw [hsame, hhalted]

/-- The turn makes the coordinator halt: it ends in a fatal error, and not for it has halted before. -/
def Turn.halts (t : Turn) : Bool :=
  isFatalReply t.reply && !(match t.reply with | .error .halted => true | _ => false)

theorem countP_halts_of_halted {turns : List Turn} (hhalted : c.running = false)
    (h : Serves settings c turns c') : turns.countP Turn.halts = 0 := by
  refine List.countP_eq_zero.mpr fun t ht => ?_
  rw [Turn.halts, (halted_of_serves hhalted h t ht).1]
  exact Bool.false_ne_true

/-- That happens once at most. -/
theorem countP_halts {turns : List Turn} (h : Serves settings c turns c') :
    turns.countP Turn.halts ≤ 1 := by
  induction h with
  | idle => exact Nat.zero_le _
  | @turn c between _ t turns ht hrest ih =>
    rw [List.countP_cons]
    cases hfatal : isFatalReply t.reply with
    | true =>
      have hhalted : between.running = false := by
        rw [running_of_leads ht, hfatal, Bool.not_true, Bool.and_false]
      rw [countP_halts_of_halted hhalted hrest]
      split <;> decide
    | false =>
      rw [Turn.halts, hfatal, Bool.false_and, if_neg Bool.false_ne_true]
      exact ih

end Coordinator

end Backlog
