/-
  Accounting for every accepted change.

  Specification: in every run, whatever version control answers, each accepted change is pending in
  the batch, or was listed by one commit, or cleared by one, or released by one.  The ledger says
  which.  It is kept from what can be seen from outside: the commands, their replies and the commits
  that were asked for (`Visit`).

  `commit_ledger` is the account: the ledger has a line for each accepted change, its pending lines
  are the batch, every other fate is backed by a commit whose message tells the changes line by line,
  and a change was cleared only where the flush just before had failed.  It holds at every moment, also
  within a command, and fates are final.
  If version control never fails, and has nothing to commit only when nothing was staged, then what
  was listed, followed by the batch, is what was accepted.
-/
import Backlog.Proofs.Coordinator.Ledger
import Backlog.Proofs.Coordinator.Rehearsed

namespace Backlog

/-! ## Visits -/

/-- What is seen of a command: the commits that it has asked for, and the changes accepted with its
    reply. -/
structure Visit where
  command : Command
  commits : List Commit
  accepted : Batch

namespace Ledger

/-- Enter what was seen of a command. The first commit of a destructive completion is a flush if
    something is pending, and the other one that of its result. -/
def visit (L : Ledger) (v : Visit) : Ledger :=
  match v.command with
  | .flush => v.commits.foldl (fun L c => L.flush c.answer) L
  | .completePhase completion =>
    if completion.destructive then
      let flushes := if L.pending.isEmpty then 0 else 1
      (v.commits.drop flushes).foldl (fun L c => L.alone completion.entry c.answer)
        ((v.commits.take flushes).foldl (fun L c => L.flush c.answer) L)
    else L.accept v.accepted
  | _ => L.accept v.accepted

/-- The ledger agrees with what was seen, and what was cleared was pending when a destructive
    completion was committed whose flush had just failed. -/
structure Sound (L : Ledger) (visits : List Visit) : Prop where
  backed : L.Backed (visits.flatMap Visit.commits)
  cleared : ∀ n, L.cleared n ≠ [] → ∃ before v after completion failed own,
    visits = before ++ v :: after ∧ v.command = .completePhase completion ∧
    completion.destructive = true ∧ v.commits = [failed, own] ∧
    n = (before.flatMap Visit.commits).length + 1 ∧
    (L.cleared n).IsListedBy failed.message ∧ (∃ fault, failed.answer = .error fault) ∧
    completion.entry.IsToldBy own.message ∧ ∃ revision, own.answer = .ok (some revision)

theorem sound_nil : Sound {} [] where
  backed := backed_nil
  cleared := fun _ h => absurd rfl h

variable {L : Ledger} {visits : List Visit} {v : Visit} {batch : Batch}

/-- What was known about cleared changes stays known. -/
theorem Sound.snoc (h : L.Sound visits) {L' : Ledger}
    (hbacked : L'.Backed (visits.flatMap Visit.commits ++ v.commits))
    (hcleared : ∀ n, L'.cleared n = L.cleared n ∨
      ∃ completion failed own, v.command = .completePhase completion ∧
        completion.destructive = true ∧ v.commits = [failed, own] ∧
        n = (visits.flatMap Visit.commits).length + 1 ∧
        (L'.cleared n).IsListedBy failed.message ∧ (∃ fault, failed.answer = .error fault) ∧
        completion.entry.IsToldBy own.message ∧ ∃ revision, own.answer = .ok (some revision)) :
    L'.Sound (visits ++ [v]) where
  backed := by
    rw [List.flatMap_append, List.flatMap_singleton]
    exact hbacked
  cleared := by
    intro n hn
    rcases hcleared n with hsame | ⟨completion, failed, own, hrest⟩
    · rw [hsame] at hn ⊢
      obtain ⟨before, v', after, completion, failed, own, rfl, hrest⟩ := h.cleared n hn
      exact ⟨before, v', after ++ [v], completion, failed, own, by simp, hrest⟩
    · exact ⟨visits, v, [], completion, failed, own, rfl, hrest⟩

/-! ## What a visit enters -/

theorem visit_accept {command : Command} {accepted : Batch} (hnot : ¬ command.Flushes)
    (commits : List Commit) : L.visit ⟨command, commits, accepted⟩ = L.accept accepted := by
  cases command with
  | flush => exact absurd trivial hnot
  | completePhase completion =>
    have hdestructive : ¬ completion.destructive = true := hnot
    simp only [visit, if_neg hdestructive]
  | _ => rfl

theorem visit_nil {command : Command} {accepted : Batch} (hflushes : command.Flushes) :
    L.visit ⟨command, [], accepted⟩ = L := by
  cases command with
  | flush => rfl
  | completePhase completion =>
    have hdestructive : completion.destructive = true := hflushes
    simp only [visit, if_pos hdestructive, List.drop_nil, List.take_nil, List.foldl_nil]
  | _ => exact hflushes.elim

theorem visit_flush {command : Command} {accepted : Batch} {c : Commit}
    (hflushes : command.Flushes) (hne : L.pending ≠ []) :
    L.visit ⟨command, [c], accepted⟩ = L.flush c.answer := by
  cases command with
  | flush => rfl
  | completePhase completion =>
    have hdestructive : completion.destructive = true := hflushes
    have hsome : ¬ L.pending.isEmpty = true := fun h => hne (List.isEmpty_iff.mp h)
    simp only [visit, if_pos hdestructive, if_neg hsome]
    rfl
  | _ => exact hflushes.elim

theorem visit_alone {completion : PhaseRun} {accepted : Batch} {c : Commit}
    (hdestructive : completion.destructive = true) (hnil : L.pending = []) :
    L.visit ⟨.completePhase completion, [c], accepted⟩ = L.alone completion.entry c.answer := by
  have hnone : L.pending.isEmpty = true := List.isEmpty_iff.mpr hnil
  simp only [visit, if_pos hdestructive, if_pos hnone]
  rfl

theorem visit_both {completion : PhaseRun} {accepted : Batch} {c c' : Commit}
    (hdestructive : completion.destructive = true) (hne : L.pending ≠ []) :
    L.visit ⟨.completePhase completion, [c, c'], accepted⟩
      = (L.flush c.answer).alone completion.entry c'.answer := by
  have hsome : ¬ L.pending.isEmpty = true := fun h => hne (List.isEmpty_iff.mp h)
  simp only [visit, if_pos hdestructive, if_neg hsome]
  rfl

theorem evolves_visit (hfits : Fits L.pending v.command v.commits) : L.Evolves (L.visit v) := by
  obtain ⟨command, commits, accepted⟩ := v
  cases hfits with
  | none =>
    by_cases hflushes : command.Flushes
    · rw [visit_nil hflushes]
      exact .refl L
    · rw [visit_accept hflushes]
      exact evolves_accept L accepted
  | flushed hflushes hne =>
    rw [visit_flush hflushes hne]
    exact evolves_flush L _
  | alone hdestructive hnil =>
    rw [visit_alone hdestructive hnil]
    exact evolves_alone L _ _
  | both hdestructive hne =>
    rw [visit_both hdestructive hne]
    exact (evolves_flush L _).trans (evolves_alone _ _ _)

/-- A command keeps the ledger sound, wherever it is stopped. -/
theorem Sound.visit (h : L.Sound visits) (hfits : Fits L.pending v.command v.commits) :
    (L.visit v).Sound (visits ++ [v]) := by
  obtain ⟨command, commits, accepted⟩ := v
  cases hfits with
  | none =>
    by_cases hflushes : command.Flushes
    · rw [visit_nil hflushes]
      refine h.snoc ?_ fun n => Or.inl rfl
      rw [List.append_nil]
      exact h.backed
    · rw [visit_accept hflushes]
      refine h.snoc ?_ fun n => Or.inl (cleared_accept L accepted n)
      rw [List.append_nil]
      exact h.backed.accept accepted
  | flushed hflushes hne hmessage =>
    rw [visit_flush hflushes hne]
    exact h.snoc (h.backed.flush hne hmessage) fun n => Or.inl (cleared_flush L _ n)
  | alone hdestructive hnil hmessage =>
    rw [visit_alone hdestructive hnil]
    refine h.snoc (h.backed.alone hmessage) fun n => Or.inl ?_
    -- nothing was pending, so nothing is cleared
    rcases h.backed.cleared_alone _ _ n with hsame | ⟨hn, -, hcleared⟩
    · exact hsame
    · rw [hcleared, hnil, hn, Ledger.cleared, fated_eq_nil (h.backed.new rfl)]
  | @both completion c c' hdestructive hne hmessage hmessage' =>
    rw [visit_both hdestructive hne]
    have hflush := h.backed.flush hne hmessage
    refine h.snoc ?_ fun n => ?_
    · have halone := hflush.alone hmessage'
      rw [List.append_assoc] at halone
      exact halone
    · rcases hflush.cleared_alone completion.entry c'.answer n with
        hsame | ⟨hn, hrevision, hcleared⟩
      · exact Or.inl (hsame.trans (cleared_flush L _ n))
      · -- what is cleared was pending after the flush, which therefore has failed
        rw [pending_flush] at hcleared
        have hcount : (L.flush c.answer).commits = (visits.flatMap Visit.commits).length + 1 := by
          rw [hflush.counted, List.length_append]
          rfl
        have hanswer : (∃ fault, c.answer = .error fault) ∨ ∃ revision, c.answer = .ok revision := by
          cases c.answer with
          | error fault => exact Or.inl ⟨fault, rfl⟩
          | ok revision => exact Or.inr ⟨revision, rfl⟩
        rcases hanswer with ⟨fault, hanswer⟩ | ⟨revision, hanswer⟩
        · have hkept : L.pending.afterFlush c.answer = L.pending := by
            rw [hanswer]
            rfl
          refine Or.inr ⟨completion, c, c', rfl, hdestructive, rfl, hn.trans hcount, ?_,
            ⟨fault, hanswer⟩, hmessage', hrevision⟩
          rw [hcleared, hkept]
          exact hmessage
        · have hgone : L.pending.afterFlush c.answer = [] := by
            rw [hanswer]
            rfl
          have hnew : L.cleared n = [] := by
            rw [← cleared_flush L c.answer n, hn]
            exact fated_eq_nil (hflush.new rfl)
          exact Or.inl ((hcleared.trans hgone).trans hnew.symm)

end Ledger

/-! ## Commands that are over -/

/-- The changes that are accepted with a reply. -/
def Command.accepted (command : Command) : Except CommandError command.Answer → Batch
  | .ok answer => command.entries answer
  | .error _ => []

/-- What was seen of a flush: nothing, or the commit of the batch. -/
theorem Flushed.seen {batch after : Batch} {staged : Bool} {s₁ s₂ : Tracked}
    (hbefore : Tracked.Later ⟨[], staged⟩ s₁) (h : Flushed batch s₁ after s₂) :
    (batch = [] ∧ after = [] ∧ s₂ = s₁ ∧ s₂.commits = []) ∨
    (batch ≠ [] ∧ ∃ c : Commit, s₂.commits = [c] ∧ batch.IsListedBy c.message ∧
      after = batch.afterFlush c.answer ∧ (staged = true → c.staged = true)) := by
  cases h with
  | empty hempty => exact Or.inl ⟨hempty, rfl, rfl, hbefore.commits⟩
  | asked answer hne =>
    refine Or.inr ⟨hne, ⟨batch.message, s₁.staged, answer⟩, ?_, batch.isListedBy_message, rfl,
      hbefore.staged⟩
    rw [hbefore.commits_after]
    rfl

namespace Ledger

variable {L : Ledger} {command : Command} {reply : Except CommandError command.Answer}
  {after : Batch} {staged : Bool} {s : Tracked}

/-- A flush, alone or ahead of a completion, leaves pending what it leaves in the batch. -/
theorem visit_flushed {accepted : Batch} {s₁ s₂ : Tracked} (hflushes : command.Flushes)
    (hbefore : Tracked.Later ⟨[], staged⟩ s₁) (hflushed : Flushed L.pending s₁ after s₂) :
    (L.visit ⟨command, s₂.commits, accepted⟩).pending = after ∧
    (L.visit ⟨command, s₂.commits, accepted⟩).entries = L.entries := by
  rcases hflushed.seen hbefore with ⟨hnil, rfl, -, hcommits⟩ | ⟨hne, c, hcommits, -, rfl, -⟩
  · rw [hcommits, visit_nil hflushes]
    exact ⟨hnil, rfl⟩
  · rw [hcommits, visit_flush hflushes hne, pending_flush, entries_flush]
    exact ⟨rfl, rfl⟩

/-- When a command is over, the ledger has the changes that it has accepted, and what is pending is
    the batch. -/
theorem visit_ended (hended : Ended L.pending staged command reply after s) :
    (L.visit ⟨command, s.commits, command.accepted reply⟩).pending = after ∧
    (L.visit ⟨command, s.commits, command.accepted reply⟩).entries
      = L.entries ++ command.accepted reply := by
  cases hended with
  | @refused command e s hbefore =>
    rw [hbefore.commits]
    by_cases hflushes : command.Flushes
    · rw [visit_nil hflushes]
      exact ⟨rfl, (List.append_nil _).symm⟩
    · rw [visit_accept hflushes, pending_accept, entries_accept]
      exact ⟨List.append_nil _, rfl⟩
  | @joined command answer s hnot hbefore =>
    rw [hbefore.commits]
    by_cases hflushes : command.Flushes
    · have hnone : command.entries answer = [] := by
        cases command with
        | flush => rfl
        | completePhase completion =>
          have hdestructive : completion.destructive = true := hflushes
          rw [hnot completion rfl] at hdestructive
          cases hdestructive
        | _ => exact hflushes.elim
      rw [visit_nil hflushes, Command.accepted, hnone, List.append_nil, List.append_nil]
      exact ⟨rfl, rfl⟩
    · rw [visit_accept hflushes, pending_accept, entries_accept]
      exact ⟨rfl, rfl⟩
  | flushed hbefore hflushed =>
    have hflushes : Command.flush.Flushes := trivial
    obtain ⟨hpending, hentries⟩ := visit_flushed hflushes hbefore hflushed
    exact ⟨hpending, hentries.trans (List.append_nil _).symm⟩
  | @stopped completion e after s₁ s₂ s hdestructive hbefore hflushed hlater =>
    have hflushes : (Command.completePhase completion).Flushes := hdestructive
    rw [hlater.commits]
    obtain ⟨hpending, hentries⟩ := visit_flushed hflushes hbefore hflushed
    exact ⟨hpending, hentries.trans (List.append_nil _).symm⟩
  | @committed completion answer after s₁ s₂ s₃ result hdestructive hbefore hflushed hlater =>
    rw [hlater.commits_after]
    rcases hflushed.seen hbefore with ⟨hnil, rfl, -, hcommits⟩ | ⟨hne, c, hcommits, -, rfl, -⟩
    · rw [hcommits, List.nil_append, visit_alone hdestructive hnil, pending_alone, entries_alone,
        hnil]
      exact ⟨rfl, rfl⟩
    · rw [hcommits, List.singleton_append, visit_both hdestructive hne, pending_alone, pending_flush,
        entries_alone, entries_flush]
      exact ⟨rfl, rfl⟩

/-- No commit has failed, and one that had nothing to commit came when nothing was staged. -/
def Unfailing (commits : List Commit) : Prop :=
  ∀ c ∈ commits, ∃ revision, c.answer = .ok revision ∧ (revision = none → c.staged = false)

theorem revision_of_unfailing {commits : List Commit} {c : Commit} (h : Unfailing commits)
    (hc : c ∈ commits) (hstaged : c.staged = true) : ∃ revision, c.answer = .ok (some revision) := by
  obtain ⟨revision, hanswer, hnone⟩ := h c hc
  cases revision with
  | some revision => exact ⟨revision, hanswer⟩
  | none =>
    rw [hnone rfl] at hstaged
    cases hstaged

/-- Without a commit nothing goes missing. -/
theorem Complete.visit_nil (h : L.Complete) (command : Command) (accepted : Batch) :
    (L.visit ⟨command, [], accepted⟩).Complete := by
  by_cases hflushes : command.Flushes
  · rw [Ledger.visit_nil hflushes]
    exact h
  · rw [visit_accept hflushes]
    exact h.accept accepted

/-- If it does not fail, a flush of what was staged misses nothing and leaves nothing pending. -/
theorem complete_flushed {commits : List Commit} {accepted : Batch} {s₁ s₂ : Tracked}
    (hflushes : command.Flushes) (hbefore : Tracked.Later ⟨[], staged⟩ s₁)
    (hflushed : Flushed L.pending s₁ after s₂) (hbacked : L.Backed commits)
    (hunfailing : Unfailing s₂.commits) (hcomplete : L.Complete)
    (hstaged : L.pending ≠ [] → staged = true) :
    (L.visit ⟨command, s₂.commits, accepted⟩).Complete ∧ after = [] := by
  rcases hflushed.seen hbefore with ⟨hnil, rfl, -, hcommits⟩ | ⟨hne, c, hcommits, -, rfl, hc⟩
  · rw [hcommits, visit_nil hflushes]
    exact ⟨hcomplete, rfl⟩
  · rw [hcommits] at hunfailing
    obtain ⟨revision, hanswer⟩ := revision_of_unfailing hunfailing List.mem_cons_self
      (hc (hstaged hne))
    rw [hcommits, visit_flush hflushes hne, hanswer]
    exact ⟨hcomplete.flush hbacked revision, rfl⟩

/-- If no commit fails, then nothing is missing, and what is pending was staged. -/
theorem complete_ended {commits : List Commit} (hended : Ended L.pending staged command reply after s)
    (hbacked : L.Backed commits) (hunfailing : Unfailing s.commits) (hcomplete : L.Complete)
    (hstaged : L.pending ≠ [] → staged = true) :
    (L.visit ⟨command, s.commits, command.accepted reply⟩).Complete ∧
      (after ≠ [] → s.staged = true) := by
  cases hended with
  | @refused command e s hbefore =>
    rw [hbefore.commits]
    exact ⟨hcomplete.visit_nil _ _, fun hne => hbefore.staged (hstaged hne)⟩
  | @joined command answer s hnot hbefore hnew =>
    constructor
    · rw [hbefore.commits]
      exact hcomplete.visit_nil _ _
    · intro hne
      by_cases hentries : command.entries answer = []
      · rw [hentries, List.append_nil] at hne
        exact hbefore.staged (hstaged hne)
      · exact hnew hentries
  | flushed hbefore hflushed =>
    have hflushes : Command.flush.Flushes := trivial
    obtain ⟨hcomplete', hnone⟩ := complete_flushed hflushes hbefore hflushed hbacked hunfailing
      hcomplete hstaged
    exact ⟨hcomplete', fun hne => absurd hnone hne⟩
  | @stopped completion e after s₁ s₂ s hdestructive hbefore hflushed hlater =>
    have hflushes : (Command.completePhase completion).Flushes := hdestructive
    rw [hlater.commits] at hunfailing ⊢
    obtain ⟨hcomplete', hnone⟩ := complete_flushed hflushes hbefore hflushed hbacked hunfailing
      hcomplete hstaged
    exact ⟨hcomplete', fun hne => absurd hnone hne⟩
  | @committed completion answer after s₁ s₂ s₃ result hdestructive hbefore hflushed hlater hown =>
    rw [hlater.commits_after] at hunfailing ⊢
    -- the result was staged just before
    obtain ⟨revision, hresult⟩ := revision_of_unfailing hunfailing
      (List.mem_append_right _ List.mem_cons_self) hown
    obtain rfl : result = .ok (some revision) := hresult
    refine ⟨?_, fun hne => absurd rfl hne⟩
    rcases hflushed.seen hbefore with ⟨hnil, rfl, -, hcommits⟩ | ⟨hne, c, hcommits, hmessage, rfl, hc⟩
    · rw [hcommits, List.nil_append, visit_alone hdestructive hnil]
      exact hcomplete.alone hbacked hnil _ revision
    · rw [hcommits] at hunfailing
      obtain ⟨revision', hanswer⟩ := revision_of_unfailing hunfailing
        (List.mem_append_left _ List.mem_cons_self) (hc (hstaged hne))
      have hflush := hbacked.flush hne hmessage
      have hgone : (L.flush c.answer).pending = [] := by
        rw [pending_flush, hanswer]
        rfl
      rw [hcommits, List.singleton_append, visit_both hdestructive hne]
      rw [hanswer] at hflush hgone ⊢
      exact (hcomplete.flush hbacked revision').alone hflush hgone _ revision

end Ledger

/-- The commits that are counted are exchanges. -/
theorem Tracked.mem_track {s : Tracked} {log : List Exchange} {c : Commit}
    (h : c ∈ (s.track log).commits) :
    c ∈ s.commits ∨ (⟨.commit c.message, c.answer⟩ : Exchange) ∈ log := by
  induction log generalizing s with
  | nil => exact Or.inl h
  | cons x log ih =>
    rcases ih (s := s.after x) h with hafter | hlater
    · obtain ⟨q, a⟩ := x
      cases q with
      | commit message =>
        rcases List.mem_append.mp hafter with hbefore | hthis
        · exact Or.inl hbefore
        · rw [List.mem_singleton.mp hthis]
          exact Or.inr List.mem_cons_self
      | _ => exact Or.inl hafter
    · exact Or.inr (List.mem_cons_of_mem _ hlater)

namespace Coordinator

variable {settings : Settings} {now : Stamp}

/-! ## Every run -/

/-- The commits that a turn has asked for, and whether something is staged afterwards. -/
def Turn.tracked (staged : Bool) (t : Turn) : Tracked := Tracked.track ⟨[], staged⟩ t.log

/-- What is seen of a turn. -/
def Turn.visit (staged : Bool) (t : Turn) : Visit :=
  { command := t.command, commits := (t.tracked staged).commits,
    accepted := t.command.accepted t.reply }

/-- What is seen of these turns, when something was staged before them or not. -/
def visits (staged : Bool) : List Turn → List Visit
  | [] => []
  | t :: turns => t.visit staged :: visits (t.tracked staged).staged turns

/-- Whether something is staged after these turns. -/
def stagedAfter (staged : Bool) : List Turn → Bool
  | [] => staged
  | t :: turns => stagedAfter (t.tracked staged).staged turns

theorem visits_append (staged : Bool) (ts us : List Turn) :
    visits staged (ts ++ us) = visits staged ts ++ visits (stagedAfter staged ts) us := by
  induction ts generalizing staged with
  | nil => rfl
  | cons t ts ih => exact congrArg _ (ih _)

/-- The changes that were accepted in these turns, in order. -/
def accepted (turns : List Turn) : Batch := turns.flatMap fun t => t.command.accepted t.reply

/-- The ledger after these turns. -/
def ledger (turns : List Turn) : Ledger := (visits false turns).foldl Ledger.visit {}

/-- What is seen of a command that was stopped. -/
def stopped (turns : List Turn) (command : Command) (log : List Exchange) : Visit :=
  { command, commits := (Tracked.track ⟨[], stagedAfter false turns⟩ log).commits, accepted := [] }

theorem fits_of_leads {command : Command} {c : Coordinator} {log : List Exchange}
    {rest : Talk (Except CommandError command.Answer × Coordinator)} (staged : Bool)
    (h : (submit settings now command c).Leads log rest) :
    Fits c.batch command (Tracked.track ⟨[], staged⟩ log).commits :=
  ((ended_submit command c staged).of_leads h (Tracked.takes_track _ log)).holds

theorem ended_of_leads {t : Turn} {c between : Coordinator} (staged : Bool)
    (h : (submit settings t.now t.command c).Leads t.log (.done (t.reply, between))) :
    Ended c.batch staged t.command t.reply between.batch (t.tracked staged) :=
  (ended_submit t.command c staged).post_of_leads h (Tracked.takes_track _ t.log)

/-- The ledger that is kept over some turns. -/
theorem sound_of_serves {c c' : Coordinator} {turns : List Turn} {L : Ledger} {earlier : List Visit}
    (staged : Bool) (hturns : Serves settings c turns c') (hsound : L.Sound earlier)
    (hpending : L.pending = c.batch) :
    ((visits staged turns).foldl Ledger.visit L).Sound (earlier ++ visits staged turns) ∧
    ((visits staged turns).foldl Ledger.visit L).pending = c'.batch ∧
    ((visits staged turns).foldl Ledger.visit L).entries = L.entries ++ accepted turns ∧
    L.Evolves ((visits staged turns).foldl Ledger.visit L) := by
  -- over the turns, with the ledger so far and what it was kept from left open
  induction hturns generalizing L earlier staged with
  | idle c =>
    rw [visits, List.append_nil]
    exact ⟨hsound, hpending, (List.append_nil _).symm, .refl L⟩
  | @turn c between c' t turns hturn _ ih =>
    have hfits : Fits L.pending t.command (t.tracked staged).commits := by
      rw [hpending]
      exact fits_of_leads staged hturn
    have hended := ended_of_leads staged hturn
    rw [← hpending] at hended
    obtain ⟨hpending', hentries'⟩ := Ledger.visit_ended hended
    have hvisit : (L.visit (t.visit staged)).Sound (earlier ++ [t.visit staged]) := hsound.visit hfits
    obtain ⟨hsound', hbatch, hentries, hevolves⟩ := ih (t.tracked staged).staged hvisit hpending'
    rw [List.append_assoc] at hsound'
    refine ⟨hsound', hbatch, ?_, (Ledger.evolves_visit hfits).trans hevolves⟩
    rw [visits, List.foldl_cons, hentries]
    show (L.visit _).entries ++ accepted turns = L.entries ++ (_ ++ accepted turns)
    rw [← List.append_assoc, ← hentries']
    rfl

/-- If no commit fails, nothing is ever missing from the ledger. -/
theorem complete_of_serves {c c' : Coordinator} {turns : List Turn} {L : Ledger}
    {earlier : List Visit} (staged : Bool) (hturns : Serves settings c turns c')
    (hsound : L.Sound earlier) (hpending : L.pending = c.batch) (hcomplete : L.Complete)
    (hstaged : L.pending ≠ [] → staged = true)
    (hunfailing : Ledger.Unfailing ((visits staged turns).flatMap Visit.commits)) :
    ((visits staged turns).foldl Ledger.visit L).Complete := by
  induction hturns generalizing L earlier staged with
  | idle c => exact hcomplete
  | @turn c between c' t turns hturn _ ih =>
    have hfits : Fits L.pending t.command (t.tracked staged).commits := by
      rw [hpending]
      exact fits_of_leads staged hturn
    have hended := ended_of_leads staged hturn
    rw [← hpending] at hended
    obtain ⟨hpending', -⟩ := Ledger.visit_ended hended
    have hvisit : (L.visit (t.visit staged)).Sound (earlier ++ [t.visit staged]) := hsound.visit hfits
    -- the commits of this turn are among all of them, and so are those of the later ones
    have hthis : Ledger.Unfailing (t.tracked staged).commits :=
      fun commit hcommit => hunfailing commit (List.mem_append_left _ hcommit)
    obtain ⟨hcomplete', hstaged'⟩ := Ledger.complete_ended hended hsound.backed hthis hcomplete hstaged
    refine ih (t.tracked staged).staged hvisit hpending' hcomplete' ?_
      fun commit hcommit => hunfailing commit (List.mem_append_right _ hcommit)
    intro hne
    rw [show (L.visit (t.visit staged)).pending = between.batch from hpending'] at hne
    exact hstaged' hne

theorem mem_talk_of_commit {turns : List Turn} {staged : Bool} {c : Commit}
    (h : c ∈ (visits staged turns).flatMap Visit.commits) :
    (⟨.commit c.message, c.answer⟩ : Exchange) ∈ talk turns := by
  induction turns generalizing staged with
  | nil => cases h
  | cons t turns ih =>
    rcases List.mem_append.mp h with hthis | hlater
    · rcases Tracked.mem_track hthis with hnone | hmem
      · cases hnone
      · exact List.mem_append_left _ hmem
    · exact List.mem_append_right _ (ih hlater)

/-- Every accepted change is accounted for, in every run and at every moment of it. The ledger has a
    line for each accepted change, in order; its pending lines are the batch; it is sound, also
    while the next command is under way; and no fate ever changes again. If version control never
    fails, and has nothing to commit only when nothing was staged since the last commit, then what
    the commits have listed, followed by the batch, is what was accepted. -/
theorem commit_ledger {c : Coordinator} {turns : List Turn} {command : Command} {log : List Exchange}
    {rest : Talk (Except CommandError command.Answer × Coordinator)}
    (hturns : Serves settings {} turns c) (hcommand : (submit settings now command c).Leads log rest) :
    (ledger turns).entries = accepted turns ∧
    (ledger turns).pending = c.batch ∧
    (ledger turns).Sound (visits false turns) ∧
    ((ledger turns).visit (stopped turns command log)).Sound
      (visits false turns ++ [stopped turns command log]) ∧
    (∀ earlier later, turns = earlier ++ later → (ledger earlier).Evolves (ledger turns)) ∧
    (ledger turns).Evolves ((ledger turns).visit (stopped turns command log)) ∧
    ((∀ x ∈ talk turns, x.trackerFails = false) →
      (∀ commit ∈ (visits false turns).flatMap Visit.commits, commit.answer = .ok none →
        commit.staged = false) →
      (ledger turns).listings ++ c.batch = accepted turns) := by
  obtain ⟨hsound, hbatch, hentries, -⟩ := sound_of_serves false hturns Ledger.sound_nil rfl
  have hfits : Fits (ledger turns).pending command (stopped turns command log).commits := by
    rw [show (ledger turns).pending = c.batch from hbatch]
    exact fits_of_leads _ hcommand
  refine ⟨hentries, hbatch, hsound, Ledger.Sound.visit hsound hfits, ?_, Ledger.evolves_visit hfits, ?_⟩
  · rintro earlier later rfl
    -- the later turns keep the ledger that the earlier ones have left
    obtain ⟨between, hearlier, hlater⟩ := hturns.of_append
    obtain ⟨hsound', hpending', -⟩ := sound_of_serves false hearlier Ledger.sound_nil rfl
    obtain ⟨-, -, -, hevolves⟩ :=
      sound_of_serves (stagedAfter false earlier) hlater hsound' hpending'
    have hledger : ledger (earlier ++ later)
        = (visits (stagedAfter false earlier) later).foldl Ledger.visit (ledger earlier) := by
      rw [ledger, visits_append, List.foldl_append]
      rfl
    rw [hledger]
    exact hevolves
  · intro hworks hnothing
    have hunfailing : Ledger.Unfailing ((visits false turns).flatMap Visit.commits) := by
      intro commit hcommit
      have hanswered := hworks _ (mem_talk_of_commit hcommit)
      cases hanswer : commit.answer with
      | error fault =>
        rw [hanswer] at hanswered
        cases hanswered
      | ok revision =>
        refine ⟨revision, rfl, ?_⟩
        rintro rfl
        exact hnothing commit hcommit hanswer
    have hcomplete := complete_of_serves false hturns Ledger.sound_nil rfl Ledger.complete_nil
      (fun hne => absurd rfl hne) hunfailing
    rw [← hbatch, ← show (ledger turns).entries = accepted turns from hentries]
    exact hcomplete

/-- Changes of two items that were listed, and one that waits while a flush is under way. -/
theorem commit_ledger_rehearsed :
    let commands := [(⟨1, 0⟩, .ingest [{ title := "Follow up" }, { title := "Clean up" }]),
      (⟨2, 0⟩, .merge "WRK-3" "WRK-2"), (⟨3, 0⟩, .flush), (⟨4, 0⟩, .ingest [{ title := "Wrap up" }])]
    let turns := rehearsedTurns {} {} .sample commands
    let between := rehearsedAfter {} {} .sample commands
    (ledger turns).listings ++ between.1.batch = accepted turns ∧
      (ledger turns).listings.map Batch.Entry.item = ["WRK-2", "WRK-3", "WRK-2"] ∧
      between.1.batch.map Batch.Entry.item = ["WRK-4"] ∧
      ((visits false turns).flatMap Visit.commits).map Commit.message
        = ["[phasekeep] batch: WRK-2, WRK-3\n\n- WRK-2: created\n- WRK-3: created\n"
          ++ "- WRK-2: absorbed WRK-3\n"] := by
  intro commands turns between
  have hworks : ∀ x ∈ talk turns, x.trackerFails = false := by decide +kernel
  have hnothing : ∀ commit ∈ (visits false turns).flatMap Visit.commits,
      commit.answer = .ok none → commit.staged = false := by decide +kernel
  have hturns : Serves {} {} turns between.1 := serves_rehearsedTurns {} {} .sample commands
  have hcommand := leads_rehearsed {} ⟨5, 0⟩ .flush between.1 between.2
  obtain ⟨-, -, -, -, -, -, hcomplete⟩ := commit_ledger hturns hcommand
  exact ⟨hcomplete hworks hnothing, by decide +kernel, by decide +kernel, by decide +kernel⟩

end Coordinator

end Backlog
