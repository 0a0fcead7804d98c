/-
  No update is lost.

  Specification: let the coordinator share its store with editors, whose steps may fall anywhere
  between its own.  An accepted command has saved once, and what it saved is what it decides on the
  items that were saved last, by whoever saved them.  A command that is refused has saved nothing.
  What a phase completion found before it took the lock does not matter: it is refused if the item
  that it loads under the lock does not allow it.

  The crux is that editors leave the store alone while the coordinator holds the lock, so that what
  a transaction has loaded is what the store still holds when it saves.  That the coordinator saves
  under the lock only is not assumed but proved (`Free`).
-/
import Backlog.Proofs.Coordinator.Rehearsed
import Backlog.Proofs.Coordinator.Section
import Backlog.Proofs.Store.Shared

namespace Backlog

open Script (Keeps)

/-! ## A shared store as a store -/

namespace Shared

variable {s : Shared} {steps steps' : List Step} {q : Request} {a : q.Answer}

/-- A call of the coordinator is answered as by a store that it has for itself. -/
theorem answers_afterOwn (hq : q.OnStore) (hallows : s.AllowsOwn ⟨q, a⟩) :
    Contents.Answers s.contents q a (s.afterOwn ⟨q, a⟩).contents ∧
      (s.afterOwn ⟨q, a⟩).holder = s.holder := by
  cases q with
  | load =>
    rcases a with fault | items
    · exact ⟨⟨rfl, fun _ h => nomatch h⟩, rfl⟩
    · refine ⟨⟨rfl, fun items' h => ?_⟩, rfl⟩
      cases h
      exact hallows
  | archivedIds =>
    rcases a with fault | known
    · exact ⟨⟨rfl, fun _ h => nomatch h⟩, rfl⟩
    · refine ⟨⟨rfl, fun known' h => ?_⟩, rfl⟩
      cases h
      exact hallows
  | save items => rcases a with fault | ⟨⟩ <;> exact ⟨rfl, rfl⟩
  | append item => rcases a with fault | ⟨⟩ <;> exact ⟨rfl, rfl⟩
  | _ => exact hq.elim

theorem afterOwn_of_quiet (hq : q.Quiet) : s.afterOwn ⟨q, a⟩ = s := by
  cases q with
  | lock => exact hq.elim
  | unlock => exact hq.elim
  | save items => exact hq.elim
  | append item => exact hq.elim
  | _ => rfl

/-- The coordinator does not hold the lock, and whenever it did not, it has saved nothing. -/
def Free (s : Shared) (steps : List Step) : Prop :=
  (s.run steps).holder ≠ some .coordinator ∧ carriedOut (s.calls false steps) = []

theorem Free.step (h : s.Free steps) (hx : s.world steps q a steps')
    (hq : q.Quiet ∨ q = .lock ∨ q = .unlock) :
    carriedOut (s.calls false steps') = [] ∧ s.calls true steps' = s.calls true steps := by
  obtain ⟨met, -, -, hheld, hloose⟩ := world_free hx h.1
  refine ⟨?_, hheld⟩
  rw [hloose, carriedOut_append, h.2, carriedOut_of_not_save hq]
  rfl

theorem Free.quiet (h : s.Free steps) (hx : s.world steps q a steps') (hq : q.Quiet) :
    s.Free steps' := by
  obtain ⟨met, hmet, hrun, -, -⟩ := world_free hx h.1
  refine ⟨?_, (h.step hx (.inl hq)).1⟩
  rw [hrun, afterOwn_of_quiet hq]
  exact hmet

theorem Free.busy {fault : StoreFault} (h : s.Free steps)
    (hx : s.world steps .lock (.error fault) steps') : s.Free steps' := by
  obtain ⟨met, hmet, hrun, -, -⟩ := world_free hx h.1
  refine ⟨?_, (h.step hx (.inr (.inl rfl))).1⟩
  rw [hrun]
  exact hmet

/-- While the coordinator holds the lock, it may count on the store. -/
def view (s : Shared) : View s.world where
  contents := fun steps => (s.run steps).contents
  calls := s.calls true
  Counts := fun steps =>
    (s.run steps).holder = some .coordinator ∧ carriedOut (s.calls false steps) = []
  step := by
    intro steps q a steps' hcounts hq hx
    obtain ⟨hallows, hrun, hheld, hloose⟩ := world_held hx hcounts.1
    obtain ⟨hanswers, hholder⟩ := answers_afterOwn hq hallows
    rw [hrun, hloose]
    exact ⟨⟨hholder.trans hcounts.1, hcounts.2⟩, hanswers, hheld⟩

theorem Free.locked (h : s.Free steps) (hx : s.world steps .lock (.ok ()) steps') :
    s.view.Counts steps' := by
  obtain ⟨met, -, hrun, -, -⟩ := world_free hx h.1
  refine ⟨?_, (h.step hx (.inr (.inl rfl))).1⟩
  rw [hrun]
  rfl

theorem free_of_unlock (h : s.view.Counts steps) (hx : s.world steps .unlock () steps') :
    s.Free steps' ∧ s.calls true steps' = s.calls true steps ++ [((s.run steps).contents, ⟨.unlock, ()⟩)] := by
  obtain ⟨-, hrun, hheld, hloose⟩ := world_held hx h.1
  refine ⟨⟨?_, ?_⟩, hheld⟩
  · have hrelease : s.run steps' = { s.run steps with holder := none } := by
      rw [hrun]
      exact if_pos h.1
    rw [hrelease]
    simp
  · rw [hloose]
    exact h.2

end Shared

namespace Coordinator

variable {settings : Settings} {now : Stamp} {command : Command} {head : Option String}

/-! ## One transaction -/

/-- The calls that a transaction has made so far, all tries included, neither have saved nor are a
    reason to refuse the command. -/
structure Pending (settings : Settings) (now : Stamp) (head : Option String) (command : Command)
    (calls : List Call) : Prop where
  nothing_saved : carriedOut calls = []
  not_refused : ∀ items ∈ loads calls, command.readsArchive = false →
    ∀ e, command.decide settings now head items [] ≠ .error e

/-- What the calls of a transaction have to do with its result: it saves once if it is accepted, what
    it decides on the items that the store held, and an error that it decides on is its result. -/
structure Concluded (settings : Settings) (now : Stamp) (head : Option String) (command : Command)
    (result : Except CommandError command.Value) (calls : List Call) : Prop where
  nothing_saved : ∀ e, result = .error e → carriedOut calls = []
  saved_once : ∀ value, result = .ok value → ∃ c d, carriedOut calls = [(c, d.items, true)] ∧
    command.decide settings now head c.active (ids c.archive) = .ok d ∧ d.value = value
  refused : ∀ items ∈ loads calls, command.readsArchive = false →
    ∀ e, command.decide settings now head items [] = .error e → result = .error e

theorem pending_nil : Pending settings now head command [] where
  nothing_saved := rfl
  not_refused := fun _ h => nomatch h

/-- What was decided is what is decided on the contents that the items are saved into. -/
theorem decide_file {met : Contents} {d : Decision command.Value}
    (hd : decision settings now head command met = .ok d) :
    command.decide settings now head (met.file d.retired).active (ids (met.file d.retired).archive)
      = .ok d := by
  cases hreads : command.readsArchive with
  | false =>
    rw [Contents.active_file, Command.decide_of_not_reads hreads _ _ (met.consulted command.readsArchive)]
    exact hd
  | true =>
    rw [Command.retired_eq_none hreads hd, Contents.file_none]
    rw [decision, hreads] at hd
    exact hd

/-- A try that went without a save, and in which nothing was decided or the command not refused. -/
theorem Pending.append {earlier calls : List Call} (h : Pending settings now head command earlier)
    (hsaves : carriedOut calls = [])
    (hloads : ∀ items ∈ loads calls, command.readsArchive = false →
      ∀ e, command.decide settings now head items [] ≠ .error e) :
    Pending settings now head command (earlier ++ calls) where
  nothing_saved := by
    rw [carriedOut_append, h.nothing_saved, hsaves]
    rfl
  not_refused := by
    intro items hitems
    rw [loads_append] at hitems
    rcases List.mem_append.mp hitems with hitems | hitems
    · exact h.not_refused items hitems
    · exact hloads items hitems

/-- A try that is to be made again, or fails for good. -/
theorem Pending.concluded {calls : List Call} {e : CommandError}
    (h : Pending settings now head command calls) :
    Concluded settings now head command (.error e) calls where
  nothing_saved := fun _ _ => h.nothing_saved
  saved_once := fun _ hvalue => nomatch hvalue
  refused := fun items hitems hreads e he => absurd he (h.not_refused items hitems hreads e)

theorem carriedOut_unlock {c : Contents} {calls : List Call} :
    carriedOut (calls ++ [(c, ⟨.unlock, ()⟩)]) = carriedOut calls := by
  rw [carriedOut_append]
  exact List.append_nil _

theorem loads_unlock {c : Contents} {calls : List Call} :
    loads (calls ++ [(c, ⟨.unlock, ()⟩)]) = loads calls := by
  rw [loads_append]
  exact List.append_nil _

theorem Pending.unlock {c : Contents} {calls : List Call}
    (h : Pending settings now head command calls) :
    Pending settings now head command (calls ++ [(c, ⟨.unlock, ()⟩)]) where
  nothing_saved := carriedOut_unlock.trans h.nothing_saved
  not_refused := by
    rw [loads_unlock]
    exact h.not_refused

theorem Concluded.unlock {c : Contents} {calls : List Call}
    {result : Except CommandError command.Value}
    (h : Concluded settings now head command result calls) :
    Concluded settings now head command result (calls ++ [(c, ⟨.unlock, ()⟩)]) where
  nothing_saved := by
    rw [carriedOut_unlock]
    exact h.nothing_saved
  saved_once := by
    rw [carriedOut_unlock]
    exact h.saved_once
  refused := by
    rw [loads_unlock]
    exact h.refused

/-- What is decided on the items of these contents, if the archive is not looked into. -/
theorem decision_of_not_reads {met : Contents} (hreads : command.readsArchive = false) :
    decision settings now head command met = command.decide settings now head met.active [] := by
  rw [decision, hreads]
  rfl

/-- However a try goes, its calls conclude the transaction as its result says; and if it ended for
    want of the lock, a further try may conclude it. -/
theorem concluded_of_section (operation : String) {earlier calls : List Call} {met c' : Contents}
    {ended : Except Talk.Stop command.Value} (h : Pending settings now head command earlier)
    (hsection : Section command.readsArchive (decision settings now head command met) met ended c'
      calls) :
    Concluded settings now head command (Talk.outcome operation ended) (earlier ++ calls) ∧
    ∀ waitedMs, ended = .error (.error (.lockTimeout waitedMs)) →
      Pending settings now head command (earlier ++ calls) := by
  -- a try that failed is concluded as soon as it is known to leave the matter pending
  have hpending : ∀ stop, ended = .error stop → Pending settings now head command (earlier ++ calls) →
      Concluded settings now head command (Talk.outcome operation ended) (earlier ++ calls) ∧
      ∀ waitedMs, ended = .error (.error (.lockTimeout waitedMs)) →
        Pending settings now head command (earlier ++ calls) := by
    intro stop hstop hpending
    obtain ⟨e, he⟩ := Talk.outcome_error operation stop
    rw [hstop, he]
    exact ⟨hpending.concluded, fun _ _ => hpending⟩
  -- what was loaded is what the store held, and on that the command was not refused
  have hloads : ∀ d, decision settings now head command met = .ok d → loads calls = [met.active] →
      ∀ items ∈ loads calls, command.readsArchive = false →
        ∀ e, command.decide settings now head items [] ≠ .error e := by
    intro d hd hloads items hitems hreads e he
    rw [hloads, List.mem_singleton] at hitems
    rw [hitems, ← decision_of_not_reads hreads, hd] at he
    cases he
  cases hsection with
  | unread hloads hsaves =>
    refine hpending _ rfl (h.append ?_ ?_)
    · rw [carriedOut, hsaves]; rfl
    · rw [hloads]
      rintro _ ⟨⟩
  | unconsulted hreads _ hsaves =>
    refine hpending _ rfl (h.append ?_ ?_)
    · rw [carriedOut, hsaves]; rfl
    · intro _ _ hnot
      rw [hreads] at hnot
      cases hnot
  | unfiled hd hloaded hsaves =>
    refine hpending _ rfl (h.append ?_ (hloads _ hd hloaded))
    rw [carriedOut, hsaves]; rfl
  | unsaved hd hloaded hsaves =>
    refine hpending _ rfl (h.append ?_ (hloads _ hd hloaded))
    rw [carriedOut, hsaves]; rfl
  | @refused e _ hd hloaded hsaves =>
    have hnothing : carriedOut (earlier ++ calls) = [] := by
      rw [carriedOut_append, h.nothing_saved, carriedOut, hsaves]; rfl
    constructor
    · refine ⟨fun _ _ => hnothing, fun _ hvalue => (by cases hvalue), ?_⟩
      intro items hitems hreads e' he'
      rw [loads_append, hloaded] at hitems
      rcases List.mem_append.mp hitems with hitems | hitems
      · exact absurd he' (h.not_refused items hitems hreads e')
      · rw [List.mem_singleton.mp hitems, ← decision_of_not_reads hreads, hd] at he'
        cases he'
        rfl
    · -- a refusal is never for want of the lock
      intro waitedMs hended
      cases hended
      refine h.append (by rw [carriedOut, hsaves]; rfl) ?_
      intro _ _ hreads
      rw [decision_of_not_reads hreads] at hd
      have hskip := Command.category_decide hreads hd
      cases hskip
  | @saved d _ hd hloaded hsaves =>
    constructor
    · refine ⟨fun _ herror => (by cases herror), ?_, ?_⟩
      · intro value hvalue
        cases hvalue
        refine ⟨_, d, ?_, decide_file hd, rfl⟩
        rw [carriedOut_append, h.nothing_saved, carriedOut, hsaves]
        rfl
      · intro items hitems hreads e he
        rw [loads_append] at hitems
        rcases List.mem_append.mp hitems with hitems | hitems
        · exact absurd he (h.not_refused items hitems hreads e)
        · exact absurd he (hloads d hd hloaded items hitems hreads e)
    · intro _ hended
      cases hended

/-! ## One command -/

/-- Around a command the coordinator does not hold the lock and has saved nothing without it.  Before
    its transaction it has made no call under the lock, and after it these calls conclude it. -/
theorem frame_shared (s : Shared) :
    Frame settings now command s.world (fun _ => True)
      (fun steps => s.Free steps ∧ s.calls true steps = [])
      (fun head result steps => s.Free steps ∧
        Concluded settings now head command result (s.calls true steps)) where
  keeps_before := by
    rintro steps q a steps' hq hx ⟨hfree, hcalls⟩
    exact ⟨hfree.quiet hx hq, (hfree.step hx (.inl hq)).2.trans hcalls⟩
  keeps_after := by
    rintro head result steps q a steps' hq hx ⟨hfree, hconcluded⟩
    rw [(hfree.step hx (.inl hq)).2]
    exact ⟨hfree.quiet hx hq, hconcluded⟩
  inv_before := fun _ _ => trivial
  inv_after := fun _ _ _ _ => trivial
  ensures_transaction := by
    rintro head steps ⟨hfree, hcalls⟩
    have hkeeps : Keeps s.world Request.Quiet fun steps =>
        s.Free steps ∧ Pending settings now head command (s.calls true steps) := by
      rintro steps q a steps' hq hx ⟨hfree, hpending⟩
      rw [(hfree.step hx (.inl hq)).2]
      exact ⟨hfree.quiet hx hq, hpending⟩
    refine Talk.ensures_withRetries hkeeps (fun _ _ => trivial) ?_
      ⟨hfree, hcalls ▸ pending_nil⟩
    rintro steps ⟨hfree, hpending⟩
    refine Talk.ensures_locked trivial (fun fault steps' hx => ?_) fun steps' hx => ?_
    · -- the lock was not free
      obtain ⟨e, he⟩ := Talk.outcome_error command.operation (.ofFault fault)
      rw [(hfree.step hx (.inr (.inl rfl))).2, he]
      exact ⟨trivial, ⟨hfree.busy hx, hpending.concluded⟩, fun _ _ => ⟨hfree.busy hx, hpending⟩⟩
    · have hcounts := hfree.locked hx
      rw [← (hfree.step hx (.inr (.inl rfl))).2] at hpending
      have htransact : (transact command.readsArchive (command.decide settings now head)).run.Ensures
          s.world (fun _ => True) (s.view.Ended (s.calls true steps') command.readsArchive
            (decision settings now head command (s.run steps').contents)
            (s.run steps').contents) steps' :=
        View.ensures_transact s.view hcounts fun _ _ _ => trivial
      refine htransact.mono fun ended held _ hended after hx => ?_
      obtain ⟨hcounts, calls, hcalls, hsection⟩ := hended
      obtain ⟨hfree, hmore⟩ := Shared.free_of_unlock hcounts hx
      obtain ⟨hconcluded, hagain⟩ := concluded_of_section command.operation hpending hsection
      rw [hmore, show s.calls true held = s.calls true steps' ++ calls from hcalls]
      exact ⟨trivial, ⟨hfree, hconcluded.unlock⟩, fun waitedMs h => ⟨hfree, (hagain waitedMs h).unlock⟩⟩

/-- What a command is settled with when editors come between. -/
theorem settled_of_legal {s : Shared} {steps : List Step} {c c' : Coordinator}
    {reply : Except CommandError command.Answer} (hstart : s.holder ≠ some .coordinator)
    (hlegal : s.Legal steps)
    (hcommand : (submit settings now command c).Leads (own steps) (.done (reply, c'))) :
    Settled command (fun steps => s.Free steps ∧ s.calls true steps = [])
      (fun head result steps => s.Free steps ∧
        Concluded settings now head command result (s.calls true steps)) reply steps := by
  obtain ⟨met, rest, rfl, hedits, htakes⟩ := Shared.takes_of_legal hlegal
  have hbegin : s.Free [] ∧ s.calls true [] = [] := ⟨⟨hstart, rfl⟩, rfl⟩
  have hsettled := ((frame_shared s).ensures_submit c hbegin).post_of_leads hcommand htakes
  -- what the editors do at the end changes none of it
  have hcalls : ∀ held, s.calls held (met ++ rest) = s.calls held met := by
    intro held
    rw [Shared.calls_append, Shared.calls_edits hedits, List.append_nil]
  have hfree : s.Free met → s.Free (met ++ rest) := by
    rintro ⟨hholder, hloose⟩
    refine ⟨?_, (hcalls false).symm ▸ hloose⟩
    rw [Shared.run_append]
    exact Shared.not_held_edits hholder hedits
  rcases hsettled with ⟨⟨hmet, hnone⟩, hreply⟩ | ⟨hwrites, head, result, ⟨hmet, hconcluded⟩, hreports⟩
  · exact .inl ⟨⟨hfree hmet, (hcalls true).trans hnone⟩, hreply⟩
  · exact .inr ⟨hwrites, head, result, ⟨hfree hmet, (hcalls true).symm ▸ hconcluded⟩, hreports⟩

/-! ## Every run -/

/-- Between two commands the coordinator does not hold the lock. -/
theorem not_held_of_serves {c₀ c : Coordinator} {turns : List Turn} {s : Shared}
    {steps : List Step} (hstart : s.holder ≠ some .coordinator) (hlegal : s.Legal steps)
    (hturns : Serves settings c₀ turns c) (hown : own steps = talk turns) :
    (s.run steps).holder ≠ some .coordinator := by
  induction hturns generalizing s steps with
  | idle c => exact Shared.not_held_edits hstart hown
  | @turn c between c' t turns hturn _ ih =>
    rw [talk_cons] at hown
    obtain ⟨first, second, rfl, hfirst, hsecond⟩ := List.filterMap_eq_append_iff.mp hown
    obtain ⟨hlegal₁, hlegal₂⟩ := Shared.legal_append.mp hlegal
    rw [← hfirst] at hturn
    have hmiddle : (s.run first).holder ≠ some .coordinator := by
      -- however the command was settled, it has given the lock back
      rcases settled_of_legal hstart hlegal₁ hturn with ⟨⟨hfree, -⟩, -⟩ | ⟨-, _, _, ⟨hfree, -⟩, -⟩
      · exact hfree.1
      · exact hfree.1
    rw [Shared.run_append]
    exact ih hmiddle hlegal₂ hsecond

/-- No update is lost, whatever editors do between the steps of the coordinator.  An accepted command
    that writes saves once, and what it saves is what it decides on the items that were saved last.
    Any other saves nothing.  And what a command loads under the lock is what was saved last: if it
    decides to refuse that, it is refused. -/
theorem no_lost_update {c₀ c c' : Coordinator} {turns : List Turn} {s : Shared}
    {before during : List Step} {reply : Except CommandError command.Answer}
    (hstart : s.holder ≠ some .coordinator) (hlegal : s.Legal (before ++ during))
    (hturns : Serves settings c₀ turns c) (hbefore : own before = talk turns)
    (hcommand : (submit settings now command c).Leads (own during) (.done (reply, c'))) :
    ∃ head,
      (∀ answer, reply = .ok answer → command.writes = true →
        ∃ (first : List Step) (d : Decision command.Value) (second : List Step),
          during = first ++ .own ⟨.save d.items, .ok ()⟩ :: second ∧
          (∀ step ∈ first ++ second, step.ownSave = none) ∧
          command.decide settings now head (lastSaved s.contents.active (before ++ first))
            (ids (s.run (before ++ first)).contents.archive) = .ok d ∧
          command.Tells head d.value answer) ∧
      ((∃ e, reply = .error e) ∨ command.writes = false → ∀ step ∈ during, step.ownSave = none) ∧
      (∀ first items second, during = first ++ .own ⟨.load, .ok items⟩ :: second →
        (s.run (before ++ first)).holder = some .coordinator →
        items = lastSaved s.contents.active (before ++ first) ∧
        (command.readsArchive = false → ∀ e,
          command.decide settings now head items [] = .error e → reply = .error e)) := by
  obtain ⟨hlegal₁, hlegal₂⟩ := Shared.legal_append.mp hlegal
  have hfree := not_held_of_serves hstart hlegal₁ hturns hbefore
  -- under the lock the store holds what was saved last
  have hloaded : ∀ first items second, during = first ++ .own ⟨.load, .ok items⟩ :: second →
      items = lastSaved s.contents.active (before ++ first) := by
    intro first items second hsplit
    rw [hsplit] at hlegal₂
    obtain ⟨-, hallows, -⟩ := Shared.legal_append.mp hlegal₂
    rw [← Shared.active_run, Shared.run_append]
    exact hallows
  rcases settled_of_legal hfree hlegal₂ hcommand with
    ⟨⟨hloose, hcalls⟩, hreply⟩ | ⟨hwrites, head, result, ⟨hloose, hconcluded⟩, hreports⟩
  · -- no transaction was run
    refine ⟨none, ?_, fun _ => ?_, ?_⟩
    · intro answer hanswer hwrites
      rcases hreply with ⟨e, he⟩ | ⟨hnot, -⟩
      · rw [he] at hanswer
        cases hanswer
      · rw [hnot] at hwrites
        cases hwrites
    · exact Shared.ownSave_eq_none (by rw [hcalls]; rfl) hloose.2
    · intro first items second hsplit hheld
      rw [Shared.run_append] at hheld
      have hmem := Shared.mem_loads_of_held second items hheld
      rw [← hsplit, hcalls] at hmem
      cases hmem
  · refine ⟨head, ?_, ?_, ?_⟩
    · -- it was accepted: its one save is the one that its calls tell of
      intro answer hanswer _
      rw [hanswer] at hreports
      rcases result with e | value
      · exact hreports.elim
      · obtain ⟨contents, d, hsaved, hd, rfl⟩ := hconcluded.saved_once value rfl
        obtain ⟨first, second, hsplit, hrun, hothers⟩ := Shared.split_of_saved_once hsaved hloose.2
        refine ⟨first, d, second, hsplit, hothers, ?_, hreports⟩
        rw [← Shared.active_run, Shared.run_append, hrun]
        exact hd
    · rintro (⟨e, he⟩ | hnot)
      · rw [he] at hreports
        rcases result with e' | value
        · exact Shared.ownSave_eq_none (hconcluded.nothing_saved e' rfl) hloose.2
        · exact hreports.elim
      · rw [hnot] at hwrites
        cases hwrites
    · intro first items second hsplit hheld
      refine ⟨hloaded first items second hsplit, fun hreads e he => ?_⟩
      rw [Shared.run_append] at hheld
      have hmem := Shared.mem_loads_of_held second items hheld
      rw [← hsplit] at hmem
      have hrefused := hconcluded.refused items hmem hreads e he
      rw [hrefused] at hreports
      rcases reply with e' | answer
      · exact congrArg _ hreports
      · exact hreports.elim

/-- An item that an editor adds. -/
def added : Item := Item.bare "WRK-2" "Follow up" ⟨1, 0⟩

/-- A store with a done item, and an editor that adds another one before the done one is archived. -/
def editedMeanwhile : List Step :=
  [.edit 0 .lock, .edit 0 (.save [Item.finished, added]), .edit 0 .unlock,
    .own ⟨.lock, .ok ()⟩, .own ⟨.load, .ok [Item.finished, added]⟩, .edit 0 .load,
    .own ⟨.append Item.finished, .ok ()⟩, .own ⟨.save [added], .ok ()⟩, .own ⟨.unlock, ()⟩,
    .own ⟨.stageStore, .ok ()⟩]

/-- The item that the editor has added stays. -/
theorem no_lost_update_archive :
    ∃ head first d second,
      editedMeanwhile = first ++ .own ⟨.save d.items, .ok ()⟩ :: second ∧
      (Command.archive "WRK-1").decide {} ⟨1, 0⟩ head (lastSaved [Item.finished] first)
        (ids ((Shared.mk ⟨[Item.finished], []⟩ none).run first).contents.archive) = .ok d := by
  let s : Shared := ⟨⟨[Item.finished], []⟩, none⟩
  have hlegal : s.Legal ([] ++ editedMeanwhile) :=
    ⟨rfl, rfl, trivial, rfl, rfl, trivial, trivial, trivial, trivial, trivial, trivial⟩
  have hcommand : (submit {} ⟨1, 0⟩ (.archive "WRK-1") {}).Leads (own editedMeanwhile)
      (.done (.ok (), { batch := [⟨"WRK-1", "archived"⟩] })) :=
    .step (.step (.step (.step (.step (.step (.stop _))))))
  obtain ⟨head, haccepted, -⟩ := no_lost_update (by simp [s]) hlegal (.idle _)
    rfl hcommand
  obtain ⟨first, d, second, hsplit, -, hd, -⟩ := haccepted () rfl rfl
  exact ⟨head, first, d, second, hsplit, hd⟩

end Coordinator

end Backlog
