/-
  Commands that are accepted.

  Specification: in a store in which no call fails, a promotion or a phase completion that decides to
  go ahead is answered without an error (`accepts_promote`, `accepts_completePhase`), whatever version
  control does.  A command that decides against it is answered with an error in every store
  (`refuses_of_decide`).

  The check that a completion makes without the lock looks at the same things as the decision, so it
  lets everything through that the decision accepts.
-/
import Backlog.Proofs.Coordinator.Applied

namespace Backlog

open Script (Keeps Results)
open Talk (StoreTask)
open Talk.StoreTask (load save append ofExcept locked retire)

/-! ## A store that works -/

/-- The call of the store was carried out. -/
def Request.Succeeds : (q : Request) → q.Answer → Prop
  | .lock, answer | .save _, answer | .append _, answer => answer = .ok ()
  | .load, answer => ∃ items, answer = .ok items
  | .archivedIds, answer => ∃ known, answer = .ok known
  | .unlock, _ | .stage _, _ | .unstage _, _ | .stageStore, _ | .commit _, _ | .head, _ | .pause _, _
  | .note _, _ => True

/-- A store in which no call fails. -/
def Contents.works : Surroundings Contents := fun c q answer after =>
  Contents.Answers c q answer after ∧ q.Succeeds answer

/-- What such a store answers beside a version control that has nothing to commit, and what it holds
    then. -/
def Contents.serve : (q : Request) → Contents → q.Answer × Contents
  | .lock, c | .stage _, c | .unstage _, c | .stageStore, c => (.ok (), c)
  | .save items, c => (.ok (), c.replace items)
  | .append item, c => (.ok (), c.file (some item))
  | .load, c => (.ok c.active, c)
  | .archivedIds, c => (.ok (ids c.archive), c)
  | .commit _, c => (.ok none, c)
  | .head, c => (.ok none, c)
  | .unlock, c | .pause _, c | .note _, c => ((), c)

theorem Contents.works_serve (c : Contents) (q : Request) :
    Contents.works c q (Contents.serve q c).1 (Contents.serve q c).2 := by
  cases q with
  | load => exact ⟨⟨rfl, fun _ h => (Except.ok.inj h).symm⟩, _, rfl⟩
  | archivedIds => exact ⟨⟨rfl, fun _ h => (Except.ok.inj h).symm⟩, _, rfl⟩
  | _ => exact ⟨rfl, by trivial⟩

namespace Coordinator

variable {settings : Settings} {now : Stamp} {contents : Contents}

/-- The command can be accepted, and as long as no store call fails it is. -/
def Accepts (settings : Settings) (c : Coordinator) (command : Command) (contents : Contents) :
    Prop :=
  ∀ now,
    (∃ log answer c' after, (submit settings now command c).Leads log (.done (.ok answer, c')) ∧
      Contents.works.Takes contents log after) ∧
    ∀ log reply c' after, (submit settings now command c).Leads log (.done (reply, c')) →
      Contents.works.Takes contents log after → ∃ answer, reply = .ok answer

/-- Whatever the store answers, the command is not accepted. -/
def Refuses (settings : Settings) (c : Coordinator) (command : Command) (contents : Contents) :
    Prop :=
  ∀ now log reply c' after, (submit settings now command c).Leads log (.done (reply, c')) →
    Contents.Answers.Takes contents log after → ∃ e, reply = .error e

/-! ## Parts of commands -/

theorem keeps_works (contents : Contents) :
    Keeps Contents.works Request.Quiet fun c => c = contents := by
  rintro c q answer after hq hx rfl
  exact Contents.eq_of_answers_quiet (.inl hq) hx.1

/-- What is quiet leaves the store as it is. -/
theorem results_quiet {α : Type} {t : Talk α} (ht : t.Only Request.Quiet) :
    Results Contents.works t (fun _ after => after = contents) contents :=
  ht.ensures (keeps_works contents) (fun _ _ => trivial) rfl

/-- A transaction that decides to go ahead does. -/
theorem results_transact {α : Type} {d : Decision α}
    {decide : List Item → List String → Except CommandError (Decision α)}
    (hd : decide contents.active [] = .ok d) :
    Results Contents.works (transact false decide).run (fun ended _ => ended = .ok d.value)
      contents := by
  have hsave : ∀ c, Results Contents.works (do
      save d.items
      return d.value : StoreTask α).run (fun ended _ => ended = .ok d.value) c := by
    intro c
    refine ⟨trivial, fun answer after hx => ?_⟩
    obtain rfl : answer = .ok () := hx.2
    exact ⟨trivial, rfl⟩
  refine ⟨trivial, fun answer after hx => ?_⟩
  obtain ⟨items, rfl⟩ : ∃ items, answer = .ok items := hx.2
  obtain ⟨rfl, hitems⟩ := hx.1
  obtain rfl := hitems items rfl
  show Results Contents.works (do
    let d ← ofExcept (decide after.active [])
    retire d.retired
    save d.items
    return d.value : StoreTask α).run _ after
  rw [hd]
  -- what is retired is filed before the items are saved
  cases hretired : d.retired with
  | none =>
    show Results Contents.works (do
      retire d.retired
      save d.items
      return d.value : StoreTask α).run _ after
    rw [hretired]
    exact hsave after
  | some item =>
    show Results Contents.works (do
      retire d.retired
      save d.items
      return d.value : StoreTask α).run _ after
    rw [hretired]
    refine ⟨trivial, fun answer filed hx => ?_⟩
    obtain rfl : answer = .ok () := hx.2
    exact hsave filed

theorem results_transaction (command : Command) {head : Option String} {d : Decision command.Value}
    (hreads : command.readsArchive = false)
    (hd : command.decide settings now head contents.active [] = .ok d) :
    Results Contents.works (command.transaction settings now head)
      (fun result _ => result = .ok d.value) contents := by
  refine Talk.ensures_withRetries (keeps_works contents) (fun _ _ => trivial) ?_ rfl
  rintro c rfl
  refine Talk.ensures_locked trivial ?_ ?_
  · -- the lock is given, as no store call fails
    rintro fault after ⟨-, hlocked⟩
    cases hlocked
  · rintro held ⟨hsame, -⟩
    obtain rfl : held = c := hsame
    rw [hreads]
    refine (results_transact hd).mono ?_
    rintro ended after - rfl unlocked -
    exact ⟨trivial, rfl, by rintro _ ⟨⟩⟩

/-- A command that joins the batch is accepted if its transaction goes ahead. -/
theorem results_batched_ok {α β : Type} {batch : Batch} {answer : α → β} {entries : β → Batch}
    {transaction : Talk (Except CommandError α)} {value : α}
    (h : Results Contents.works transaction (fun result _ => result = .ok value) contents) :
    Results Contents.works (batched batch answer entries transaction)
      (fun p _ => ∃ a, p.1 = .ok a) contents := by
  refine Script.ensures_bind.mpr (h.mono ?_)
  rintro _ c - rfl
  have hquiet : Talk.stageStore.Only Request.Quiet :=
    Talk.only_stageStore (fun _ => trivial) trivial
  refine Script.ensures_bind.mpr ((results_quiet hquiet).mono ?_)
  rintro _ _ - -
  exact ⟨trivial, _, rfl⟩

/-- The check without the lock lets through what is running, and tells whether it is destructive. -/
theorem results_precheck {id phase : String} {item : Item} {pool : Pool}
    (hfound : contents.active.find? (fun i => i.id == id) = some item)
    (hpool : item.runningPool phase = .ok pool) :
    Results Contents.works (precheck settings id phase)
      (fun r after => after = contents ∧ r = .ok (settings.pipelines.isDestructive item)) contents := by
  rw [precheck_eq]
  refine Talk.ensures_withRetries (keeps_works contents) (fun _ _ => trivial) ?_ rfl
  rintro c rfl
  rw [run_look]
  refine ⟨trivial, fun answer after hx => ?_⟩
  obtain ⟨items, rfl⟩ : ∃ items, answer = .ok items := hx.2
  obtain ⟨rfl, hitems⟩ := hx.1
  obtain rfl := hitems items rfl
  have hruns : looked (runsPhase settings.pipelines id phase) (.ok after.active)
      = .ok (settings.pipelines.isDestructive item) := by
    simp only [looked, runsPhase, hfound, hpool]
    rfl
  show Results _ (.done (looked (runsPhase settings.pipelines id phase) (.ok after.active))) _ after
  rw [hruns]
  exact ⟨trivial, ⟨rfl, rfl⟩, by rintro _ ⟨⟩⟩

/-! ## Commands that are accepted -/

/-- What is accepted when it is carried out is accepted when it is submitted. -/
theorem accepts_of_perform {c : Coordinator} {command : Command} (hrunning : c.running = true)
    (h : ∀ now, Results Contents.works ((perform settings now command).run c.batch)
      (fun p _ => ∃ answer, p.1 = .ok answer) contents) :
    Accepts settings c command contents := by
  intro now
  have hresults : Results Contents.works (submit settings now command c)
      (fun p _ => ∃ answer, p.1 = .ok answer) contents := by
    unfold submit
    split
    · next hstopped =>
      rw [hrunning] at hstopped
      cases hstopped
    · refine Script.ensures_bind.mpr ((h now).mono ?_)
      rintro ⟨reply, batch⟩ state - ⟨answer, hreply⟩
      obtain rfl : reply = .ok answer := hreply
      exact ⟨trivial, answer, rfl⟩
  refine ⟨?_, fun log reply c' after hsubmit hworld => hresults.post_of_leads hsubmit hworld⟩
  -- one store that works is enough for a path, and its answers are among those above
  have hleads := Script.leads_exchanges Contents.serve (submit settings now command c) contents
  have htakes := Script.takes_exchanges id (fun s q => s.works_serve q)
    (submit settings now command c) contents
  obtain ⟨answer, hanswer⟩ := hresults.post_of_leads hleads htakes
  generalize (submit settings now command c).run Contents.serve contents = ended at *
  obtain ⟨⟨reply, c'⟩, after⟩ := ended
  obtain rfl : reply = .ok answer := hanswer
  exact ⟨_, answer, c', after, hleads, htakes⟩

/-- A promotion is accepted if that is what is decided. -/
theorem accepts_promote {c : Coordinator} {id : String} (hrunning : c.running = true)
    (hdecide : ∀ now, ∃ d,
      (Command.promote id).decide settings now none contents.active [] = .ok d) :
    Accepts settings c (.promote id) contents := by
  refine accepts_of_perform hrunning fun now => ?_
  obtain ⟨d, hd⟩ := hdecide now
  show Results Contents.works ((promote settings now id).run c.batch) _ contents
  rw [run_promote, mutate_eq]
  exact results_batched_ok (results_transaction (.promote id) rfl hd)

/-- A completion is accepted if that is what is decided on an item that is running the phase. -/
theorem accepts_completePhase {c : Coordinator} {run : PhaseRun} {item : Item} {pool : Pool}
    (hrunning : c.running = true)
    (hfound : contents.active.find? (fun i => i.id == run.item) = some item)
    (hpool : item.runningPool run.phase = .ok pool)
    (hdecide : ∀ now, ∃ d,
      (Command.completePhase run).decide settings now none contents.active [] = .ok d) :
    Accepts settings c (.completePhase run) contents := by
  refine accepts_of_perform hrunning fun now => ?_
  obtain ⟨d, hd⟩ := hdecide now
  have hnote : ∀ d, Request.Quiet (.note d) := fun _ => trivial
  show Results Contents.works ((completePhase settings now run).run c.batch) _ contents
  rw [run_completePhase]
  refine Script.ensures_bind.mpr ((results_precheck hfound hpool).mono ?_)
  rintro _ _ - ⟨rfl, rfl⟩
  refine Script.ensures_bind.mpr ((results_quiet (only_noteDifference hnote _ _)).mono ?_)
  rintro _ _ - rfl
  refine Script.ensures_bind.mpr
    ((results_quiet (only_flushAhead hnote (fun _ => trivial) run.destructive c.batch)).mono ?_)
  rintro ⟨⟨⟩, batch⟩ _ - rfl
  -- until here the store was only read, so the decision is made on the same items
  show Results Contents.works ((recordRun settings now run).run batch) _ _
  rw [run_recordRun]
  refine Script.ensures_bind.mpr ((results_quiet (only_stageArtifacts hnote trivial)).mono ?_)
  rintro staged _ - rfl
  rw [mutate_eq]
  refine Script.ensures_bind.mpr
    ((results_transaction (.completePhase run) rfl hd).mono ?_)
  rintro _ after - rfl
  refine Script.ensures_bind.mpr
    ((results_quiet (Talk.only_stageStore hnote trivial)).mono ?_)
  rintro _ _ - rfl
  refine Script.ensures_bind.mpr
    ((results_quiet (only_commitResult hnote (fun _ => trivial) trivial run _ batch)).mono ?_)
  rintro p _ - -
  exact ⟨trivial, _, rfl⟩

/-! ## Commands that are refused -/

/-- A command that never decides to go ahead is never accepted. -/
theorem refuses_of_decide {c : Coordinator} {command : Command} (hwrites : command.writes = true)
    (hdecide : ∀ now head archived d,
      command.decide settings now head contents.active archived ≠ .ok d) :
    Refuses settings c command contents := by
  intro now log reply c' after hsubmit hstore
  let t : Turn := { now, command, log, reply }
  have happlied : Applied settings now contents.active command reply after.active :=
    applied_of_leads (t := t) hsubmit hstore
  generalize after.active = items at happlied
  cases happlied with
  | @refused e => exact ⟨e, rfl⟩
  | unwritten hreads =>
    rw [hwrites] at hreads
    cases hreads
  | decided hd => exact absurd hd (hdecide _ _ _ _)

end Coordinator

end Backlog
