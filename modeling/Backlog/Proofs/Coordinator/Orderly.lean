/-
  The course of a command.

  Program: a command runs its transaction at most once.  Ahead of it, it may look at the items without
  the lock, and ask version control for things; after it, nothing is asked of the store any more.

  Specification: `Orderly` says just that, as an inductive shape of programs, and that the reply reports
  what came of the transaction.  Every command is `Orderly` (`orderly_submit`).

  The crux is that the shape speaks of no surroundings.  So the commands are gone through once, and
  what is proved of the shape holds of all of them, in every world and on every path.
-/
import Backlog.Proofs.Coordinator.Commands

namespace Backlog

open Talk (Stop StoreTask)

namespace Coordinator

variable {settings : Settings} {now : Stamp} {command : Command}

/-! ## Looks at the items -/

/-- A task that looks at the items and concludes something. -/
def look {α : Type} (f : List Item → Except CommandError α) : StoreTask α := do
  let items ← StoreTask.load
  StoreTask.ofExcept (f items)

/-- What it comes to. -/
def looked {α : Type} (f : List Item → Except CommandError α) :
    Except StoreFault (List Item) → Except Stop α
  | .error fault => .error (.ofFault fault)
  | .ok items => (f items).mapError .error

theorem run_look {α : Type} (f : List Item → Except CommandError α) :
    (look f).run = .ask .load fun answer => .done (looked f answer) := by
  refine congrArg (Script.ask Request.load) (funext fun answer => ?_)
  rcases answer with fault | items
  · rfl
  · show (StoreTask.ofExcept (f items)).run = .done ((f items).mapError .error)
    cases f items <;> rfl

theorem looked_ne_halted {α : Type} {f : List Item → Except CommandError α}
    (hf : ∀ items, f items ≠ .error .halted) (answer : Except StoreFault (List Item)) :
    looked f answer ≠ .error (.error .halted) := by
  rcases answer with fault | items
  · exact Talk.ended_ne_halted fault
  · intro h
    refine hf items ?_
    cases hitems : f items with
    | error e =>
      rw [looked, hitems] at h
      cases h
      rfl
    | ok a =>
      rw [looked, hitems] at h
      cases h

/-- What the check ahead of a completion concludes. -/
def runsPhase (set : Pipelines) (id phase : String) (items : List Item) : Except CommandError Bool :=
  match items.find? fun i => i.id == id with
  | none => .error (.itemNotFound id)
  | some item =>
    match item.runningPool phase with
    | .error reason => .error (.refused id reason)
    | .ok _ => .ok (set.isDestructive item)

theorem runsPhase_ne_halted (set : Pipelines) (id phase : String) (items : List Item) :
    runsPhase set id phase items ≠ .error .halted := by
  unfold runsPhase
  split
  · rintro ⟨⟩
  · split <;> rintro ⟨⟩

theorem precheck_eq (settings : Settings) (id phase : String) :
    precheck settings id phase = Talk.withRetries settings.retry "complete_phase"
      (look (runsPhase settings.pipelines id phase)) := by
  refine congrArg _ (bind_congr fun items => ?_)
  unfold runsPhase
  cases items.find? fun i => i.id == id with
  | none => rfl
  | some item =>
    have hpool : ∀ found : Except Refusal Pool,
        (match found with
          | .error reason => StoreTask.fail (.refused id reason)
          | .ok _ => return settings.pipelines.isDestructive item)
        = StoreTask.ofExcept (match found with
          | .error reason => .error (.refused id reason)
          | .ok _ => .ok (settings.pipelines.isDestructive item)) := by
      intro found
      cases found <;> rfl
    exact hpool (item.runningPool phase)

/-! ## Parts of commands and what they ask -/

section

variable {p : Request → Prop} (hnote : ∀ d, p (.note d))
include hnote

theorem only_warnUnknown (set : Pipelines) (types : List (Option String)) :
    (warnUnknown set types).Only p := by
  induction types with
  | nil => trivial
  | cons type types ih =>
    have hfirst : (if set.isKnown type then pure () else Talk.note .unknownPipeline).Only p := by
      split
      · trivial
      · exact Talk.only_note hnote _
    exact hfirst.bind fun _ => ih

theorem only_startRevision (hhead : p .head) (given : Option String) :
    (startRevision given).Only p := by
  cases given with
  | some text => trivial
  | none => exact Talk.only_head hnote hhead

theorem only_precheck (hpause : ∀ ms, p (.pause ms)) (hload : p .load) (id phase : String) :
    (precheck settings id phase).Only p := by
  rw [precheck_eq]
  refine Talk.only_withRetries hnote hpause ?_
  rw [run_look]
  exact ⟨hload, fun _ => trivial⟩

theorem only_noteDifference (configured reported : Bool) :
    (noteDifference configured reported).Only p := by
  unfold noteDifference
  split
  · trivial
  · exact Talk.only_note hnote _

theorem only_stageArtifacts {paths : List String} (hstage : p (.stage paths)) :
    (stageArtifacts paths).Only p := by
  unfold stageArtifacts
  split
  · trivial
  · exact Talk.only_stage hnote hstage

theorem only_unstageArtifacts {paths : List String} (hunstage : p (.unstage paths))
    (staged : Bool) : (unstageArtifacts staged paths).Only p := by
  cases staged with
  | false => trivial
  | true => exact Talk.only_unstage hnote hunstage

theorem only_noteMove (hhead : p .head) (phaseStart : Option String) :
    (noteMove phaseStart).Only p := by
  cases phaseStart with
  | none => trivial
  | some start =>
    have hmoved : (headMoved (some start)).Only p := (Talk.only_head hnote hhead).bind fun _ => trivial
    refine hmoved.bind fun moved => ?_
    cases moved with
    | false => trivial
    | true => exact Talk.only_note hnote _

theorem only_flush (hcommit : ∀ message, p (.commit message)) (batch : Batch) :
    (flush.run batch).Only p := by
  rw [run_flush]
  split
  · trivial
  · refine (Talk.only_commit hnote (hcommit _)).bind fun r => ?_
    cases r with
    | some revision => trivial
    | none => exact (Talk.only_note hnote _).bind fun _ => trivial

theorem only_flushAhead (hcommit : ∀ message, p (.commit message)) (destructive : Bool)
    (batch : Batch) : ((flushAhead destructive).run batch).Only p := by
  rw [run_flushAhead]
  split
  · exact (only_flush hnote hcommit batch).bind fun _ => trivial
  · trivial

theorem only_commitResult (hcommit : ∀ message, p (.commit message)) (hhead : p .head)
    (completion : PhaseRun) (recorded : Recorded) (batch : Batch) :
    ((commitResult completion recorded).run batch).Only p := by
  unfold commitResult
  cases completion.destructive with
  | false => trivial
  | true =>
    show ((commitAlone _ _ _).run batch).Only p
    rw [run_commitAlone]
    refine (only_noteMove hnote hhead _).bind fun _ => ?_
    refine (Talk.only_commit hnote (hcommit _)).bind fun r => ?_
    rcases r with _ | _ | revision
    · exact (Talk.only_note hnote _).bind fun _ => trivial
    · trivial
    · trivial

theorem only_noteError (e : CommandError) : (noteError e).Only p := by
  unfold noteError
  split
  · exact Talk.only_note hnote _
  · trivial

theorem yields_stop (batch : Batch) :
    (stop batch).Yields p fun c => c = { running := false, batch } := by
  unfold stop
  split
  · exact (Talk.only_note hnote _).bind_yields fun _ => rfl
  · exact rfl

/-- After an error the coordinator keeps the batch, and goes on unless the error is fatal. -/
theorem yields_recover (e : CommandError) (c : Coordinator) :
    (recover e c).Yields p fun c' => c' = { c with running := c.running && !e.isFatal } := by
  refine (only_noteError hnote e).bind_yields fun _ => ?_
  split
  · next hfatal =>
    refine (Talk.only_note hnote _).bind_yields fun _ => (yields_stop hnote c.batch).mono ?_
    rintro c' rfl
    rw [hfatal, Bool.not_true, Bool.and_false]
  · next hnot =>
    show c = { c with running := c.running && !e.isFatal }
    rw [Bool.not_eq_true _ |>.mp hnot, Bool.not_false, Bool.and_true]

end

/-! ## The shape of a command -/

/-- The reply is that no transaction was needed: an error, or an answer that gives out no IDs, of a
    command that writes nothing. -/
def Spared (command : Command) (reply : Except CommandError command.Answer) : Prop :=
  (∃ e, reply = .error e) ∨
    command.writes = false ∧ ∀ answer, reply = .ok answer → command.issued answer = []

/-- The program runs the transaction of the command at most once, and comes back to the store after
    no failing look at it, nor after the transaction. Its reply reports what became of them. -/
inductive Orderly (settings : Settings) (now : Stamp) (command : Command) {S : Type} :
    Talk (Except CommandError command.Answer × S) → Prop where
  | ends {reply : Except CommandError command.Answer} {s : S} :
      Spared command reply → reply ≠ .error .halted → Orderly settings now command (.done (reply, s))
  | outside {q : Request} {next : q.Answer → Talk (Except CommandError command.Answer × S)} :
      q.Outside → (∀ answer, Orderly settings now command (next answer)) →
      Orderly settings now command (.ask q next)
  | looks {next : Except StoreFault (List Item) → Talk (Except CommandError command.Answer × S)} :
      (∀ fault, fault.isTimeout = false → (next (.error fault)).Yields Request.Outside fun p =>
        p.1 = Talk.outcome command.operation (.error (.ofFault fault))) →
      (∀ answer, Orderly settings now command (next answer)) →
      Orderly settings now command (.ask .load next)
  | transacts (head : Option String)
      {k : Except CommandError command.Value → Talk (Except CommandError command.Answer × S)} :
      command.writes = true →
      (∀ result, (k result).Yields Request.Outside fun p => command.Reports head result p.1) →
      Orderly settings now command (command.transaction settings now head >>= k)

section

variable {S : Type} {s : Talk (Except CommandError command.Answer × S)}

theorem Orderly.of_yields
    (h : s.Yields Request.Outside fun p => Spared command p.1 ∧ p.1 ≠ .error .halted) :
    Orderly settings now command s := by
  induction s with
  | done p => exact .ends h.1 h.2
  | ask q next ih => exact .outside h.1 fun answer => ih answer (h.2 answer)

/-- Something else may come first, if it is none of the store. -/
theorem orderly_after {α : Type} {t : Talk α} {k : α → Talk (Except CommandError command.Answer × S)}
    (ht : t.Only Request.Outside) (hk : ∀ a, Orderly settings now command (k a)) :
    Orderly settings now command (t >>= k) := by
  induction t with
  | done a => exact hk a
  | ask q next ih => exact .outside ht.1 fun answer => ih answer (ht.2 answer)

/-- Something else may follow, if it is none of the store and leaves the reply. -/
theorem Orderly.bind {S' : Type} {k : Except CommandError command.Answer × S →
      Talk (Except CommandError command.Answer × S')}
    (h : Orderly settings now command s)
    (hk : ∀ reply x, (k (reply, x)).Yields Request.Outside fun p => p.1 = reply) :
    Orderly settings now command (s >>= k) := by
  induction h with
  | @ends reply x hspared hgoes =>
    refine .of_yields ((hk reply x).mono fun p hp => ?_)
    rw [hp]
    exact ⟨hspared, hgoes⟩
  | outside hq _ ih => exact .outside hq ih
  | looks hfault _ ih =>
    refine .looks (fun fault hnot => (hfault fault hnot).bind ?_) ih
    rintro ⟨reply, x⟩ hreply
    exact (hk reply x).mono fun p hp => hp.trans hreply
  | transacts head hwrites hk' =>
    rw [bind_assoc]
    refine .transacts head hwrites fun result => (hk' result).bind ?_
    rintro ⟨reply, x⟩ hreports
    refine (hk reply x).mono fun p hp => ?_
    rw [hp]
    exact hreports

/-- A look at the items without the lock may come first, if its failure is what is replied. -/
theorem orderly_look {α : Type} {f : List Item → Except CommandError α}
    {k : Except CommandError α → Talk (Except CommandError command.Answer × S)}
    (hf : ∀ items, f items ≠ .error .halted)
    (herror : ∀ e, (k (.error e)).Yields Request.Outside fun p => p.1 = .error e)
    (hok : ∀ a, Orderly settings now command (k (.ok a))) :
    Orderly settings now command (Talk.withRetries settings.retry command.operation (look f) >>= k) := by
  have hk : ∀ answer, Orderly settings now command
      (k (Talk.outcome command.operation (looked f answer))) := by
    intro answer
    have hgoes : Talk.outcome command.operation (looked f answer) ≠ .error .halted :=
      Talk.outcome_ne_halted (looked_ne_halted hf answer)
    cases hr : Talk.outcome command.operation (looked f answer) with
    | error e =>
      rw [hr] at hgoes
      refine .of_yields ((herror e).mono fun p he => ⟨.inl ⟨e, he⟩, ?_⟩)
      rw [he]
      exact fun h => hgoes (by cases h; rfl)
    | ok a => exact hok a
  have hfailed : ∀ fault, (k (Talk.outcome command.operation (.error (.ofFault fault)))).Yields
      Request.Outside fun p => p.1 = Talk.outcome command.operation (.error (.ofFault fault)) := by
    intro fault
    obtain ⟨e, he⟩ := Talk.outcome_error command.operation (.ofFault fault)
    rw [he, he]
    exact herror e
  unfold Talk.withRetries
  induction settings.retry.attempts - 1 with
  | zero =>
    rw [Talk.attempt, run_look]
    exact .looks (fun fault _ => hfailed fault) fun answer => hk _
  | succ more ih =>
    rw [Talk.attempt_eq, run_look]
    refine .looks (fun fault hnot => ?_) fun answer => ?_
    · -- any failure but for want of the lock ends it
      have hends : ∀ waitedMs, looked f (.error fault) ≠ .error (.error (.lockTimeout waitedMs)) :=
        Talk.ended_ne_lockTimeout hnot
      show (Talk.afterTry settings.retry.delayMs command.operation (look f) (more + 1)
        (looked f (.error fault)) >>= k).Yields Request.Outside _
      rw [Talk.afterTry_of_ne hends]
      exact hfailed fault
    · show Orderly settings now command (Talk.afterTry settings.retry.delayMs command.operation (look f)
        (more + 1) (looked f answer) >>= k)
      by_cases hbusy : ∃ waitedMs, looked f answer = .error (.error (.lockTimeout waitedMs))
      · obtain ⟨waitedMs, hwaited⟩ := hbusy
        rw [hwaited]
        exact .outside trivial fun _ => .outside trivial fun _ => ih
      · rw [Talk.afterTry_of_ne fun waitedMs h => hbusy ⟨waitedMs, h⟩]
        exact hk answer

end

/-! ## Every command -/

theorem outside_note (d : Diagnostic) : Request.Outside (.note d) := trivial

/-- A command that joins the batch replies what came of its transaction. -/
theorem orderly_batched {batch : Batch} {answer : command.Value → command.Answer}
    {entries : command.Answer → Batch} (head : Option String) (hwrites : command.writes = true)
    (htells : ∀ value, command.Tells head value (answer value)) :
    Orderly settings now command
      (batched batch answer entries (command.transaction settings now head)) := by
  refine .transacts head hwrites fun result => ?_
  cases result with
  | error e => exact rfl
  | ok value => exact (Talk.only_stageStore outside_note trivial).bind_yields fun _ => htells value

/-- A phase run is recorded in a transaction, with staging and perhaps a commit around it. -/
theorem orderly_recordRun (completion : PhaseRun) (batch : Batch) :
    Orderly settings now (.completePhase completion)
      ((recordRun settings now completion).run batch) := by
  rw [run_recordRun]
  refine orderly_after (only_stageArtifacts outside_note trivial) fun staged => ?_
  rw [mutate_eq]
  refine Orderly.transacts none rfl fun result => ?_
  rcases result with e | recorded
  · -- what was staged ahead is taken back
    exact (only_unstageArtifacts outside_note trivial staged).bind_yields fun _ => rfl
  · refine (Talk.only_stageStore outside_note trivial).bind_yields fun _ => ?_
    refine (only_commitResult outside_note (fun _ => trivial) trivial _ _ _).bind_yields fun _ => ?_
    exact ⟨rfl, rfl, rfl⟩

theorem orderly_completePhase (completion : PhaseRun) (batch : Batch) :
    Orderly settings now (.completePhase completion)
      ((completePhase settings now completion).run batch) := by
  rw [run_completePhase]
  rw [precheck_eq]
  refine orderly_look (runsPhase_ne_halted _ _ _) (fun _ => rfl) fun configured => ?_
  refine orderly_after (only_noteDifference outside_note _ _) fun _ => ?_
  refine orderly_after (only_flushAhead outside_note (fun _ => trivial) _ _) fun flushed => ?_
  exact orderly_recordRun completion flushed.2

theorem orderly_startPhase (id : String) (revision : Option String) (batch : Batch) :
    Orderly settings now (.startPhase id revision)
      ((startPhase settings now id revision).run batch) := by
  rw [run_startPhase]
  split
  · -- a revision that is none is refused before the store is asked for anything
    exact .ends (.inl ⟨_, rfl⟩) (by rintro ⟨⟩)
  · cases revision with
    | some text =>
      rw [startRevision, Script.pure_eq_done, Script.done_bind, mutate_eq]
      exact orderly_batched none rfl fun _ => rfl
    | none =>
      refine orderly_after (only_startRevision outside_note trivial none) fun head => ?_
      rw [mutate_eq]
      exact orderly_batched head rfl fun _ => rfl

theorem orderly_ingest (drafts : List Draft) (batch : Batch) :
    Orderly settings now (.ingest drafts) ((ingest settings now drafts).run batch) := by
  rw [run_ingest]
  split
  · next hempty =>
    refine .ends (.inr ⟨?_, ?_⟩) (by rintro ⟨⟩)
    · show (!drafts.isEmpty) = false
      rw [hempty]
      rfl
    · intro answer hanswer
      cases hanswer
      rfl
  · next hnonempty =>
    refine orderly_after (only_warnUnknown outside_note _ _) fun _ => ?_
    have hwrites : (Command.ingest drafts).writes = true := by
      show (!drafts.isEmpty) = true
      rw [Bool.not_eq_true _ |>.mp hnonempty]
      rfl
    exact orderly_batched none hwrites fun _ => rfl

theorem orderly_snapshot (batch : Batch) :
    Orderly settings now .snapshot ((perform settings now .snapshot).run batch) := by
  have hload : snapshot settings = Talk.withRetries settings.retry "get_snapshot" (look .ok) := by
    rw [snapshot, look]
    exact congrArg _ (bind_pure _).symm
  show Orderly settings now .snapshot (snapshot settings >>= fun r => pure (r, batch))
  rw [hload]
  exact orderly_look (by rintro items ⟨⟩) (fun _ => rfl) fun _ =>
    .ends (.inr ⟨rfl, fun _ _ => rfl⟩) (by rintro ⟨⟩)

/-- Every command is carried out like this. -/
theorem orderly_perform (command : Command) (batch : Batch) :
    Orderly settings now command ((perform settings now command).run batch) := by
  cases command with
  | snapshot => exact orderly_snapshot batch
  | update id updates =>
    show Orderly settings now (.update id updates) ((update settings now id updates).run batch)
    rw [run_update]
    refine orderly_after (only_warnUnknown outside_note _ _) fun _ => ?_
    rw [mutate_eq]
    exact orderly_batched none rfl fun _ => rfl
  | promote id =>
    show Orderly settings now (.promote id) ((promote settings now id).run batch)
    rw [run_promote, mutate_eq]
    exact orderly_batched none rfl fun _ => rfl
  | startPhase id revision => exact orderly_startPhase id revision batch
  | completePhase completion => exact orderly_completePhase completion batch
  | flush =>
    refine orderly_after (only_flush outside_note (fun _ => trivial) batch) fun p => ?_
    exact .ends (.inr ⟨rfl, fun _ _ => rfl⟩) (by rintro ⟨⟩)
  | archive id =>
    show Orderly settings now (.archive id) ((archive settings id).run batch)
    rw [run_archive]
    exact orderly_batched none rfl fun _ => trivial
  | ingest drafts => exact orderly_ingest drafts batch
  | merge source target =>
    show Orderly settings now (.merge source target) ((merge settings now source target).run batch)
    rw [run_merge]
    exact orderly_batched none rfl fun _ => trivial
  | unblock id context =>
    show Orderly settings now (.unblock id context) ((unblock settings now id context).run batch)
    rw [run_unblock, mutate_eq]
    exact orderly_batched none rfl fun _ => rfl

/-- And so it is served, unless the coordinator has halted: after an error nothing but diagnostics
    follows. -/
theorem orderly_submit (command : Command) {c : Coordinator} (hrunning : c.running = true) :
    Orderly settings now command (submit settings now command c) := by
  unfold submit
  split
  · next hhalted =>
    rw [hrunning] at hhalted
    cases hhalted
  · refine (orderly_perform command c.batch).bind fun reply batch => ?_
    cases reply with
    | ok answer => exact rfl
    | error e => exact (yields_recover outside_note e { c with batch }).bind fun _ _ => rfl

/-! ## Whether the coordinator goes on -/

/-- The reply is a fatal error. -/
def isFatalReply {α : Type} : Except CommandError α → Bool
  | .error e => e.isFatal
  | .ok _ => false

/-- The coordinator goes on after every reply but a fatal error. -/
theorem running_of_leads {c c' : Coordinator} {reply : Except CommandError command.Answer}
    {log : List Exchange} (h : (submit settings now command c).Leads log (.done (reply, c'))) :
    c'.running = (c.running && !isFatalReply reply) := by
  suffices hyields : (submit settings now command c).Yields (fun _ => True) fun p =>
      p.2.running = (c.running && !isFatalReply p.1) from (hyields.of_leads h).2
  unfold submit
  split
  · next hhalted =>
    show c.running = (c.running && !isFatalReply (Except.error (α := command.Answer) .halted))
    rw [(Bool.not_eq_true' _).mp hhalted, Bool.false_and]
  · refine Script.yields_of_true.bind fun ⟨reply, batch⟩ _ => ?_
    cases reply with
    | ok answer => exact (Bool.and_true _).symm
    | error e =>
      refine (yields_recover (fun _ => trivial) e { c with batch }).bind ?_
      rintro c' rfl
      exact rfl

/-- A coordinator that has halted does nothing any more. -/
theorem halted_of_leads {c c' : Coordinator} {reply : Except CommandError command.Answer}
    {log : List Exchange} (hhalted : c.running = false)
    (h : (submit settings now command c).Leads log (.done (reply, c'))) :
    log = [] ∧ reply = .error .halted ∧ c' = c := by
  unfold submit at h
  rw [hhalted] at h
  cases h
  exact ⟨rfl, rfl, rfl⟩

end Coordinator

end Backlog
