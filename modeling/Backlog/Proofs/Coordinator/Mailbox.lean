/-
  The queue in front of a coordinator.

  Program: handles send commands into a queue of bounded length.  The coordinator takes the first one,
  serves it, and takes the next.  After a fatal error it closes the queue; what is in there, and what is
  sent from then on, is told that the coordinator has halted.

  Specification: commands are answered in the order of the queue.  One reply at most is a fatal error
  other than that; every command answered after it has asked nothing, and every one before it is
  carried out, and leaves nothing behind but in the store and version control if it ends in an error
  (`halts_once`).

  The crux is that the replies of any such run are those of a row of turns (`Runs.serves`), so the queue
  matters for their order alone.
-/
import Backlog.Proofs.Coordinator.Halting
import Backlog.Proofs.Coordinator.Rehearsed

namespace Backlog

namespace Coordinator

/-! ## The queue -/

/-- A command that a handle has sent, with a ticket for its reply. -/
structure Letter where
  ticket : Nat
  command : Command

/-- A coordinator with the queue in front of it. -/
structure Mailbox where
  coordinator : Coordinator := {}
  isOpen : Bool := true
  queue : List Letter := []

namespace Mailbox

/-- What can be seen of it. -/
inductive Event where
  /-- A command went into the queue. -/
  | sent (letter : Letter)
  /-- A command was taken out of the queue and answered. -/
  | answered (ticket : Nat) (t : Turn)
  /-- The queue was closed. -/
  | closed
  /-- A command was answered that found the queue closed. -/
  | refused (ticket : Nat) (t : Turn)

/-- One step of a handle or of the coordinator. -/
inductive Step (settings : Settings) (capacity : Nat) : Mailbox → Event → Mailbox → Prop where
  | send {m : Mailbox} {letter : Letter} : m.isOpen = true → m.queue.length < max capacity 1 →
      Step settings capacity m (.sent letter) { m with queue := m.queue ++ [letter] }
  | serve {m : Mailbox} {ticket : Nat} {t : Turn} {rest : List Letter} {after : Coordinator} :
      m.queue = ⟨ticket, t.command⟩ :: rest →
      (submit settings t.now t.command m.coordinator).Leads t.log (.done (t.reply, after)) →
      Step settings capacity m (.answered ticket t) { m with coordinator := after, queue := rest }
  | close {m : Mailbox} : m.coordinator.running = false →
      Step settings capacity m .closed { m with isOpen := false }
  | refuse {m : Mailbox} {ticket : Nat} {t : Turn} : m.isOpen = false →
      (submit settings t.now t.command m.coordinator).Leads t.log (.done (t.reply, m.coordinator)) →
      Step settings capacity m (.refused ticket t) m

/-- A run, with what is seen of it. -/
inductive Runs (settings : Settings) (capacity : Nat) : Mailbox → List Event → Mailbox → Prop where
  | stop (m : Mailbox) : Runs settings capacity m [] m
  | step {m between after : Mailbox} {e : Event} {events : List Event} :
      Step settings capacity m e between → Runs settings capacity between events after →
      Runs settings capacity m (e :: events) after

/-- The commands that were sent into the queue. -/
def sentIn (events : List Event) : List Letter :=
  events.filterMap fun
    | .sent letter => some letter
    | _ => none

/-- The commands from the queue that were answered. -/
def answeredIn (events : List Event) : List Letter :=
  events.filterMap fun
    | .answered ticket t => some ⟨ticket, t.command⟩
    | _ => none

/-- All replies, whether to commands from the queue or to others. -/
def repliesIn (events : List Event) : List Turn :=
  events.filterMap fun
    | .answered _ t | .refused _ t => some t
    | _ => none

variable {settings : Settings} {capacity : Nat} {m m' : Mailbox} {e : Event} {events : List Event}

/-! ## What a run keeps -/

/-- The queue keeps its order. -/
theorem Runs.queue (h : Runs settings capacity m events m') :
    m.queue ++ sentIn events = answeredIn events ++ m'.queue := by
  induction h with
  | stop m => exact List.append_nil _
  | @step m between after e events he _ ih =>
    cases he with
    | send hopen hroom =>
      show m.queue ++ (_ :: sentIn events) = answeredIn events ++ after.queue
      rw [← ih, List.append_assoc]
      rfl
    | serve hqueue ht =>
      show m.queue ++ sentIn events = _ :: (answeredIn events ++ after.queue)
      rw [← ih, hqueue]
      rfl
    | close => exact ih
    | refuse => exact ih

/-- The replies are those of turns, one after the other. -/
theorem Runs.serves (h : Runs settings capacity m events m') :
    Serves settings m.coordinator (repliesIn events) m'.coordinator := by
  induction h with
  | stop m => exact .idle _
  | step he _ ih =>
    cases he with
    | send => exact ih
    | serve hqueue ht => exact .turn ht ih
    | close => exact ih
    | refuse hclosed ht => exact .turn ht ih

/-- Only after the coordinator has halted is the queue closed. -/
def ClosedLate (m : Mailbox) : Prop := m.isOpen = false → m.coordinator.running = false

theorem Step.closedLate (h : Step settings capacity m e m') (hm : m.ClosedLate) : m'.ClosedLate := by
  cases h with
  | send => exact hm
  | serve hqueue ht =>
    intro hclosed
    show _ = false
    rw [running_of_leads ht, hm hclosed, Bool.false_and]
  | close hhalted => exact fun _ => hhalted
  | refuse => exact hm

/-- As long as the coordinator goes on, the queue is open and no command is refused. -/
theorem Runs.not_refused (h : Runs settings capacity m events m') (hm : m.ClosedLate)
    (hrunning : m'.coordinator.running = true) :
    m'.isOpen = true ∧ ∀ ticket t, Event.refused ticket t ∉ events := by
  induction h with
  | stop m =>
    refine ⟨?_, fun ticket t ht => (by cases ht)⟩
    rw [← Bool.not_eq_false]
    intro hclosed
    rw [hm hclosed] at hrunning
    cases hrunning
  | step he hrest ih =>
    obtain ⟨hopen, hnone⟩ := ih (he.closedLate hm) hrunning
    refine ⟨hopen, fun ticket t ht => ?_⟩
    rcases List.mem_cons.mp ht with rfl | ht
    · cases he with
      | refuse hclosed _ =>
        rw [running_of_serves hrest.serves, hm hclosed, Bool.false_and] at hrunning
        cases hrunning
    · exact hnone ticket t ht

/-! ## Working off the queue -/

/-- Whatever the surroundings answer, the commands in the queue are answered. -/
theorem worked_off {σ : Type} (answer : (q : Request) → σ → q.Answer × σ) (state : σ) (m : Mailbox) :
    ∃ events m' after, Runs settings capacity m events m' ∧ answeredIn events = m.queue ∧
      m'.queue = [] ∧
      Script.World.Takes (fun state q given after => answer q state = (given, after)) state
        (talk (repliesIn events)) after := by
  obtain ⟨c, isOpen, queue⟩ := m
  induction queue generalizing c state with
  | nil => exact ⟨[], _, state, .stop _, rfl, rfl, .stay _⟩
  | cons letter rest ih =>
    let s := submit settings ⟨0, 0⟩ letter.command c
    let t : Turn := ⟨⟨0, 0⟩, letter.command, s.exchanges answer state, (s.run answer state).1.1⟩
    obtain ⟨events, m', after, hruns, hanswered, hqueue, htakes⟩ :=
      ih (s.run answer state).2 (s.run answer state).1.2
    refine ⟨.answered letter.ticket t :: events, m', after, ?_, ?_, hqueue, ?_⟩
    · exact .step (.serve rfl (Script.leads_exchanges answer s state)) hruns
    · exact congrArg (letter :: ·) hanswered
    · exact Script.World.takes_append.mpr ⟨_, Script.takes_exchanges id (fun _ _ => rfl) s state, htakes⟩

/-! ## Halting -/

/-- A coordinator halts once, and for all.

    In every run of a coordinator behind its queue, the commands in the queue are answered in their
    order, whatever the surroundings answer, and at most one reply is a fatal error other than that the
    coordinator has halted.  After a fatal reply every command is told that, and nothing is asked for it.
    As long as no reply was fatal no command is refused, each is carried out and told what came of that,
    and one that ends in an error, if that is not fatal, leaves the coordinator running, and nothing
    behind but in the store and, if it is a completion, what it has asked of version control. -/
theorem halts_once {settings : Settings} {capacity : Nat} {events : List Event} {m : Mailbox}
    (h : Runs settings capacity {} events m) :
    sentIn events = answeredIn events ++ m.queue ∧
    (repliesIn events).countP Turn.halts ≤ 1 ∧
    (∀ first t second, repliesIn events = first ++ t :: second →
      (isFatalReply t.reply = true → ∀ u ∈ second, u.reply = .error .halted ∧ u.log = []) ∧
      ((∀ u ∈ first, isFatalReply u.reply = false) →
        t.reply ≠ .error .halted ∧
        ∃ c c', Serves settings {} first c ∧ Serves settings c' second m.coordinator ∧
          Carried settings t.now t.command c t.log t.reply c' ∧
          ∀ e, t.reply = .error e → e.isFatal = false → c'.running = true ∧
            ∀ {σ : Type} (W : Surroundings σ) (state after : σ), Still W →
              W.Takes state t.log after → Left W c state t.command c' after)) ∧
    ((∀ t ∈ repliesIn events, isFatalReply t.reply = false) →
      m.isOpen = true ∧ ∀ ticket t, Event.refused ticket t ∉ events) ∧
    ∀ {σ : Type} (answer : (q : Request) → σ → q.Answer × σ) (state : σ),
      ∃ more m' after, Runs settings capacity m more m' ∧ answeredIn more = m.queue ∧ m'.queue = [] ∧
        Script.World.Takes (fun s q given s' => answer q s = (given, s')) state
          (talk (repliesIn more)) after := by
  have hserves : Serves settings {} (repliesIn events) m.coordinator := h.serves
  refine ⟨h.queue, countP_halts hserves, ?_, ?_, fun answer state => worked_off answer state m⟩
  · intro first t second hsplit
    rw [hsplit] at hserves
    obtain ⟨c, hfirst, hrest⟩ := hserves.of_append
    cases hrest with
    | @turn _ c' _ _ _ ht hsecond =>
      refine ⟨fun hfatal => ?_, fun hnone => ?_⟩
      · have hhalted : c'.running = false := by
          rw [running_of_leads ht, hfatal, Bool.not_true, Bool.and_false]
        exact halted_of_serves hhalted hsecond
      · have hrunning : c.running = true := by
          rw [running_of_serves hfirst]
          exact List.all_eq_true.mpr fun u hu => by rw [hnone u hu]; rfl
        refine ⟨ne_halted_of_leads hrunning ht, c, c', hfirst, hsecond, carried_of_leads hrunning ht, ?_⟩
        intro e he hgoes
        rw [he] at ht
        refine ⟨?_, fun W state after hstill hworld => left_of_leads hstill ht hworld hgoes⟩
        rw [running_of_leads ht, hrunning, isFatalReply, hgoes]
        rfl
  · intro hnone
    have hrunning : m.coordinator.running = true := by
      rw [running_of_serves hserves]
      exact List.all_eq_true.mpr fun t ht => by rw [hnone t ht]; rfl
    exact h.not_refused (fun hclosed => (by cases hclosed)) hrunning

/-- The coordinator and the store after an item was to be archived that could not be saved. -/
def crashed : (Except CommandError Unit × Coordinator) × Rehearsal :=
  rehearsed {} ⟨1, 0⟩ (.archive "WRK-1") {} Rehearsal.sample.withoutSaves

/-- Two commands wait in the queue, the first one is answered with a fatal error, and a third comes too
    late. -/
def crashEvents : List Event :=
  [.sent ⟨1, .archive "WRK-1"⟩, .sent ⟨2, .snapshot⟩,
    .answered 1 (.rehearsed {} ⟨1, 0⟩ (.archive "WRK-1") {} Rehearsal.sample.withoutSaves), .closed,
    .answered 2 (.rehearsed {} ⟨2, 0⟩ .snapshot crashed.1.2 crashed.2),
    .refused 3 (.rehearsed {} ⟨3, 0⟩ .flush crashed.1.2 crashed.2)]

/-- A rehearsed turn as a step. -/
theorem step_rehearsed {ticket : Nat} {now : Stamp} {command : Command} {rest : List Letter}
    (r : Rehearsal) (hqueue : m.queue = ⟨ticket, command⟩ :: rest) :
    Step settings capacity m (.answered ticket (.rehearsed settings now command m.coordinator r))
      { m with coordinator := (rehearsed settings now command m.coordinator r).1.2, queue := rest } :=
  .serve hqueue (leads_rehearsed settings now command m.coordinator r)

theorem runs_crashEvents : Runs {} 64 {} crashEvents { coordinator := crashed.1.2, isOpen := false } :=
  .step (.send rfl (by decide)) <| .step (.send rfl (by decide)) <|
    .step (step_rehearsed _ rfl) <| .step (.close rfl) <| .step (step_rehearsed crashed.2 rfl) <|
    .step (.refuse rfl (leads_rehearsed {} ⟨3, 0⟩ .flush crashed.1.2 crashed.2)) (.stop _)

/-- A crash is the only fatal error of that run, and both other commands are told that the coordinator
    has halted. -/
theorem halts_once_crash :
    (repliesIn crashEvents).countP Turn.halts ≤ 1 ∧
    isFatalReply crashed.1.1 = true ∧
    (rehearsed {} ⟨2, 0⟩ .snapshot crashed.1.2 crashed.2).1.1 = .error .halted ∧
    rehearsedLog {} ⟨3, 0⟩ .flush crashed.1.2 crashed.2 = [] := by
  obtain ⟨-, hcount, hturns, -⟩ := halts_once runs_crashEvents
  have hfatal : isFatalReply crashed.1.1 = true := by decide +kernel
  obtain ⟨hafter, -⟩ := hturns [] _ _ rfl
  have hlater := hafter hfatal
  exact ⟨hcount, hfatal, (hlater _ List.mem_cons_self).1,
    (hlater _ (List.mem_cons_of_mem _ List.mem_cons_self)).2⟩

/-- Two items were promoted into their first phase, and nothing was committed yet. -/
def begun : Coordinator × Rehearsal :=
  rehearsedAfter {} {} {}
    [(⟨1, 0⟩, .ingest [{ title := "Add caching" }, { title := "Add paging" }]),
      (⟨2, 0⟩, .promote "WRK-1"), (⟨3, 0⟩, .promote "WRK-2")]

/-- The phase of the first item ran exclusively. -/
def exclusiveRun : PhaseRun := ⟨"WRK-1", "research", true, .complete, []⟩

/-- It is reported while the lock stays busy. -/
def exclusiveRefused : (Except CommandError Completion × Coordinator) × Rehearsal :=
  rehearsed {} ⟨4, 0⟩ (.completePhase exclusiveRun) begun.1 { begun.2 with lockFailures := 3 }

/-- A phase of the second item starts. -/
def secondStarted (c : Coordinator) (r : Rehearsal) :
    (Except CommandError (Option String) × Coordinator) × Rehearsal :=
  rehearsed {} ⟨5, 0⟩ (.startPhase "WRK-2" none) c r

/-- A command that is refused because the lock is busy, and leaves the store as it was, may still show
    in what a command on another item is answered: a commit was made ahead. -/
theorem refusal_may_show :
    ¬ ∀ (settings : Settings) (now now' : Stamp) (completion : PhaseRun) (id : String)
        (c : Coordinator) (r : Rehearsal) (times : Nat) (e : CommandError),
        let refused := rehearsed settings now (.completePhase completion) c
          { r with lockFailures := times }
        refused.1.1 = .error e → e.isFatal = false → completion.item ≠ id →
        refused.2.contents = r.contents → refused.2.lockFailures = r.lockFailures →
        (rehearsed settings now' (.startPhase id none) refused.1.2 refused.2).1.1
          = (rehearsed settings now' (.startPhase id none) c r).1.1 := by
  intro hsame
  have hactive : exclusiveRefused.2.active = begun.2.active := by decide +kernel
  have harchive : exclusiveRefused.2.archive = begun.2.archive := by decide +kernel
  have hcontents : exclusiveRefused.2.contents = begun.2.contents := by
    rw [Rehearsal.contents, hactive, harchive]
    rfl
  have hstarted : (secondStarted exclusiveRefused.1.2 exclusiveRefused.2).1.1
      = (secondStarted begun.1 begun.2).1.1 :=
    hsame {} ⟨4, 0⟩ ⟨5, 0⟩ exclusiveRun "WRK-2" begun.1 begun.2 3 (.lockTimeout 5) rfl rfl (by decide)
      hcontents (by decide +kernel)
  have hmade : (secondStarted exclusiveRefused.1.2 exclusiveRefused.2).1.1.toOption
      = some (some (Rehearsal.revision 1)) := by decide +kernel
  have hnone : (secondStarted begun.1 begun.2).1.1.toOption = some none := by decide +kernel
  rw [hstarted, hnone] at hmade
  cases hmade

end Mailbox

end Coordinator

end Backlog
